import AlarmPanel.Device.Run
import AlarmPanel.Proofs.Device.Ledger

namespace AlarmPanel.Device

variable {σ : Type} {p : Device σ → Prop} {d : Device σ} {o : Occurrence σ}

structure Numbered (d : Device σ) : Prop where
  cleared : Cleared d
  answered : ∀ a ∈ d.answers, a.1 < d.issued
  pending : ∀ t ∈ d.queue ++ d.waiting, t.number < d.issued

theorem numbered_start (c : DeviceConfig) (t : σ) (now : Nat) : Numbered (start c t now) where
  cleared := .of_running rfl
  answered _ h := by cases h
  pending _ h := by cases h

theorem mem_of_answerTo? {n : Nat} {a : Except PanelError Reading}
    (h : d.answerTo? n = some a) : (n, a) ∈ d.answers := by
  obtain ⟨x, hf, rfl⟩ := Option.map_eq_some_iff.mp h
  obtain rfl : x.1 = n := by simpa using List.find?_some hf
  exact List.mem_of_find?_eq_some hf

theorem Numbered.answerTo?_issued (h : Numbered d) : d.answerTo? d.issued = none := by
  rw [answerTo?, Option.map_eq_none_iff, List.find?_eq_none]
  intro a ha
  have hlt := h.answered a ha
  simp only [decide_eq_true_eq]
  omega

theorem Numbered.answerTo?_submit (h : Numbered d) (hf : d.isFinished = true) (q : Request) :
    (d.submit q).answerTo? d.issued = some (.error .disconnected) := by
  have hs : (d.submit q).answers = d.answers ++ [(d.issued, .error .disconnected)] := by
    rw [submit]
    exact congrArg Device.answers (if_pos hf)
  have hn := h.answerTo?_issued
  rw [answerTo?, Option.map_eq_none_iff] at hn
  rw [answerTo?, hs, List.find?_append, hn]
  simp

variable [Transport σ]

structure Lasting (p : Device σ → Prop) : Prop where
  turn : ∀ d, d.isReady = true → p d → p d.turn
  submit : ∀ d q, p d → p (d.submit q)
  cancel : ∀ d, p d → p d.cancel
  pause : ∀ d ms, p d → p { d with worker := d.worker.withNow ms }
  spin : ∀ d, p d → p { d with status := .spinning }

namespace Lasting

theorem runWithin (hl : Lasting p) (n : Nat) (hd : p d) : p (d.runWithin n) := by
  induction n generalizing d with
  | zero => exact hl.spin d hd
  | succ n ih =>
    rw [Device.runWithin]
    split
    case isTrue hr => exact ih (hl.turn d hr hd)
    case isFalse => exact hd

theorem run (hl : Lasting p) (hd : p d) : p d.run :=
  hl.runWithin _ hd

theorem runUntilWithin (hl : Lasting p) (t n : Nat) (hd : p d) : p (d.runUntilWithin t n) := by
  induction n generalizing d with
  | zero => exact hl.spin d hd
  | succ n ih =>
    rw [Device.runUntilWithin]
    split
    case isTrue hr => exact ih (hl.turn d hr hd)
    case isFalse =>
      split
      · exact ih (hl.pause d _ hd)
      · exact hl.pause d _ hd

theorem runUntil (hl : Lasting p) (t : Nat) (hd : p d) : p (d.runUntil t) :=
  hl.runUntilWithin t _ hd

theorem settleWithin (hl : Lasting p) (n : Nat) (hd : p d) : p (d.settleWithin n) := by
  induction n generalizing d with
  | zero => exact hl.spin d hd
  | succ n ih =>
    rw [Device.settleWithin]
    split
    case isTrue => exact hd
    case isFalse =>
      split
      case isTrue hr =>
        have ht := hl.turn d hr hd
        dsimp only
        split
        · exact ht
        · exact ih ht
      case isFalse => exact ih (hl.pause d _ hd)

theorem settle (hl : Lasting p) (hd : p d) : p d.settle :=
  hl.settleWithin _ hd

theorem happen (hl : Lasting p) (hd : p d)
    (hf : ∀ f, o = .line f → p { d with worker := d.worker.withTransport (f d.worker.transport) }) :
    p (d.happen o) := by
  cases o with
  | turn =>
    rw [Device.happen]
    split
    case isTrue hr => exact hl.turn d hr hd
    case isFalse => exact hd
  | submit q => exact hl.submit d q hd
  | cancel => exact hl.cancel d hd
  | wait ms => exact hl.pause d _ hd
  | line f => exact hf f rfl

end Lasting

theorem fst_of_answer? {x : Exchange σ} {a : Nat × Except PanelError Reading}
    (h : x.answer? = some a) : a.1 = x.ticket.number := by
  obtain ⟨r, -, rfl⟩ := Option.map_eq_some_iff.mp h
  rfl

theorem Numbered.happen (h : Numbered d) (o : Occurrence σ) : Numbered (d.happen o) := by
  have hb := balances h.cleared o
  have hasked : ∀ t ∈ d.queue ++ d.waiting ++ d.asking o, t.number < (d.happen o).issued := by
    intro t ht
    rw [hb.issued]
    rcases List.mem_append.mp ht with ht | ht
    · exact Nat.lt_add_right _ (h.pending t ht)
    · cases o with
      | submit q =>
        obtain rfl := List.mem_singleton.mp ht
        exact Nat.lt_succ_self _
      | turn | cancel | wait ms | line f => cases ht
  rw [hb.requests] at hasked
  simp only [List.mem_append] at hasked
  refine ⟨hb.cleared, fun a ha ↦ ?_, fun t ht ↦ hasked t (.inr (List.mem_append.mp ht))⟩
  rw [hb.answers] at ha
  simp only [List.mem_append, List.mem_filterMap, List.mem_map] at ha
  rcases ha with ((ha | ⟨x, hx, ha⟩) | ⟨t, ht, rfl⟩) | ⟨t, ht, rfl⟩
  · rw [hb.issued]
    exact Nat.lt_add_right _ (h.answered a ha)
  · rw [fst_of_answer? ha]
    exact hasked _ (.inl (.inl (.inl (List.mem_map_of_mem hx))))
  · exact hasked t (.inl (.inl (.inr ht)))
  · exact hasked t (.inl (.inr ht))

theorem lasting_numbered : Lasting (Numbered : Device σ → Prop) where
  turn d hr h := by
    have ht := h.happen .turn
    rwa [Device.happen, if_pos hr] at ht
  submit d q h := h.happen (.submit q)
  cancel d h := h.happen .cancel
  pause d _ h := ⟨h.cleared, h.answered, h.pending⟩
  spin d h := ⟨.of_running rfl, h.answered, h.pending⟩

end AlarmPanel.Device
