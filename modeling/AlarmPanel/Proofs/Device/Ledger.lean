import AlarmPanel.Proofs.Device.Course

namespace AlarmPanel

open Transport

variable {σ α : Type}

/-- A request that is served, with the worker as it starts on it. -/
structure Exchange (σ : Type) where
  ticket : Ticket
  worker : Worker σ

namespace Exchange

variable [Transport σ] (x : Exchange σ)

def outcome? : Option (Except PanelError Reading) :=
  Worker.answer? x.ticket.request x.worker

def answer? : Option (Nat × Except PanelError Reading) :=
  x.outcome?.map fun a ↦ (x.ticket.number, a)

def after : Worker σ :=
  stateOf (Worker.serve x.ticket.request x.worker)

def written [Recording σ] (x : Exchange σ) : List (List UInt8) :=
  x.after.sent.drop x.worker.sent.length

end Exchange

namespace Ticket

def closed (t : Ticket) : Nat × Except PanelError Reading :=
  (t.number, .error .channelClosed)

def refused (t : Ticket) : Nat × Except PanelError Reading :=
  (t.number, .error .disconnected)

end Ticket

namespace Device

variable {d d' : Device σ} {o : Occurrence σ} {os : List (Occurrence σ)} {t : Ticket}

def Cleared (d : Device σ) : Prop :=
  d.isFinished = true → d.queue = [] ∧ d.waiting = []

theorem Cleared.of_running (h : d.isFinished = false) : Cleared d := by
  intro hf
  cases h.symm.trans hf

variable [Transport σ]

def asking (d : Device σ) : Occurrence σ → List Ticket
  | .submit q => [⟨d.issued, q⟩]
  | .turn | .cancel | .wait _ | .line _ => []

def serving (d : Device σ) : Occurrence σ → List (Exchange σ)
  | .turn => if d.isReady ∧ d.cancelled = false then (d.queue.take 1).map (⟨·, d.worker⟩) else []
  | .submit _ | .cancel | .wait _ | .line _ => []

/-- The requests that are in the queue when the device stops. -/
def closing (d : Device σ) (o : Occurrence σ) : List Ticket :=
  if d.isFinished = false ∧ (d.happen o).isFinished then d.queue else []

/-- The requests that wait for room when the device stops, or come later. -/
def refusing (d : Device σ) (o : Occurrence σ) : List Ticket :=
  if d.isFinished then d.asking o else if (d.happen o).isFinished then d.waiting else []

def along (f : Device σ → Occurrence σ → List α) : Device σ → List (Occurrence σ) → List α
  | _, [] => []
  | d, o :: os => f d o ++ along f (d.happen o) os

structure Balances (d : Device σ) (o : Occurrence σ) : Prop where
  requests : d.queue ++ d.waiting ++ d.asking o =
    (d.serving o).map Exchange.ticket ++ d.closing o ++ d.refusing o ++
      ((d.happen o).queue ++ (d.happen o).waiting)
  answers : (d.happen o).answers = d.answers ++ (d.serving o).filterMap Exchange.answer? ++
    (d.closing o).map Ticket.closed ++ (d.refusing o).map Ticket.refused
  issued : (d.happen o).issued = d.issued + (d.asking o).length
  cleared : Cleared (d.happen o)
  spins : ∀ x ∈ d.serving o, x.outcome? = none → (d.happen o).status = .spinning

theorem closing_of_running (h : (d.happen o).isFinished = false) : d.closing o = [] := by
  rw [closing, if_neg (by simp [h])]

theorem refusing_of_running (hd : d.isFinished = false) (h : (d.happen o).isFinished = false) :
    d.refusing o = [] := by
  rw [refusing, if_neg (by simp [hd]), if_neg (by simp [h])]

theorem Balances.of_rests (hc : Cleared d) (ha : d.asking o = []) (hs : d.serving o = [])
    (h : Rests d (d.happen o)) : Balances d o := by
  have hf : (d.happen o).isFinished = d.isFinished := by rw [isFinished, isFinished, h.status]
  have hcl : d.closing o = [] := by
    rw [closing, hf, if_neg]
    cases d.isFinished <;> simp
  have hrf : d.refusing o = [] := by
    cases hd : d.isFinished with
    | true => rw [refusing, if_pos hd, ha]
    | false => exact refusing_of_running hd (hf.trans hd)
  refine ⟨?_, ?_, ?_, fun hd ↦ ?_, ?_⟩
  · simp [ha, hs, hcl, hrf, h.pending]
  · simp [hs, hcl, hrf, h.answers]
  · simp [ha, h.issued]
  · obtain ⟨hq, hw⟩ := hc (hf ▸ hd)
    have hp := h.pending
    rw [hq, hw] at hp
    exact List.append_eq_nil_iff.mp hp
  · simp [hs]

theorem Balances.of_stop {w : Worker σ} (hd : d.isFinished = false) (ha : d.asking o = [])
    (hs : d.serving o = []) (h : d.happen o = stop { d with worker := w }) : Balances d o := by
  have hf : (d.happen o).isFinished = true := by rw [h]; rfl
  have hcl : d.closing o = d.queue := by rw [closing, if_pos ⟨hd, hf⟩]
  have hrf : d.refusing o = d.waiting := by rw [refusing, if_neg (by simp [hd]), if_pos hf]
  refine ⟨?_, ?_, ?_, ?_, ?_⟩
  · simp [ha, hs, hcl, hrf, h, stop]
  · simp only [hs, hcl, hrf, h, stop, List.filterMap_nil, List.append_nil]
    rfl
  · simp [ha, h, stop]
  · rw [h]
    exact fun _ ↦ ⟨rfl, rfl⟩
  · simp [hs]

theorem balances_submit (hc : Cleared d) (q : Request) : Balances d (.submit q) := by
  cases hd : d.isFinished with
  | true =>
    obtain ⟨hq, hw⟩ := hc hd
    have he : d.happen (.submit q) =
        answer { d with issued := d.issued + 1 } d.issued (.error .disconnected) := by
      rw [happen, submit]
      exact if_pos hd
    have hcl : d.closing (.submit q) = [] := by rw [closing, if_neg (by simp [hd])]
    have hrf : d.refusing (.submit q) = [⟨d.issued, q⟩] := by rw [refusing, if_pos hd, asking]
    refine ⟨?_, ?_, ?_, ?_, ?_⟩
    · simp [asking, serving, hcl, hrf, he, answer, hq, hw]
    · simp [serving, hcl, hrf, he, answer, Ticket.refused]
    · rw [he]
      rfl
    · rw [he]
      exact hc
    · simp [serving]
  | false =>
    have he : d.happen (.submit q) =
        moveUp { d with issued := d.issued + 1, waiting := d.waiting ++ [⟨d.issued, q⟩] } := by
      rw [happen, submit]
      exact if_neg (by simpa [isFinished] using hd)
    have hf : (d.happen (.submit q)).isFinished = false := by rw [he]; exact hd
    have hm := rests_moveUp { d with issued := d.issued + 1, waiting := d.waiting ++ [⟨d.issued, q⟩] }
    rw [← he] at hm
    refine ⟨?_, ?_, ?_, .of_running hf, ?_⟩
    · simp [asking, serving, closing_of_running hf, refusing_of_running hd hf, hm.pending]
    · simp [serving, closing_of_running hf, refusing_of_running hd hf, hm.answers]
    · rw [hm.issued]
      rfl
    · simp [serving]

theorem balances_serve {q : List Ticket} (hr : d.isReady = true) (hc : d.cancelled = false)
    (hq : d.queue = t :: q) (h : d.happen .turn = serve { d with queue := q } t) :
    Balances d .turn := by
  have hrun := running_of_isReady hr
  have hd : d.isFinished = false := by simp [isFinished, hrun]
  have hf : (d.happen .turn).isFinished = false := by
    have hne := status_serve_ne_finished (d := { d with queue := q }) t hrun
    rw [← h] at hne
    simpa [isFinished] using hne
  have hs : d.serving .turn = [⟨t, d.worker⟩] := by
    rw [serving, if_pos ⟨hr, hc⟩, hq]
    rfl
  have hcl := closing_of_running hf
  have hrf := refusing_of_running hd hf
  cases ha : Worker.answer? t.request d.worker with
  | some a =>
    have hm := serve_of_answer (d := { d with queue := q }) ha
    rw [← h] at hm
    refine ⟨?_, ?_, hm.issued, .of_running hf, ?_⟩
    · simp [asking, hs, hcl, hrf, hq, hm.pending, answer]
    · have hx : (⟨t, d.worker⟩ : Exchange σ).answer? = some (t.number, a) := by
        rw [Exchange.answer?, Exchange.outcome?, ha]
        rfl
      simp [hs, hcl, hrf, hm.answers, answer, hx]
    · intro x hx hn
      obtain rfl : x = ⟨t, d.worker⟩ := by simpa [hs] using hx
      cases ha.symm.trans hn
  | none =>
    have hm := h.trans (serve_of_none (d := { d with queue := q }) ha)
    refine ⟨?_, ?_, ?_, .of_running hf, fun x _ _ ↦ ?_⟩
    · simp [asking, hs, hcl, hrf, hq, hm]
    · have hx : (⟨t, d.worker⟩ : Exchange σ).answer? = none := by
        rw [Exchange.answer?, Exchange.outcome?, ha]
        rfl
      simp [hs, hcl, hrf, hm, hx]
    · rw [hm]
      rfl
    · rw [hm]

theorem balances_turn (hc : Cleared d) : Balances d .turn := by
  by_cases hr : d.isReady = true
  · have hrun := running_of_isReady hr
    have hd : d.isFinished = false := by simp [isFinished, hrun]
    have hh : d.happen .turn = d.turn := by rw [happen, if_pos hr]
    obtain ⟨hx, ht⟩ | ⟨t, q, hx, hq, ht⟩ | ⟨hx, hq, ht⟩ := d.turn_inv
    · exact .of_stop hd rfl (by simp [serving, hx]) (hh.trans ht)
    · exact balances_serve hr hx hq (hh.trans ht)
    · have hs : d.serving .turn = [] := by simp [serving, hq]
      rcases d.listen_inv with he | ⟨he, -⟩
      · exact .of_stop hd rfl hs (hh.trans (ht.trans he))
      · exact .of_rests hc rfl hs (by rw [hh, ht]; exact he)
  · have hh : d.happen .turn = d := by rw [happen, if_neg hr]
    exact .of_rests hc rfl (by simp [serving, hr]) (by rw [hh]; exact ⟨rfl, rfl, rfl, rfl⟩)

theorem balances (hc : Cleared d) (o : Occurrence σ) : Balances d o := by
  cases o with
  | turn => exact balances_turn hc
  | submit q => exact balances_submit hc q
  | cancel | wait ms | line f => exact .of_rests hc rfl rfl ⟨rfl, rfl, rfl, rfl⟩

theorem fst_answers_sublist (xs : List (Exchange σ)) :
    ((xs.filterMap Exchange.answer?).map Prod.fst).Sublist
      ((xs.map Exchange.ticket).map Ticket.number) := by
  induction xs with
  | nil => exact .slnil
  | cons x xs ih =>
    cases hx : x.outcome? with
    | none =>
      have ha : x.answer? = none := by rw [Exchange.answer?, hx]; rfl
      rw [List.filterMap_cons_none ha]
      exact .cons _ ih
    | some a =>
      have ha : x.answer? = some (x.ticket.number, a) := by rw [Exchange.answer?, hx]; rfl
      rw [List.filterMap_cons_some ha]
      exact .cons_cons _ ih

theorem fst_answers {xs : List (Exchange σ)} (h : ∀ x ∈ xs, ∃ a, x.outcome? = some a) :
    (xs.filterMap Exchange.answer?).map Prod.fst = (xs.map Exchange.ticket).map Ticket.number := by
  induction xs with
  | nil => rfl
  | cons x xs ih =>
    obtain ⟨a, hx⟩ := h x List.mem_cons_self
    have ha : x.answer? = some (x.ticket.number, a) := by rw [Exchange.answer?, hx]; rfl
    rw [List.filterMap_cons_some ha, List.map_cons, ih fun y hy ↦ h y (List.mem_cons_of_mem _ hy)]
    rfl

theorem fst_closed (ts : List Ticket) : (ts.map Ticket.closed).map Prod.fst = ts.map Ticket.number := by
  rw [List.map_map]
  rfl

theorem fst_refused (ts : List Ticket) :
    (ts.map Ticket.refused).map Prod.fst = ts.map Ticket.number := by
  rw [List.map_map]
  rfl

theorem cleared_course (hc : Cleared d) (os : List (Occurrence σ)) : Cleared (d.course os) := by
  refine course_induction hc ?_
  intro o _ d' hd
  exact (balances hd o).cleared

theorem along_eq_nil {f : Device σ → Occurrence σ → List α} {p : Device σ → Prop} (h : p d)
    (hf : ∀ d o, p d → f d o = [] ∧ p (d.happen o)) (os : List (Occurrence σ)) :
    along f d os = [] := by
  induction os generalizing d with
  | nil => rfl
  | cons o os ih =>
    obtain ⟨he, hn⟩ := hf d o h
    rw [along, he, ih hn, List.append_nil]

theorem forall_along {f : Device σ → Occurrence σ → List α} {p : Device σ → Prop} {q : α → Prop}
    (h : p d) (hs : ∀ o ∈ os, ∀ d, p d → p (d.happen o) ∧ ∀ x ∈ f d o, q x) :
    ∀ x ∈ along f d os, q x := by
  induction os generalizing d with
  | nil => simp [along]
  | cons o os ih =>
    obtain ⟨hn, hq⟩ := hs o List.mem_cons_self d h
    intro x hx
    rcases List.mem_append.mp hx with hx | hx
    · exact hq x hx
    · exact ih hn (fun o' ho ↦ hs o' (List.mem_cons_of_mem _ ho)) x hx

theorem along_serving_of_isFinished (h : d.isFinished = true) (os : List (Occurrence σ)) :
    along serving d os = [] := by
  refine along_eq_nil (p := fun d ↦ d.isFinished = true) h ?_ os
  intro d o h
  have hr : ¬ d.isReady = true := not_isReady_of_isFinished h
  refine ⟨?_, (log_happen_of_isFinished h o).1⟩
  cases o <;> simp [serving, hr]

theorem along_closing_of_isFinished (h : d.isFinished = true) (os : List (Occurrence σ)) :
    along closing d os = [] := by
  refine along_eq_nil (p := fun d ↦ d.isFinished = true) h ?_ os
  intro d o h
  refine ⟨?_, (log_happen_of_isFinished h o).1⟩
  rw [closing, if_neg (by simp [h])]

theorem turned_away_of_running (h : (d.happen o).isFinished = false) :
    d.closing o = [] ∧ d.refusing o = [] := by
  have hd : d.isFinished = false := by
    cases hd : d.isFinished with
    | false => rfl
    | true => cases h.symm.trans (log_happen_of_isFinished hd o).1
  exact ⟨closing_of_running h, refusing_of_running hd h⟩

theorem turned_away_course (h : (d.course os).isFinished = false) :
    along closing d os = [] ∧ along refusing d os = [] := by
  induction os generalizing d with
  | nil => exact ⟨rfl, rfl⟩
  | cons o os ih =>
    have hf : (d.happen o).isFinished = false := by
      cases hf : (d.happen o).isFinished with
      | false => rfl
      | true =>
        have hc : ((d.happen o).course os).isFinished = true :=
          course_induction (p := fun d ↦ d.isFinished = true) hf fun o _ d hd ↦
            (log_happen_of_isFinished hd o).1
        cases h.symm.trans hc
    obtain ⟨hcl, hrf⟩ := turned_away_of_running hf
    obtain ⟨hcl', hrf'⟩ := ih h
    rw [along, along, hcl, hrf, hcl', hrf']
    exact ⟨rfl, rfl⟩

theorem requests_course (hc : Cleared d) (os : List (Occurrence σ)) :
    d.queue ++ d.waiting ++ along asking d os =
      (along serving d os).map Exchange.ticket ++ along closing d os ++ along refusing d os ++
        ((d.course os).queue ++ (d.course os).waiting) := by
  induction os generalizing d with
  | nil => simp [along, course]
  | cons o os ih =>
    have hb := balances hc o
    have ih' := ih hb.cleared
    have hd : d.course (o :: os) = (d.happen o).course os := rfl
    rw [along, ← List.append_assoc, hb.requests, List.append_assoc, ih', hd]
    cases hf : (d.happen o).isFinished with
    | true =>
      simp [along, along_serving_of_isFinished hf, along_closing_of_isFinished hf]
    | false =>
      obtain ⟨hcl, hrf⟩ := turned_away_of_running hf
      simp [along, hcl, hrf]

theorem answers_course (hc : Cleared d) (os : List (Occurrence σ)) :
    (d.course os).answers = d.answers ++ ((along serving d os).filterMap Exchange.answer? ++
      (along closing d os).map Ticket.closed ++ (along refusing d os).map Ticket.refused) := by
  induction os generalizing d with
  | nil => simp [along, course]
  | cons o os ih =>
    have hb := balances hc o
    have hd : d.course (o :: os) = (d.happen o).course os := rfl
    rw [hd, ih hb.cleared, hb.answers]
    cases hf : (d.happen o).isFinished with
    | true =>
      simp [along, along_serving_of_isFinished hf, along_closing_of_isFinished hf]
    | false =>
      obtain ⟨hcl, hrf⟩ := turned_away_of_running hf
      simp [along, hcl, hrf]

theorem issued_course (hc : Cleared d) (os : List (Occurrence σ)) :
    (d.course os).issued = d.issued + (along asking d os).length := by
  induction os generalizing d with
  | nil => rfl
  | cons o os ih =>
    have hb := balances hc o
    have hd : d.course (o :: os) = (d.happen o).course os := rfl
    rw [hd, ih hb.cleared, hb.issued, along, List.length_append, Nat.add_assoc]

theorem numbers_asking (hc : Cleared d) (os : List (Occurrence σ)) :
    (along asking d os).map Ticket.number = List.range' d.issued (along asking d os).length := by
  induction os generalizing d with
  | nil => rfl
  | cons o os ih =>
    have hb := balances hc o
    have ho : (d.asking o).map Ticket.number = List.range' d.issued (d.asking o).length := by
      cases o <;> rfl
    rw [along, List.map_append, ho, ih hb.cleared, hb.issued, List.length_append,
      ← List.range'_append_1]

theorem status_course_of_spinning (h : d.status = .spinning) (os : List (Occurrence σ)) :
    (d.course os).status = .spinning := by
  refine course_induction (p := fun d ↦ d.status = .spinning) h ?_
  intro o _ d h
  cases o with
  | turn =>
    rw [happen, if_neg (not_isReady_of_ne (by rw [h]; simp))]
    exact h
  | submit q =>
    rw [happen, status_submit]
    exact h
  | cancel | wait ms | line f => exact h

theorem spinning_of_outcome_eq_none (hc : Cleared d) {x : Exchange σ}
    (hx : x ∈ along serving d os) (hn : x.outcome? = none) : (d.course os).status = .spinning := by
  induction os generalizing d with
  | nil => cases hx
  | cons o os ih =>
    have hb := balances hc o
    rcases List.mem_append.mp hx with hx | hx
    · exact status_course_of_spinning (hb.spins x hx hn) os
    · exact ih hb.cleared hx

theorem cancelled_happen (h : d.cancelled = true) (o : Occurrence σ) :
    (d.happen o).cancelled = true := by
  cases o with
  | turn =>
    rw [happen]
    split
    case isFalse => exact h
    case isTrue =>
      rw [turn, if_pos h]
      exact h
  | submit q =>
    rw [happen]
    unfold submit
    dsimp only
    split <;> exact h
  | cancel => rfl
  | wait ms | line f => exact h

theorem along_serving_of_cancelled (h : d.cancelled = true) (os : List (Occurrence σ)) :
    along serving d os = [] := by
  refine along_eq_nil (p := fun d ↦ d.cancelled = true) h ?_ os
  intro d o h
  refine ⟨?_, cancelled_happen h o⟩
  cases o <;> simp [serving, h]

theorem along_append (f : Device σ → Occurrence σ → List α) (d : Device σ)
    (os os' : List (Occurrence σ)) :
    along f d (os ++ os') = along f d os ++ along f (d.course os) os' := by
  induction os generalizing d with
  | nil => rfl
  | cons o os ih =>
    rw [List.cons_append, along, along, ih, List.append_assoc]
    rfl

end Device

section

variable [Transport σ] [Recording σ]

namespace Exchange

variable (x : Exchange σ)

theorem sent_after_cases : x.after.sent = x.worker.sent ∨
    ∃ c, x.ticket.request.command? = some c ∧
      x.after.sent = x.worker.sent ++ [Text.Utf8.encode c.text.toList] := by
  cases hq : x.ticket.request.command? with
  | none => exact .inl (Worker.leaves_serve hq _ x.worker rfl)
  | some c =>
    have h := Worker.appends_serve hq x.worker
    rw [after]
    cases hr : Worker.serve x.ticket.request x.worker with
    | ok a w =>
      rw [hr] at h
      exact .inr ⟨c, rfl, h⟩
    | error e w =>
      rw [hr] at h
      exact h.imp id fun h ↦ ⟨c, rfl, h⟩

theorem sent_after : x.after.sent = x.worker.sent ++ x.written := by
  rw [written]
  obtain h | ⟨c, -, h⟩ := x.sent_after_cases <;> simp [h]

theorem written_cases : x.written = [] ∨ ∃ c, x.ticket.request.command? = some c ∧
    x.written = [Text.Utf8.encode c.text.toList] := by
  rw [written]
  obtain h | ⟨c, hc, h⟩ := x.sent_after_cases
  · simp [h]
  · exact .inr ⟨c, hc, by simp [h]⟩

theorem written_of_ok {a : Reading} (h : x.outcome? = some (.ok a)) :
    ∃ c, x.ticket.request.command? = some c ∧
      x.written = [Text.Utf8.encode c.text.toList] := by
  rw [outcome?, Worker.answer?] at h
  cases hr : Worker.serve x.ticket.request x.worker with
  | error e w =>
    rw [hr] at h
    cases e <;> cases h
  | ok b w =>
    obtain ⟨c, hc⟩ := Worker.command?_of_serve_ok hr
    have hs := Worker.appends_serve hc x.worker
    rw [hr] at hs
    refine ⟨c, hc, ?_⟩
    have hw : x.after.sent = x.worker.sent ++ [Text.Utf8.encode c.text.toList] := by
      rw [after, hr]
      exact hs
    rw [written, hw, List.drop_left]

end Exchange

namespace Device

variable {d : Device σ} {o : Occurrence σ} {os : List (Occurrence σ)}

theorem sent_turn (hr : d.isReady = true) :
    d.turn.worker.sent = d.worker.sent ++ (d.serving .turn).flatMap Exchange.written := by
  have hl : (stateOf (Worker.listen d.worker)).sent = d.worker.sent :=
    Worker.leaves_listen _ d.worker rfl
  obtain ⟨hx, ht⟩ | ⟨t, q, hx, hq, ht⟩ | ⟨hx, hq, ht⟩ := d.turn_inv
  · have hs : d.serving .turn = [] := by simp [serving, hx]
    rw [ht, hs, List.flatMap_nil, List.append_nil]
    exact Worker.sent_close d.worker
  · have hs : d.serving .turn = [⟨t, d.worker⟩] := by
      rw [serving, if_pos ⟨hr, hx⟩, hq]
      rfl
    rw [ht, hs, worker_serve, List.flatMap_singleton]
    exact Exchange.sent_after ⟨t, d.worker⟩
  · have hs : d.serving .turn = [] := by simp [serving, hq]
    rw [ht, hs, List.flatMap_nil, List.append_nil]
    rcases d.worker_listen with h | h
    · rw [h, hl]
    · rw [h, Worker.sent_close, hl]

theorem sent_happen (ho : o.Leaves Recording.sent) :
    (d.happen o).worker.sent = d.worker.sent ++ (d.serving o).flatMap Exchange.written := by
  cases o with
  | turn =>
    rw [happen]
    split
    case isTrue hr => exact sent_turn hr
    case isFalse hr => simp [serving, hr]
  | submit q =>
    rw [happen, worker_submit]
    exact (List.append_nil _).symm
  | cancel | wait ms => exact (List.append_nil _).symm
  | line f =>
    exact (ho d.worker.transport).trans (List.append_nil _).symm

theorem sent_course (hos : ∀ o ∈ os, o.Leaves Recording.sent) :
    (d.course os).worker.sent =
      d.worker.sent ++ (along serving d os).flatMap Exchange.written := by
  induction os generalizing d with
  | nil => exact (List.append_nil _).symm
  | cons o os ih =>
    have h := sent_happen (d := d) (hos o List.mem_cons_self)
    have hd : d.course (o :: os) = (d.happen o).course os := rfl
    rw [hd, ih fun o' ho ↦ hos o' (List.mem_cons_of_mem _ ho), h, along, List.flatMap_append,
      List.append_assoc]

/-- The account of the requests of a device `d` over a run. -/
structure Accounted (d : Device σ) (os : List (Occurrence σ)) : Prop where
  /-- In the order of asking, each request is served, turned away or still there. -/
  requests : along asking d os =
    (along serving d os).map Exchange.ticket ++ along closing d os ++ along refusing d os ++
      ((d.course os).queue ++ (d.course os).waiting)
  numbers : (along asking d os).map Ticket.number = List.range (d.course os).issued
  answers : (d.course os).answers = (along serving d os).filterMap Exchange.answer? ++
    (along closing d os).map Ticket.closed ++ (along refusing d os).map Ticket.refused
  once : ((d.course os).answers.map Prod.fst).Nodup
  answered : (d.course os).status ≠ .spinning →
    ∀ x ∈ along serving d os, ∃ a, x.outcome? = some a
  settled : (d.course os).isFinished = true →
    (d.course os).answers.map Prod.fst = List.range (d.course os).issued
  sent : (d.course os).worker.sent = d.worker.sent ++ (along serving d os).flatMap Exchange.written
  written : ∀ x ∈ along serving d os, x.written = [] ∨
    ∃ c, x.ticket.request.command? = some c ∧ x.written = [Text.Utf8.encode c.text.toList]
  replied : ∀ x ∈ along serving d os, ∀ a, x.outcome? = some (.ok a) → x.written ≠ []
  cancelled : ∀ before after, os = before ++ .cancel :: after →
    along serving d os = along serving d before

theorem accounted_start (c : DeviceConfig) (t : σ) (now : Nat)
    (hos : ∀ o ∈ os, o.Leaves Recording.sent) : Accounted (start c t now) os := by
  have hc : Cleared (start c t now) := .of_running rfl
  have hreq := requests_course hc os
  have hans := answers_course hc os
  have hnum : (along asking (start c t now) os).map Ticket.number =
      List.range ((start c t now).course os).issued := by
    rw [numbers_asking hc, issued_course hc, List.range_eq_range']
    exact congrArg (List.range' 0) (Nat.zero_add _).symm
  have hanswered : ((start c t now).course os).status ≠ .spinning →
      ∀ x ∈ along serving (start c t now) os, ∃ a, x.outcome? = some a := by
    intro hs x hx
    cases ho : x.outcome? with
    | some a => exact ⟨a, rfl⟩
    | none => exact absurd (spinning_of_outcome_eq_none hc hx ho) hs
  refine ⟨hreq, hnum, hans, ?_, hanswered, fun hf ↦ ?_, sent_course hos,
    fun x _ ↦ x.written_cases, fun x _ a ha hw ↦ ?_, fun before after ho ↦ ?_⟩
  · have hn := List.nodup_range (n := ((start c t now).course os).issued)
    rw [← hnum] at hn
    refine List.Nodup.sublist ?_ hn
    have hreq' : along asking (start c t now) os = _ := hreq
    rw [hreq', hans]
    simp only [List.map_append, fst_closed, fst_refused]
    exact (((fst_answers_sublist _).append (List.Sublist.refl _)).append
      (List.Sublist.refl _)).trans (List.sublist_append_left _ _)
  · obtain ⟨hq, hw⟩ := cleared_course hc os hf
    have hs : ((start c t now).course os).status ≠ .spinning := by
      rw [show ((start c t now).course os).status = .finished by simpa [isFinished] using hf]
      simp
    have hreq' : along asking (start c t now) os = _ := hreq
    rw [← hnum, hreq', hans, hq, hw]
    simp only [List.map_append, fst_closed, fst_refused, List.append_nil,
      fst_answers (hanswered hs)]
    rfl
  · obtain ⟨c, -, hc'⟩ := x.written_of_ok ha
    cases hw.symm.trans hc'
  · have hn : along serving (((start c t now).course before).happen .cancel) after = [] :=
      along_serving_of_cancelled rfl after
    rw [ho, along_append, along, hn]
    exact List.append_nil _

end Device

end

section

variable [Transport σ] [Ending σ]

theorem Worker.answer?_ne_none (q : Request) {w : Worker σ} (h : Ending.Ends w.transport) :
    answer? q w ≠ none := by
  intro hn
  cases hr : serve q w with
  | ok a w' =>
    rw [answer?, hr] at hn
    cases hn
  | error e w' =>
    cases e with
    | failed e =>
      rw [answer?, hr] at hn
      cases hn
    | endless => exact finishes_serve q w h w' hr

namespace Device

variable {d : Device σ} {o : Occurrence σ} {os : List (Occurrence σ)}

theorem ends_turn (hr : d.isReady = true) (he : Ending.Ends d.worker.transport) :
    Ending.Ends d.turn.worker.transport ∧ d.turn.status ≠ .spinning := by
  have hrun := running_of_isReady hr
  have hl : Ending.Ends (stateOf (Worker.listen d.worker)).transport :=
    Worker.keeps_listen (fun now _ ↦ Ending.ends_connect now) (fun now _ ↦ Ending.ends_read now)
      d.worker he
  obtain ⟨-, ht⟩ | ⟨t, q, -, -, ht⟩ | ⟨-, -, ht⟩ := d.turn_inv
  · rw [ht]
    refine ⟨?_, fun h ↦ by cases h⟩
    rw [stop, Worker.transport_close]
    exact Ending.ends_disconnect he
  · rw [ht]
    refine ⟨?_, ?_⟩
    · rw [worker_serve]
      exact Worker.ends_serve t.request d.worker he
    · obtain ⟨a, ha⟩ := Option.ne_none_iff_exists'.mp (Worker.answer?_ne_none t.request he)
      have hs := (serve_of_answer (d := { d with queue := q }) ha).status
      rw [hs, answer, hrun]
      simp
  · rw [ht]
    rcases d.listen_inv with h | ⟨h, hw⟩
    · rw [h]
      refine ⟨?_, fun h ↦ by cases h⟩
      rw [stop, Worker.transport_close]
      exact Ending.ends_disconnect hl
    · rw [hw, h.status, hrun]
      exact ⟨hl, by simp⟩

theorem ends_happen (he : Ending.Ends d.worker.transport) (hs : d.status ≠ .spinning)
    (ho : o.Keeps Ending.Ends) :
    Ending.Ends (d.happen o).worker.transport ∧ (d.happen o).status ≠ .spinning := by
  cases o with
  | turn =>
    rw [happen]
    split
    case isTrue hr => exact ends_turn hr he
    case isFalse => exact ⟨he, hs⟩
  | submit q =>
    rw [happen, worker_submit, status_submit]
    exact ⟨he, hs⟩
  | cancel | wait ms => exact ⟨he, hs⟩
  | line f => exact ⟨ho _ he, hs⟩

theorem status_course_ne_spinning (he : Ending.Ends d.worker.transport) (hs : d.status ≠ .spinning)
    (hos : ∀ o ∈ os, o.Keeps Ending.Ends) : (d.course os).status ≠ .spinning := by
  have hk : ∀ o ∈ os, ∀ d : Device σ, (Ending.Ends d.worker.transport ∧ d.status ≠ .spinning) →
      Ending.Ends (d.happen o).worker.transport ∧ (d.happen o).status ≠ .spinning := by
    rintro o ho d ⟨he, hs⟩
    exact ends_happen he hs (hos o ho)
  exact (course_induction ⟨he, hs⟩ hk).2

end Device

end

namespace Device

/-- The account of every run is right. On a line that ends no exchange goes on for ever, so that
every request that is served is answered. -/
theorem accounted_of_course [Transport σ] [Recording σ] (c : DeviceConfig) (t : σ) (now : Nat)
    {os : List (Occurrence σ)} (hos : ∀ o ∈ os, o.Leaves Recording.sent) :
    Accounted (start c t now) os ∧ ∀ [Ending σ], Ending.Ends t →
      (∀ o ∈ os, o.Keeps Ending.Ends) → ((start c t now).course os).status ≠ .spinning := by
  refine ⟨accounted_start c t now hos, fun he hk ↦ ?_⟩
  exact status_course_ne_spinning he (fun h ↦ by cases h) hk

def busyLine : ScriptedLine where
  replies := [.items [.chunk [0x50, 0x3D, 0x31, 0x3A]], .failure (.io "broken")]

def busyRun : List (Occurrence ScriptedLine) :=
  [.submit (.query .powerQuery none), .turn, .submit (.query .errorQuery none), .turn] ++
    List.replicate 33 (.submit (.poll .powerState)) ++
    [.cancel, .turn, .submit (.query .powerQuery none)]

set_option maxRecDepth 4000 in
theorem accounted_of_course_busyRun :
    (Accounted (start {} busyLine 0) busyRun ∧
      ((start {} busyLine 0).course busyRun).status ≠ .spinning) ∧
    ((start {} busyLine 0).course busyRun).answers.take 3 = [(0, .ok (.text "P=1")),
      (1, .error (.io "broken")), (2, .error .channelClosed)] ∧
    (along closing (start {} busyLine 0) busyRun).length = 32 ∧
    (along refusing (start {} busyLine 0) busyRun).length = 2 := by
  have hos : ∀ o ∈ busyRun, ∀ f, o ≠ .line f := by
    intro o ho f hf
    simp [busyRun, hf] at ho
  have hl (o : Occurrence ScriptedLine) (ho : o ∈ busyRun) :
      o.Leaves Recording.sent ∧ o.Keeps Ending.Ends := by
    cases o with
    | line f => exact absurd rfl (hos _ ho f)
    | turn | submit q | cancel | wait ms => exact ⟨trivial, trivial⟩
  obtain ⟨ha, hs⟩ := accounted_of_course {} busyLine 0 fun o ho ↦ (hl o ho).1
  have hp : 0 < busyLine.interval := by decide
  exact ⟨⟨ha, hs hp fun o ho ↦ (hl o ho).2⟩, rfl, by decide, by decide⟩

end Device

end AlarmPanel
