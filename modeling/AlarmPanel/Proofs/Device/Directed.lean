import AlarmPanel.Proofs.Device.Growth
import AlarmPanel.Proofs.Device.Lasting
import AlarmPanel.Proofs.Line.Failing

namespace AlarmPanel

open Transport

variable {σ α : Type} [Transport σ] {b : Bool}

theorem Request.isMisdirected_answer {c : Command} {reply : Reply} {q : Request} {e : PanelError}
    (h : q.answer c reply = .error e) : e.isMisdirected b = false := by
  cases reply with
  | ok text =>
    have hr := q.reads_read text e h
    cases e <;> first | rfl | cases hr
  | failure token | timeout | empty => cases h; rfl

theorem Request.eq_user_of_command?_eq_none {q : Request} (h : q.command? = none) :
    ∃ n, q = .poll (.user n) := by
  cases q with
  | query c own => cases h
  | poll p =>
    cases p with
    | user n => exact ⟨n, rfl⟩
    | areaStatus n | zoneStatus n | zone n | powerState | errorCode | errorMessage => cases h

variable [Suiting σ]

theorem Request.directed_perform (q : Request) (timeout : Nat) :
    Line.Directed b (q.perform timeout : LineM σ Reading) := by
  cases hq : q.command? with
  | none =>
    obtain ⟨n, rfl⟩ := eq_user_of_command?_eq_none hq
    exact fails_failed rfl
  | some c =>
    have ho : Line.Keeps (Suiting.Suits b) (Line.ensureOpen : LineM σ Unit) :=
      preserves_get.bind fun _ ↦ .ite (preserves_pure _)
        (Line.keeps_perform fun now _ ↦ Suiting.suits_connect now)
    rw [perform_eq hq]
    refine Line.directed_ensureOpen.bind ho fun _ ↦ (Line.directed_send _ _).bind
      (Line.keeps_send Line.suits_read Line.suits_purge Line.suits_write _ _) fun _ ↦ ?_
    exact Line.fails_ofExcept fun _ ↦ isMisdirected_answer

namespace Worker

variable (b) in
abbrev Directed (x : WorkerM σ α) : Prop :=
  Fails (fun w : Worker σ ↦ Suiting.Suits b w.transport) (fun e ↦ e.isMisdirected b = false) x

theorem directed_onLine {x : LineM σ α} (hx : Line.Directed b x) : Directed b (onLine x) := by
  intro w hw e w' h
  cases hr : x w.receiver.line with
  | ok a l => cases (onLine_ok hr).symm.trans h
  | error e' l =>
    cases (onLine_error hr).symm.trans h
    exact hx _ hw e l hr

theorem directed_guarded {x : WorkerM σ α} (hx : Directed b x) : Directed b (guarded x) := by
  intro w hw e w' h
  cases hr : x w with
  | ok a v => cases (guarded_ok hr).symm.trans h
  | error e' v =>
    cases e' with
    | failed e' =>
      cases (guarded_failed hr).symm.trans h
      exact hx w hw e v hr
    | endless => cases (guarded_endless hr).symm.trans h

theorem suits_guarded {x : WorkerM σ α} (hx : Keeps (Suiting.Suits b) x) :
    Keeps (Suiting.Suits b) (guarded x) :=
  keeps_guarded (fun _ ↦ Suiting.suits_disconnect) hx

theorem suits_ensureConnected : Keeps (Suiting.Suits b) (ensureConnected : WorkerM σ Unit) :=
  keeps_ensureConnected fun now _ ↦ Suiting.suits_connect now

theorem suits_drain : Keeps (Suiting.Suits b) (drain : WorkerM σ Unit) :=
  keeps_drain Line.suits_read

theorem suits_serve (q : Request) : Keeps (Suiting.Suits b) (serve q : WorkerM σ Reading) := by
  refine preserves_serve suits_ensureConnected (suits_guarded suits_drain) fun timeout ↦ ?_
  exact suits_guarded (keeps_onLine (q.keeps_perform (fun now _ ↦ Suiting.suits_connect now)
    Line.suits_read Line.suits_purge Line.suits_write timeout))

theorem directed_ensureConnected : Directed b (ensureConnected : WorkerM σ Unit) := by
  refine fails_get.bind preserves_get fun w ↦ .ite (fails_pure _) ?_
  exact (directed_onLine Line.directed_connect).bind
    (keeps_onLine (Line.keeps_perform fun now _ ↦ Suiting.suits_connect now)) fun _ ↦ fails_modify _

theorem directed_drain : Directed b (drain : WorkerM σ Unit) := by
  refine (directed_onLine Line.directed_readAll).bind
    (keeps_onLine (Line.keeps_readAll Line.suits_read)) fun octets ↦ ?_
  -- taking lines apart does not fail
  intro w _ e w' h
  dsimp only at h
  split at h <;> cases h

theorem directed_serve (q : Request) : Directed b (serve q : WorkerM σ Reading) := by
  refine directed_ensureConnected.bind suits_ensureConnected fun _ ↦ ?_
  refine (directed_guarded directed_drain).bind (suits_guarded suits_drain) fun _ ↦ ?_
  refine fails_get.bind preserves_get fun w ↦ directed_guarded ?_
  exact directed_onLine (q.directed_perform w.timeout)

end Worker

namespace Device

variable {d : Device σ}

structure Suited (d : Device σ) : Prop where
  line : Suiting.Suits d.config.interface.supportsCommands d.worker.transport
  answers : ∀ a ∈ d.answers, ∀ e, a.2 = .error e →
    e.isMisdirected d.config.interface.supportsCommands = false

theorem suited_start (c : DeviceConfig) (now : Nat) {t : σ}
    (ht : Suiting.Suits c.interface.supportsCommands t) : Suited (start c t now) where
  line := ht
  answers a ha := by cases ha

theorem Suited.stop (h : Suited d) : Suited d.stop where
  line := by
    rw [Device.stop, Worker.transport_close]
    exact Suiting.suits_disconnect h.line
  answers a ha e he := by
    simp only [Device.stop, List.mem_append, List.mem_map] at ha
    rcases ha with (ha | ⟨t, -, rfl⟩) | ⟨t, -, rfl⟩
    · exact h.answers a ha e he
    · cases he
      rfl
    · cases he
      rfl

theorem Suited.turn (h : Suited d) : Suited d.turn := by
  obtain ⟨-, ht⟩ | ⟨t, q, -, -, ht⟩ | ⟨-, -, ht⟩ := d.turn_inv
  · rw [ht]
    exact h.stop
  · rw [ht]
    refine ⟨?_, fun a ha e he ↦ ?_⟩
    · rw [config_serve, worker_serve]
      exact Worker.suits_serve t.request d.worker h.line
    · rw [config_serve]
      cases hx : Worker.answer? t.request d.worker with
      | none =>
        rw [serve_of_none (d := { d with queue := q }) hx] at ha
        exact h.answers a ha e he
      | some r =>
        rw [(serve_of_answer (d := { d with queue := q }) hx).answers] at ha
        rcases List.mem_append.mp ha with ha | ha
        · exact h.answers a ha e he
        · cases List.mem_singleton.mp ha
          cases he
          exact Worker.directed_serve t.request d.worker h.line e _ (Worker.serve_of_answer?_error hx)
  · have hl : Suiting.Suits d.config.interface.supportsCommands
        (stateOf (Worker.listen d.worker)).transport :=
      Worker.keeps_listen (fun now _ ↦ Suiting.suits_connect now) Line.suits_read d.worker h.line
    rw [ht]
    rcases d.listen_inv with he | ⟨he, hw⟩
    · rw [he]
      exact Suited.stop ⟨hl, h.answers⟩
    · refine ⟨?_, ?_⟩
      · rw [config_listen, hw]
        exact hl
      · rw [config_listen, he.answers]
        exact h.answers

theorem suited_submit (h : Suited d) (q : Request) : Suited (d.submit q) := by
  refine ⟨?_, ?_⟩
  · rw [config_submit, worker_submit]
    exact h.line
  · rw [config_submit]
    intro a ha e he
    rw [submit] at ha
    dsimp only at ha
    split at ha
    · rcases List.mem_append.mp ha with ha | ha
      · exact h.answers a ha e he
      · cases List.mem_singleton.mp ha
        cases he
        rfl
    · exact h.answers a ha e he

theorem lasting_suited : Lasting (Suited : Device σ → Prop) where
  turn _ _ h := h.turn
  submit _ q h := suited_submit h q
  cancel _ h := ⟨h.line, h.answers⟩
  pause _ _ h := ⟨h.line, h.answers⟩
  spin _ h := ⟨h.line, h.answers⟩

theorem Suited.happen (h : Suited d) {o : Occurrence σ}
    (ho : ∀ b, o.Keeps (Suiting.Suits b)) : Suited (d.happen o) := by
  refine lasting_suited.happen h fun f hf ↦ ?_
  subst hf
  exact ⟨ho _ _ h.line, h.answers⟩

theorem Suited.answerTo? (h : Suited d) {n : Nat} {e : PanelError}
    (ha : d.answerTo? n = some (.error e)) :
    e.isMisdirected d.config.interface.supportsCommands = false :=
  h.answers _ (mem_of_answerTo? ha) e rfl

end Device

end AlarmPanel
