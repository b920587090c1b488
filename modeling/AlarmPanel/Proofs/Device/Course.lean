import AlarmPanel.Device.Basic
import AlarmPanel.Proofs.Device.Keeping

namespace AlarmPanel

inductive Occurrence (σ : Type) where
  | turn
  | submit (q : Request)
  | cancel
  | wait (ms : Nat)
  /-- What happens to the line from outside. -/
  | line (f : σ → σ)

variable {σ α : Type}

namespace Occurrence

def Keeps (p : σ → Prop) : Occurrence σ → Prop
  | line f => ∀ t, p t → p (f t)
  | turn | submit _ | cancel | wait _ => True

def Leaves (v : σ → α) : Occurrence σ → Prop
  | line f => ∀ t, v (f t) = v t
  | turn | submit _ | cancel | wait _ => True

end Occurrence

/-- What the exchange of a request comes to, if it comes to an end. -/
def Worker.answer? [Transport σ] (q : Request) (w : Worker σ) :
    Option (Except PanelError Reading) :=
  match Worker.serve q w with
  | .ok a _ => some (.ok a)
  | .error (.failed e) _ => some (.error e)
  | .error .endless _ => none

namespace Worker

variable [Transport σ] {q : Request} {w : Worker σ}

theorem serve_of_answer?_ok {r : Reading} (h : answer? q w = some (.ok r)) :
    serve q w = .ok r (stateOf (serve q w)) := by
  unfold answer? at h
  split at h <;> cases h
  case h_1 w' hs =>
    rw [hs]
    rfl

theorem serve_of_answer?_error {e : PanelError} (h : answer? q w = some (.error e)) :
    serve q w = .error (.failed e) (stateOf (serve q w)) := by
  unfold answer? at h
  split at h <;> cases h
  case h_2 w' hs =>
    rw [hs]
    rfl

end Worker

namespace Device

variable {d d' : Device σ} {w : Worker σ} {t : Ticket}

theorem worker_submit (q : Request) (d : Device σ) : (d.submit q).worker = d.worker := by
  unfold submit
  dsimp only
  split <;> rfl

theorem status_submit (q : Request) (d : Device σ) : (d.submit q).status = d.status := by
  unfold submit
  dsimp only
  split <;> rfl

theorem config_submit (q : Request) (d : Device σ) : (d.submit q).config = d.config := by
  unfold submit
  dsimp only
  split <;> rfl

theorem worker_resume (w : Worker σ) (d : Device σ) : (d.resume w).worker = w := by
  unfold resume
  dsimp only
  split <;> rfl

structure Rests (d d' : Device σ) : Prop where
  pending : d'.queue ++ d'.waiting = d.queue ++ d.waiting
  answers : d'.answers = d.answers
  issued : d'.issued = d.issued
  status : d'.status = d.status

theorem rests_moveUp (d : Device σ) : Rests d d.moveUp where
  pending := by rw [moveUp, List.append_assoc, List.take_append_drop]
  answers := rfl
  issued := rfl
  status := rfl

theorem rests_resume (w : Worker σ) (d : Device σ) : Rests d (d.resume w) := by
  unfold resume
  dsimp only
  split
  · obtain ⟨hp, ha, hi, hs⟩ := rests_moveUp { d with worker := w, wake := w.now }
    exact ⟨hp, ha, hi, hs⟩
  · exact ⟨rfl, rfl, rfl, rfl⟩

theorem Rests.answer (h : Rests d d') (number : Nat) (a : Except PanelError Reading) :
    Rests (d.answer number a) (d'.answer number a) where
  pending := h.pending
  answers := congrArg (· ++ [(number, a)]) h.answers
  issued := h.issued
  status := h.status

theorem running_of_isReady (h : d.isReady = true) : d.status = .running := by
  simp only [isReady, Bool.and_eq_true, decide_eq_true_eq] at h
  exact h.1

theorem not_isReady_of_ne (h : d.status ≠ .running) : ¬ d.isReady = true :=
  fun hr ↦ h (running_of_isReady hr)

theorem status_of_isFinished (h : d.isFinished = true) : d.status = .finished := by
  simpa [isFinished] using h

theorem not_isReady_of_isFinished (h : d.isFinished = true) : ¬ d.isReady = true :=
  not_isReady_of_ne (by simp [status_of_isFinished h])

variable [Transport σ]

theorem worker_serve (t : Ticket) (d : Device σ) :
    (d.serve t).worker = stateOf (Worker.serve t.request d.worker) := by
  unfold serve
  split
  case h_1 a w h => rw [h]; exact worker_resume w d
  case h_2 e w h => rw [h]; exact worker_resume w d
  case h_3 w h => rw [h]; rfl

theorem worker_listen (d : Device σ) :
    d.listen.worker = stateOf (Worker.listen d.worker) ∨
      d.listen.worker = (stateOf (Worker.listen d.worker)).close := by
  unfold listen
  split
  case h_1 w h => rw [h]; exact .inl rfl
  case h_2 a w _ h => rw [h]; exact .inl rfl
  case h_3 e w h => rw [h]; exact .inr rfl
  case h_4 w h => rw [h]; exact .inl rfl

theorem serve_of_answer {a : Except PanelError Reading}
    (h : Worker.answer? t.request d.worker = some a) :
    Rests (d.answer t.number a) (d.serve t) := by
  unfold Worker.answer? at h
  split at h
  case h_1 b w hs =>
    cases h
    have he : d.serve t = (d.resume w).answer t.number (.ok b) := by
      unfold serve
      rw [hs]
    rw [he]
    exact (rests_resume w d).answer t.number _
  case h_2 e w hs =>
    cases h
    have he : d.serve t = (d.resume w).answer t.number (.error e) := by
      unfold serve
      rw [hs]
    rw [he]
    exact (rests_resume w d).answer t.number _
  case h_3 => cases h

theorem serve_of_none (h : Worker.answer? t.request d.worker = none) :
    d.serve t =
      { d with worker := stateOf (Worker.serve t.request d.worker), status := .spinning } := by
  unfold Worker.answer? at h
  split at h
  case h_1 => cases h
  case h_2 => cases h
  case h_3 w hs =>
    unfold serve
    rw [hs]
    rfl

theorem status_serve_ne_finished (t : Ticket) (h : d.status = .running) :
    (d.serve t).status ≠ .finished := by
  cases ha : Worker.answer? t.request d.worker with
  | none =>
    rw [serve_of_none ha]
    simp
  | some a =>
    have hs : (d.serve t).status = .running := (serve_of_answer ha).status.trans h
    rw [hs]
    simp

theorem listen_inv (d : Device σ) :
    d.listen = stop { d with worker := stateOf (Worker.listen d.worker) } ∨
      Rests d d.listen ∧ d.listen.worker = stateOf (Worker.listen d.worker) := by
  unfold listen
  split
  case h_1 w h =>
    rw [h]
    obtain ⟨hp, ha, hi, hs⟩ := rests_moveUp
      { d with worker := w, wake := w.now + Transport.pollInterval w.transport }
    exact .inr ⟨⟨hp, ha, hi, hs⟩, rfl⟩
  case h_2 w _ h =>
    rw [h]
    exact .inr ⟨⟨rfl, rfl, rfl, rfl⟩, rfl⟩
  case h_3 e w h =>
    rw [h]
    exact .inl rfl
  case h_4 w h => exact absurd h (Worker.listen_ne_endless _ _)

/-- The three things that a turn can be. -/
theorem turn_inv (d : Device σ) :
    d.cancelled = true ∧ d.turn = d.stop ∨
      (∃ t q, d.cancelled = false ∧ d.queue = t :: q ∧ d.turn = serve { d with queue := q } t) ∨
      d.cancelled = false ∧ d.queue = [] ∧ d.turn = d.listen := by
  unfold turn
  split
  case isTrue h => exact .inl ⟨h, rfl⟩
  case isFalse h =>
    have hc : d.cancelled = false := by simpa using h
    split
    case h_1 t q hq => exact .inr (.inl ⟨t, q, hc, hq, rfl⟩)
    case h_2 hq => exact .inr (.inr ⟨hc, hq, rfl⟩)

def happen (d : Device σ) : Occurrence σ → Device σ
  | .turn => if d.isReady then d.turn else d
  | .submit q => d.submit q
  | .cancel => d.cancel
  | .wait ms => { d with worker := d.worker.withNow (d.worker.now + ms) }
  | .line f => { d with worker := d.worker.withTransport (f d.worker.transport) }

def course (d : Device σ) (os : List (Occurrence σ)) : Device σ :=
  os.foldl happen d

/-- What every occurrence keeps holds at the end of a run. -/
theorem course_induction {p : Device σ → Prop} {os : List (Occurrence σ)} (h : p d)
    (hs : ∀ o ∈ os, ∀ d, p d → p (d.happen o)) : p (d.course os) := by
  induction os generalizing d with
  | nil => exact h
  | cons o os ih =>
    refine ih (hs o List.mem_cons_self d h) ?_
    intro o' ho
    exact hs o' (List.mem_cons_of_mem o ho)

theorem log_happen_of_isFinished (h : d.isFinished = true) (o : Occurrence σ) :
    (d.happen o).isFinished = true ∧ (d.happen o).worker.log = d.worker.log := by
  cases o with
  | turn =>
    rw [happen, if_neg (not_isReady_of_isFinished h)]
    exact ⟨h, rfl⟩
  | submit q =>
    rw [happen, isFinished, status_submit, worker_submit]
    exact ⟨h, rfl⟩
  | cancel | wait ms | line f => exact ⟨h, rfl⟩

end Device

end AlarmPanel
