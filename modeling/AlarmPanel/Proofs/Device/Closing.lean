import AlarmPanel.Proofs.Device.Growth
import AlarmPanel.Proofs.Device.Ledger

namespace AlarmPanel

open Transport

namespace Worker

variable {σ α β : Type} [Transport σ]

/-- The line is open, and has not been closed since the log was `told`. -/
structure StaysUp (told : List News) (w : Worker σ) : Prop extends SoundUp w where
  told : ∃ added, w.log = told ++ added ∧ .disconnected ∉ added

structure Closed (told : List News) (w : Worker σ) : Prop where
  isOpen_eq : isOpen w.transport = false
  told : ∃ added, w.log = told ++ added ∧ .disconnected ∈ added

/-- Of all failures those of the connection alone close the line. -/
def ClosesOnLoss (told : List News) : EStateM.Result Halt (Worker σ) α → Prop
  | .ok _ w => StaysUp told w
  | .error (.failed e) w => if e.isConnectionLevel then Closed told w else StaysUp told w
  | .error .endless _ => True

variable {told : List News} {w w' : Worker σ} {x : WorkerM σ α} {f : α → WorkerM σ β}

theorem StaysUp.of_log (h : StaysUp told w) (hs : SoundUp w') {news : List News}
    (hl : w'.log = w.log ++ news) (hn : .disconnected ∉ news) : StaysUp told w' where
  toSoundUp := hs
  told := by
    obtain ⟨added, ha, hd⟩ := h.told
    refine ⟨added ++ news, ?_, by simp [hd, hn]⟩
    rw [hl, ha, List.append_assoc]

theorem StaysUp.handle (text : String) (w : Worker σ) (h : StaysUp told w) :
    StaysUp told (handle text w) := by
  obtain ⟨events, hl⟩ := exists_log_handle text w
  exact h.of_log (h.toSoundUp.handle text w) hl (by simp)

theorem preserves_onReceiver_staysUp {y : ReceiverM σ α} (hy : Preserves SoundUp (onReceiver y)) :
    Preserves (StaysUp told) (onReceiver y) := by
  intro w hw
  have hl : (stateOf (onReceiver y w)).log = w.log ++ [] := by
    rw [stateOf_onReceiver, List.append_nil]
  exact hw.of_log (hy w hw.toSoundUp) hl (by simp)

theorem ClosesOnLoss.bind (hx : ClosesOnLoss told (x w))
    (hf : ∀ a w', StaysUp told w' → ClosesOnLoss told (f a w')) :
    ClosesOnLoss told ((x >>= f) w) := by
  cases hr : x w with
  | ok a w' =>
    rw [hr] at hx
    rw [bind_of_ok hr]
    exact hf a w' hx
  | error e w' =>
    rw [hr] at hx
    rw [bind_of_error hr]
    cases e with
    | failed e => exact hx
    | endless => trivial

/-- The line is open at some time during an exchange: it was open before, or it is opened. -/
def IsOpened (w : Worker σ) : Prop :=
  isOpen w.transport = true ∨ (connect w.now w.transport).1 = .ok ()

/-- What is left behind by an exchange that came to `a`: the worker `w'`. -/
structure Outcome (w : Worker σ) (a : Except PanelError Reading) (w' : Worker σ) : Prop where
  isOpen_iff : isOpen w'.transport = true ↔ ∀ e, a = .error e → e.isConnectionLevel = false
  told : ∃ added, w'.log = w.log ++ added ∧
    (.disconnected ∈ added ↔ w.IsOpened ∧ isOpen w'.transport = false)

theorem StaysUp.outcome {a : Except PanelError Reading} (h : StaysUp w.log w')
    (ha : ∀ e, a = .error e → e.isConnectionLevel = false) : Outcome w a w' where
  isOpen_iff := ⟨fun _ ↦ ha, fun _ ↦ h.isOpen_eq⟩
  told := by
    obtain ⟨added, hl, hd⟩ := h.told
    refine ⟨added, hl, ?_⟩
    simp [hd, h.isOpen_eq]

theorem Closed.outcome {e : PanelError} (h : Closed w.log w') (ho : w.IsOpened)
    (he : e.isConnectionLevel = true) : Outcome w (.error e) w' where
  isOpen_iff := by simp [h.isOpen_eq, he]
  told := by
    obtain ⟨added, hl, hd⟩ := h.told
    refine ⟨added, hl, ?_⟩
    simp [hd, ho, h.isOpen_eq]

variable [Opening σ]

theorem preserves_drain_staysUp : Preserves (StaysUp told) (drain : WorkerM σ Unit) := by
  have hr : Preserves SoundUp (onLine Line.readAll : WorkerM σ (List UInt8)) :=
    preserves_onLine_soundUp (Line.keeps_readAll isOpen_read)
  refine preserves_drain (preserves_onReceiver_staysUp hr) ?_ StaysUp.handle
  intro w a h
  exact ⟨⟨h.of_receiver rfl, h.connected⟩, h.told⟩

theorem StaysUp.close (h : StaysUp told w) : Closed told w.close where
  isOpen_eq := by rw [transport_close, Opening.isOpen_disconnect]
  told := by
    obtain ⟨added, ha, -⟩ := h.told
    refine ⟨added ++ [.disconnected], ?_, by simp⟩
    rw [log_close, h.connected, if_pos rfl, ha, List.append_assoc]

theorem StaysUp.guarded (h : StaysUp told w) (hx : Preserves (StaysUp told) x) :
    ClosesOnLoss told (guarded x w) := by
  have hw := hx w h
  cases hr : x w with
  | ok a w' =>
    rw [hr] at hw
    rw [guarded_ok hr]
    exact hw
  | error e w' =>
    rw [hr] at hw
    cases e with
    | endless =>
      rw [guarded_endless hr]
      trivial
    | failed e =>
      rw [guarded_failed hr]
      by_cases he : e.isConnectionLevel = true
      · simp only [ClosesOnLoss, he, if_true]
        exact StaysUp.close hw
      · simp only [ClosesOnLoss, he]
        exact hw

theorem ensureConnected_cases (h : Sound w) :
    (∃ w', ensureConnected w = .ok () w' ∧ StaysUp w.log w' ∧ w.IsOpened) ∨
      ∃ e t, ensureConnected w = .error (.failed e) (w.withTransport t) ∧
        connect w.now w.transport = (.error e, t) ∧ isOpen w.transport = false := by
  by_cases ho : isOpen w.transport = true
  · have he : ensureConnected w = .ok () w := by
      rw [ensureConnected, get_bind, if_pos ho]
      rfl
    have hu : SoundUp w := ⟨h, h.state_eq_isOpen.trans ho⟩
    exact .inl ⟨w, he, ⟨hu, [], by simp, by simp⟩, .inl ho⟩
  · have he : ensureConnected w = (onLine Line.connect >>= fun _ ↦
        modify fun w ↦ report { w with connected := true } .connected) w := by
      rw [ensureConnected, get_bind, if_neg ho]
    rcases hc : connect w.now w.transport with ⟨r, t⟩
    cases r with
    | ok u =>
      have hl : Line.connect w.receiver.line = .ok () { w.receiver.line with transport := t } :=
        Line.perform_of_eq hc
      rw [bind_of_ok (onLine_ok hl)] at he
      rcases h.ensureConnected with ⟨w', h', hu⟩ | ⟨e, w', h', -⟩
      · cases he.symm.trans h'
        refine .inl ⟨_, he, ⟨hu, [.connected], rfl, by simp⟩, .inr ?_⟩
        rw [hc]
      · cases he.symm.trans h'
    | error e =>
      have hl : Line.connect w.receiver.line =
          .error (.failed e) { w.receiver.line with transport := t } := Line.perform_of_error hc
      rw [bind_of_error (onLine_error hl)] at he
      exact .inr ⟨e, t, he, rfl, by simpa using ho⟩

theorem closesOnLoss_serve (q : Request) (h : StaysUp told w) :
    ClosesOnLoss told ((guarded drain >>= fun _ ↦ get >>= fun w ↦
      guarded (onLine (q.perform w.timeout))) w) := by
  apply ClosesOnLoss.bind (h.guarded preserves_drain_staysUp)
  intro _ w' hw
  rw [get_bind]
  exact hw.guarded (preserves_onReceiver_staysUp (preserves_perform_soundUp q w'.timeout))

/-- Where a line that does not open tells of a lost connection, an exchange leaves the line open unless
it comes to such a failure. -/
theorem Sound.outcome {q : Request} {a : Except PanelError Reading} (h : Sound w)
    (hc : ∀ e, (connect w.now w.transport).1 = .error e → e.isConnectionLevel = true)
    (ha : answer? q w = some a) : Outcome w a (stateOf (serve q w)) := by
  rcases ensureConnected_cases h with ⟨w₁, h₁, hup, ho⟩ | ⟨e, t, h₁, hconn, hclosed⟩
  · have hl : ClosesOnLoss w.log (serve q w) := by
      rw [serve, bind_of_ok h₁]
      exact closesOnLoss_serve q hup
    cases a with
    | ok r =>
      rw [serve_of_answer?_ok ha] at hl
      exact StaysUp.outcome hl (by simp)
    | error e =>
      rw [serve_of_answer?_error ha] at hl
      by_cases he : e.isConnectionLevel = true
      · simp only [ClosesOnLoss, he, if_true] at hl
        exact Closed.outcome hl ho he
      · simp only [ClosesOnLoss, he] at hl
        refine StaysUp.outcome hl ?_
        intro e' he'
        cases he'
        simpa using he
  · have hs : serve q w = .error (.failed e) (w.withTransport t) := bind_of_error h₁
    have he : e.isConnectionLevel = true := hc e (by rw [hconn])
    have hopen : isOpen t = false := (Opening.isOpen_connect_error hconn).trans hclosed
    rw [answer?, hs] at ha
    cases ha
    rw [hs]
    refine ⟨?_, [], (List.append_nil _).symm, ?_⟩
    · simp [stateOf, withTransport, transport, hopen, he]
    · simp [IsOpened, hclosed, hconn]

end Worker

namespace Device

variable {σ : Type} [Transport σ] {d : Device σ} {o : Occurrence σ} {os : List (Occurrence σ)}
  {t : Ticket}

/-- In its next turn the device stops: it was cancelled, or it listens and that fails. A device that
nobody can ask any more is as good as cancelled once its queue is empty. -/
def Stops (d : Device σ) : Prop :=
  d.isReady = true ∧ (d.cancelled = true ∨
    d.queue = [] ∧ ∃ e w, Worker.listen d.worker = .error (.failed e) w)

theorem listen_failed (h : d.isFinished = false) (hf : d.listen.isFinished = true) :
    ∃ e w, Worker.listen d.worker = .error (.failed e) w := by
  unfold listen at hf
  split at hf
  case h_1 | h_2 => cases h.symm.trans hf
  case h_3 e w hw => exact ⟨e, w, hw⟩
  case h_4 => cases hf

theorem stops_of_finished (h : d.isFinished = false) (hf : (d.happen o).isFinished = true) :
    o = .turn ∧ d.Stops := by
  cases o with
  | submit q =>
    rw [happen, isFinished, status_submit] at hf
    cases h.symm.trans hf
  | cancel | wait ms | line f => cases h.symm.trans hf
  | turn =>
    refine ⟨rfl, ?_⟩
    rw [happen] at hf
    split at hf
    case isFalse => cases h.symm.trans hf
    case isTrue hr =>
      obtain ⟨hc, -⟩ | ⟨t, q, -, -, ht⟩ | ⟨-, hq, ht⟩ := d.turn_inv
      · exact ⟨hr, .inl hc⟩
      · rw [ht] at hf
        have hrun : d.status = .running := running_of_isReady hr
        exact absurd (status_of_isFinished hf)
          (status_serve_ne_finished (d := { d with queue := q }) t hrun)
      · rw [ht] at hf
        exact ⟨hr, .inr ⟨hq, listen_failed h hf⟩⟩

/-- A device that stops in a run takes a turn in which it has to. -/
theorem stops_of_course (h : d.isFinished = false) (hf : (d.course os).isFinished = true) :
    ∃ before after, os = before ++ .turn :: after ∧ Stops (d.course before) := by
  induction os generalizing d with
  | nil => cases h.symm.trans hf
  | cons o os ih =>
    cases ho : (d.happen o).isFinished with
    | true =>
      obtain ⟨rfl, hs⟩ := stops_of_finished h ho
      exact ⟨[], os, rfl, hs⟩
    | false =>
      obtain ⟨before, after, rfl, hs⟩ := ih ho hf
      exact ⟨o :: before, after, rfl, hs⟩

/-- A device after any run from its start, on a line that it opens and closes alone. -/
def Reached (d : Device σ) : Prop :=
  ∃ c t now os, isOpen t = false ∧ (∀ o ∈ os, o.Leaves isOpen) ∧ (start c t now).course os = d

/-- A device that serves a request, and answers it by `a`. -/
structure Handles (d : Device σ) (t : Ticket) (a : Except PanelError Reading) : Prop where
  answers : (d.happen .turn).answers = d.answers ++ [(t.number, a)]
  outcome : Worker.Outcome d.worker a (d.happen .turn).worker
  running : (d.happen .turn).status = .running
  /-- Whenever the device stops later on, it was cancelled then, or failed at listening. -/
  stops : ∀ later, ((d.happen .turn).course later).isFinished = true →
    ∃ before after, later = before ++ .turn :: after ∧ Stops ((d.happen .turn).course before)

/-- Whatever a request comes to, it leaves the line open unless the connection has failed, and it does
not stop the device. On a line that ends it comes to something. -/
theorem handles_of_reached [Opening σ] {q : List Ticket} (hd : Reached d) (hr : d.isReady = true)
    (hc : d.cancelled = false) (hq : d.queue = t :: q)
    (hl : ∀ e, (connect d.now d.worker.transport).1 = .error e → e.isConnectionLevel = true) :
    (∀ a, Worker.answer? t.request d.worker = some a → Handles d t a) ∧
      ∀ [Ending σ], Ending.Ends d.worker.transport →
        ∃ a, Worker.answer? t.request d.worker = some a := by
  refine ⟨?_, fun he ↦ Option.ne_none_iff_exists'.mp (Worker.answer?_ne_none t.request he)⟩
  intro a ha
  obtain ⟨c, line, now, os, hline, hos, rfl⟩ := hd
  have hsound := (sound_start c now hline).course hos
  generalize (start c line now).course os = d at *
  have hturn : d.happen .turn = serve { d with queue := q } t := by
    rw [happen, if_pos hr, turn, if_neg (by simp [hc]), hq]
  have hrests := serve_of_answer (d := { d with queue := q }) ha
  rw [← hturn] at hrests
  have hready : d.status = .running := running_of_isReady hr
  have hrun : (d.happen .turn).status = .running := hrests.status.trans hready
  refine ⟨hrests.answers, ?_, hrun, ?_⟩
  · rw [hturn, worker_serve]
    exact hsound.worker.outcome hl ha
  · intro later hf
    exact stops_of_course (by simp [isFinished, hrun]) hf

def aboutToBreak : Device ScriptedLine :=
  (start {} brokenLine 0).course [.turn, .submit (.query .powerQuery none)]

theorem handles_aboutToBreak :
    Reached aboutToBreak ∧ aboutToBreak.isReady = true ∧ aboutToBreak.cancelled = false ∧
      aboutToBreak.queue = [⟨0, .query .powerQuery none⟩] ∧
      (∀ e, (connect aboutToBreak.now aboutToBreak.worker.transport).1 = .error e →
        e.isConnectionLevel = true) ∧
      Handles aboutToBreak ⟨0, .query .powerQuery none⟩ (.error (.io "broken")) ∧
      (aboutToBreak.happen .turn).worker.transport.isOpen = false := by
  have hd : Reached aboutToBreak := by
    refine ⟨{}, brokenLine, 0, _, rfl, ?_, rfl⟩
    intro o ho
    simp only [List.mem_cons, List.not_mem_nil, or_false] at ho
    obtain rfl | rfl := ho <;> trivial
  have hr : aboutToBreak.isReady = true := by decide
  have hc : aboutToBreak.cancelled = false := rfl
  have hq : aboutToBreak.queue = [⟨0, .query .powerQuery none⟩] := by decide
  have hl : ∀ e, (connect aboutToBreak.now aboutToBreak.worker.transport).1 = .error e →
      e.isConnectionLevel = true := by
    intro e he
    have hbusy : (connect aboutToBreak.now aboutToBreak.worker.transport).1 = .error (.io "busy") :=
      rfl
    cases hbusy.symm.trans he
    rfl
  exact ⟨hd, hr, hc, hq, hl, (handles_of_reached hd hr hc hq hl).1 _ rfl, by decide⟩

end Device

end AlarmPanel
