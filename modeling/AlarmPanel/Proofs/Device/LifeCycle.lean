import AlarmPanel.Proofs.Device.Course

namespace AlarmPanel

namespace News

def isChange : News → Bool
  | connected | disconnected => true
  | line _ | event _ => false

def IsUp (log : List News) : Prop :=
  (log.filter isChange).getLast? = some .connected

/-- The line opens first, and then closes and opens in turn. -/
def Alternates (log : List News) : Prop :=
  ∀ i n, (log.filter isChange)[i]? = some n → n = if i % 2 = 0 then .connected else .disconnected

structure WellOrdered (log : List News) : Prop where
  alternates : ∀ i n, (log.filter isChange)[i]? = some n →
    n = if i % 2 = 0 then .connected else .disconnected
  while_up : ∀ before n after, log = before ++ n :: after → n.isChange = false → IsUp before
  event_of_line : ∀ before e after, log = before ++ .event e :: after →
    ∃ earlier text, before = earlier ++ [.line text] ∧ Event.ofLine text.toList = .ok (some e)

variable {log log' added : List News} {n : News}

theorem isUp_concat_of_isChange (h : n.isChange = true) :
    IsUp (log ++ [n]) ↔ n = .connected := by
  simp [IsUp, List.filter_append, h]

theorem isUp_concat_of_not_isChange (h : n.isChange = false) : IsUp (log ++ [n]) ↔ IsUp log := by
  simp [IsUp, List.filter_append, h]

theorem Alternates.isUp_iff (h : Alternates log) :
    IsUp log ↔ (log.filter isChange).length % 2 = 1 := by
  have ha := h ((log.filter isChange).length - 1)
  rw [IsUp, List.getLast?_eq_getElem?]
  generalize log.filter isChange = changes at ha ⊢
  cases hc : changes[changes.length - 1]? with
  | none =>
    have : changes.length ≤ changes.length - 1 := List.getElem?_eq_none_iff.mp hc
    simp
    omega
  | some n =>
    have hn := ha n hc
    have hlt : changes.length - 1 < changes.length := (List.getElem?_eq_some_iff.mp hc).1
    constructor
    · intro hu
      cases hu
      by_cases he : (changes.length - 1) % 2 = 0
      · omega
      · rw [if_neg he] at hn
        cases hn
    · intro hl
      rw [hn, if_pos (by omega)]

theorem Alternates.of_append (h : Alternates (log ++ added)) : Alternates log := by
  intro i n hi
  refine h i n ?_
  rw [List.filter_append, List.getElem?_append_left (List.getElem?_eq_some_iff.mp hi).1, hi]

theorem alternates_concat_of_not_isChange (h : n.isChange = false) :
    Alternates (log ++ [n]) ↔ Alternates log := by
  simp [Alternates, List.filter_append, h]

theorem alternates_concat_of_isChange (hn : n.isChange = true) :
    Alternates (log ++ [n]) ↔ Alternates log ∧ (IsUp log ↔ n = .disconnected) := by
  have hf : (log ++ [n]).filter isChange = log.filter isChange ++ [n] := by
    rw [List.filter_append, List.filter_cons_of_pos hn, List.filter_nil]
  constructor
  · intro h
    have ha := h.of_append
    have hl := h (log.filter isChange).length n (by rw [hf, List.getElem?_concat_length])
    refine ⟨ha, ha.isUp_iff.trans ?_⟩
    split at hl
    case isTrue he =>
      rw [hl]
      simp
      omega
    case isFalse he =>
      rw [hl]
      simp
      omega
  · rintro ⟨h, hu⟩ i m hm
    rw [hf, List.getElem?_append] at hm
    split at hm
    case isTrue => exact h i m hm
    case isFalse hi =>
      obtain ⟨hi', rfl⟩ : i - (log.filter isChange).length = 0 ∧ n = m := by
        simpa [List.getElem?_singleton] using hm
      have hlen : i = (log.filter isChange).length := by omega
      rw [h.isUp_iff, ← hlen] at hu
      cases n with
      | connected =>
        have : ¬ i % 2 = 1 := fun hc ↦ by cases hu.mp hc
        rw [if_pos (by omega)]
      | disconnected =>
        have : i % 2 = 1 := hu.mpr rfl
        rw [if_neg (by omega)]
      | line text => cases hn
      | event e => cases hn

theorem isUp_concat_congr (h : IsUp log ↔ IsUp log') : IsUp (log ++ [n]) ↔ IsUp (log' ++ [n]) := by
  cases hn : n.isChange with
  | false => rw [isUp_concat_of_not_isChange hn, isUp_concat_of_not_isChange hn, h]
  | true => rw [isUp_concat_of_isChange hn, isUp_concat_of_isChange hn]

theorem isUp_append_congr (h : IsUp log ↔ IsUp log') :
    IsUp (log ++ added) ↔ IsUp (log' ++ added) := by
  induction added generalizing log log' with
  | nil => simpa using h
  | cons n added ih =>
    rw [List.append_cons, List.append_cons log']
    exact ih (isUp_concat_congr h)

theorem Alternates.append_congr (ha : Alternates log) (h : IsUp log ↔ IsUp log')
    (h' : Alternates (log' ++ added)) : Alternates (log ++ added) := by
  induction added generalizing log log' with
  | nil => simpa using ha
  | cons n added ih =>
    rw [List.append_cons] at h' ⊢
    refine ih ?_ (isUp_concat_congr h) h'
    have hn' := h'.of_append
    cases hn : n.isChange with
    | false => exact (alternates_concat_of_not_isChange hn).mpr ha
    | true =>
      have hu := ((alternates_concat_of_isChange hn).mp hn').2
      exact (alternates_concat_of_isChange hn).mpr ⟨ha, h.trans hu⟩

theorem alternates_congr (h : log.filter isChange = log'.filter isChange) :
    Alternates log ↔ Alternates log' := by
  rw [Alternates, Alternates, h]

theorem isUp_congr (h : log.filter isChange = log'.filter isChange) : IsUp log ↔ IsUp log' := by
  rw [IsUp, IsUp, h]

/-- A second life cycle cannot begin while the line is open. -/
theorem not_alternates_append (hu : IsUp log) (ha : Alternates added)
    (hne : added.filter isChange ≠ []) : ¬ Alternates (log ++ added) := by
  intro h
  obtain ⟨n, l, hl⟩ := List.exists_cons_of_ne_nil hne
  have hn : n = .connected := ha 0 n (by rw [hl]; rfl)
  have hlen := h.of_append.isUp_iff.mp hu
  have hi : ((log ++ added).filter isChange)[(log.filter isChange).length]? = some n := by
    rw [List.filter_append, hl]
    simp
  have hc := h _ n hi
  rw [if_neg (by omega), hn] at hc
  cases hc

theorem wellOrdered_nil : WellOrdered [] where
  alternates i n h := by simp at h
  while_up before n after h := by simp at h
  event_of_line before e after h := by simp at h

theorem eq_or_eq_of_concat_eq {before after : List News} {m : News}
    (h : log ++ [n] = before ++ m :: after) :
    (before = log ∧ m = n) ∨ ∃ after', log = before ++ m :: after' := by
  rcases List.eq_nil_or_concat after with rfl | ⟨after', x, rfl⟩
  · obtain ⟨hl, hm⟩ := List.append_inj' h rfl
    cases hm
    exact .inl ⟨hl.symm, rfl⟩
  · refine .inr ⟨after', ?_⟩
    have h' : log ++ [n] = (before ++ m :: after') ++ [x] := by simpa using h
    exact (List.append_inj' h' rfl).1

theorem WellOrdered.concat_of_not_isChange (h : WellOrdered log) (hn : n.isChange = false)
    (hu : IsUp log) (he : ∀ e, n = .event e →
      ∃ earlier text, log = earlier ++ [.line text] ∧ Event.ofLine text.toList = .ok (some e)) :
    WellOrdered (log ++ [n]) where
  alternates := (alternates_concat_of_not_isChange hn).mpr h.alternates
  while_up before m after hl hm := by
    rcases eq_or_eq_of_concat_eq hl with ⟨rfl, rfl⟩ | ⟨after', hl'⟩
    · exact hu
    · exact h.while_up before m after' hl' hm
  event_of_line before e after hl := by
    rcases eq_or_eq_of_concat_eq hl with ⟨rfl, hm⟩ | ⟨after', hl'⟩
    · exact he e hm.symm
    · exact h.event_of_line before e after' hl'

theorem WellOrdered.concat_of_isChange (h : WellOrdered log) (hn : n.isChange = true)
    (hu : IsUp log ↔ n = .disconnected) : WellOrdered (log ++ [n]) where
  alternates := (alternates_concat_of_isChange hn).mpr ⟨h.alternates, hu⟩
  while_up before m after hl hm := by
    rcases eq_or_eq_of_concat_eq hl with ⟨rfl, rfl⟩ | ⟨after', hl'⟩
    · cases hm.symm.trans hn
    · exact h.while_up before m after' hl' hm
  event_of_line before e after hl := by
    rcases eq_or_eq_of_concat_eq hl with ⟨rfl, rfl⟩ | ⟨after', hl'⟩
    · cases hn
    · exact h.event_of_line before e after' hl'

end News

namespace Worker

open News Transport

variable {σ α : Type} [Transport σ] {w w' : Worker σ}

/-- The state of a worker, the line and what was told of the line agree. -/
structure Sound (w : Worker σ) : Prop where
  state_eq_isOpen : w.connected = isOpen w.transport
  state_iff_isUp : w.connected = true ↔ IsUp w.log
  ordered : WellOrdered w.log

structure SoundUp (w : Worker σ) : Prop extends Sound w where
  connected : w.connected = true

theorem Sound.of_receiver (h : Sound w) {r : Receiver σ}
    (hr : isOpen r.line.transport = isOpen w.transport) : Sound { w with receiver := r } :=
  ⟨h.state_eq_isOpen.trans hr.symm, h.state_iff_isUp, h.ordered⟩

theorem SoundUp.isOpen_eq (h : SoundUp w) : isOpen w.transport = true :=
  h.state_eq_isOpen.symm.trans h.connected

theorem SoundUp.report_line (h : SoundUp w) (text : String) : SoundUp (w.report (.line text)) where
  state_eq_isOpen := h.state_eq_isOpen
  state_iff_isUp := h.state_iff_isUp.trans (isUp_concat_of_not_isChange rfl).symm
  ordered := by
    refine h.ordered.concat_of_not_isChange rfl (h.state_iff_isUp.mp h.connected) fun e he ↦ ?_
    cases he
  connected := h.connected

theorem SoundUp.handle (text : String) (w : Worker σ) (h : SoundUp w) : SoundUp (handle text w) := by
  have hl := h.report_line text
  unfold Worker.handle
  split
  case h_2 => exact hl
  case h_1 e he =>
    refine ⟨⟨hl.state_eq_isOpen, hl.state_iff_isUp.trans (isUp_concat_of_not_isChange rfl).symm,
      ?_⟩, hl.connected⟩
    refine hl.ordered.concat_of_not_isChange rfl (hl.state_iff_isUp.mp hl.connected) fun e' he' ↦ ?_
    cases he'
    exact ⟨w.log, text, rfl, he⟩

theorem preserves_onReceiver_soundUp {x : ReceiverM σ α}
    (hx : Receiver.Keeps (fun t ↦ isOpen t = true) x) : Preserves SoundUp (onReceiver x) := by
  intro w hw
  rw [stateOf_onReceiver]
  have ho := hx w.receiver hw.isOpen_eq
  exact ⟨hw.of_receiver (ho.trans hw.isOpen_eq.symm), hw.connected⟩

theorem preserves_onLine_soundUp {x : LineM σ α} (hx : Line.Keeps (fun t ↦ isOpen t = true) x) :
    Preserves SoundUp (onLine x) :=
  preserves_onReceiver_soundUp (Receiver.keeps_onLine hx)

variable [Opening σ]

theorem Sound.close (h : Sound w) : Sound w.close ∧ w.close.connected = false := by
  have ho := Opening.isOpen_disconnect w.transport
  unfold Worker.close
  cases hc : w.connected with
  | false =>
    have hc' : (w.withTransport (disconnect w.transport).2).connected = false := hc
    dsimp only
    rw [if_neg (by rw [hc']; exact Bool.false_ne_true)]
    exact ⟨⟨hc.trans ho.symm, h.state_iff_isUp, h.ordered⟩, hc⟩
  | true =>
    have hc' : (w.withTransport (disconnect w.transport).2).connected = true := hc
    dsimp only
    rw [if_pos hc']
    refine ⟨⟨ho.symm, ?_, ?_⟩, rfl⟩
    · refine ⟨fun hf ↦ Bool.noConfusion hf, fun hu ↦ ?_⟩
      cases (isUp_concat_of_isChange rfl).mp hu
    · exact h.ordered.concat_of_isChange rfl ⟨fun _ ↦ rfl, fun _ ↦ h.state_iff_isUp.mp hc⟩

theorem Sound.ensureConnected (h : Sound w) :
    (∃ w', ensureConnected w = .ok () w' ∧ SoundUp w') ∨
      ∃ e w', Worker.ensureConnected w = .error (.failed e) w' ∧ Sound w' := by
  rw [Worker.ensureConnected, get_bind]
  split
  case isTrue ho => exact .inl ⟨w, rfl, h, h.state_eq_isOpen.trans ho⟩
  case isFalse ho =>
    have hd : w.connected = false := by
      rw [h.state_eq_isOpen]
      simpa using ho
    rcases hc : Transport.connect w.receiver.line.now w.receiver.line.transport with ⟨r, t⟩
    cases r with
    | ok u =>
      refine .inl ⟨_, bind_of_ok (onLine_ok (Line.perform_of_eq hc)), ?_⟩
      refine ⟨⟨(Opening.isOpen_connect_ok hc).symm, ?_, ?_⟩, rfl⟩
      · exact ⟨fun _ ↦ (isUp_concat_of_isChange rfl).mpr rfl, fun _ ↦ rfl⟩
      · refine h.ordered.concat_of_isChange rfl ⟨fun hu ↦ ?_, fun hn ↦ by cases hn⟩
        cases hd.symm.trans (h.state_iff_isUp.mpr hu)
    | error e =>
      refine .inr ⟨e, _, bind_of_error (onLine_error (Line.perform_of_error hc)), ?_⟩
      exact h.of_receiver (Opening.isOpen_connect_error hc)

theorem isOpen_read {b : Bool} (now : Nat) (t : σ) (h : isOpen t = b) :
    isOpen (Transport.read now t).2 = b :=
  (Opening.isOpen_read now t).trans h

theorem preserves_drain_soundUp : Preserves SoundUp (drain : WorkerM σ Unit) :=
  preserves_drain (preserves_onLine_soundUp (Line.keeps_readAll isOpen_read))
    (fun _ _ h ↦ ⟨h.of_receiver rfl, h.connected⟩) SoundUp.handle

theorem preserves_perform_soundUp (q : Request) (timeout : Nat) :
    Preserves SoundUp (onLine (q.perform timeout) : WorkerM σ Reading) := by
  refine preserves_onLine_soundUp
    (q.keeps_perform (fun now t ht ↦ ?_) isOpen_read (fun now t ht ↦ ?_) ?_ timeout)
  · rcases hc : Transport.connect now t with ⟨r, t'⟩
    cases r with
    | ok u => exact Opening.isOpen_connect_ok hc
    | error e => exact (Opening.isOpen_connect_error hc).trans ht
  · exact (Opening.isOpen_purge now t).trans ht
  · exact fun octets t ht ↦ (Opening.isOpen_write octets t).trans ht

theorem SoundUp.guarded {x : WorkerM σ α} (h : SoundUp w) (hx : Preserves SoundUp x) :
    Sound (stateOf (guarded x w)) := by
  rcases stateOf_guarded x w with hg | hg
  · rw [hg]
    exact (hx w h).toSound
  · rw [hg]
    exact (hx w h).toSound.close.1

theorem sound_serve (h : Sound w) (q : Request) : Sound (stateOf (serve q w)) := by
  rcases h.ensureConnected with ⟨w₁, h₁, hu⟩ | ⟨e, w₁, h₁, hs⟩
  case inr =>
    rw [serve, bind_of_error h₁]
    exact hs
  case inl =>
    rw [serve, bind_of_ok h₁]
    have hd := hu.guarded preserves_drain_soundUp
    cases hr : guarded drain w₁ with
    | error e w₂ =>
      rw [hr] at hd
      rw [bind_of_error hr]
      exact hd
    | ok u w₂ =>
      rw [bind_of_ok hr, get_bind]
      have hu₂ : SoundUp (stateOf (drain w₁)) := preserves_drain_soundUp w₁ hu
      rw [of_guarded_ok hr] at hu₂
      exact SoundUp.guarded hu₂ (preserves_perform_soundUp q w₂.timeout)

theorem sound_listen (h : Sound w) : Sound (stateOf (listen w)) := by
  have hl : Preserves SoundUp (lookOver : WorkerM σ Look) :=
    preserves_lookOver (preserves_onReceiver_soundUp (Receiver.keeps_look isOpen_read))
  rcases h.ensureConnected with ⟨w₁, h₁, hu⟩ | ⟨e, w₁, h₁, hs⟩
  · rw [listen, bind_of_ok h₁]
    exact (preserves_tell hl SoundUp.handle w₁ hu).toSound
  · rw [listen, bind_of_error h₁]
    exact hs

end Worker

namespace Device

open News Transport

variable {σ : Type} [Transport σ] {d : Device σ} {o : Occurrence σ}

/-- What holds of the life cycle of a line at every moment. -/
structure LifeCycle (d : Device σ) : Prop where
  ordered : WellOrdered d.worker.log
  state_eq_isOpen : d.worker.connected = isOpen d.worker.transport
  state_iff_isUp : d.worker.connected = true ↔ IsUp d.worker.log
  stopped : d.isFinished = true → isOpen d.worker.transport = false ∧
    d.worker.connected = false ∧ ¬ IsUp d.worker.log ∧
      ∀ later, (d.course later).worker.log = d.worker.log

structure Sound (d : Device σ) : Prop where
  worker : Worker.Sound d.worker
  stopped : d.isFinished = true → d.worker.connected = false

theorem log_course_of_isFinished (h : d.isFinished = true) (os : List (Occurrence σ)) :
    (d.course os).worker.log = d.worker.log := by
  have hk : ∀ o ∈ os, ∀ d' : Device σ, (d'.isFinished = true ∧ d'.worker.log = d.worker.log) →
      (d'.happen o).isFinished = true ∧ (d'.happen o).worker.log = d.worker.log := by
    rintro o - d' ⟨hf, hl⟩
    obtain ⟨hf', hl'⟩ := log_happen_of_isFinished hf o
    exact ⟨hf', hl'.trans hl⟩
  exact (course_induction ⟨h, rfl⟩ hk).2

theorem Sound.of_running (hw : Worker.Sound d.worker) (h : d.status ≠ .finished) : Sound d :=
  ⟨hw, fun hf ↦ absurd (by simpa [isFinished] using hf) h⟩

theorem sound_start (c : DeviceConfig) {t : σ} (now : Nat) (ht : isOpen t = false) :
    Sound (start c t now) := by
  refine ⟨⟨ht.symm, ⟨fun hc ↦ ?_, fun hu ↦ ?_⟩, wellOrdered_nil⟩, fun hf ↦ by cases hf⟩
  · cases hc
  · cases hu

variable [Opening σ]

theorem sound_stop (h : Worker.Sound d.worker) : Sound d.stop :=
  ⟨h.close.1, fun _ ↦ h.close.2⟩

theorem Sound.turn (h : Sound d) (hr : d.isReady = true) : Sound d.turn := by
  have hs := running_of_isReady hr
  obtain ⟨-, ht⟩ | ⟨t, q, -, -, ht⟩ | ⟨-, -, ht⟩ := d.turn_inv
  · rw [ht]
    exact sound_stop h.worker
  · rw [ht]
    refine .of_running ?_ (status_serve_ne_finished t hs)
    rw [worker_serve]
    exact Worker.sound_serve h.worker t.request
  · have hl := Worker.sound_listen h.worker
    rw [ht]
    rcases d.listen_inv with he | ⟨he, hw⟩
    · rw [he]
      exact sound_stop hl
    · refine .of_running (hw ▸ hl) ?_
      rw [he.status, hs]
      simp

theorem Sound.happen (h : Sound d) (ho : o.Leaves isOpen) : Sound (d.happen o) := by
  cases o with
  | turn =>
    rw [Device.happen]
    split
    case isTrue hr => exact h.turn hr
    case isFalse => exact h
  | submit q =>
    rw [Device.happen]
    refine ⟨?_, ?_⟩
    · rw [worker_submit]
      exact h.worker
    · rw [isFinished, status_submit, worker_submit]
      exact h.stopped
  | cancel => exact ⟨h.worker, h.stopped⟩
  | wait ms => exact ⟨h.worker.of_receiver rfl, h.stopped⟩
  | line f => exact ⟨h.worker.of_receiver (ho _), h.stopped⟩

theorem Sound.course {os : List (Occurrence σ)} (h : Sound d) (hos : ∀ o ∈ os, o.Leaves isOpen) :
    Sound (d.course os) := by
  refine course_induction h ?_
  intro o ho d' hd
  exact hd.happen (hos o ho)

/-- A line that is opened and closed by its device alone goes through its life cycle, in every run. -/
theorem lifeCycle_of_course (c : DeviceConfig) {t : σ} (now : Nat) {os : List (Occurrence σ)}
    (ht : isOpen t = false) (hos : ∀ o ∈ os, o.Leaves isOpen) :
    LifeCycle ((start c t now).course os) := by
  have hs : Sound ((start c t now).course os) := (sound_start c now ht).course hos
  refine ⟨hs.worker.ordered, hs.worker.state_eq_isOpen, hs.worker.state_iff_isUp, fun hf ↦ ?_⟩
  have hc := hs.stopped hf
  refine ⟨hs.worker.state_eq_isOpen.symm.trans hc, hc, fun hu ↦ ?_, log_course_of_isFinished hf⟩
  cases hc.symm.trans (hs.worker.state_iff_isUp.mpr hu)

def brokenLine : ScriptedLine where
  connects := [.ok (), .error (.io "busy")]
  disconnects := [.error (.io "stuck")]
  queue := [.chunk [0x5A, 0x0D, 0x0A]]
  replies := [.failure (.io "broken")]

def brokenRun : List (Occurrence ScriptedLine) :=
  [.turn, .submit (.query .powerQuery none), .turn, .submit (.query .powerQuery none), .turn,
    .line (ScriptedLine.feed · [.failure .disconnected]), .turn, .submit (.query .errorQuery none),
    .turn]

theorem lifeCycle_of_course_brokenRun : LifeCycle ((start {} brokenLine 0).course brokenRun) ∧
    ((start {} brokenLine 0).course brokenRun).isFinished = true ∧
    ((start {} brokenLine 0).course brokenRun).worker.log =
      [.connected, .line "Z", .disconnected, .connected, .disconnected] := by
  refine ⟨lifeCycle_of_course {} 0 rfl ?_, by decide, by decide⟩
  intro o ho
  simp only [brokenRun, List.mem_cons, List.not_mem_nil, or_false] at ho
  rcases ho with rfl | rfl | rfl | rfl | rfl | rfl | rfl | rfl | rfl <;>
    first | trivial | exact fun _ ↦ rfl

end Device

end AlarmPanel
