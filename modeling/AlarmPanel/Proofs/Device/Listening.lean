import AlarmPanel.Proofs.Device.Hearing
import AlarmPanel.Proofs.Device.Request

namespace AlarmPanel

def News.text? : News → Option String
  | line text => some text
  | _ => none

namespace Receiver

variable {σ : Type} [Transport σ] {r : Receiver σ} {a : Assembler} {text : String} {l : Line σ}

theorem look_complete (h : r.assembler.take? = some (text, a)) :
    look r = .ok (.frame text) { r with assembler := a } := by
  have ht : take? r = .ok (some text) { r with assembler := a } := by simp only [take?, h]
  rw [look, bind_of_ok ht]
  rfl

theorem look_of_read {chunk : List UInt8} (h : r.assembler.take? = none)
    (hr : Line.read r.line = .ok chunk l) :
    look r = (if chunk.isEmpty then pure .idle else do
      push chunk
      match ← take? with
      | some text => pure (.frame text)
      | none => pure .unfinished : ReceiverM σ Look) { r with line := l } := by
  have ht : take? r = .ok none r := by simp only [take?, h]
  have ho : onLine Line.read r = .ok chunk { r with line := l } := by simp only [onLine, hr]
  rw [look, bind_of_ok ht]
  exact bind_of_ok ho

theorem look_idle (h : r.assembler.take? = none) (hr : Line.read r.line = .ok [] l) :
    look r = .ok .idle { r with line := l } := by
  rw [look_of_read h hr]
  rfl

theorem look_frame {chunk : List UInt8} (h : r.assembler.take? = none)
    (hr : Line.read r.line = .ok chunk l) (hc : chunk ≠ [])
    (hp : (r.assembler.push chunk).take? = some (text, a)) : look r = .ok (.frame text) ⟨l, a⟩ := by
  have hm : push chunk { r with line := l } = .ok () ⟨l, r.assembler.push chunk⟩ := rfl
  have ht : take? (⟨l, r.assembler.push chunk⟩ : Receiver σ) = .ok (some text) ⟨l, a⟩ := by
    simp only [take?, hp]
  rw [look_of_read h hr, if_neg (by simpa using hc), bind_of_ok hm, bind_of_ok ht]
  rfl

theorem look_unfinished {chunk : List UInt8} (h : r.assembler.take? = none)
    (hr : Line.read r.line = .ok chunk l) (hc : chunk ≠ [])
    (hp : (r.assembler.push chunk).take? = none) :
    look r = .ok .unfinished ⟨l, r.assembler.push chunk⟩ := by
  have hm : push chunk { r with line := l } = .ok () ⟨l, r.assembler.push chunk⟩ := rfl
  have ht : take? (⟨l, r.assembler.push chunk⟩ : Receiver σ) =
      .ok none ⟨l, r.assembler.push chunk⟩ := by simp only [take?, hp]
  rw [look_of_read h hr, if_neg (by simpa using hc), bind_of_ok hm, bind_of_ok ht]
  rfl

theorem look_failed {e : Halt} (h : r.assembler.take? = none)
    (hr : Line.read r.line = .error e l) : look r = .error e { r with line := l } := by
  have ht : take? r = .ok none r := by simp only [take?, h]
  have ho : onLine Line.read r = .error e { r with line := l } := by simp only [onLine, hr]
  rw [look, bind_of_ok ht]
  exact bind_of_error ho

theorem line_look (r : Receiver ScriptedLine) : ∃ q, (stateOf (look r)).line = r.line.withQueue q := by
  cases ht : r.assembler.take? with
  | some p =>
    refine ⟨r.line.transport.queue, ?_⟩
    rw [look_complete ht]
    rfl
  | none =>
    cases hq : r.line.transport.queue with
    | nil =>
      refine ⟨r.line.transport.queue, ?_⟩
      rw [look_idle ht (Line.read_nil hq)]
      rfl
    | cons i q =>
      refine ⟨q, ?_⟩
      cases i with
      | idle => rw [look_idle ht (Line.read_cons_idle hq)]; rfl
      | failure e => rw [look_failed ht (Line.read_cons_failure hq)]; rfl
      | chunk o =>
        by_cases ho : o = []
        · subst ho
          rw [look_idle ht (Line.read_cons_chunk hq)]
          rfl
        · cases hp : (r.assembler.push o).take? with
          | none => rw [look_unfinished ht (Line.read_cons_chunk hq) ho hp]; rfl
          | some p => rw [look_frame ht (Line.read_cons_chunk hq) ho hp]; rfl

end Receiver

namespace Worker

section

variable {σ α β : Type}

def told (w : Worker σ) : List String :=
  w.log.filterMap News.text?

def handleAll (lines : List String) (w : Worker σ) : Worker σ :=
  lines.foldl (fun w text ↦ handle text w) w

theorem receiver_handle (text : String) (w : Worker σ) : (handle text w).receiver = w.receiver := by
  unfold handle
  split <;> rfl

theorem timeout_handle (text : String) (w : Worker σ) : (handle text w).timeout = w.timeout := by
  unfold handle
  split <;> rfl

theorem connected_handle (text : String) (w : Worker σ) :
    (handle text w).connected = w.connected := by
  unfold handle
  split <;> rfl

theorem told_handle (text : String) (w : Worker σ) : (handle text w).told = w.told ++ [text] := by
  unfold handle
  split <;> simp [told, report, News.text?]

theorem exists_log_handle (text : String) (w : Worker σ) :
    ∃ events : List Event, (handle text w).log = w.log ++ .line text :: events.map .event := by
  unfold handle
  split
  case h_1 e _ => exact ⟨[e], by simp [report]⟩
  case h_2 => exact ⟨[], rfl⟩

theorem receiver_handleAll (lines : List String) (w : Worker σ) :
    (handleAll lines w).receiver = w.receiver := by
  induction lines generalizing w with
  | nil => rfl
  | cons text lines ih => exact (ih _).trans (receiver_handle text w)

theorem timeout_handleAll (lines : List String) (w : Worker σ) :
    (handleAll lines w).timeout = w.timeout := by
  induction lines generalizing w with
  | nil => rfl
  | cons text lines ih => exact (ih _).trans (timeout_handle text w)

theorem told_handleAll (lines : List String) (w : Worker σ) :
    (handleAll lines w).told = w.told ++ lines := by
  induction lines generalizing w with
  | nil => simp [handleAll]
  | cons text lines ih =>
    calc
      _ = (handle text w).told ++ lines := ih _
      _ = w.told ++ text :: lines := by rw [told_handle, List.append_assoc, List.singleton_append]

theorem onReceiver_ok {x : ReceiverM σ α} {w : Worker σ} {a : α} {r : Receiver σ}
    (h : x w.receiver = .ok a r) : onReceiver x w = .ok a { w with receiver := r } := by
  simp only [onReceiver, h]

theorem onReceiver_error {x : ReceiverM σ α} {w : Worker σ} {e : Halt} {r : Receiver σ}
    (h : x w.receiver = .error e r) : onReceiver x w = .error e { w with receiver := r } := by
  simp only [onReceiver, h]

theorem onLine_ok {x : LineM σ α} {w : Worker σ} {a : α} {l : Line σ}
    (h : x w.receiver.line = .ok a l) :
    onLine x w = .ok a { w with receiver := { w.receiver with line := l } } := by
  simp only [onLine, onReceiver, Receiver.onLine, h]

theorem onLine_error {x : LineM σ α} {w : Worker σ} {e : Halt} {l : Line σ}
    (h : x w.receiver.line = .error e l) :
    onLine x w = .error e { w with receiver := { w.receiver with line := l } } := by
  simp only [onLine, onReceiver, Receiver.onLine, h]

theorem onLine_bind (x : LineM σ α) (f : α → LineM σ β) :
    onLine (x >>= f) = onLine x >>= fun a ↦ onLine (f a) := by
  funext w
  cases h : x w.receiver.line with
  | ok a l =>
    rw [bind_of_ok (onLine_ok h)]
    cases hf : f a l with
    | ok b l' => rw [onLine_ok ((bind_of_ok h).trans hf), onLine_ok hf]
    | error e l' => rw [onLine_error ((bind_of_ok h).trans hf), onLine_error hf]
  | error e l => rw [onLine_error (bind_of_error h), bind_of_error (onLine_error h)]

variable [Transport σ]

theorem guarded_ok {x : WorkerM σ α} {w w' : Worker σ} {a : α} (h : x w = .ok a w') :
    guarded x w = .ok a w' :=
  tryCatch_of_ok h

theorem guarded_failed {x : WorkerM σ α} {w w' : Worker σ} {e : PanelError}
    (h : x w = .error (.failed e) w') :
    guarded x w = .error (.failed e) (if e.isConnectionLevel then close w' else w') := by
  rw [guarded, tryCatch_of_error h]
  dsimp only
  split <;> rfl

theorem guarded_endless {x : WorkerM σ α} {w w' : Worker σ} (h : x w = .error .endless w') :
    guarded x w = .error .endless w' :=
  tryCatch_of_error h

theorem guarded_bind (x : WorkerM σ α) (f : α → WorkerM σ β) :
    guarded (x >>= f) = guarded x >>= fun a ↦ guarded (f a) := by
  funext w
  cases h : x w with
  | ok a w' =>
    rw [bind_of_ok (guarded_ok h)]
    cases hf : f a w' with
    | ok b w'' => rw [guarded_ok hf, guarded_ok ((bind_of_ok h).trans hf)]
    | error e w'' =>
      have hb : (x >>= f) w = .error e w'' := (bind_of_ok h).trans hf
      cases e with
      | failed e => rw [guarded_failed hf, guarded_failed hb]
      | endless => rw [guarded_endless hf, guarded_endless hb]
  | error e w' =>
    have hb : (x >>= f) w = .error e w' := bind_of_error h
    cases e with
    | failed e => rw [guarded_failed hb, bind_of_error (guarded_failed h)]
    | endless => rw [guarded_endless hb, bind_of_error (guarded_endless h)]

theorem stateOf_guarded (x : WorkerM σ α) (w : Worker σ) :
    stateOf (guarded x w) = stateOf (x w) ∨ stateOf (guarded x w) = close (stateOf (x w)) := by
  cases h : x w with
  | ok a w' => rw [guarded_ok h]; exact .inl rfl
  | error e w' =>
    cases e with
    | endless => rw [guarded_endless h]; exact .inl rfl
    | failed e =>
      rw [guarded_failed h]
      cases e.isConnectionLevel
      · exact .inl rfl
      · exact .inr rfl

end

variable {w w' : Worker ScriptedLine}

def hearing (w : Worker ScriptedLine) : Hearing :=
  ⟨w.told, w.receiver.assembler, w.transport.queue⟩

def withQueue (q : List LineItem) (w : Worker ScriptedLine) : Worker ScriptedLine :=
  { w with receiver := { w.receiver with line := w.receiver.line.withQueue q } }

@[simp] theorem transport_withQueue (q : List LineItem) (w : Worker ScriptedLine) :
    (w.withQueue q).transport = { w.transport with queue := q } := rfl

@[simp] theorem timeout_withQueue (q : List LineItem) (w : Worker ScriptedLine) :
    (w.withQueue q).timeout = w.timeout := rfl

@[simp] theorem hearing_withQueue (q : List LineItem) (w : Worker ScriptedLine) :
    (w.withQueue q).hearing = { w.hearing with queue := q } := rfl

theorem hearing_close (w : Worker ScriptedLine) : w.close.hearing = w.hearing := by
  cases hc : w.connected <;> simp [close, hc, hearing, told, report, withTransport, transport,
    Transport.disconnect, ScriptedLine.disconnect, News.text?]

/-- What stays the same from one worker to a later one; attempts to open the line are used up. -/
structure Steady (w w' : Worker ScriptedLine) : Prop where
  interval : w'.transport.interval = w.transport.interval
  timeout : w'.timeout = w.timeout
  connects : ∀ r ∈ w'.transport.connects, r ∈ w.transport.connects

theorem Steady.refl (w : Worker ScriptedLine) : Steady w w := ⟨rfl, rfl, fun _ hr ↦ hr⟩

theorem Steady.trans {w'' : Worker ScriptedLine} (h : Steady w w') (h' : Steady w' w'') :
    Steady w w'' where
  interval := h'.interval.trans h.interval
  timeout := h'.timeout.trans h.timeout
  connects r hr := h.connects r (h'.connects r hr)

theorem ensureConnected_open (h : w.transport.isOpen = true) : ensureConnected w = .ok () w := by
  have ho : Transport.isOpen w.transport = true := h
  rw [ensureConnected, get_bind, if_pos ho]
  rfl

theorem steady_close (w : Worker ScriptedLine) : Steady w w.close := by
  unfold close
  dsimp only
  split <;> exact ⟨rfl, rfl, fun _ hr ↦ hr⟩

/-- The line opens, or is open, and nothing is heard of it. -/
structure Opens (w w' : Worker ScriptedLine) : Prop where
  ensureConnected : ensureConnected w = .ok () w'
  isOpen : w'.transport.isOpen = true
  steady : Steady w w'
  hearing : w'.hearing = w.hearing
  replies : w'.transport.replies = w.transport.replies

theorem Opens.queue (h : Opens w w') : w'.transport.queue = w.transport.queue :=
  congrArg Hearing.queue h.hearing

structure OpenFails (e : PanelError) (w w' : Worker ScriptedLine) : Prop where
  ensureConnected : ensureConnected w = .error (.failed e) w'
  connects : .error e ∈ w.transport.connects
  steady : Steady w w'
  hearing : w'.hearing = w.hearing

theorem opens_or_fails (w : Worker ScriptedLine) :
    ∃ w', Opens w w' ∨ ∃ e, OpenFails e w w' := by
  cases ho : w.transport.isOpen with
  | true => exact ⟨w, .inl ⟨ensureConnected_open ho, ho, .refl w, rfl, rfl⟩⟩
  | false =>
    have hc : ¬ Transport.isOpen w.transport = true := by simpa [Transport.isOpen] using ho
    have ht (w : Worker ScriptedLine) : (report w .connected).told = w.told := by
      simp [told, report, News.text?]
    have he : ensureConnected w = (do
        onLine Line.connect
        modify fun w ↦ report { w with connected := true } .connected) w := by
      rw [ensureConnected, get_bind, if_neg hc]
    cases hn : w.receiver.line.transport.connects with
    | nil =>
      rw [bind_of_ok (onLine_ok (Line.connect_nil hn))] at he
      refine ⟨_, .inl ⟨he, rfl, ⟨rfl, rfl, fun r hr ↦ hr⟩, ?_, rfl⟩⟩
      rw [hearing, ht]
      rfl
    | cons r l =>
      have hl : ∀ r ∈ l, r ∈ w.transport.connects := fun r hr ↦ by
        rw [transport, hn]; exact List.mem_cons_of_mem _ hr
      cases r with
      | ok u =>
        rw [bind_of_ok (onLine_ok (Line.connect_ok hn))] at he
        refine ⟨_, .inl ⟨he, rfl, ⟨rfl, rfl, hl⟩, ?_, rfl⟩⟩
        rw [hearing, ht]
        rfl
      | error e =>
        rw [bind_of_error (onLine_error (Line.connect_error hn))] at he
        refine ⟨_, .inr ⟨e, he, ?_, ⟨rfl, rfl, hl⟩, rfl⟩⟩
        rw [transport, hn]
        exact List.mem_cons_self

theorem exists_opens (h : ∀ r ∈ w.transport.connects, r = .ok ()) : ∃ w', Opens w w' := by
  obtain ⟨w', ho | ⟨e, hf⟩⟩ := opens_or_fails w
  · exact ⟨w', ho⟩
  · cases h _ hf.connects

/-- The worker as input is passed on to the assembler and its lines are told. -/
def absorb (octets : List UInt8) (w : Worker ScriptedLine) : Worker ScriptedLine :=
  let a := if octets = [] then w.receiver.assembler else w.receiver.assembler.push octets
  handleAll a.takeAll.1 { w with receiver := { w.receiver with assembler := a.takeAll.2 } }

@[simp] theorem transport_absorb (octets : List UInt8) (w : Worker ScriptedLine) :
    (w.absorb octets).transport = w.transport := by
  simp only [transport, absorb, receiver_handleAll]

@[simp] theorem timeout_absorb (octets : List UInt8) (w : Worker ScriptedLine) :
    (w.absorb octets).timeout = w.timeout := by
  rw [absorb, timeout_handleAll]

theorem drain_of_idle (h : (ScriptedLine.burst w.transport.queue).failure = none) :
    drain w = .ok () ((w.withQueue (ScriptedLine.burst w.transport.queue).rest).absorb
      (ScriptedLine.burst w.transport.queue).octets) := by
  have hr : Line.readAll w.receiver.line = .ok (ScriptedLine.burst w.transport.queue).octets
      (w.receiver.line.withQueue (ScriptedLine.burst w.transport.queue).rest) := by
    rw [transport] at h
    rw [Line.readAll_eq, Line.ofBurst, h]
    rfl
  rw [drain, bind_of_ok (onLine_ok hr), absorb]
  by_cases ho : (ScriptedLine.burst w.transport.queue).octets = []
  · rw [if_pos (List.isEmpty_iff.mpr ho), if_pos ho]
    rfl
  · rw [if_neg (by simpa using ho), if_neg ho]
    rfl

theorem drain_of_failure {e : PanelError}
    (h : (ScriptedLine.burst w.transport.queue).failure = some e) :
    drain w = .error (.failed e) (w.withQueue (ScriptedLine.burst w.transport.queue).rest) := by
  have hr : Line.readAll w.receiver.line = .error (.failed e)
      (w.receiver.line.withQueue (ScriptedLine.burst w.transport.queue).rest) := by
    rw [transport] at h
    rw [Line.readAll_eq, Line.ofBurst, h]
    rfl
  rw [drain, bind_of_error (onLine_error hr)]
  rfl

@[simp] theorem hearing_absorb (octets : List UInt8) (w : Worker ScriptedLine) :
    (w.absorb octets).hearing = w.hearing.absorb octets := by
  simp only [hearing, transport, absorb, told_handleAll, receiver_handleAll, Hearing.absorb,
    Hearing.tellAll]
  rfl

theorem hearing_drain (w : Worker ScriptedLine) :
    (stateOf (drain w)).hearing = w.hearing.drain := by
  cases h : (ScriptedLine.burst w.transport.queue).failure with
  | none =>
    rw [drain_of_idle h, stateOf, hearing_absorb]
    simp only [Hearing.drain, hearing, h]
    rfl
  | some e =>
    rw [drain_of_failure h]
    simp only [Hearing.drain, hearing, h]
    rfl

theorem listen_of_look {σ : Type} [Transport σ] {w w₁ : Worker σ} {seen : Look} {r : Receiver σ}
    (h₁ : ensureConnected w = .ok () w₁) (h₂ : Receiver.look w₁.receiver = .ok seen r) :
    listen w = .ok seen (handleAll seen.frame?.toList { w₁ with receiver := r }) := by
  have hl : lookOver w₁ = .ok seen { w₁ with receiver := r } :=
    tryCatch_of_ok (onReceiver_ok h₂)
  rw [listen, bind_of_ok h₁, bind_of_ok hl]
  cases seen <;> rfl

theorem listen_of_failure {σ : Type} [Transport σ] {w w₁ : Worker σ} {e : PanelError} {r : Receiver σ}
    (h₁ : ensureConnected w = .ok () w₁) (h₂ : Receiver.look w₁.receiver = .error (.failed e) r) :
    listen w = if e.isConnectionLevel then .error (.failed e) { w₁ with receiver := r }
      else .ok .unfinished { w₁ with receiver := r } := by
  rw [listen, bind_of_ok h₁]
  cases he : e.isConnectionLevel with
  | true =>
    have hl : lookOver w₁ = .error (.failed e) { w₁ with receiver := r } := by
      rw [lookOver, tryCatch_of_error (onReceiver_error h₂)]
      simp only [he]
      rfl
    rw [bind_of_error hl]
    rfl
  | false =>
    have hl : lookOver w₁ = .ok .unfinished { w₁ with receiver := r } := by
      rw [lookOver, tryCatch_of_error (onReceiver_error h₂)]
      simp only [he]
      rfl
    rw [bind_of_ok hl]
    rfl

theorem lookOver_endless {r : Receiver ScriptedLine}
    (h : Receiver.look w.receiver = .error .endless r) :
    lookOver w = .error .endless { w with receiver := r } :=
  tryCatch_of_error (onReceiver_error h)

theorem transport_listen {w₁ : Worker ScriptedLine} (h₁ : ensureConnected w = .ok () w₁) :
    ∃ q, (stateOf (listen w)).transport = { w₁.transport with queue := q } ∧
      (stateOf (listen w)).timeout = w₁.timeout := by
  obtain ⟨q, hq⟩ := Receiver.line_look w₁.receiver
  refine ⟨q, ?_⟩
  cases hl : Receiver.look w₁.receiver with
  | ok seen r =>
    rw [hl] at hq
    rw [listen_of_look h₁ hl, stateOf, timeout_handleAll, transport, receiver_handleAll]
    exact ⟨congrArg Line.transport hq, rfl⟩
  | error e r =>
    rw [hl] at hq
    cases e with
    | failed e =>
      rw [listen_of_failure h₁ hl]
      cases e.isConnectionLevel <;> exact ⟨congrArg Line.transport hq, rfl⟩
    | endless =>
      rw [listen, bind_of_ok h₁, bind_of_error (lookOver_endless hl)]
      exact ⟨congrArg Line.transport hq, rfl⟩

theorem steady_listen (w : Worker ScriptedLine) : Steady w (stateOf (listen w)) := by
  obtain ⟨w', ho | ⟨e, hf⟩⟩ := opens_or_fails w
  · obtain ⟨q, hq, ht⟩ := transport_listen ho.ensureConnected
    refine ho.steady.trans ⟨?_, ht, ?_⟩
    · rw [hq]
    · intro r hr
      rwa [hq] at hr
  · rw [listen, bind_of_error hf.ensureConnected]
    exact hf.steady

theorem isOpen_listen (h : w.transport.isOpen = true) :
    (stateOf (listen w)).transport.isOpen = true := by
  obtain ⟨q, hq, -⟩ := transport_listen (ensureConnected_open h)
  rw [hq]
  exact h

theorem hearing_handleAll (lines : List String) (w : Worker ScriptedLine) :
    (handleAll lines w).hearing = { w.hearing with told := w.told ++ lines } := by
  simp only [hearing, transport, told_handleAll, receiver_handleAll]

theorem hearing_listen_of_read {w₁ : Worker ScriptedLine} {i : LineItem} {q : List LineItem}
    (h₁ : ensureConnected w = .ok () w₁) (ht : w₁.receiver.assembler.take? = none)
    (hq : w₁.receiver.line.transport.queue = i :: q) :
    (stateOf (listen w)).hearing =
      if i.octets = [] then { w₁.hearing with queue := q }
      else Hearing.tell
        { w₁.hearing with queue := q, assembler := w₁.receiver.assembler.push i.octets } := by
  cases i with
  | idle =>
    rw [listen_of_look h₁ (Receiver.look_idle ht (Line.read_cons_idle hq))]
    rfl
  | failure e =>
    rw [listen_of_failure h₁ (Receiver.look_failed ht (Line.read_cons_failure hq))]
    cases e.isConnectionLevel <;> rfl
  | chunk o =>
    by_cases ho : o = []
    · subst ho
      rw [listen_of_look h₁ (Receiver.look_idle ht (Line.read_cons_chunk hq))]
      rfl
    · have hne : ¬ (LineItem.chunk o).octets = [] := ho
      rw [if_neg hne, Hearing.tell]
      simp only [LineItem.octets]
      cases hp : (w₁.receiver.assembler.push o).take? with
      | none =>
        rw [listen_of_look h₁ (Receiver.look_unfinished ht (Line.read_cons_chunk hq) ho hp)]
        rfl
      | some p =>
        rw [listen_of_look h₁ (Receiver.look_frame ht (Line.read_cons_chunk hq) ho hp)]
        exact hearing_handleAll [p.1] _

theorem hearing_listen_of_ok {w₁ : Worker ScriptedLine} (h₁ : ensureConnected w = .ok () w₁) :
    (stateOf (listen w)).hearing = w₁.hearing.look := by
  have hq : w₁.hearing.queue = w₁.receiver.line.transport.queue := rfl
  have ha : w₁.hearing.assembler = w₁.receiver.assembler := rfl
  unfold Hearing.look
  split
  case h_1 p ht =>
    rw [listen_of_look h₁ (Receiver.look_complete ht), Hearing.tell, ht]
    exact hearing_handleAll [p.1] _
  case h_2 ht hn =>
    rw [listen_of_look h₁ (Receiver.look_idle ht (Line.read_nil hn))]
    rfl
  case h_3 i q ht hc => exact hearing_listen_of_read h₁ ht hc

theorem hearing_listen (w : Worker ScriptedLine) :
    (stateOf (listen w)).hearing = w.hearing ∨ (stateOf (listen w)).hearing = w.hearing.look := by
  obtain ⟨w', ho | ⟨e, hf⟩⟩ := opens_or_fails w
  · exact .inr (by rw [hearing_listen_of_ok ho.ensureConnected, ho.hearing])
  · refine .inl ?_
    rw [listen, bind_of_error hf.ensureConnected]
    exact hf.hearing

end Worker

end AlarmPanel
