import AlarmPanel.Device.Worker

namespace AlarmPanel

section

variable {σ α β γ : Type}

theorem Except.bind_bind (r : Except PanelError α) (f : α → Except PanelError β)
    (g : β → Except PanelError γ) : (r.bind f).bind g = r.bind fun a ↦ (f a).bind g := by
  cases r <;> rfl

theorem Except.ok_bind (a : α) (f : α → Except PanelError β) : (Except.ok a).bind f = f a := rfl

theorem Line.ofExcept_bind (r : Except PanelError α) (f : α → Except PanelError β) :
    (ofExcept r >>= fun a ↦ ofExcept (f a) : LineM σ β) = ofExcept (r.bind f) := by
  cases r <;> rfl

theorem Line.ofExcept_pure (a : α) : (ofExcept (.ok a) : LineM σ α) = pure a := rfl

def PanelError.isUnreadable : PanelError → Bool
  | malformedResponse _ | decode .. | unsupported _ => true
  | _ => false

theorem PanelError.leavesLine_of_isUnreadable {e : PanelError} (h : e.isUnreadable = true) :
    e.isConnectionLevel = false := by
  cases e <;> first | rfl | cases h

/-- If the payload cannot be read, nothing else is wrong. -/
def Reads (r : Except PanelError α) : Prop :=
  ∀ e, r = .error e → e.isUnreadable = true

theorem reads_ok (a : α) : Reads (.ok a) := fun _ h ↦ by cases h

theorem reads_error {e : PanelError} (h : e.isUnreadable = true) :
    Reads (.error e : Except PanelError α) := fun _ he ↦ by cases he; exact h

theorem Reads.bind {r : Except PanelError α} {f : α → Except PanelError β} (hr : Reads r)
    (hf : ∀ a, Reads (f a)) : Reads (r.bind f) := by
  cases r with
  | ok a => exact hf a
  | error e => exact reads_error (hr e rfl)

theorem reads_readInt (radix : Nat) (s : List Char) : Reads (Payload.readInt radix s) := by
  unfold Payload.readInt
  split
  · exact reads_error rfl
  · cases Numeral.read .i64 radix (Text.trim _) with
    | ok n => exact reads_ok n
    | error e => exact reads_error rfl

theorem reads_wireCode (kind : String) (n : Int) : Reads (Payload.wireCode kind n) := by
  unfold Payload.wireCode
  split
  · exact reads_ok _
  · exact reads_error rfl

theorem reads_areaStatus (code : UInt32) : Reads (AreaStatus.ofCode code) := by
  unfold AreaStatus.ofCode
  split
  · exact reads_ok _
  · exact reads_error rfl

theorem reads_zoneStatus (code : UInt32) : Reads (ZoneStatus.ofCode code) := by
  unfold ZoneStatus.ofCode
  split
  · exact reads_ok _
  · exact reads_error rfl

end

namespace Poll

def command? : Poll → Option Command
  | areaStatus n => some (.indexed .areaStatus n)
  | zoneStatus n | zone n => some (.indexed .zoneStatus n)
  | powerState => some .powerQuery
  | errorCode | errorMessage => some .errorQuery
  | user _ => none

def read (payload : String) : Poll → Except PanelError Reading
  | areaStatus _ =>
    (((Payload.readInt 16 payload.toList).bind (Payload.wireCode "AreaStatus")).bind
      AreaStatus.ofCode).bind fun s ↦ .ok (Session.codeReading s.code)
  | zoneStatus _ | zone _ =>
    (((Payload.readInt 16 payload.toList).bind (Payload.wireCode "ZoneStatus")).bind
      ZoneStatus.ofCode).bind fun s ↦ .ok (Session.codeReading s.code)
  | powerState => (Payload.readInt 10 payload.toList).bind fun n ↦ .ok (.number (Decimal.ofInt n))
  | errorCode => (Payload.readInt 16 payload.toList).bind fun n ↦ .ok (.number (Decimal.ofInt n))
  | errorMessage => (Payload.readInt 10 payload.toList).bind fun n ↦ .ok (.text (moduleErrorText n))
  | user n => .error (.unsupported (user n).name)

theorem reads_read (payload : String) (p : Poll) : Reads (p.read payload) := by
  cases p with
  | areaStatus n =>
    exact (((reads_readInt _ _).bind (reads_wireCode _)).bind reads_areaStatus).bind
      fun s ↦ reads_ok _
  | zoneStatus n | zone n =>
    exact (((reads_readInt _ _).bind (reads_wireCode _)).bind reads_zoneStatus).bind
      fun s ↦ reads_ok _
  | powerState | errorCode | errorMessage => exact (reads_readInt _ _).bind fun n ↦ reads_ok _
  | user n => exact reads_error rfl

end Poll

namespace Request

def command? : Request → Option Command
  | query c _ => some c
  | poll p => p.command?

/-- How long the reply to a request may take. -/
def patience (timeout : Nat) : Request → Nat
  | query _ own => own.getD timeout
  | poll _ => timeout

def read (payload : String) : Request → Except PanelError Reading
  | query _ _ => .ok (.text payload)
  | poll p => p.read payload

def answer (c : Command) (reply : Reply) (q : Request) : Except PanelError Reading :=
  (reply.payload c.text).bind fun payload ↦ q.read payload

theorem reads_read (payload : String) (q : Request) : Reads (q.read payload) := by
  cases q with
  | query c own => exact reads_ok _
  | poll p => exact p.reads_read payload

theorem leavesLine_of_answer {c : Command} {reply : Reply} {q : Request} {e : PanelError}
    (h : q.answer c reply = .error e) : e.isConnectionLevel = false := by
  cases reply with
  | ok text => exact PanelError.leavesLine_of_isUnreadable (q.reads_read text e h)
  | failure token | timeout | empty => cases h; rfl

theorem classify_ne_timeout (raw : List Char) : Reply.classify raw ≠ .timeout := by
  unfold Reply.classify
  split
  · simp
  · split <;> simp

theorem answer_ne_timeout {c : Command} {reply : Reply} (h : reply ≠ .timeout) (q : Request)
    (text : String) : q.answer c reply ≠ .error (.timeout text) := by
  intro ha
  cases reply with
  | ok payload => exact Bool.noConfusion (q.reads_read payload _ ha)
  | timeout => exact h rfl
  | failure token | empty => cases ha

def exchange {σ : Type} [Transport σ] (c : Command) (timeout : Nat) (q : Request) : LineM σ Reading := do
  Line.ensureOpen
  let reply ← Line.send c.text (q.patience timeout)
  Line.ofExcept (q.answer c reply)

variable {σ : Type} [Transport σ]

theorem perform_eq {q : Request} {c : Command} (h : q.command? = some c) (timeout : Nat) :
    (q.perform timeout : LineM σ Reading) = q.exchange c timeout := by
  cases q with
  | query c' own =>
    obtain rfl : c' = c := by simpa [command?] using h
    simp only [perform, exchange, Session.query, bind_assoc, ← Line.ofExcept_pure, Line.ofExcept_bind]
    rfl
  | poll p =>
    cases p with
    | user n => simp [command?, Poll.command?] at h
    | areaStatus n | zoneStatus n | zone n | powerState | errorCode | errorMessage =>
      obtain rfl := Option.some.inj h
      simp only [perform, exchange, Session.poll, Session.areaStatus, Session.zoneStatus,
        Session.powerState, Session.errorCode, Session.errorText, Session.queryCode,
        Session.queryInt, Session.query, bind_assoc, ← Line.ofExcept_pure, Line.ofExcept_bind,
        answer, read, Poll.read, Except.bind_bind, Except.ok_bind]
      rfl

theorem perform_of_command?_eq_none {q : Request} (h : q.command? = none) (timeout : Nat) :
    ∃ e, (q.perform timeout : LineM σ Reading) = Line.fail e := by
  cases q with
  | query c own => simp [command?] at h
  | poll p =>
    cases p with
    | user n => exact ⟨_, rfl⟩
    | areaStatus n | zoneStatus n | zone n | powerState | errorCode | errorMessage =>
      simp [command?, Poll.command?] at h

end Request

end AlarmPanel
