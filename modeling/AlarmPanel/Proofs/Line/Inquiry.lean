import AlarmPanel.Proofs.Line.Schedule
import AlarmPanel.Proofs.Reply.Status

namespace AlarmPanel

namespace Line

open ScriptedLine

/-- The reads that an exchange may make: no failure waits among the stale input, and the write leads to
input. -/
def Offers (timeout : Nat) (l : Line WatchedLine) (planned : List (Nat × LineItem)) : Prop :=
  (∀ e, .failure e ∉ reads l.queue) ∧ ∃ items, l.answer = .items items ∧
    planned = plan l.transport.line.interval l.now timeout
      (l.queue.drop (reads l.queue).length ++ items)

/-- The octets are those of the reads up to the first colon, which is there in time. -/
def Delivers (timeout : Nat) (l : Line ScriptedLine) (got : List UInt8) : Prop :=
  ∃ before time last rest, Offers timeout l.watched (before ++ (time, .chunk last) :: rest) ∧
    (∀ x ∈ before, x.2.IsQuiet) ∧ Reply.terminator ∈ last ∧
      got = octets (before.map Prod.snd) ++ last

/-- No colon is there in time. -/
def Withholds (timeout : Nat) (l : Line ScriptedLine) : Prop :=
  ∃ planned, Offers timeout l.watched planned ∧ ∀ x ∈ planned, x.2.IsQuiet

variable {l l₁ : Line ScriptedLine} {timeout : Nat} {got : List UInt8} {text : String}

theorem send_of_settles (hp : 0 < l.transport.interval) {planned made : List (Nat × LineItem)}
    {reply : Reply} {now : Nat} (h : Offers timeout l.watched planned)
    (hs : Settles (l.now + timeout) [] planned made (.ok reply) now) :
    ∃ l', send text timeout l = .ok reply l' := by
  obtain ⟨hf, items, ha, rfl⟩ := h
  have hsends : Sends text timeout l.watched _ := .settled hf ha hs
  have hw := (sends_send hp).unique hsends
  exact ⟨_, by rw [send_watched, hw]; rfl⟩

theorem send_of_delivers (hp : 0 < l.transport.interval) (h : Delivers timeout l got) :
    ∃ l', send text timeout l = .ok (Reply.classify (Text.Utf8.decode got)) l' := by
  obtain ⟨before, time, last, rest, ho, hb, hl, rfl⟩ := h
  have hi : ¬ (LineItem.chunk last).IsQuiet := fun hq ↦ hq hl
  exact send_of_settles hp ho (.read rfl hb hi)

theorem send_of_withholds (hp : 0 < l.transport.interval) (h : Withholds timeout l) :
    ∃ l', send text timeout l = .ok .timeout l' := by
  obtain ⟨planned, ho, hq⟩ := h
  exact send_of_settles hp ho (.timeout hq)

end Line

namespace StatusTable

open Line Payload

section

variable {σ α : Type} [Transport σ] {t : StatusTable α} {ofCode : UInt32 → Except PanelError α}

def ask (t : StatusTable α) (ofCode : UInt32 → Except PanelError α) (timeout : Nat) (n : UInt32) :
    LineM σ α := do
  Line.ensureOpen
  let reply ← Line.send (t.command n) timeout
  Line.ofExcept ((reply.payload (t.command n)).bind (t.read ofCode))

theorem ask_eq (t : StatusTable α) (ofCode : UInt32 → Except PanelError α) (timeout : Nat)
    (n : UInt32) : (do
      let code ← Session.queryCode timeout (.indexed t.operation n) t.kind
      Line.ofExcept (ofCode code) : LineM σ α) = t.ask ofCode timeout n := by
  have hr : t.read ofCode =
      fun p ↦ (readInt 16 p.toList).bind fun m ↦ (wireCode t.kind m).bind ofCode := by
    funext p
    exact Except.bind_bind _ _ _
  simp only [Session.queryCode, Session.queryInt, Session.query, bind_assoc, Line.ofExcept_bind,
    Except.bind_bind, ask, hr]
  rfl

theorem ask_of_send {l l₁ l₂ : Line σ} {timeout : Nat} {n : UInt32} {reply : Reply}
    (ho : Line.ensureOpen l = .ok () l₁) (hs : Line.send (t.command n) timeout l₁ = .ok reply l₂) :
    t.ask ofCode timeout n l =
      Line.ofExcept ((reply.payload (t.command n)).bind (t.read ofCode)) l₂ := by
  rw [ask, bind_of_ok ho, bind_of_ok hs]

end

variable {α : Type} {t : StatusTable α} {ofCode : UInt32 → Except PanelError α} {l l₁ : Line ScriptedLine}
  {timeout : Nat} {got : List UInt8}

theorem ask_of_delivers (h : t.Decodes ofCode) (ho : ensureOpen l = .ok () l₁)
    (hp : 0 < l₁.transport.interval) (n : UInt32) (hd : Delivers timeout l₁ got) :
    ∃ r l₂, t.ask ofCode timeout n l = ofExcept r l₂ ∧ t.Judges n (Text.Utf8.decode got) r := by
  obtain ⟨l₂, hs⟩ := send_of_delivers hp hd
  exact ⟨_, l₂, ask_of_send ho hs, judges_answer h n _⟩

theorem ask_of_withholds (ho : ensureOpen l = .ok () l₁) (hp : 0 < l₁.transport.interval) (n : UInt32)
    (hw : Withholds timeout l₁) :
    ∃ l₂, t.ask ofCode timeout n l = .error (.failed (.timeout (t.command n))) l₂ := by
  obtain ⟨l₂, hs⟩ := send_of_withholds hp hw
  exact ⟨l₂, ask_of_send ho hs⟩

/-- A query for the status of a zone or an area, on a line that can be opened and where time passes. A
reply in time decides the result by its payload alone, and without a colon in time there is a timeout. -/
theorem status_exact (ho : ensureOpen l = .ok () l₁) (hp : 0 < l₁.transport.interval) (n : UInt32) :
    (∀ got, Delivers timeout l₁ got →
      (∃ r l₂, Session.zoneStatus timeout n l = ofExcept r l₂ ∧
        zones.Judges n (Text.Utf8.decode got) r) ∧
      ∃ r l₂, Session.areaStatus timeout n l = ofExcept r l₂ ∧
        areas.Judges n (Text.Utf8.decode got) r) ∧
    (Withholds timeout l₁ →
      (∃ l₂, Session.zoneStatus timeout n l =
        .error (.failed (.timeout (zones.command n))) l₂) ∧
      ∃ l₂, Session.areaStatus timeout n l =
        .error (.failed (.timeout (areas.command n))) l₂) := by
  have hz : Session.zoneStatus timeout n l = zones.ask ZoneStatus.ofCode timeout n l := by
    rw [← ask_eq]
    rfl
  have ha : Session.areaStatus timeout n l = areas.ask AreaStatus.ofCode timeout n l := by
    rw [← ask_eq]
    rfl
  rw [hz, ha]
  refine ⟨fun got hd ↦ ⟨?_, ?_⟩, fun hw ↦ ⟨?_, ?_⟩⟩
  · exact ask_of_delivers decodes_zones ho hp n hd
  · exact ask_of_delivers decodes_areas ho hp n hd
  · exact ask_of_withholds ho hp n hw
  · exact ask_of_withholds ho hp n hw

def partedStatus (isOpen : Bool) : Line ScriptedLine where
  transport := {
    queue := [.chunk [0x5A]]
    replies := [.items [.chunk (Text.Utf8.encode "RZ005=+0".toList), .idle, .idle,
      .chunk (Text.Utf8.encode "080:\r".toList)]]
    isOpen := isOpen }

theorem delivers_parted :
    Delivers 150 (partedStatus true) (Text.Utf8.encode "RZ005=+0080:\r".toList) := by
  have hs : ∀ e, LineItem.failure e ∉ ScriptedLine.reads (partedStatus true).watched.queue := by
    simp [partedStatus, watched, queue, ScriptedLine.reads, LineItem.octets]
  refine ⟨[(0, .chunk (Text.Utf8.encode "RZ005=+0".toList)), (0, .idle), (100, .idle)], 150,
    Text.Utf8.encode "080:\r".toList, [], ⟨hs, _, rfl, ?_⟩, ?_, ?_, ?_⟩ <;> decide

theorem tells_parted :
    Tells 16 (Reply.clean (Text.Utf8.decode (Text.Utf8.encode "RZ005=+0080:\r".toList))) 0x80 := by
  have hc : Reply.clean (Text.Utf8.decode (Text.Utf8.encode "RZ005=+0080:\r".toList)) =
      "RZ005=+0080".toList := by decide
  have h0 : Numeral.IsDigit 16 '0' 0 := ⟨by decide, by decide⟩
  have h8 : Numeral.IsDigit 16 '8' 8 := ⟨by decide, by decide⟩
  rw [hc]
  refine ⟨[], "+0080".toList, [], ⟨⟨"RZ005".toList, [], rfl, by decide, by simp⟩, by decide⟩,
    Text.blanks_nil, Text.blanks_nil, ?_⟩
  exact .plus ⟨by simp, [0, 0, 8, 0], .cons h0 (.cons h0 (.cons h8 (.cons h0 .nil))), rfl⟩

theorem status_exact_parted :
    ensureOpen (partedStatus false) = .ok () (partedStatus true) ∧
      0 < (partedStatus true).transport.interval ∧
      Delivers 150 (partedStatus true) (Text.Utf8.encode "RZ005=+0080:\r".toList) ∧
      ∃ l, Session.zoneStatus 150 5 (partedStatus false) = .ok .alarm l := by
  have ho : ensureOpen (partedStatus false) = .ok () (partedStatus true) := rfl
  have hp : 0 < (partedStatus true).transport.interval := by decide
  refine ⟨ho, hp, delivers_parted, ?_⟩
  obtain ⟨r, l, hr, hj⟩ := ((status_exact ho hp 5).1 _ delivers_parted).1
  have hok : r = .ok .alarm := (hj.status .alarm).mpr tells_parted
  exact ⟨l, by rw [hr, hok]; rfl⟩

end StatusTable

end AlarmPanel
