import AlarmPanel.Frame.Assembler
import AlarmPanel.Line.Basic

namespace AlarmPanel

/-- A line and what was read from it but is no complete line yet. -/
structure Receiver (σ : Type) where
  line : Line σ
  assembler : Assembler := {}

abbrev ReceiverM (σ : Type) := EStateM Halt (Receiver σ)

inductive Look where
  | frame (text : String)
  | unfinished
  | idle
  deriving DecidableEq, Repr

def Look.frame? : Look → Option String
  | frame text => some text
  | _ => none

namespace Receiver

variable {σ α : Type} [Transport σ]

def onLine (x : LineM σ α) : ReceiverM σ α := fun r ↦
  match x r.line with
  | .ok a l => .ok a { r with line := l }
  | .error e l => .error e { r with line := l }

def take? : ReceiverM σ (Option String) := fun r ↦
  match r.assembler.take? with
  | some (text, a) => .ok (some text) { r with assembler := a }
  | none => .ok none r

def takeAll : ReceiverM σ (List String) := fun r ↦
  .ok r.assembler.takeAll.1 { r with assembler := r.assembler.takeAll.2 }

def push (octets : List UInt8) : ReceiverM σ Unit :=
  modify fun r ↦ { r with assembler := r.assembler.push octets }

def look : ReceiverM σ Look := do
  match ← take? with
  | some text => pure (.frame text)
  | none =>
    let chunk ← onLine Line.read
    if chunk.isEmpty then pure .idle else
      push chunk
      match ← take? with
      | some text => pure (.frame text)
      | none => pure .unfinished

def interval : ReceiverM σ Nat := do
  let r ← get
  pure (Transport.pollInterval r.line.transport)

/-- One look, and one poll interval of waiting where the line was idle. -/
def poll : ReceiverM σ (Option String) := do
  let seen ← look
  if seen = .idle then
    let ms ← interval
    onLine (Line.sleep ms)
  pure seen.frame?

/-- Looks until a line is complete or the time has come to stop. -/
def awaitWithin (stop : Nat) : Nat → ReceiverM σ (Option String)
  | 0 => throw .endless
  | n + 1 => do
    let r ← get
    if stop ≤ r.line.now then pure none
    else
      match ← look with
      | .frame text => pure (some text)
      | .unfinished => awaitWithin stop n
      | .idle =>
        let ms ← interval
        onLine (Line.sleep (min ms (stop - r.line.now)))
        awaitWithin stop n

/-- The next line, unless the time to stop comes first. -/
def await (stop : Nat) : ReceiverM σ (Option String) := do
  let r ← get
  awaitWithin stop (Line.collectBound r.line (stop - r.line.now))

end Receiver

end AlarmPanel
