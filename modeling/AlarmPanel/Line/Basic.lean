import AlarmPanel.Config
import AlarmPanel.Reply
import AlarmPanel.Text.Utf8

namespace AlarmPanel

/-- What carries octets between a panel and its user. Reading never waits: it hands back what is there,
and nothing means that the line is idle. -/
class Transport (σ : Type) where
  interface : σ → Interface
  isOpen : σ → Bool
  /-- How long to wait before looking at an idle line again. -/
  pollInterval : σ → Nat
  connect : Nat → σ → Except PanelError Unit × σ
  disconnect : σ → Except PanelError Unit × σ
  write : List UInt8 → σ → Except PanelError Unit × σ
  read : Nat → σ → Except PanelError (List UInt8) × σ
  /-- The transport has a way of its own to drop the input that waits. -/
  purges : σ → Bool := fun _ ↦ false
  purge : Nat → σ → Except PanelError Unit × σ := fun _ t ↦ (.ok (), t)
  isQuiet : σ → Bool
  /-- At least the number of octets and of reads that the line still holds. -/
  backlog : σ → Nat

/-- Why an operation ended early: it failed, or it would go on for ever. -/
inductive Halt where
  | failed (e : PanelError)
  | endless
  deriving DecidableEq, Repr

structure Line (σ : Type) where
  transport : σ
  now : Nat := 0

abbrev LineM (σ : Type) := EStateM Halt (Line σ)

namespace Line

variable {σ α : Type} [Transport σ]

def perform (f : Nat → σ → Except PanelError α × σ) : LineM σ α := fun l ↦
  match f l.now l.transport with
  | (.ok a, t) => .ok a { l with transport := t }
  | (.error e, t) => .error (.failed e) { l with transport := t }

def fail (e : PanelError) : LineM σ α :=
  throw (.failed e)

def ofExcept (r : Except PanelError α) : LineM σ α :=
  match r with
  | .ok a => pure a
  | .error e => fail e

def read : LineM σ (List UInt8) :=
  perform Transport.read

def write (octets : List UInt8) : LineM σ Unit :=
  perform fun _ ↦ Transport.write octets

def connect : LineM σ Unit :=
  perform Transport.connect

def disconnect : LineM σ Unit :=
  perform fun _ ↦ Transport.disconnect

def sleep (ms : Nat) : LineM σ Unit :=
  modify fun l ↦ { l with now := l.now + ms }

def ensureOpen : LineM σ Unit := do
  let l ← get
  if Transport.isOpen l.transport then pure () else connect

/-- Reads until the line is idle, at most `n` times, and keeps what it read after `got`. -/
def readAllWithin : Nat → List UInt8 → LineM σ (List UInt8)
  | 0, _ => throw .endless
  | n + 1, got => do
    let chunk ← read
    if chunk.isEmpty then pure got else readAllWithin n (got ++ chunk)

def readAll : LineM σ (List UInt8) := do
  let l ← get
  readAllWithin (Transport.backlog l.transport + 1) []

/-- Drops the input that waits, by reading it where the transport has no way of its own. -/
def discard : LineM σ Unit := do
  let l ← get
  if Transport.purges l.transport then perform Transport.purge else
    let _ ← readAll
    pure ()

/-- Reads on, at most `n` times, until a colon has come or the deadline has passed; `got` came
before. Between idle reads it waits for one poll interval, the last time until the deadline. -/
def collect (deadline : Nat) : Nat → List UInt8 → LineM σ Reply
  | 0, _ => throw .endless
  | n + 1, got => do
    let chunk ← read
    if !chunk.isEmpty && (got ++ chunk).contains Reply.terminator then
      pure (Reply.classify (Text.Utf8.decode (got ++ chunk)))
    else
      let l ← get
      if deadline ≤ l.now then pure Reply.timeout
      else if chunk.isEmpty then
        sleep (min (Transport.pollInterval l.transport) (deadline - l.now))
        collect deadline n (got ++ chunk)
      else collect deadline n (got ++ chunk)

/-- Enough reads for all input and for one idle read at each poll interval. -/
def collectBound (l : Line σ) (timeout : Nat) : Nat :=
  Transport.backlog l.transport + timeout / Transport.pollInterval l.transport + 3

/-- One exchange: stale input is dropped, the command is written, and the reply is read up to its colon
or until the deadline. Only interfaces that take commands can send. Times, and a time with a timeout
added to it, are taken to be representable. -/
def send (text : String) (timeout : Nat) : LineM σ Reply := do
  let l ← get
  let interface := Transport.interface l.transport
  if interface.supportsCommands then
    discard
    write (Text.Utf8.encode text.toList)
    let l ← get
    collect (l.now + timeout) (collectBound l timeout) []
  else fail (.notImplemented "send" interface.name)

end Line

end AlarmPanel
