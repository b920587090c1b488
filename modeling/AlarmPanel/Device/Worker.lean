import AlarmPanel.Event.Line
import AlarmPanel.Frame.Receiver
import AlarmPanel.Line.Session

namespace AlarmPanel

inductive Request where
  | query (c : Command) (own : Option Nat)
  | poll (p : Poll)
  deriving DecidableEq, Repr

/-- The exchange that a request stands for. A query reads the payload of the reply. -/
def Request.perform {σ : Type} [Transport σ] (timeout : Nat) : Request → LineM σ Reading
  | query c own => do
    let payload ← Session.query timeout c own
    pure (.text payload)
  | poll p => Session.poll timeout p

structure Worker (σ : Type) where
  receiver : Receiver σ
  timeout : Nat
  connected : Bool := false
  log : List News := []

abbrev WorkerM (σ : Type) := EStateM Halt (Worker σ)

namespace Worker

variable {σ α : Type} [Transport σ]

def transport (w : Worker σ) : σ :=
  w.receiver.line.transport

def now (w : Worker σ) : Nat :=
  w.receiver.line.now

def withTransport (w : Worker σ) (t : σ) : Worker σ :=
  { w with receiver := { w.receiver with line := { w.receiver.line with transport := t } } }

def withNow (w : Worker σ) (ms : Nat) : Worker σ :=
  { w with receiver := { w.receiver with line := { w.receiver.line with now := ms } } }

def report (w : Worker σ) (n : News) : Worker σ :=
  { w with log := w.log ++ [n] }

def onReceiver (x : ReceiverM σ α) : WorkerM σ α := fun w ↦
  match x w.receiver with
  | .ok a r => .ok a { w with receiver := r }
  | .error e r => .error e { w with receiver := r }

def onLine (x : LineM σ α) : WorkerM σ α :=
  onReceiver (Receiver.onLine x)

def ensureConnected : WorkerM σ Unit := do
  let w ← get
  if Transport.isOpen w.transport then pure () else
    onLine Line.connect
    modify fun w ↦ report { w with connected := true } .connected

/-- Closes the line; a failure to close it is passed over. -/
def close (w : Worker σ) : Worker σ :=
  let w := w.withTransport (Transport.disconnect w.transport).2
  if w.connected then report { w with connected := false } .disconnected else w

def handle (text : String) (w : Worker σ) : Worker σ :=
  match Event.ofLine text.toList with
  | .ok (some e) => (w.report (.line text)).report (.event e)
  | _ => w.report (.line text)

/-- Passes on all input that waits. Input read before a failure is lost. -/
def drain : WorkerM σ Unit := do
  let octets ← onLine Line.readAll
  if octets.isEmpty then pure () else onReceiver (Receiver.push octets)
  let lines ← onReceiver Receiver.takeAll
  modify fun w ↦ lines.foldl (fun w text ↦ handle text w) w

/-- Closes the line where `x` fails at the level of the connection. -/
def guarded (x : WorkerM σ α) : WorkerM σ α :=
  tryCatch x fun
    | .failed e => do
      if e.isConnectionLevel then modify close
      throw (.failed e)
    | .endless => throw .endless

def serve (q : Request) : WorkerM σ Reading := do
  ensureConnected
  guarded drain
  let w ← get
  guarded (onLine (q.perform w.timeout))

/-- Failures that leave the connection in place are passed over. -/
def lookOver : WorkerM σ Look :=
  tryCatch (onReceiver Receiver.look) fun
    | .failed e => if e.isConnectionLevel then throw (.failed e) else pure .unfinished
    | .endless => throw .endless

def listen : WorkerM σ Look := do
  ensureConnected
  let seen ← lookOver
  match seen.frame? with
  | some text => modify (handle text)
  | none => pure ()
  pure seen

end Worker

end AlarmPanel
