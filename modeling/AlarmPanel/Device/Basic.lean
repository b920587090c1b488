import AlarmPanel.Device.Worker

namespace AlarmPanel

structure Ticket where
  number : Nat
  request : Request
  deriving DecidableEq, Repr

inductive DeviceStatus where
  | running
  | finished
  | spinning
  deriving DecidableEq, Repr

structure Device (σ : Type) where
  config : DeviceConfig
  worker : Worker σ
  queue : List Ticket := []
  /-- Requests that wait for room in the queue. -/
  waiting : List Ticket := []
  cancelled : Bool := false
  status : DeviceStatus := .running
  /-- When the pause after an idle look ends. -/
  wake : Nat := 0
  issued : Nat := 0
  answers : List (Nat × Except PanelError Reading) := []

namespace Device

variable {σ : Type} [Transport σ]

def start (c : DeviceConfig) (t : σ) (now : Nat) : Device σ where
  config := c
  worker := {
    receiver := { line := { transport := t, now := now } }
    timeout := c.commandTimeout }
  wake := now

variable (d : Device σ)

def room : Nat := 32

def now : Nat :=
  d.worker.now

def isFinished : Bool :=
  d.status = .finished

def isReady : Bool :=
  d.status = .running && (d.cancelled || !d.queue.isEmpty || decide (d.wake ≤ d.now))

def answer (number : Nat) (r : Except PanelError Reading) : Device σ :=
  { d with answers := d.answers ++ [(number, r)] }

def answerTo? (number : Nat) : Option (Except PanelError Reading) :=
  (d.answers.find? fun a ↦ a.1 = number).map Prod.snd

/-- The requests that wait move up as far as there is room. -/
def moveUp : Device σ :=
  { d with
    queue := d.queue ++ d.waiting.take (room - d.queue.length)
    waiting := d.waiting.drop (room - d.queue.length) }

def submit (q : Request) : Device σ :=
  let t : Ticket := ⟨d.issued, q⟩
  let d := { d with issued := d.issued + 1 }
  if d.isFinished then d.answer t.number (.error .disconnected)
  else { d with waiting := d.waiting ++ [t] }.moveUp

def cancel : Device σ :=
  { d with cancelled := true }

def stop : Device σ where
  config := d.config
  worker := d.worker.close
  cancelled := d.cancelled
  status := .finished
  wake := d.wake
  issued := d.issued
  answers := d.answers ++
    (d.queue.map fun t ↦ (t.number, .error .channelClosed)) ++
    d.waiting.map fun t ↦ (t.number, .error .disconnected)

/-- The device after an exchange that left its worker as `w`. The next look follows at once. -/
def resume (w : Worker σ) : Device σ :=
  let e := { d with worker := w, wake := w.now }
  if d.now < w.now then e.moveUp else e

def serve (t : Ticket) : Device σ :=
  match Worker.serve t.request d.worker with
  | .ok a w => (d.resume w).answer t.number (.ok a)
  | .error (.failed e) w => (d.resume w).answer t.number (.error e)
  | .error .endless w => { d with worker := w, status := .spinning }

/-- Takes one look; a failure that it does not pass over stops the device. -/
def listen : Device σ :=
  match Worker.listen d.worker with
  | .ok .idle w =>
    { d with worker := w, wake := w.now + Transport.pollInterval w.transport }.moveUp
  | .ok _ w => { d with worker := w }
  | .error (.failed _) w => { d with worker := w }.stop
  | .error .endless w => { d with worker := w, status := .spinning }

/-- A cancellation comes first, then a request, then a look at the line. There is always someone who
may still ask: that all clients of a device are gone, which would stop it like a cancellation, is left
out, and so are waits for the lock on the state of its connection. -/
def turn : Device σ :=
  if d.cancelled then d.stop
  else
    match d.queue with
    | t :: q => { d with queue := q }.serve t
    | [] => d.listen

end Device

end AlarmPanel
