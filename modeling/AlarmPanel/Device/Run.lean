import AlarmPanel.Device.Basic

namespace AlarmPanel.Device

variable {σ : Type} [Transport σ]

/-- The turns that requests and input at hand can take. One that waits may take a pause to move up. -/
def load (d : Device σ) : Nat :=
  d.queue.length + 2 * d.waiting.length + Transport.backlog d.worker.transport +
    d.worker.receiver.assembler.buffer.length + 4

def runWithin : Nat → Device σ → Device σ
  | 0, d => { d with status := .spinning }
  | n + 1, d => if d.isReady then runWithin n d.turn else d

def run (d : Device σ) : Device σ :=
  runWithin d.load d

def runUntilWithin (t : Nat) : Nat → Device σ → Device σ
  | 0, d => { d with status := .spinning }
  | n + 1, d =>
    if d.isReady then runUntilWithin t n d.turn
    else if d.status = .running ∧ d.wake ≤ t then
      runUntilWithin t n { d with worker := d.worker.withNow d.wake }
    else { d with worker := d.worker.withNow (max t d.now) }

def runUntil (d : Device σ) (t : Nat) : Device σ :=
  runUntilWithin t (d.load + 4 * (t - d.now + 1)) d

/-- No request and no input waits, so that a look now finds the line idle. -/
def isQuiet (d : Device σ) : Bool :=
  !d.cancelled && d.queue.isEmpty && Transport.isQuiet d.worker.transport

def settleWithin : Nat → Device σ → Device σ
  | 0, d => { d with status := .spinning }
  | n + 1, d =>
    if d.status ≠ .running then d
    else if d.isReady then
      let e := d.turn
      if d.isQuiet ∧ e.status = .running ∧ ¬ e.isReady then e else settleWithin n e
    else settleWithin n { d with worker := d.worker.withNow d.wake }

/-- Runs until the device has stopped, or has found the line idle with nothing left to do. -/
def settle (d : Device σ) : Device σ :=
  settleWithin (2 * d.load) d

end AlarmPanel.Device
