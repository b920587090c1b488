import AlarmPanel.Line.Scripted
import AlarmPanel.Line.Simulator

namespace AlarmPanel

/-- A serial port, which follows a script once it is open. One that is missing never opens. -/
structure SerialPort where
  interactive : Bool
  name : String
  interval : Nat
  script : Option ScriptedLine := none

namespace SerialPort

variable (p : SerialPort) {α : Type}

def interface : Interface :=
  if p.interactive then .ptr3 else .ptr1

def isOpen : Bool :=
  p.script.any ScriptedLine.isOpen

def failure (e : PanelError) : PanelError :=
  .connection p.name e.message

def reach (f : ScriptedLine → Except PanelError α × ScriptedLine) : Except PanelError α × SerialPort :=
  match p.script with
  | some s =>
    if s.isOpen then ((f s).1.mapError p.failure, { p with script := some (f s).2 })
    else (.error .disconnected, p)
  | none => (.error .disconnected, p)

def connect : Except PanelError Unit × SerialPort :=
  match p.script with
  | some s =>
    if s.isOpen then (.ok (), p)
    else (s.connect.1.mapError p.failure, { p with script := some s.connect.2 })
  | none => (.error (.connection p.name "No such file or directory"), p)

def disconnect : Except PanelError Unit × SerialPort :=
  (.ok (), { p with script := p.script.map ScriptedLine.closed })

def write (octets : List UInt8) : Except PanelError Unit × SerialPort :=
  if p.interactive then p.reach (·.write octets)
  else (.error (.notImplemented "write" p.interface.name), p)

def read : Except PanelError (List UInt8) × SerialPort :=
  p.reach ScriptedLine.read

/-- Drops what waits, and then what has come in the meantime. -/
def purge : Except PanelError Unit × SerialPort :=
  match p.read with
  | (.ok _, p) => (p.read.1.map fun _ ↦ (), p.read.2)
  | (.error e, p) => (.error e, p)

end SerialPort

instance : Transport SerialPort where
  interface := SerialPort.interface
  isOpen := SerialPort.isOpen
  pollInterval := SerialPort.interval
  connect _ := SerialPort.connect
  disconnect := SerialPort.disconnect
  write octets p := p.write octets
  read _ := SerialPort.read
  purges := SerialPort.interactive
  purge _ := SerialPort.purge
  isQuiet p := p.script.all (·.queue.isEmpty)
  backlog p := p.script.elim 0 ScriptedLine.backlog

inductive Link where
  | serial (p : SerialPort)
  | simulator (s : Simulator)
  | scripted (s : ScriptedLine)

namespace Link

/-- The transport that a configuration asks for, on a serial port that follows the script. -/
def ofConfig (c : DeviceConfig) (script : Option ScriptedLine := none) : Link :=
  match c.interface with
  | .ptr1 => serial ⟨false, c.serialPort, c.pollInterval, script.map ScriptedLine.closed⟩
  | .ptr3 => serial ⟨true, c.serialPort, c.pollInterval, script.map ScriptedLine.closed⟩
  | .simulated => simulator { delay := c.simulatorDelay }

variable {α : Type}

def lift (onSerial : SerialPort → α × SerialPort) (onSimulator : Simulator → α × Simulator)
    (onScripted : ScriptedLine → α × ScriptedLine) : Link → α × Link
  | serial p => ((onSerial p).1, serial (onSerial p).2)
  | simulator s => ((onSimulator s).1, simulator (onSimulator s).2)
  | scripted s => ((onScripted s).1, scripted (onScripted s).2)

def fold (onSerial : SerialPort → α) (onSimulator : Simulator → α) (onScripted : ScriptedLine → α) :
    Link → α
  | serial p => onSerial p
  | simulator s => onSimulator s
  | scripted s => onScripted s

end Link

instance : Transport Link where
  interface := Link.fold Transport.interface Transport.interface Transport.interface
  isOpen := Link.fold Transport.isOpen Transport.isOpen Transport.isOpen
  pollInterval := Link.fold Transport.pollInterval Transport.pollInterval Transport.pollInterval
  connect now := Link.lift (Transport.connect now) (Transport.connect now) (Transport.connect now)
  disconnect := Link.lift Transport.disconnect Transport.disconnect Transport.disconnect
  write octets :=
    Link.lift (Transport.write octets) (Transport.write octets) (Transport.write octets)
  read now := Link.lift (Transport.read now) (Transport.read now) (Transport.read now)
  purges := Link.fold Transport.purges Transport.purges Transport.purges
  purge now := Link.lift (Transport.purge now) (Transport.purge now) (Transport.purge now)
  isQuiet := Link.fold Transport.isQuiet Transport.isQuiet Transport.isQuiet
  backlog := Link.fold Transport.backlog Transport.backlog Transport.backlog

end AlarmPanel
