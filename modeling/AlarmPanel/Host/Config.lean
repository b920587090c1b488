import AlarmPanel.Bridge
import AlarmPanel.Host.File

namespace AlarmPanel

structure HostConfig where
  devices : List DeviceConfig
  bindings : List Binding
  broker : Broker

inductive HostError where
  | malformed
  | device (id : String) (e : PanelError)
  | unknownDevice (item device : String)
  | binding (item : String) (e : PanelError)
  | transformation (e : TransformationError)
  deriving DecidableEq, Repr

namespace HostError

def message : HostError → String
  | malformed => "Failed to parse config file"
  | device id e => "device " ++ id ++ ": " ++ e.message
  | unknownDevice item id => "binding " ++ item ++ " refers to unknown device " ++ id
  | binding item e => "binding " ++ item ++ ": " ++ e.message
  | transformation e => e.message

end HostError

namespace DeviceEntry

def config (d : DeviceEntry) : Except HostError DeviceConfig :=
  match Interface.ofName d.type with
  | .error e => .error (.device d.id e)
  | .ok interface =>
    .ok {
      id := d.id
      interface
      serialPort := d.serialPort
      refresh := d.refresh
      commandTimeout := d.commandTimeout
      simulatorDelay := d.simulatorDelay }

end DeviceEntry

namespace BindingEntry

variable (b : BindingEntry)

def deviceAmong (l : List DeviceConfig) : Except HostError DeviceConfig :=
  match l.find? fun d ↦ d.id == b.device with
  | some d => .ok d
  | none => .error (.unknownDevice b.item b.device)

def pollName : Except HostError (Option Poll) :=
  match b.command with
  | none => .ok none
  | some name =>
    match Poll.ofName name with
    | .ok p => .ok (some p)
    | .error e => .error (.binding b.item e)

def transformed : Except HostError (Option Transformation) :=
  match b.transformation with
  | none => .ok none
  | some text =>
    match Transformation.ofText text with
    | .ok t => .ok (some t)
    | .error e => .error (.transformation e)

def binding (devices : List DeviceConfig) : Except HostError Binding := do
  let device ← b.deviceAmong devices
  let named ← b.pollName
  let transformation ← b.transformed
  let poll := if device.interface.supportsCommands then named else none
  return {
    item := b.item
    device := b.device
    source := b.source
    poll
    refresh := if poll.isSome then b.refresh.getD device.refresh else 0
    transformation }

end BindingEntry

namespace HostConfig

def ofFile (f : HostFile) : Except HostError HostConfig := do
  let devices ← f.devices.mapM DeviceEntry.config
  let bindings ← f.bindings.mapM fun b ↦ b.binding devices
  return ⟨devices, bindings, f.broker⟩

def ofText (s : String) : Except HostError HostConfig :=
  match HostFile.ofText? s with
  | some f => ofFile f
  | none => .error .malformed

variable (c : HostConfig)

/-- The devices, started in order; of several with one name the last one stays. -/
def hub (ports : Ports := fun _ _ ↦ none) : Hub :=
  c.devices.foldl Hub.add { ports }

def bridge (ports : Ports := fun _ _ ↦ none) : Bridge where
  hub := c.hub ports
  dispatcher := { bindings := c.bindings }
  client := { topic := c.broker.published }

/-- The least time between two rounds of polls: the shortest interval of a device, but not below a
tenth of a second. -/
def granularity : Nat :=
  max 100 ((c.devices.map DeviceConfig.refresh).min?.getD ({} : DeviceConfig).refresh)

end HostConfig

end AlarmPanel
