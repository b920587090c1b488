import AlarmPanel.Config
import AlarmPanel.Host.Broker
import AlarmPanel.Toml

namespace AlarmPanel

structure DeviceEntry where
  id : String
  type : String
  serialPort : String
  refresh : Nat
  commandTimeout : Nat
  simulatorDelay : Nat
  deriving DecidableEq, Repr

structure BindingEntry where
  item : String
  device : String
  source : String
  command : Option String
  refresh : Option Nat
  transformation : Option String
  deriving DecidableEq, Repr

structure HostFile where
  devices : List DeviceEntry
  bindings : List BindingEntry
  broker : Broker
  deriving DecidableEq, Repr

namespace HostFile

open Toml

variable {α : Type}

def readText? : Value → Option String
  | .text s => some s
  | _ => none

def readTime? : Value → Option Nat
  | .int n => if 0 ≤ n then some n.toNat else none
  | _ => none

def value? (t : Table) (key : String) : Option Value :=
  (t.find? fun p ↦ p.1 == key).map Prod.snd

def required? (t : Table) (key : String) (read : Value → Option α) : Option α :=
  (value? t key).bind read

def optional? (t : Table) (key : String) (read : Value → Option α) : Option (Option α) :=
  match value? t key with
  | none => some none
  | some v => (read v).map some

def default? (t : Table) (key : String) (read : Value → Option α) (a : α) : Option α :=
  (optional? t key read).map fun r ↦ r.getD a

def device? (t : Table) : Option DeviceEntry := do
  let d : DeviceConfig := {}
  return {
    id := ← required? t "id" readText?
    type := ← required? t "type" readText?
    serialPort := ← default? t "serial_port" readText? d.serialPort
    refresh := ← default? t "refresh_ms" readTime? d.refresh
    commandTimeout := ← default? t "command_timeout_ms" readTime? d.commandTimeout
    simulatorDelay := ← default? t "simulator_delay_ms" readTime? d.simulatorDelay }

def binding? (t : Table) : Option BindingEntry := do
  return {
    item := ← required? t "item" readText?
    device := ← required? t "device" readText?
    source := ← required? t "variable" readText?
    command := ← optional? t "command" readText?
    refresh := ← optional? t "refresh_ms" readTime?
    transformation := ← optional? t "transformation" readText? }

def broker? (t : Table) : Option Broker := do
  let b : Broker := { url := "" }
  return {
    url := ← required? t "url" readText?
    client := ← default? t "client_id" readText? b.client
    subscribed := ← default? t "subscribe_topic" readText? b.subscribed
    published := ← default? t "publish_topic" readText? b.published }

def entry? (d : Document) (name : String) : Option Entry :=
  (d.find? fun e ↦ e.1 == name).map Prod.snd

/-- The tables of an array, which may also be written as an empty value. -/
def tables? : Entry → Option (List Table)
  | .tables l => some l
  | .value (.array []) => some []
  | _ => none

def ofDocument? (d : Document) : Option HostFile := do
  let devices ← (← entry? d "devices") |> tables?
  let bindings ←
    match entry? d "bindings" with
    | none => some []
    | some e => tables? e
  let .table broker ← entry? d "mqtt" | none
  return {
    devices := ← devices.mapM device?
    bindings := ← bindings.mapM binding?
    broker := ← broker? broker }

def ofText? (s : String) : Option HostFile :=
  (Toml.ofText? s).bind ofDocument?

end HostFile

end AlarmPanel
