import AlarmPanel.Error

namespace AlarmPanel

/-- The interfaces: one that only prints events, one that also takes commands, and one that prints
canned events without hardware. -/
inductive Interface where
  | ptr1
  | ptr3
  | simulated
  deriving DecidableEq, Repr

namespace Interface

def all : List Interface := [ptr1, ptr3, simulated]

def name : Interface → String
  | ptr1 => "PTR1"
  | ptr3 => "PTR3"
  | simulated => "SIMULATE"

def supportsCommands : Interface → Bool
  | ptr3 => true
  | _ => false

def ofName (text : String) : Except PanelError Interface :=
  let upper := String.ofList (text.toList.map Char.toUpper)
  match all.find? fun i ↦ i.name == upper with
  | some i => .ok i
  | none => .error (.config
    ("unknown device type '" ++ upper ++ "', expected PTR1, PTR3 or SIMULATE"))

end Interface

structure DeviceConfig where
  id : String := "paradox"
  interface : Interface := .simulated
  serialPort : String := "/dev/ttyS0"
  refresh : Nat := 6000
  commandTimeout : Nat := 50000
  pollInterval : Nat := 100
  simulatorDelay : Nat := 5000
  deriving DecidableEq, Repr

end AlarmPanel
