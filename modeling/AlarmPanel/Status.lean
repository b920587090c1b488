import AlarmPanel.Error

namespace AlarmPanel

inductive ZoneStatus where
  | closed
  | opened
  | alarm
  | other1
  | other2
  | error
  deriving DecidableEq, Repr

namespace ZoneStatus

def all : List ZoneStatus := [closed, opened, alarm, other1, other2, error]

def code : ZoneStatus → UInt8
  | closed => 0x00
  | opened => 0x01
  | alarm => 0x80
  | other1 => 0x40
  | other2 => 0x20
  | error => 0xFF

def symbol : ZoneStatus → String
  | closed => "CLOSE"
  | opened => "OPEN"
  | alarm => "ALARM"
  | other1 => "OTHER1"
  | other2 => "OTHER2"
  | error => "ERROR"

def ofCode (code : UInt32) : Except PanelError ZoneStatus :=
  match all.find? fun s ↦ s.code.toUInt32 == code with
  | some s => .ok s
  | none => .error (.decode "ZoneStatus" code)

def isOpen (s : ZoneStatus) : Bool := s == opened
def isAlarm (s : ZoneStatus) : Bool := s == alarm

end ZoneStatus

inductive AreaStatus where
  | normal
  | eco
  | error
  deriving DecidableEq, Repr

namespace AreaStatus

def all : List AreaStatus := [normal, eco, error]

def code : AreaStatus → UInt8
  | normal => 0x00
  | eco => 0x01
  | error => 0xFF

def symbol : AreaStatus → String
  | normal => "NORMAL"
  | eco => "ECO"
  | error => "ERROR"

def ofCode (code : UInt32) : Except PanelError AreaStatus :=
  match all.find? fun s ↦ s.code.toUInt32 == code with
  | some s => .ok s
  | none => .error (.decode "AreaStatus" code)

end AreaStatus

def moduleErrorText (code : Int) : String :=
  if code = 0 then "No error" else "Unknown error " ++ String.ofList (Numeral.signed code)

end AlarmPanel
