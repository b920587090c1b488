import AlarmPanel.Decimal.Notation
import AlarmPanel.Decimal.Reader
import AlarmPanel.Error
import AlarmPanel.Text.Blank

namespace AlarmPanel

inductive Poll where
  | areaStatus (area : UInt32)
  | zoneStatus (zone : UInt32)
  | zone (zone : UInt32)
  | user (user : UInt32)
  | powerState
  | errorCode
  | errorMessage
  deriving DecidableEq, Repr

namespace Poll

def numbered (name : String) (n : UInt32) : String :=
  name ++ " " ++ String.ofList (Numeral.decimal n.toNat)

def name : Poll → String
  | areaStatus n => numbered "RAS" n
  | zoneStatus n => numbered "RZS" n
  | zone n => numbered "Zone" n
  | user n => numbered "User" n
  | powerState => "PowerState"
  | errorCode => "Err_code"
  | errorMessage => "Err_msg"

def ofNumbered? (word : List Char) (n : UInt32) : Option Poll :=
  if word = "RAS".toList then some (areaStatus n)
  else if word = "RZS".toList then some (zoneStatus n)
  else if word = "Zone".toList then some (zone n)
  else if word = "User".toList then some (user n)
  else none

def ofWord? (word : List Char) : Option Poll :=
  if word = "PowerState".toList then some powerState
  else if word = "Err_code".toList then some errorCode
  else if word = "Err_msg".toList then some errorMessage
  else none

/-- A name between blanks; the first blank of a numbered name ends its word. -/
def read? (s : List Char) : Option Poll :=
  match ofWord? (Text.trim s) with
  | some p => some p
  | none =>
    (Text.splitFirst? Text.isBlank (Text.trim s)).bind fun r ↦
      (Numeral.readIndex (Text.trim r.2)).toOption.bind (ofNumbered? r.1)

def ofName (text : String) : Except PanelError Poll :=
  match read? text.toList with
  | some p => .ok p
  | none => .error (.config ("invalid command type '" ++ text ++ "'"))

end Poll

inductive Reading where
  | number (x : Float)
  | text (s : String)

namespace Reading

def ofText (s : String) : Reading :=
  match Decimal.read? (Text.trim s.toList) with
  | some x => number x
  | none => text s

def display : Reading → String
  | number x => String.ofList (Decimal.plain.render x)
  | text s => s

end Reading

structure Update where
  item : String
  value : Reading

end AlarmPanel
