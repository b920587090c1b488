import AlarmPanel.Action
import AlarmPanel.Calendar
import AlarmPanel.Json.Basic
import AlarmPanel.Numeral

namespace AlarmPanel

inductive Subject where
  | zone (n : UInt32)
  | user (n : UInt32)
  deriving DecidableEq, Repr

structure Event where
  date : Date
  clock : Clock
  partition : UInt32
  action : Action
  subject : Option Subject
  deriving DecidableEq, Repr

namespace Event

def number (n : UInt32) : Int := n.toNat

def subjectNumber (e : Event) : Int :=
  match e.subject with
  | some (.zone n) => number n
  | some (.user n) => number n
  | none => number e.partition

def numberedKey (word : String) (n : UInt32) : String :=
  word ++ " " ++ String.ofList (Numeral.decimal n.toNat)

/-- The number under the key of the zone or user. A zone has one only where its state is known. -/
def subjectMember? (e : Event) : Option (String × Int) :=
  match e.subject with
  | some (.zone n) => e.action.zoneStatus?.map fun s ↦ (numberedKey "Zone" n, s.code.toNat)
  | some (.user n) => some (numberedKey "User" n, e.action.code)
  | none => none

def entries (e : Event) : List (String × Int) :=
  ("Partition", number e.partition) :: (e.action.key, e.subjectNumber) :: e.subjectMember?.toList

def values (e : Event) : List (String × Int) :=
  Keyed.ofList e.entries

end Event

inductive News where
  | connected
  | disconnected
  | line (text : String)
  | event (e : Event)
  deriving DecidableEq, Repr

structure Notice where
  device : String
  news : News
  deriving DecidableEq, Repr

end AlarmPanel
