import AlarmPanel.Status
import AlarmPanel.Text.Blank

namespace AlarmPanel

inductive Action where
  | zoneClose
  | zoneOpen
  | zoneTamper
  | zoneTrouble
  | zoneBypassed
  | burglaryAlarm
  | fireAlarm
  | stayArming
  | partialArming
  | armingWithMasterCode
  | armingWithUserCode
  | disarmingWithMasterCode
  | disarmingWithUserCode
  | alarmCancelled
  | userCodeEntered
  | duressAlarm
  deriving DecidableEq, Repr

namespace Action

def all : List Action :=
  [zoneClose, zoneOpen, zoneTamper, zoneTrouble, zoneBypassed, burglaryAlarm, fireAlarm, stayArming,
    partialArming, armingWithMasterCode, armingWithUserCode, disarmingWithMasterCode,
    disarmingWithUserCode, alarmCancelled, userCodeEntered, duressAlarm]

def phrase : Action → String
  | zoneClose => "Zone close"
  | zoneOpen => "Zone open"
  | zoneTamper => "Zone tamper"
  | zoneTrouble => "Zone trouble"
  | zoneBypassed => "Zone bypassed"
  | burglaryAlarm => "Burglary alarm"
  | fireAlarm => "Fire alarm"
  | stayArming => "Stay arming"
  | partialArming => "Partial arming"
  | armingWithMasterCode => "Arming with master code"
  | armingWithUserCode => "Arming with user code"
  | disarmingWithMasterCode => "Disarming with master code"
  | disarmingWithUserCode => "Disarming with user code"
  | alarmCancelled => "Alarm cancelled"
  | userCodeEntered => "User code entered"
  | duressAlarm => "Duress alarm on code"

def key : Action → String
  | zoneClose => "ZoneClose"
  | zoneOpen => "ZoneOpen"
  | zoneTamper => "ZoneTamper"
  | zoneTrouble => "ZoneTrouble"
  | zoneBypassed => "ZoneBypassed"
  | burglaryAlarm => "BurglaryAlarm"
  | fireAlarm => "FireAlarm"
  | stayArming => "StayArming"
  | partialArming => "PartialArming"
  | armingWithMasterCode => "ArmingWithMasterCode"
  | armingWithUserCode => "ArmingWithUserCode"
  | disarmingWithMasterCode => "DisarmingWithMasterCode"
  | disarmingWithUserCode => "DisarmingWithUserCode"
  | alarmCancelled => "AlarmCancelled"
  | userCodeEntered => "UserCodeEntered"
  | duressAlarm => "DuressAlarm"

/-- The number of an action: its place in the table, counted from one. -/
def code (a : Action) : Nat :=
  all.idxOf a + 1

def zoneStatus? : Action → Option ZoneStatus
  | zoneClose => some .closed
  | zoneOpen => some .opened
  | burglaryAlarm => some .alarm
  | zoneTamper => some .other1
  | zoneTrouble => some .other2
  | _ => none

/-- Two texts that differ at most in the case of their ASCII letters. -/
def sameLetters (s t : List Char) : Bool :=
  s.map Char.toLower == t.map Char.toLower

def ofPhrase? (s : List Char) : Option Action :=
  all.find? fun a ↦ sameLetters a.phrase.toList (Text.trim s)

end Action

end AlarmPanel
