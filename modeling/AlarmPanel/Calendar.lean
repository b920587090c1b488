import AlarmPanel.Numeral

namespace AlarmPanel

def isLeapYear (year : Nat) : Bool :=
  year % 4 == 0 && (year % 100 != 0 || year % 400 == 0)

def daysIn (year month : Nat) : Nat :=
  if month = 2 then (if isLeapYear year then 29 else 28)
  else if month = 4 ∨ month = 6 ∨ month = 9 ∨ month = 11 then 30
  else 31

structure Date where
  year : Nat
  month : Nat
  day : Nat
  year_le : year ≤ 9999
  month_pos : 1 ≤ month
  month_le : month ≤ 12
  day_pos : 1 ≤ day
  day_le : day ≤ daysIn year month
  deriving DecidableEq, Repr

structure Clock where
  hour : Nat
  minute : Nat
  hour_lt : hour < 24
  minute_lt : minute < 60
  deriving DecidableEq, Repr

inductive CalendarError where
  | outOfRange
  | invalid
  | tooShort
  | trailing
  deriving DecidableEq, Repr

def CalendarError.message : CalendarError → String
  | outOfRange => "input is out of range"
  | invalid => "input contains invalid characters"
  | tooShort => "premature end of input"
  | trailing => "trailing input"

namespace Calendar

def number (width : Nat) (s : List Char) : Except CalendarError (Nat × List Char) :=
  let ds := (s.take width).takeWhile Char.isDigit
  match ds, s with
  | [], [] => .error .tooShort
  | [], _ => .error .invalid
  | ds, s => .ok (Nat.ofDigitChars 10 ds 0, s.drop ds.length)

def numberIn (width lo hi : Nat) (s : List Char) : Except CalendarError (Nat × List Char) :=
  match number width s with
  | .error e => .error e
  | .ok (n, r) => if lo ≤ n ∧ n ≤ hi then .ok (n, r) else .error .outOfRange

def expect (c : Char) : List Char → Except CalendarError (List Char)
  | [] => .error .tooShort
  | a :: s => if a = c then .ok s else .error .invalid

def ended : List Char → Except CalendarError Unit
  | [] => .ok ()
  | _ => .error .trailing

end Calendar

open Calendar

namespace Date

def ofParts? (year month day : Nat) : Option Date :=
  if h : year ≤ 9999 ∧ 1 ≤ month ∧ month ≤ 12 ∧ 1 ≤ day ∧ day ≤ daysIn year month then
    some ⟨year, month, day, h.1, h.2.1, h.2.2.1, h.2.2.2.1, h.2.2.2.2⟩
  else none

def read (s : List Char) : Except CalendarError Date := do
  let (year, s) ← number 4 s
  let s ← expect '/' s
  let (month, s) ← numberIn 2 1 12 s
  let s ← expect '/' s
  let (day, s) ← numberIn 2 1 31 s
  ended s
  match ofParts? year month day with
  | some d => .ok d
  | none => .error .outOfRange

def render (mark : Char) (d : Date) : List Char :=
  Numeral.padded 4 d.year ++ mark :: Numeral.padded 2 d.month ++ mark :: Numeral.padded 2 d.day

end Date

namespace Clock

def ofParts? (hour minute : Nat) : Option Clock :=
  if h : hour < 24 ∧ minute < 60 then some ⟨hour, minute, h.1, h.2⟩ else none

def read (s : List Char) : Except CalendarError Clock := do
  let (hour, s) ← numberIn 2 0 23 s
  let s ← expect ':' s
  let (minute, s) ← numberIn 2 0 59 s
  ended s
  match ofParts? hour minute with
  | some c => .ok c
  | none => .error .outOfRange

def render (c : Clock) : List Char :=
  Numeral.padded 2 c.hour ++ ':' :: Numeral.padded 2 c.minute

end Clock

end AlarmPanel
