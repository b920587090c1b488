import AlarmPanel.Decimal.Reader
import AlarmPanel.Json.Raw

namespace AlarmPanel.Keyed

variable {α : Type}

def insert (key : String) (a : α) : List (String × α) → List (String × α)
  | [] => [(key, a)]
  | (k, b) :: l =>
    if key < k then (key, a) :: (k, b) :: l
    else if key = k then (key, a) :: l
    else (k, b) :: insert key a l

def ofList (l : List (String × α)) : List (String × α) :=
  l.foldl (fun m x ↦ insert x.1 x.2 m) []

end AlarmPanel.Keyed

namespace AlarmPanel

inductive Json where
  | null
  | bool (b : Bool)
  | int (n : Int)
  | float (x : Float)
  | text (s : String)
  | array (l : List Json)
  | object (l : List (String × Json))

namespace Json

/-- What is no number is null. -/
def ofFloat (x : Float) : Json :=
  if x.isFinite then float x else null

def joined? (lead trail : Nat) : Option Char :=
  if 0xD800 ≤ lead ∧ lead < 0xDC00 ∧ 0xDC00 ≤ trail ∧ trail < 0xE000 then
    some (.ofNat (0x10000 + (lead - 0xD800) * 0x400 + (trail - 0xDC00)))
  else none

def single? (code : Nat) : Option Char :=
  if 0xD800 ≤ code ∧ code < 0xE000 then none else some (.ofNat code)

def Mark.chars? : List Mark → Option (List Char)
  | [] => some []
  | plain c :: l => (chars? l).map (c :: ·)
  | unit a :: unit b :: l =>
    match joined? a b with
    | some c => (chars? l).map (c :: ·)
    | none => (single? a).bind fun c ↦ (chars? (unit b :: l)).map (c :: ·)
  | unit a :: l => (single? a).bind fun c ↦ (chars? l).map (c :: ·)

def Mark.text? (l : List Mark) : Option String :=
  (Mark.chars? l).map String.ofList

namespace Figure

variable (f : Figure)

def isWhole : Bool :=
  f.fraction.isNone && f.exponent.isNone

def magnitude : Nat :=
  Nat.ofDigitChars 10 f.whole 0

/-- The number where it is written without point and exponent; a zero has no minus sign. -/
def integer? : Option Int :=
  if f.isWhole then
    if f.negative then (if f.magnitude = 0 then none else some (-(f.magnitude : Int)))
    else some f.magnitude
  else none

/-- Takes digits into a significand of 64 bits, up to the first one that does not fit. -/
def absorb (acc : Nat) : List Char → Nat × List Char
  | [] => (acc, [])
  | c :: s =>
    let next := Nat.ofDigitChars 10 [c] acc
    if next ≤ Bounds.u64.hi then absorb next s else (acc, c :: s)

def power (n : Nat) : Float :=
  Decimal.nearestScientific false 1 n

def scale (x : Float) (e : Int) : Option Float :=
  if e < -616 then some 0
  else if e < -308 then some (x / power 308 / power (-e - 308).toNat)
  else if e < 0 then some (x / power (-e).toNat)
  else if e ≤ 308 then
    let y := x * power e.toNat
    if y.isInf then none else some y
  else if x == 0 then some x
  else none

def exponentValue : Int :=
  match f.exponent with
  | none => 0
  | some (true, ds) => -(Nat.ofDigitChars 10 ds 0 : Nat)
  | some (false, ds) => (Nat.ofDigitChars 10 ds 0 : Nat)

/-- The number as the significand that its first digits give, scaled by a power of ten. -/
def float? : Option Float :=
  let (n, dropped) := absorb 0 f.whole
  let fraction := f.fraction.getD []
  let (n, left) := absorb n fraction
  let e := (dropped.length : Int) - (fraction.length - left.length : Nat) + f.exponentValue
  (scale (Decimal.ofInt n) e).map fun x ↦ if f.negative then -x else x

/-- A whole number of 64 bits, with or without a sign, stays one. -/
def value? : Option Json :=
  match f.integer? with
  | some n => if Bounds.i64.lo ≤ n ∧ n ≤ Bounds.u64.hi then some (int n) else f.float?.map float
  | none => f.float?.map float

end Figure

/-- The arrays and objects that may stand around a value. -/
def maxDepth : Nat := 127

mutual

def ofRaw? (depth : Nat) : Raw → Option Json
  | .null => some null
  | .bool b => some (bool b)
  | .number f => f.value?
  | .text l => (Mark.text? l).map text
  | .array l =>
    match depth with
    | 0 => none
    | depth + 1 => (ofElements? depth l).map array
  | .object l =>
    match depth with
    | 0 => none
    | depth + 1 => (ofMembers? depth [] l).map object

def ofElements? (depth : Nat) : List Raw → Option (List Json)
  | [] => some []
  | r :: l =>
    (ofRaw? depth r).bind fun v ↦ (ofElements? depth l).map (v :: ·)

def ofMembers? (depth : Nat) (done : List (String × Json)) :
    List (List Mark × Raw) → Option (List (String × Json))
  | [] => some done
  | (k, r) :: l =>
    (Mark.text? k).bind fun k ↦ (ofRaw? depth r).bind fun v ↦ ofMembers? depth (Keyed.insert k v done) l

end

def ofText? (s : String) : Option Json :=
  (Raw.ofText? s.toList).bind (ofRaw? maxDepth)

end Json

end AlarmPanel
