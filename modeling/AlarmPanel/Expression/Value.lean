import AlarmPanel.Decimal.Notation
import AlarmPanel.Numeral
import AlarmPanel.Text.Quoted

namespace AlarmPanel.Expression

inductive Value where
  | text (s : String)
  | int (n : Int)
  | float (x : Float)
  | bool (b : Bool)
  | tuple (l : List Value)
  | empty

inductive Failure where
  | malformed
  | unknownName (name : String)
  | wrongType
  | outOfRange
  deriving DecidableEq, Repr

def Failure.message : Failure → String
  | malformed => "malformed expression"
  | unknownName name => "unknown name " ++ name
  | wrongType => "operation on values of the wrong type"
  | outOfRange => "number out of range"

namespace Value

/-- Floats whose leading digit is worth `10 ^ 16` or more, or less than `10 ^ -4`, take an
exponent. -/
def floatStyle : Decimal.Style where
  tie := .up
  fraction := true
  positional := fun e ↦ -4 ≤ e && e < 16
  plus := []
  nan := "NaN".toList
  infinity := "inf".toList

def called (name : String) (inner : List Char) : List Char :=
  name.toList ++ '(' :: inner ++ [')']

mutual

def describe : Value → List Char
  | text s => called "String" (Text.quote s.toList)
  | int n => called "Int" (Numeral.signed n)
  | float x => called "Float" (floatStyle.render x)
  | bool b => called "Boolean" (if b then "true".toList else "false".toList)
  | tuple l => called "Tuple" ('[' :: describeAll l ++ [']'])
  | empty => "Empty".toList

def describeAll : List Value → List Char
  | [] => []
  | [v] => describe v
  | v :: w :: l => describe v ++ ',' :: ' ' :: describeAll (w :: l)

end

mutual

/-- Equality of values of one kind; a float never equals a whole number. -/
def same : Value → Value → Bool
  | text s, text t => s == t
  | int m, int n => m == n
  | float x, float y => x == y
  | bool a, bool b => a == b
  | tuple l, tuple k => sameAll l k
  | empty, empty => true
  | _, _ => false

def sameAll : List Value → List Value → Bool
  | [], [] => true
  | v :: l, w :: k => same v w && sameAll l k
  | _, _ => false

end

def kind : Value → String
  | text _ => "string"
  | int _ => "int"
  | float _ => "float"
  | bool _ => "boolean"
  | tuple _ => "tuple"
  | empty => "empty"

def number : Value → Except Failure Float
  | int n => .ok (Decimal.ofInt n)
  | float x => .ok x
  | _ => .error .wrongType

def truth : Value → Except Failure Bool
  | bool b => .ok b
  | _ => .error .wrongType

def members : Value → Except Failure (List Value)
  | tuple l => .ok l
  | _ => .error .wrongType

def bounded (n : Int) : Except Failure Value :=
  if Bounds.i64.lo ≤ n ∧ n ≤ Bounds.i64.hi then .ok (int n) else .error .outOfRange

/-- An operation on whole numbers if both sides are whole, else on floats. -/
def arithmetic (whole : Int → Int → Except Failure Value) (real : Float → Float → Float)
    (a b : Value) : Except Failure Value :=
  match a, b with
  | int m, int n => whole m n
  | a, b => do
    let x ← a.number
    let y ← b.number
    return float (real x y)

def add (a b : Value) : Except Failure Value :=
  match a, b with
  | text s, text t => .ok (text (s ++ t))
  | a, b => arithmetic (fun m n ↦ bounded (m + n)) (· + ·) a b

def sub : Value → Value → Except Failure Value :=
  arithmetic (fun m n ↦ bounded (m - n)) (· - ·)

def mul : Value → Value → Except Failure Value :=
  arithmetic (fun m n ↦ bounded (m * n)) (· * ·)

/-- Division of whole numbers goes toward zero. -/
def div : Value → Value → Except Failure Value :=
  arithmetic (fun m n ↦ if n = 0 then .error .outOfRange else bounded (m.tdiv n)) (· / ·)

/-- The remainder has the sign of the dividend; it is out of range where the quotient is. -/
def rem : Value → Value → Except Failure Value :=
  arithmetic (fun m n ↦
    if n = 0 then .error .outOfRange
    else (bounded (m.tdiv n)).map fun _ ↦ int (m.tmod n)) Decimal.remainder

def pow (a b : Value) : Except Failure Value := do
  let x ← a.number
  let y ← b.number
  return float (x.pow y)

def neg : Value → Except Failure Value
  | int n => bounded (-n)
  | float x => .ok (float (-x))
  | _ => .error .wrongType

def compare (texts : String → String → Bool) (wholes : Int → Int → Bool)
    (reals : Float → Float → Bool) (a b : Value) : Except Failure Value :=
  match a, b with
  | text s, text t => .ok (bool (texts s t))
  | int m, int n => .ok (bool (wholes m n))
  | a, b => do
    let x ← a.number
    let y ← b.number
    return bool (reals x y)

def logic (f : Bool → Bool → Bool) (a b : Value) : Except Failure Value := do
  let x ← a.truth
  let y ← b.truth
  return bool (f x y)

end Value

end AlarmPanel.Expression
