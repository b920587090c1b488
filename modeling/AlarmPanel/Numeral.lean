namespace AlarmPanel

inductive IntegerError where
  | empty
  | invalidDigit
  | tooLarge
  | tooSmall
  deriving DecidableEq, Repr

def IntegerError.message : IntegerError → String
  | .empty => "cannot parse integer from empty string"
  | .invalidDigit => "invalid digit found in string"
  | .tooLarge => "number too large to fit in target type"
  | .tooSmall => "number too small to fit in target type"

structure Bounds where
  lo : Int
  hi : Int

namespace Bounds

def unsigned (bits : Nat) : Bounds := ⟨0, Nat.pow 2 bits - 1⟩
def signed (bits : Nat) : Bounds := ⟨-Nat.pow 2 (bits - 1), Nat.pow 2 (bits - 1) - 1⟩

def u16 : Bounds := unsigned 16
def u32 : Bounds := unsigned 32
def u64 : Bounds := unsigned 64
def i64 : Bounds := signed 64

end Bounds

namespace Numeral

def digit? (radix : Nat) (c : Char) : Option Nat :=
  let n := c.toNat
  let v :=
    if 48 ≤ n ∧ n ≤ 57 then n - 48
    else if 97 ≤ n ∧ n ≤ 122 then n - 87
    else if 65 ≤ n ∧ n ≤ 90 then n - 55
    else radix
  if v < radix then some v else none

/-- Reads on from the number `acc`, away from zero on the side of `sign`. -/
def readFrom (b : Bounds) (radix : Nat) (sign acc : Int) :
    List Char → Except IntegerError Int
  | [] => .ok acc
  | c :: s =>
    match digit? radix c with
    | none => .error .invalidDigit
    | some d =>
      let next := acc * radix + sign * d
      if next < b.lo then .error .tooSmall
      else if b.hi < next then .error .tooLarge
      else readFrom b radix sign next s

/-- A sign may stand before the digits; a minus sign counts as one only where negative numbers are
within the bounds. -/
def read (b : Bounds) (radix : Nat) : List Char → Except IntegerError Int
  | [] => .error .empty
  | ['+'] => .error .invalidDigit
  | ['-'] => .error .invalidDigit
  | '+' :: s => readFrom b radix 1 0 s
  | c :: s =>
    if c = '-' ∧ b.lo < 0 then readFrom b radix (-1) 0 s else readFrom b radix 1 0 (c :: s)

def read? (b : Bounds) (radix : Nat) (s : List Char) : Option Int :=
  (read b radix s).toOption

def readIndex (s : List Char) : Except IntegerError UInt32 :=
  (read .u32 10 s).map fun n ↦ .ofNat n.toNat

def decimal (n : Nat) : List Char :=
  Nat.toDigits 10 n

def padded (width n : Nat) : List Char :=
  List.replicate (width - (decimal n).length) '0' ++ decimal n

def signed (n : Int) : List Char :=
  if n < 0 then '-' :: decimal n.natAbs else decimal n.natAbs

def hexCode (n : Nat) : List Char :=
  let ds := Nat.toDigits 16 n
  '0' :: 'x' :: (List.replicate (2 - ds.length) '0' ++ ds)

end Numeral

end AlarmPanel
