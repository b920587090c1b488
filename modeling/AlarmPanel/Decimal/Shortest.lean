import AlarmPanel.Decimal.Binary64

namespace AlarmPanel.Decimal

structure Scientific where
  digits : Nat
  exponent : Int
  deriving DecidableEq, Repr

inductive Tie where
  | up
  | even
  deriving DecidableEq, Repr

/-- A positive number and the ends of its interval, as numerators over one denominator. -/
structure Neighbourhood where
  low : Nat
  value : Nat
  high : Nat
  den : Nat
  closed : Bool

/-- Below a power of two the neighbours are half as far apart as above it. -/
def Neighbourhood.ofParts (m : Nat) (q : Int) : Neighbourhood :=
  let s := down 2 q
  let step := if m = Nat.pow 2 52 ∧ -1074 < q then 1 else 2
  ⟨(4 * m - step) * s, 4 * m * s, (4 * m + 2) * s, 4 * up 2 q, m % 2 == 0⟩

/-- The greatest `e` such that `10 ^ e` is at most the ratio of two positive numbers. -/
def log10Floor (num den : Nat) : Int :=
  if den ≤ num then ((Nat.toDigits 10 (num / den)).length : Int) - 1
  else
    let n := (Nat.toDigits 10 (den / num)).length
    if den ≤ num * Nat.pow 10 (n - 1) then -((n - 1 : Nat) : Int) else -(n : Int)

namespace Neighbourhood

variable (v : Neighbourhood)

def holds (d : Nat) (k : Int) : Bool :=
  let x := d * v.den * down 10 k
  let lo := v.low * up 10 k
  let hi := v.high * up 10 k
  if v.closed then lo ≤ x && x ≤ hi else lo < x && x < hi

def at? (tie : Tie) (k : Int) : Option Nat :=
  let num := v.value * up 10 k
  let den := v.den * down 10 k
  let d := num / den
  let r := num % den
  let upper : Bool := match tie with
    | .up => den ≤ 2 * r
    | .even => den < 2 * r || (den == 2 * r && d % 2 == 1)
  match v.holds d k && d != 0, v.holds (d + 1) k with
  | true, true => some (if upper then d + 1 else d)
  | true, false => some d
  | false, true => some (d + 1)
  | false, false => none

/-- Tries grids from `10 ^ k` on, each ten times as fine as the one before. -/
def search (tie : Tie) (k : Int) : Nat → Scientific
  | 0 => ⟨0, 0⟩
  | n + 1 =>
    match v.at? tie k with
    | some d => ⟨d, k⟩
    | none => search tie (k - 1) n

end Neighbourhood

def Scientific.strip : Nat → Scientific → Scientific
  | 0, s => s
  | n + 1, s =>
    if s.digits % 10 = 0 ∧ s.digits ≠ 0 then strip n ⟨s.digits / 10, s.exponent + 1⟩ else s

/-- Seventeen digits always suffice. -/
def shortest (tie : Tie) (m : Nat) (q : Int) : Scientific :=
  if m = 0 then ⟨0, 0⟩
  else
    let v := Neighbourhood.ofParts m q
    (v.search tie (log10Floor v.value v.den) 18).strip 18

end AlarmPanel.Decimal
