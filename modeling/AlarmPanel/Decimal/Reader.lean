import AlarmPanel.Decimal.Binary64

namespace AlarmPanel.Decimal

/-- The number nearest to `digits * 10 ^ exponent`. Exponents beyond the range of the format are
settled without powers of that size. -/
def nearestScientific (negative : Bool) (digits : Nat) (exponent : Int) : Float :=
  let e := exponent + (Nat.toDigits 10 digits).length
  if digits = 0 ∨ e < -330 then ofMagnitude negative 0
  else if 320 < e then ofMagnitude negative infinityBits
  else nearest negative (digits * down 10 exponent) (up 10 exponent)

def signed? : List Char → Bool × List Char
  | '-' :: s => (true, s)
  | '+' :: s => (false, s)
  | s => (false, s)

def exponent? (s : List Char) : Option Int :=
  let (negative, ds) := signed? s
  if ds.isEmpty || !ds.all Char.isDigit then none
  else some (if negative then -(Nat.ofDigitChars 10 ds 0 : Nat) else (Nat.ofDigitChars 10 ds 0 : Nat))

def unsigned? (negative : Bool) (s : List Char) : Option Float :=
  let whole := s.takeWhile Char.isDigit
  let rest := s.dropWhile Char.isDigit
  let (fraction, rest) := match rest with
    | '.' :: r => (r.takeWhile Char.isDigit, r.dropWhile Char.isDigit)
    | r => ([], r)
  let value (e : Int) : Float :=
    nearestScientific negative (Nat.ofDigitChars 10 (whole ++ fraction) 0) (e - fraction.length)
  if whole.isEmpty && fraction.isEmpty then none
  else match rest with
    | [] => some (value 0)
    | c :: r => if c = 'e' ∨ c = 'E' then (exponent? r).map value else none

def read? (s : List Char) : Option Float :=
  let (negative, t) := signed? s
  let word := t.map Char.toLower
  if word = "inf".toList ∨ word = "infinity".toList then some (ofMagnitude negative infinityBits)
  else if word = "nan".toList then some (0.0 / 0.0)
  else unsigned? negative t

end AlarmPanel.Decimal
