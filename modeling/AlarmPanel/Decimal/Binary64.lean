namespace AlarmPanel.Decimal

inductive Parts where
  | nan
  | infinite (negative : Bool)
  /-- The number `significand * 2 ^ exponent`. -/
  | finite (negative : Bool) (significand : Nat) (exponent : Int)
  deriving DecidableEq, Repr

def Parts.ofBits (bits : Nat) : Parts :=
  let negative := bits / Nat.pow 2 63 % 2 == 1
  let field : Nat := bits / Nat.pow 2 52 % Nat.pow 2 11
  let fraction := bits % Nat.pow 2 52
  if field = 2047 then (if fraction = 0 then infinite negative else nan)
  else if field = 0 then finite negative fraction (-1074)
  else finite negative (Nat.pow 2 52 + fraction) ((field : Int) - 1075)

def Parts.ofFloat (x : Float) : Parts :=
  ofBits x.toBits.toNat

/-- The factors that bring a ratio of numbers to the unit `base ^ k`. -/
def up (base : Nat) (k : Int) : Nat := base.pow (-k).toNat
def down (base : Nat) (k : Int) : Nat := base.pow k.toNat

/-- The whole number nearest to a ratio, an even one where two are equally near. -/
def roundEven (num den : Nat) : Nat :=
  let n := num / den
  let r := num % den
  if 2 * r < den then n
  else if den < 2 * r then n + 1
  else n + n % 2

/-- The greatest `e` such that `2 ^ e` is at most the ratio of two positive numbers. -/
def log2Floor (num den : Nat) : Int :=
  let e : Int := (num.log2 : Int) - den.log2
  if num * up 2 e < den * down 2 e then e - 1 else e

def infinityBits : Nat := 2047 * Nat.pow 2 52

/-- The bits of the number nearest to a ratio. The last bit of a significand is worth `2 ^ q`, and a
significand that rounds up to the next power of two carries over into the exponent. -/
def nearestBits (num den : Nat) : Nat :=
  if num = 0 then 0
  else
    let q := max (log2Floor num den - 52) (-1074)
    let m := roundEven (num * up 2 q) (den * down 2 q)
    min ((q + 1074).toNat * Nat.pow 2 52 + m) infinityBits

def ofMagnitude (negative : Bool) (bits : Nat) : Float :=
  .ofBits (.ofNat (if negative then bits + Nat.pow 2 63 else bits))

def nearest (negative : Bool) (num den : Nat) : Float :=
  ofMagnitude negative (nearestBits num den)

def ofInt (n : Int) : Float :=
  nearest (n < 0) n.natAbs 1

/-- What is left of `x` after a whole number of times `y`, with the sign of `x`. -/
def remainder (x y : Float) : Float :=
  match Parts.ofFloat x, Parts.ofFloat y with
  | .finite negative m p, .finite _ n q =>
    if n = 0 then 0.0 / 0.0
    else
      let e := min p q
      let r := m * down 2 (p - e) % (n * down 2 (q - e))
      nearest negative (r * down 2 e) (up 2 e)
  | .finite .., .infinite _ => x
  | _, _ => 0.0 / 0.0

end AlarmPanel.Decimal
