import AlarmPanel.Decimal.Shortest
import AlarmPanel.Numeral

namespace AlarmPanel.Decimal

structure Style where
  tie : Tie
  fraction : Bool
  /-- The powers of ten of the leading digit that are written without an exponent. -/
  positional : Int → Bool
  plus : List Char
  nan : List Char
  infinity : List Char

def zeros (n : Nat) : List Char := List.replicate n '0'

/-- The digits with a point after the first `p`; zeros fill the place up to the point. -/
def withoutExponent (ds : List Char) (p : Int) (fraction : Bool) : List Char :=
  if p ≤ 0 then '0' :: '.' :: (zeros (-p).toNat ++ ds)
  else if ds.length ≤ p.toNat then
    ds ++ zeros (p.toNat - ds.length) ++ (if fraction then ['.', '0'] else [])
  else ds.take p.toNat ++ '.' :: ds.drop p.toNat

def withExponent (ds : List Char) (e : Int) (plus : List Char) : List Char :=
  let mantissa := match ds with
    | [] => []
    | [d] => [d]
    | d :: r => d :: '.' :: r
  mantissa ++ 'e' :: ((if e < 0 then [] else plus) ++ Numeral.signed e)

namespace Style

variable (s : Style)

def magnitude (m : Nat) (q : Int) : List Char :=
  if m = 0 then '0' :: (if s.fraction then ['.', '0'] else [])
  else
    let x := shortest s.tie m q
    let ds := Numeral.decimal x.digits
    let p := x.exponent + ds.length
    if s.positional (p - 1) then withoutExponent ds p s.fraction else withExponent ds (p - 1) s.plus

def sign (negative : Bool) (t : List Char) : List Char :=
  if negative then '-' :: t else t

def renderParts : Parts → List Char
  | .nan => s.nan
  | .infinite negative => sign negative s.infinity
  | .finite negative m q => sign negative (s.magnitude m q)

def render (x : Float) : List Char :=
  s.renderParts (.ofFloat x)

end Style

def plain : Style where
  tie := .up
  fraction := false
  positional := fun _ ↦ true
  plus := []
  nan := "NaN".toList
  infinity := "inf".toList

end AlarmPanel.Decimal
