namespace AlarmPanel.Text.Utf8

def encode (s : List Char) : List UInt8 :=
  s.flatMap String.utf8EncodeChar

def replacement : Char := '\ufffd'

/-- What the character begun still needs: `more` octets after the next one, which has to lie between
`low` and `high`, and the bits gathered so far. -/
structure Owed where
  more : Nat
  low : UInt8
  high : UInt8
  bits : Nat

/-- The first octet of a character: the characters it completes, and what it begins. -/
def start (b : UInt8) : List Char × Option Owed :=
  let n := b.toNat
  if b < 0x80 then ([Char.ofNat n], none)
  else if b < 0xC2 then ([replacement], none)
  else if b < 0xE0 then ([], some ⟨0, 0x80, 0xBF, n - 0xC0⟩)
  else if b = 0xE0 then ([], some ⟨1, 0xA0, 0xBF, 0⟩)
  else if b = 0xED then ([], some ⟨1, 0x80, 0x9F, 0xD⟩)
  else if b < 0xF0 then ([], some ⟨1, 0x80, 0xBF, n - 0xE0⟩)
  else if b = 0xF0 then ([], some ⟨2, 0x90, 0xBF, 0⟩)
  else if b < 0xF4 then ([], some ⟨2, 0x80, 0xBF, n - 0xF0⟩)
  else if b = 0xF4 then ([], some ⟨2, 0x80, 0x8F, 4⟩)
  else ([replacement], none)

def decodeFrom : Option Owed → List UInt8 → List Char
  | none, [] => []
  | some _, [] => [replacement]
  | none, b :: l => (start b).1 ++ decodeFrom (start b).2 l
  | some o, b :: l =>
    if o.low ≤ b ∧ b ≤ o.high then
      let bits := o.bits * 64 + (b.toNat - 0x80)
      match o.more with
      | 0 => Char.ofNat bits :: decodeFrom none l
      | k + 1 => decodeFrom (some ⟨k, 0x80, 0xBF, bits⟩) l
    else replacement :: ((start b).1 ++ decodeFrom (start b).2 l)

def decode (l : List UInt8) : List Char :=
  decodeFrom none l

end AlarmPanel.Text.Utf8
