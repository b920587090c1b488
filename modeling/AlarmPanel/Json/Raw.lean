import AlarmPanel.Numeral

namespace AlarmPanel.Json

/-- A character of a text, or a code unit that is written by its number. -/
inductive Mark where
  | plain (c : Char)
  | unit (code : Nat)
  deriving DecidableEq, Repr

/-- The digits before and after the point and in the exponent; `none` where a part is left out. -/
structure Figure where
  negative : Bool
  whole : List Char
  fraction : Option (List Char)
  /-- The exponent with its sign, which is true for a minus sign. -/
  exponent : Option (Bool × List Char)
  deriving DecidableEq, Repr

inductive Raw where
  | null
  | bool (b : Bool)
  | number (f : Figure)
  | text (l : List Mark)
  | array (l : List Raw)
  | object (l : List (List Mark × Raw))

namespace Raw

def isSpace (c : Char) : Bool :=
  c = ' ' || c = '\n' || c = '\t' || c = '\r'

def skip (s : List Char) : List Char :=
  s.dropWhile isSpace

def escaped? : Char → Option Char
  | '"' => some '"'
  | '\\' => some '\\'
  | '/' => some '/'
  | 'b' => some '\x08'
  | 'f' => some '\x0c'
  | 'n' => some '\n'
  | 'r' => some '\r'
  | 't' => some '\t'
  | _ => none

def unit? (a b c d : Char) : Option Mark :=
  ([a, b, c, d].mapM (Numeral.digit? 16)).map fun ds ↦ .unit (ds.foldl (fun n d ↦ 16 * n + d) 0)

def consMark (m : Option Mark) (r : Option (List Mark × List Char)) :
    Option (List Mark × List Char) :=
  match m, r with
  | some m, some r => some (m :: r.1, r.2)
  | _, _ => none

def text? : List Char → Option (List Mark × List Char)
  | [] => none
  | '"' :: s => some ([], s)
  | '\\' :: 'u' :: a :: b :: c :: d :: s => consMark (unit? a b c d) (text? s)
  | '\\' :: c :: s => consMark ((escaped? c).map .plain) (text? s)
  | c :: s => if c.toNat < 0x20 then none else consMark (some (.plain c)) (text? s)

def digits? (s : List Char) : Option (List Char × List Char) :=
  match s.takeWhile Char.isDigit with
  | [] => none
  | ds => some (ds, s.dropWhile Char.isDigit)

def whole? : List Char → Option (List Char × List Char)
  | '0' :: s => some (['0'], s)
  | s => digits? s

def fraction? : List Char → Option (Option (List Char) × List Char)
  | '.' :: s => (digits? s).map fun r ↦ (some r.1, r.2)
  | s => some (none, s)

def exponent? : List Char → Option (Option (Bool × List Char) × List Char)
  | c :: s =>
    if c = 'e' ∨ c = 'E' then
      match s with
      | '-' :: s => (digits? s).map fun r ↦ (some (true, r.1), r.2)
      | '+' :: s => (digits? s).map fun r ↦ (some (false, r.1), r.2)
      | s => (digits? s).map fun r ↦ (some (false, r.1), r.2)
    else some (none, c :: s)
  | [] => some (none, [])

def figure? (s : List Char) : Option (Figure × List Char) :=
  let (negative, s) := match s with
    | '-' :: s => (true, s)
    | s => (false, s)
  (whole? s).bind fun (whole, s) ↦
    (fraction? s).bind fun (fraction, s) ↦
      (exponent? s).map fun (exponent, s) ↦ (⟨negative, whole, fraction, exponent⟩, s)

mutual

def value? : Nat → List Char → Option (Raw × List Char)
  | 0, _ => none
  | n + 1, s =>
    match skip s with
    | 'n' :: 'u' :: 'l' :: 'l' :: s => some (null, s)
    | 't' :: 'r' :: 'u' :: 'e' :: s => some (bool true, s)
    | 'f' :: 'a' :: 'l' :: 's' :: 'e' :: s => some (bool false, s)
    | '"' :: s => (text? s).map fun r ↦ (text r.1, r.2)
    | '[' :: s =>
      match skip s with
      | ']' :: s => some (array [], s)
      | s => (elements? n s).map fun r ↦ (array r.1, r.2)
    | '{' :: s =>
      match skip s with
      | '}' :: s => some (object [], s)
      | s => (members? n s).map fun r ↦ (object r.1, r.2)
    | s => (figure? s).map fun r ↦ (number r.1, r.2)

def elements? : Nat → List Char → Option (List Raw × List Char)
  | 0, _ => none
  | n + 1, s =>
    (value? n s).bind fun (v, s) ↦
      match skip s with
      | ',' :: s => (elements? n s).map fun r ↦ (v :: r.1, r.2)
      | ']' :: s => some ([v], s)
      | _ => none

def members? : Nat → List Char → Option (List (List Mark × Raw) × List Char)
  | 0, _ => none
  | n + 1, s =>
    match skip s with
    | '"' :: s =>
      (text? s).bind fun (k, s) ↦
        match skip s with
        | ':' :: s =>
          (value? n s).bind fun (v, s) ↦
            match skip s with
            | ',' :: s => (members? n s).map fun r ↦ ((k, v) :: r.1, r.2)
            | '}' :: s => some ([(k, v)], s)
            | _ => none
        | _ => none
    | _ => none

end

/-- The tree of a whole text. No text needs more nested calls than twice its length. -/
def ofText? (s : List Char) : Option Raw :=
  (value? (2 * s.length + 2) s).bind fun r ↦ if (skip r.2).isEmpty then some r.1 else none

end Raw

end AlarmPanel.Json
