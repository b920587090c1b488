import AlarmPanel.Decimal.Reader
import AlarmPanel.Numeral

namespace AlarmPanel.Toml

inductive Value where
  | text (s : String)
  | int (n : Int)
  | float
  | bool (b : Bool)
  | array (l : List Value)

abbrev Table := List (String × Value)

inductive Entry where
  | value (v : Value)
  | table (t : Table)
  | tables (l : List Table)

abbrev Document := List (String × Entry)

def consFirst (c : Char) : List (List Char) → List (List Char)
  | [] => [[c]]
  | l :: r => (c :: l) :: r

/-- The lines of a text. A return before the end of a line belongs to the end. -/
def lines : List Char → List (List Char)
  | [] => [[]]
  | '\r' :: '\n' :: s => [] :: lines s
  | '\n' :: s => [] :: lines s
  | c :: s => consFirst c (lines s)

def withoutMark : List Char → List Char
  | '\uFEFF' :: s => s
  | s => s

def isAllowed (c : Char) : Bool :=
  c = '\t' || (0x20 ≤ c.toNat && c.toNat ≠ 0x7F)

def skip (s : List Char) : List Char :=
  s.dropWhile fun c ↦ c = ' ' || c = '\t'

def isRest (s : List Char) : Bool :=
  match skip s with
  | [] => true
  | c :: _ => c = '#'

def escaped? : Char → Option Char
  | 'b' => some '\x08'
  | 't' => some '\t'
  | 'n' => some '\n'
  | 'f' => some '\x0c'
  | 'r' => some '\r'
  | '"' => some '"'
  | '\\' => some '\\'
  | _ => none

def numbered? (ds : List Char) : Option Char :=
  (ds.mapM (Numeral.digit? 16)).bind fun ds ↦
    let n := ds.foldl (fun n d ↦ 16 * n + d) 0
    if n.isValidChar then some (.ofNat n) else none

abbrev Found (α : Type) := Option (α × List Char)

def consChar (c : Option Char) (r : Found (List Char)) : Found (List Char) :=
  match c, r with
  | some c, some r => some (c :: r.1, r.2)
  | _, _ => none

def quoted? : List Char → Found (List Char)
  | [] => none
  | '"' :: s => some ([], s)
  | '\\' :: 'u' :: a :: b :: c :: d :: s => consChar (numbered? [a, b, c, d]) (quoted? s)
  | '\\' :: 'U' :: a :: b :: c :: d :: e :: f :: g :: h :: s =>
    consChar (numbered? [a, b, c, d, e, f, g, h]) (quoted? s)
  | '\\' :: c :: s => consChar (escaped? c) (quoted? s)
  | c :: s => consChar (some c) (quoted? s)

/-- A text between apostrophes, in which nothing is escaped. -/
def literal? (s : List Char) : Found (List Char) :=
  match s.dropWhile (· ≠ '\'') with
  | [] => none
  | _ :: r => some (s.takeWhile (· ≠ '\''), r)

def isBare (c : Char) : Bool :=
  c.isAlphanum || c = '_' || c = '-'

def key? (s : List Char) : Found (List Char) :=
  match s with
  | '"' :: s => quoted? s
  | '\'' :: s => literal? s
  | s =>
    match s.takeWhile isBare with
    | [] => none
    | k => some (k, s.dropWhile isBare)

/-- Digits in a radix, with single underscores between them. -/
def digits? (radix : Nat) : List Char → Option (List Char)
  | [] => none
  | [c] => if (Numeral.digit? radix c).isSome then some [c] else none
  | c :: '_' :: s => if (Numeral.digit? radix c).isSome then (digits? radix s).map (c :: ·) else none
  | c :: s => if (Numeral.digit? radix c).isSome then (digits? radix s).map (c :: ·) else none

def whole? (s : List Char) : Option (List Char) :=
  (digits? 10 s).bind fun
    | '0' :: _ :: _ => none
    | ds => some ds

def unsigned (s : List Char) : List Char :=
  match s with
  | '+' :: s => s
  | '-' :: s => s
  | s => s

def int? (s : List Char) : Option Int :=
  let based (radix : Nat) (s : List Char) : Option Int :=
    (digits? radix s).bind (Numeral.read? .i64 radix)
  match s with
  | '0' :: 'x' :: s => based 16 s
  | '0' :: 'o' :: s => based 8 s
  | '0' :: 'b' :: s => based 2 s
  | s =>
    (whole? (unsigned s)).bind fun ds ↦
      Numeral.read? .i64 10 (if s.head? = some '-' then '-' :: ds else ds)

def isExponent (s : List Char) : Bool :=
  (digits? 10 (unsigned s)).isSome

def isFraction (s : List Char) : Bool :=
  match s with
  | '.' :: s =>
    let ds := s.takeWhile fun c ↦ c.isDigit || c = '_'
    (digits? 10 ds).isSome &&
      match s.drop ds.length with
      | [] => true
      | c :: s => (c = 'e' || c = 'E') && isExponent s
  | c :: s => (c = 'e' || c = 'E') && isExponent s
  | [] => false

/-- Whether the number is not above what a float can hold. One that is below counts as infinite. -/
def isBounded (s : List Char) : Bool :=
  (Decimal.read? (s.filter (· ≠ '_'))).any fun x ↦ x.toBits.toNat ≠ Decimal.infinityBits

def isFloat (s : List Char) : Bool :=
  let t := unsigned s
  let whole := t.takeWhile fun c ↦ c.isDigit || c = '_'
  t = "inf".toList || t = "nan".toList ||
    ((whole? whole).isSome && isFraction (t.drop whole.length) && isBounded s)

def word? (s : List Char) : Option Value :=
  if s = "true".toList then some (.bool true)
  else if s = "false".toList then some (.bool false)
  else
    match int? s with
    | some n => some (.int n)
    | none => if isFloat s then some .float else none

def isWord (c : Char) : Bool :=
  isBare c || c = '+' || c = '.'

mutual

def value? : Nat → List Char → Found Value
  | 0, _ => none
  | n + 1, s =>
    match s with
    | '"' :: s => (quoted? s).map fun r ↦ (.text (String.ofList r.1), r.2)
    | '\'' :: s => (literal? s).map fun r ↦ (.text (String.ofList r.1), r.2)
    | '[' :: s => (elements? n (skip s)).map fun r ↦ (.array r.1, r.2)
    | s => (word? (s.takeWhile isWord)).map fun v ↦ (v, s.dropWhile isWord)

def elements? : Nat → List Char → Found (List Value)
  | 0, _ => none
  | n + 1, s =>
    match s with
    | ']' :: s => some ([], s)
    | s =>
      (value? n s).bind fun (v, s) ↦
        match skip s with
        | ',' :: s => (elements? n (skip s)).map fun r ↦ (v :: r.1, r.2)
        | ']' :: s => some ([v], s)
        | _ => none

end

inductive Line where
  | blank
  | table (name : String)
  | member (name : String)
  | pair (key : String) (v : Value)

def header? (close : List Char) (s : List Char) : Option String :=
  (key? (skip s)).bind fun (k, s) ↦
    if close.isPrefixOf (skip s) && isRest ((skip s).drop close.length) then some (String.ofList k)
    else none

def pair? (s : List Char) : Option Line :=
  (key? s).bind fun (k, s) ↦
    match skip s with
    | '=' :: s =>
      (value? (2 * s.length + 2) (skip s)).bind fun (v, s) ↦
        if isRest s then some (.pair (String.ofList k) v) else none
    | _ => none

def Line.ofChars? (s : List Char) : Option Line :=
  if !s.all isAllowed then none
  else if isRest s then some .blank
  else
    match skip s with
    | '[' :: '[' :: s => (header? [']', ']'] s).map .member
    | '[' :: s => (header? [']'] s).map .table
    | s => pair? s

def addPair (k : String) (v : Value) (t : Table) : Option Table :=
  if t.any fun p ↦ p.1 == k then none else some (t ++ [(k, v)])

/-- A document under construction, with the table that takes the coming pairs. -/
structure Draft where
  entries : Document := []
  current : Option String := none

namespace Draft

variable (d : Draft)

def entry? (name : String) : Option Entry :=
  (d.entries.find? fun e ↦ e.1 == name).map Prod.snd

def put (name : String) (e : Entry) : Document :=
  match d.entry? name with
  | some _ => d.entries.map fun f ↦ if f.1 == name then (name, e) else f
  | none => d.entries ++ [(name, e)]

def add (k : String) (v : Value) : Option Draft :=
  match d.current with
  | none =>
    match d.entry? k with
    | some _ => none
    | none => some { d with entries := d.put k (.value v) }
  | some name =>
    match d.entry? name with
    | some (.table t) => (addPair k v t).map fun t ↦ { d with entries := d.put name (.table t) }
    | some (.tables (t :: l)) =>
      (addPair k v t).map fun t ↦ { d with entries := d.put name (.tables (t :: l)) }
    | _ => none

/-- One line. The last table of an array stands first. -/
def line (l : Line) : Option Draft :=
  match l with
  | .blank => some d
  | .pair k v => d.add k v
  | .table name =>
    match d.entry? name with
    | some _ => none
    | none => some ⟨d.put name (.table []), some name⟩
  | .member name =>
    match d.entry? name with
    | none => some ⟨d.put name (.tables [[]]), some name⟩
    | some (.tables l) => some ⟨d.put name (.tables ([] :: l)), some name⟩
    | some _ => none

end Draft

def build (d : Draft) : List (List Char) → Option Draft
  | [] => some d
  | s :: l => (Line.ofChars? s).bind fun a ↦ (d.line a).bind fun d ↦ build d l

def ofText? (s : String) : Option Document :=
  (build {} (lines (withoutMark s.toList))).map fun d ↦
    d.entries.map fun
      | (name, .tables l) => (name, .tables l.reverse)
      | e => e

end AlarmPanel.Toml
