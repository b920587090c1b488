import AlarmPanel.Expression.Value
import AlarmPanel.Decimal.Reader
import AlarmPanel.Text.Blank

namespace AlarmPanel.Expression

inductive Lexeme where
  | mark (c : Char)
  | blank
  | word (s : List Char)
  | text (s : List Char)
  deriving DecidableEq, Repr

inductive BinaryOp where
  | add | sub | mul | div | rem | pow
  | eq | ne | lt | gt | le | ge
  | and | or
  deriving DecidableEq, Repr

inductive Token where
  | op (o : BinaryOp)
  | minus
  | not
  | opening
  | closing
  | comma
  | semicolon
  | assign (o : Option BinaryOp)
  | value (v : Value)
  | name (s : List Char)

namespace Lexeme

def marks : List Char := "+-*/%^(),;=!<>&|".toList

def cons (c : Char) (l : List Lexeme) : List Lexeme :=
  if Text.isBlank c then blank :: l
  else if marks.contains c then mark c :: l
  else match l with
    | word s :: r => word (c :: s) :: r
    | l => word [c] :: l

mutual

def scan : List Char → Except Failure (List Lexeme)
  | [] => .ok []
  | '"' :: s => scanText [] s
  | '/' :: '/' :: s => skipLine s
  | '/' :: '*' :: s => skipBlock s
  | c :: s => (scan s).map (cons c)

def scanText (read : List Char) : List Char → Except Failure (List Lexeme)
  | [] => .error .malformed
  | '"' :: s => (scan s).map (text read.reverse :: ·)
  | ['\\'] => .error .malformed
  | '\\' :: c :: s =>
    if c = '"' ∨ c = '\\' then scanText (c :: read) s else .error .malformed
  | c :: s => scanText (c :: read) s

def skipLine : List Char → Except Failure (List Lexeme)
  | [] => .ok []
  | c :: s => if c = '\n' then scan s else skipLine s

def skipBlock : List Char → Except Failure (List Lexeme)
  | [] => .error .malformed
  | '*' :: '/' :: s => scan s
  | _ :: s => skipBlock s

end

end Lexeme

namespace Token

def whole? : List Char → Option Int
  | '0' :: 'x' :: s => Numeral.read? .i64 16 s
  | s => Numeral.read? .i64 10 s

def ofWord (s : List Char) : Token :=
  match whole? s with
  | some n => value (.int n)
  | none =>
    match Decimal.read? s with
    | some x => value (.float x)
    | none =>
      if s = "true".toList then value (.bool true)
      else if s = "false".toList then value (.bool false)
      else name s

def arithmetic? : Char → Option BinaryOp
  | '+' => some .add
  | '-' => some .sub
  | '*' => some .mul
  | '/' => some .div
  | '%' => some .rem
  | '^' => some .pow
  | _ => none

def ofMark : Char → Except Failure Token
  | '-' => .ok minus
  | '(' => .ok opening
  | ')' => .ok closing
  | ',' => .ok comma
  | ';' => .ok semicolon
  | '=' => .ok (assign none)
  | '!' => .ok not
  | '<' => .ok (op .lt)
  | '>' => .ok (op .gt)
  | c =>
    match arithmetic? c with
    | some o => .ok (op o)
    | none => .error .malformed

def withEquals? : Char → Option Token
  | '=' => some (op .eq)
  | '!' => some (op .ne)
  | '<' => some (op .le)
  | '>' => some (op .ge)
  | c => (arithmetic? c).map fun o ↦ assign (some o)

def split? (s : List Char) (sign : Char) (t : List Char) : Option Token :=
  match ofWord s with
  | name _ =>
    if sign = '+' ∨ sign = '-' then
      (Decimal.read? (s ++ sign :: t)).map fun x ↦ value (.float x)
    else none
  | _ => none

def ofLexemes : List Lexeme → Except Failure (List Token)
  | [] => .ok []
  | .blank :: l => ofLexemes l
  | .text s :: l => (ofLexemes l).map (value (.text (String.ofList s)) :: ·)
  | .word s :: .mark c :: .word t :: l =>
    match split? s c t with
    | some k => (ofLexemes l).map (k :: ·)
    | none => (ofLexemes (.mark c :: .word t :: l)).map (ofWord s :: ·)
  | .word s :: l => (ofLexemes l).map (ofWord s :: ·)
  | .mark '&' :: .mark '&' :: .mark '=' :: l => (ofLexemes l).map (assign (some .and) :: ·)
  | .mark '&' :: .mark '&' :: l => (ofLexemes l).map (op .and :: ·)
  | .mark '|' :: .mark '|' :: .mark '=' :: l => (ofLexemes l).map (assign (some .or) :: ·)
  | .mark '|' :: .mark '|' :: l => (ofLexemes l).map (op .or :: ·)
  | .mark c :: .mark '=' :: l =>
    match withEquals? c with
    | some k => (ofLexemes l).map (k :: ·)
    | none => do
      let k ← ofMark c
      return k :: (← ofLexemes (.mark '=' :: l))
  | .mark c :: l => do
    let k ← ofMark c
    return k :: (← ofLexemes l)

def scan (s : List Char) : Except Failure (List Token) := do
  ofLexemes (← Lexeme.scan s)

def startsValue : Token → Bool
  | opening | value _ | name _ => true
  | _ => false

def endsValue : Token → Bool
  | closing | value _ | name _ => true
  | _ => false

end Token

end AlarmPanel.Expression
