import AlarmPanel.Expression.Token

namespace AlarmPanel.Expression

inductive UnaryOp where
  | neg
  | not
  deriving DecidableEq, Repr

inductive Infixed where
  | op (o : BinaryOp)
  | assign (o : Option BinaryOp)
  deriving DecidableEq, Repr

/-- Two ways to put expressions in a row: all values are kept, or the last one alone. -/
inductive Sequence where
  | tuple
  | chain
  deriving DecidableEq, Repr

/-- The parts of a sequence stand in reverse. -/
inductive Tree where
  | missing
  | value (v : Value)
  | read (name : List Char)
  | target (name : List Char)
  | unary (o : UnaryOp) (t : Tree)
  | call (name : List Char) (t : Tree)
  | binary (o : Infixed) (l r : Tree)
  | group (t : Tree)
  | sequence (k : Sequence) (parts : List Tree)

namespace Tree

def opPrecedence : BinaryOp → Nat
  | .pow => 120
  | .mul | .div | .rem => 100
  | .add | .sub => 95
  | .eq | .ne | .lt | .gt | .le | .ge => 80
  | .and => 75
  | .or => 70

def sequencePrecedence : Sequence → Nat
  | .tuple => 40
  | .chain => 0

def precedence : Tree → Nat
  | missing | value _ | read _ | target _ | group _ => 200
  | call .. => 190
  | unary .. => 110
  | binary (.op o) _ _ => opPrecedence o
  | binary (.assign _) _ _ => 50
  | sequence k _ => sequencePrecedence k

def nestsRight : Tree → Bool
  | call .. => true
  | binary (.assign none) _ _ => true
  | _ => false

def isUnary : Tree → Bool
  | unary .. | call .. => true
  | _ => false

/-- `x` belongs below `c` and not above it. -/
def sinksInto (x c : Tree) : Bool :=
  x.isUnary || c.precedence < x.precedence ||
    (c.precedence == x.precedence && c.nestsRight && x.nestsRight)

/-- Puts `x` above the finished tree `c`, below a bracket or an operator. -/
def adopt (inGroup : Bool) (x c : Tree) : Option Tree :=
  match x with
  | binary o missing missing => some (binary o c missing)
  | group missing =>
    match inGroup, c with
    | true, _ => none
    | false, group _ => none
    | false, c => some (group c)
  | _ => none

/-- Puts `x` at the right edge of a tree. -/
def place (x : Tree) (inGroup : Bool) : Tree → Option Tree
  | missing => some x
  | unary o t =>
    if x.sinksInto (unary o t) then (place x false t).map (unary o)
    else adopt inGroup x (unary o t)
  | call f t =>
    if x.sinksInto (call f t) then (place x false t).map (call f)
    else adopt inGroup x (call f t)
  | binary o missing r =>
    if x.sinksInto (binary o missing r) then some (binary o x r)
    else adopt inGroup x (binary o missing r)
  | binary o l r =>
    if x.sinksInto (binary o l r) then (place x false r).map (binary o l)
    else adopt inGroup x (binary o l r)
  | group t =>
    if x.sinksInto (group t) then (place x true t).map group
    else adopt inGroup x (group t)
  | sequence k parts =>
    if x.sinksInto (sequence k parts) then some (sequence k (x :: parts))
    else adopt inGroup x (sequence k parts)
  | c => if x.sinksInto c then none else adopt inGroup x c

def accept (x : Tree) : Tree → Option Tree
  | group t => (place x true t).map group
  | sequence k parts => some (sequence k (x :: parts))
  | _ => none

def append (s : Tree) : Tree → Option Tree
  | group missing => some (group s)
  | sequence k parts => some (sequence k (s :: parts))
  | _ => none

abbrev Stack := List Tree

def push (x : Tree) : Stack → Option Stack
  | sequence k (last :: parts) :: stack =>
    (accept x last).map fun t ↦ sequence k (t :: parts) :: stack
  | t :: stack => (accept x t).map (· :: stack)
  | [] => none

/-- Closes what binds closer than a chain. -/
def closeAbove (t : Tree) : Stack → Option (Tree × Stack)
  | [] => none
  | higher :: stack =>
    if 0 < higher.precedence then (append t higher).bind fun t ↦ closeAbove t stack
    else some (t, higher :: stack)

def separate (k : Sequence) : Stack → Option Stack
  | sequence j parts :: stack =>
    if j = k then some (sequence k (group missing :: parts) :: stack)
    else if sequencePrecedence j < sequencePrecedence k then
      match parts with
      | last :: parts => some (sequence k [group missing, last] :: sequence j parts :: stack)
      | [] => none
    else (closeAbove (sequence j parts) stack).map fun r ↦ sequence k [r.1] :: r.2
  | t :: stack => some (sequence k [group missing, t] :: group missing :: stack)
  | [] => none

/-- Closes the sequences of the innermost bracket. -/
def close : Stack → Option Stack
  | sequence k parts :: higher :: stack =>
    match append (sequence k parts) higher with
    | some t => close (t :: stack)
    | none => none
  | group t :: stack => some (group t :: stack)
  | _ => none
termination_by s => s.length

def ofName (s : List Char) (next : Option Token) : Tree :=
  match next with
  | some (.assign _) => target s
  | some k => if k.startsValue then call s missing else read s
  | none => read s

def binaryOf (o : Infixed) : Tree := binary o missing missing

/-- One token; `after` tells whether a value ends before it. -/
def step (after : Bool) (token : Token) (next : Option Token) (stack : Stack) : Option Stack :=
  match token with
  | .op o => push (binaryOf (.op o)) stack
  | .minus => push (if after then binaryOf (.op .sub) else unary .neg missing) stack
  | .not => push (unary .not missing) stack
  | .assign o => push (binaryOf (.assign o)) stack
  | .value v => push (value v) stack
  | .name s => push (ofName s next) stack
  | .comma => separate .tuple stack
  | .semicolon => separate .chain stack
  | .opening => some (group missing :: stack)
  | .closing =>
    if stack.length ≤ 1 then none
    else match close stack with
      | some (t :: stack) => push t stack
      | _ => none

def build (after : Bool) : List Token → Stack → Option Stack
  | [], stack => close stack
  | k :: l, stack => (step after k l.head? stack).bind (build k.endsValue l)

def ofTokens (l : List Token) : Except Failure Tree :=
  match build false l [group missing] with
  | some [t] => .ok t
  | _ => .error .malformed

end Tree

end AlarmPanel.Expression
