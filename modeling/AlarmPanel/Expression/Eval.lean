import AlarmPanel.Error
import AlarmPanel.Expression.Tree

namespace AlarmPanel.Expression

abbrev Variables := List (List Char × Value)

namespace Variables

def get? (env : Variables) (name : List Char) : Option Value :=
  (env.find? fun p ↦ p.1 == name).map (·.2)

def set (env : Variables) (name : List Char) (v : Value) : Except Failure Variables :=
  match env.get? name with
  | some w => if w.kind == v.kind then .ok ((name, v) :: env) else .error .wrongType
  | none => .ok ((name, v) :: env)

end Variables

def BinaryOp.apply : BinaryOp → Value → Value → Except Failure Value
  | .add => Value.add
  | .sub => Value.sub
  | .mul => Value.mul
  | .div => Value.div
  | .rem => Value.rem
  | .pow => Value.pow
  | .eq => fun a b ↦ .ok (.bool (a.same b))
  | .ne => fun a b ↦ .ok (.bool (!a.same b))
  | .lt => Value.compare (· < ·) (· < ·) (· < ·)
  | .gt => Value.compare (· > ·) (· > ·) (· > ·)
  | .le => Value.compare (fun s t ↦ !(t < s)) (· ≤ ·) (· ≤ ·)
  | .ge => Value.compare (fun s t ↦ !(s < t)) (· ≥ ·) (· ≥ ·)
  | .and => Value.logic (· && ·)
  | .or => Value.logic (· || ·)

def UnaryOp.apply : UnaryOp → Value → Except Failure Value
  | .neg, v => v.neg
  | .not, v => v.truth.map fun b ↦ .bool (!b)

structure Extremes where
  whole : Option Int
  real : Option Float

namespace Extremes

/-- Takes one more value in. Of two equal floats, which may differ in sign, the earlier one stays. -/
def pick (better : Float → Float → Bool) (betterWhole : Int → Int → Bool) (e : Extremes) :
    Value → Except Failure Extremes
  | .int n => .ok { e with whole := some (match e.whole with
      | some m => if betterWhole m n then m else n
      | none => n) }
  | .float x =>
    if x.isNaN then .ok e
    else .ok { e with real := some (match e.real with
      | some y => if better x y then x else y
      | none => x) }
  | _ => .error .wrongType

def best (better : Float → Float → Bool) (worst : Float) (worstWhole : Int) (e : Extremes) :
    Value :=
  let n := e.whole.getD worstWhole
  let x := e.real.getD worst
  if better (Decimal.ofInt n) x then .int n else .float x

end Extremes

def extreme (better : Float → Float → Bool) (betterWhole : Int → Int → Bool) (worst : Float)
    (worstWhole : Int) (v : Value) : Except Failure Value := do
  let l ← v.members
  let e ← l.foldlM (Extremes.pick better betterWhole) ⟨none, none⟩
  return e.best better worst worstWhole

def choose (v : Value) : Except Failure Value :=
  match v with
  | .tuple [c, a, b] => c.truth.map fun t ↦ if t then a else b
  | _ => .error .wrongType

def size : Value → Except Failure Value
  | .text s => .ok (.int s.utf8ByteSize)
  | .tuple l => .ok (.int l.length)
  | _ => .error .wrongType

def absolute : Value → Except Failure Value
  | .int n => Value.bounded n.natAbs
  | .float x => .ok (.float x.abs)
  | _ => .error .wrongType

def function? (name : List Char) : Option (Value → Except Failure Value) :=
  [("min", extreme (· < ·) (· < ·) (1.0 / 0.0) Bounds.i64.hi),
    ("max", extreme (· > ·) (· > ·) (-1.0 / 0.0) Bounds.i64.lo),
    ("floor", fun v ↦ v.number.map (.float ·.floor)),
    ("round", fun v ↦ v.number.map (.float ·.round)),
    ("ceil", fun v ↦ v.number.map (.float ·.ceil)),
    ("if", choose),
    ("len", size),
    ("typeof", fun v ↦ .ok (.text v.kind)),
    ("math::abs", absolute)].findSome? fun p ↦ if p.1.toList == name then some p.2 else none

def lookUp (env : Variables) (name : List Char) : Except Failure Value :=
  match env.get? name with
  | some v => .ok v
  | none => .error (.unknownName (String.ofList name))

def assign (o : Option BinaryOp) (env : Variables) : Value → Value → Except Failure Variables
  | .text s, v =>
    match o with
    | none => env.set s.toList v
    | some o => do
      let w ← lookUp env s.toList
      env.set s.toList (← o.apply w v)
  | _, _ => .error .wrongType

mutual

def Tree.eval (env : Variables) : Tree → Except Failure (Value × Variables)
  | .missing => .error .malformed
  | .value v => .ok (v, env)
  | .read name => (lookUp env name).map fun v ↦ (v, env)
  | .target name => .ok (.text (String.ofList name), env)
  | .unary o t => do
    let (v, env) ← t.eval env
    return (← o.apply v, env)
  | .call name t => do
    let (v, env) ← t.eval env
    match function? name with
    | some f => return (← f v, env)
    | none => throw (.unknownName (String.ofList name))
  | .binary o l r => do
    let (a, env) ← l.eval env
    let (b, env) ← r.eval env
    match o with
    | .op o => return (← o.apply a b, env)
    | .assign o => return (.empty, ← assign o env a b)
  | .group .missing => .ok (.empty, env)
  | .group t => t.eval env
  | .sequence k parts => do
    let (l, env) ← Tree.evalParts env parts
    match k with
    | .tuple => return (.tuple l.reverse, env)
    | .chain => return (l.head?.getD .empty, env)

def Tree.evalParts (env : Variables) : List Tree → Except Failure (List Value × Variables)
  | [] => .ok ([], env)
  | t :: l => do
    let (vs, env) ← Tree.evalParts env l
    let (v, env) ← t.eval env
    return (v :: vs, env)

end

def evaluate (s : List Char) : Except Failure Value := do
  let t ← Tree.ofTokens (← Token.scan s)
  return (← t.eval []).1

def number (text : String) : Except PanelError Float :=
  match evaluate text.toList with
  | .ok (.int n) => .ok (Decimal.ofInt n)
  | .ok (.float x) => .ok x
  | .ok v => .error (.expression text ("expected a number, got " ++ String.ofList v.describe))
  | .error e => .error (.expression text e.message)

end AlarmPanel.Expression
