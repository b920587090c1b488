import AlarmPanel.Binding
import AlarmPanel.Expression.Eval

namespace AlarmPanel

/-- A service turns a function and the text of a value into a text. -/
abbrev Service := String → String → Except PanelError String

abbrev Services := String → Option Service

/-- A value goes through unchanged where no service of the kind is there. -/
def Services.apply (services : Services) (t : Transformation) (v : Reading) :
    Except PanelError Reading :=
  match services t.kind with
  | none => .ok v
  | some service =>
    match service t.function v.display with
    | .ok s => .ok (.ofText s)
    | .error e => .error (.transformation t.kind t.function e.message)

structure Dispatcher where
  bindings : List Binding
  evaluate : String → Except PanelError Float := Expression.number
  services : Services := fun _ ↦ none

namespace Dispatcher

variable (d : Dispatcher)

def transform (b : Binding) (v : Reading) : Except PanelError Reading :=
  match b.transformation with
  | some t => d.services.apply t v
  | none => .ok v

def numberOf : Feed → Except PanelError Float
  | .value n => .ok (Decimal.ofInt n)
  | .expression text => d.evaluate text

def updateOf? (values : List (String × Int)) (b : Binding) : Option Update :=
  (b.feed? values).bind fun f ↦
    match (d.numberOf f).bind fun x ↦ d.transform b (.number x) with
    | .ok v => some ⟨b.item, v⟩
    | .error _ => none

def dispatch (device : String) (e : Event) : List Update :=
  (d.bindings.filter fun b ↦ b.device == device).filterMap (d.updateOf? e.values)

def polled : List (Binding × Poll) :=
  d.bindings.filterMap fun b ↦ b.poll.map fun p ↦ (b, p)

end Dispatcher

end AlarmPanel
