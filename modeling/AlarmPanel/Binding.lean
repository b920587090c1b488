import AlarmPanel.Event
import AlarmPanel.Poll
import AlarmPanel.Text.Utf8
import AlarmPanel.Text.Word

namespace AlarmPanel

structure Transformation where
  kind : String
  function : String
  deriving DecidableEq, Repr

structure Binding where
  item : String
  device : String
  source : String
  poll : Option Poll := none
  refresh : Nat := 0
  transformation : Option Transformation := none
  deriving DecidableEq, Repr

namespace Source

open Text

/-- Neither neighbour continues the name. -/
def standsAlone (before after : Option Char) : Bool :=
  !before.any isWordChar && !after.any isWordChar

theorem afterHead?_length {l s r : List Char} (h : afterHead? l s = some r) :
    r.length + l.length = s.length := by
  induction l generalizing s with
  | nil => simp_all [afterHead?]
  | cons a l ih =>
    cases s with
    | nil => simp [afterHead?] at h
    | cons b s =>
      simp only [afterHead?] at h
      split at h
      · have := ih h
        simp only [List.length_cons]
        omega
      · simp at h

/-- The places where a key `k :: ks` stands alone in a text that starts at place `i`. Occurrences are
found from left to right and do not overlap; `before` is the character in front of the text. -/
def placesFrom (k : Char) (ks : List Char) (before : Option Char) (i : Nat) (s : List Char) :
    List Nat :=
  match s with
  | [] => []
  | c :: s =>
    if c = k then
      match _h : afterHead? ks s with
      | some r =>
        let later := placesFrom k ks (k :: ks).getLast? (i + ks.length + 1) r
        if standsAlone before r.head? then i :: later else later
      | none => placesFrom k ks (some c) (i + 1) s
    else placesFrom k ks (some c) (i + 1) s
termination_by s.length
decreasing_by
  · have := afterHead?_length _h
    simp only [List.length_cons]
    omega
  all_goals simp only [List.length_cons]; omega

def places (key s : List Char) : List Nat :=
  match key with
  | [] => []
  | k :: ks => placesFrom k ks none 0 s

def occurs (key s : List Char) : Bool :=
  !(places key s).isEmpty

/-- Writes `new` in the place of what has the length of the key. -/
def writeAt (key new : List Char) (i : Nat) (s : List Char) : List Char :=
  s.take i ++ new ++ s.drop (i + key.length)

/-- The last place is written first, so that the places before it stay where they are. -/
def replace (key new s : List Char) : List Char :=
  (places key s).foldr (writeAt key new) s

/-- Longer keys come first, and equally long ones in order. -/
def keyBefore (a b : String × Int) : Bool :=
  b.1.utf8ByteSize < a.1.utf8ByteSize || (a.1.utf8ByteSize == b.1.utf8ByteSize && a.1 ≤ b.1)

def substitute (values : List (String × Int)) (s : List Char) : List Char :=
  (values.mergeSort keyBefore).foldl (fun s v ↦ replace v.1.toList (Numeral.signed v.2) s) s

def operators : List Char := ['+', '-', '*', '/', '^', '%']

def isExpression (s : List Char) : Bool :=
  s.any operators.contains

end Source

inductive Feed where
  | value (n : Int)
  | expression (text : String)
  deriving DecidableEq, Repr

/-- The keys are gone through until one decides: the source itself, or one that occurs in it. -/
def Binding.feed? (b : Binding) (values : List (String × Int)) : Option Feed :=
  values.findSome? fun v ↦
    if b.source = v.1 then some (.value v.2)
    else if Source.isExpression b.source.toList && Source.occurs v.1.toList b.source.toList then
      some (.expression (String.ofList (Source.substitute values b.source.toList)))
    else none

end AlarmPanel
