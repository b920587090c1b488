import AlarmPanel.Message

namespace AlarmPanel

/-- The client that hands messages on to the broker. -/
structure Client where
  topic : String := "paradox"
  /-- The client takes the message that it is handed as its `n`-th. A topic must not hold wildcards. -/
  accepts : Nat → String → Bool := fun _ t ↦ !t.toList.any fun c ↦ c = '#' || c = '+'

/-- A message that was handed to the client at a time, and whether the client took it. -/
structure Post where
  time : Nat
  message : Message
  taken : Bool

namespace Post

def isUpdate (p : Post) : Bool :=
  p.message.update?.isSome

def isUpdateOf (item : String) (p : Post) : Bool :=
  p.message.update?.any fun u ↦ u.item == item

end Post

/-- The time of the last update of each item; the first entry of an item counts. -/
structure Tracker where
  updates : List (String × Nat) := []

namespace Tracker

variable (t : Tracker)

def last? (item : String) : Option Nat :=
  (t.updates.find? fun u ↦ u.1 == item).map (·.2)

def isDue (item : String) (interval now : Nat) : Bool :=
  match t.last? item with
  | some time => interval ≤ now - time
  | none => true

def mark (item : String) (now : Nat) : Tracker :=
  ⟨(item, now) :: t.updates⟩

theorem last?_mark_self (item : String) (now : Nat) : (t.mark item now).last? item = some now := by
  rw [mark, last?, List.find?_cons_of_pos (by simp)]
  rfl

theorem last?_mark_of_ne {t : Tracker} {item item' : String} (h : item' ≠ item) (now : Nat) :
    (t.mark item now).last? item' = t.last? item' := by
  rw [mark, last?, List.find?_cons_of_neg (by simpa using Ne.symm h), last?]

end Tracker

end AlarmPanel
