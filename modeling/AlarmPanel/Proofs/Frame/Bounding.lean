import AlarmPanel.Proofs.Frame.Overflow

namespace AlarmPanel

theorem Frame.split?_of_append_none {a b : List UInt8} (h : split? (a ++ b) = none) :
    split? a = none := by
  rw [split?_eq_none_iff_texts, texts_append] at h
  exact split?_eq_none_iff_texts.mpr (List.append_eq_nil_iff.mp h).1

namespace Assembler

open AlarmPanel.Frame

variable {a b : Assembler} {octets : List UInt8} {steps : List Step} {pieces : List (List UInt8)}

/-- A buffer without a line is within its capacity. -/
def IsBounded (a : Assembler) : Prop :=
  ¬ lineEnd <:+: a.buffer → a.buffer.length ≤ a.capacity

def Step.piece? : Step → Option (List UInt8)
  | push o => some o
  | take => none

def piecesOf (steps : List Step) : List (List UInt8) :=
  steps.filterMap Step.piece?

/-- All pieces on top of each other, with no take in between. -/
def pile (pieces : List (List UInt8)) (a : Assembler) : Assembler :=
  pieces.foldl push a

theorem run_map_push (pieces : List (List UInt8)) (a : Assembler) :
    run (pieces.map .push) a = ([], pile pieces a) := by
  induction pieces generalizing a with
  | nil => rfl
  | cons o pieces ih => exact ih (a.push o)

theorem piecesOf_map_push (pieces : List (List UInt8)) : piecesOf (pieces.map .push) = pieces := by
  rw [piecesOf, List.filterMap_map]
  exact List.filterMap_some

theorem piecesOf_takes (n : Nat) : piecesOf (takes n) = [] := by
  rw [piecesOf, takes, List.filterMap_replicate_of_none rfl]

theorem piecesOf_append (steps more : List Step) :
    piecesOf (steps ++ more) = piecesOf steps ++ piecesOf more :=
  List.filterMap_append

/-- Two assemblers with the same octets after their last line ends; only the second one may hold lines
that the first one does not. -/
structure Level (a b : Assembler) : Prop where
  remainder_eq : remainder a.buffer = remainder b.buffer
  capacity_eq : a.capacity = b.capacity
  without_line : split? b.buffer = none → split? a.buffer = none

theorem Level.refl (a : Assembler) : Level a a := ⟨rfl, rfl, id⟩

theorem Level.buffer_eq (h : Level a b) (hb : split? b.buffer = none) : a.buffer = b.buffer := by
  have hr := h.remainder_eq
  rwa [remainder_of_split?_none hb, remainder_of_split?_none (h.without_line hb)] at hr

theorem Level.isBounded (h : Level a b) (hb : (remainder b.buffer).length ≤ b.capacity) :
    a.IsBounded := by
  intro ha
  rw [← split?_eq_none_iff_not_contains] at ha
  rw [← remainder_of_split?_none ha, h.remainder_eq, h.capacity_eq]
  exact hb

theorem Level.take (h : Level a b) : Level (a.step .take).2 b := by
  cases hs : split? a.buffer with
  | none =>
    rw [step_take_of_none hs]
    exact h
  | some p =>
    rw [step_take_of_some hs]
    constructor
    case remainder_eq =>
      rw [← h.remainder_eq]
      exact (remainder_of_split?_some hs).symm
    case capacity_eq => exact h.capacity_eq
    case without_line =>
      intro hb
      rw [h.without_line hb] at hs
      cases hs

/-- A push overflows both of them or none, if the second one stays within the capacity after its last
line end. -/
theorem Level.push (h : Level a b) (hb : (remainder (b.push octets).buffer).length ≤ b.capacity) :
    Level (a.push octets) (b.push octets) := by
  have hr : remainder (a.buffer ++ octets) = remainder (b.buffer ++ octets) := by
    rw [remainder_append, h.remainder_eq, ← remainder_append]
  by_cases ho : Overflows octets b
  · have hn := split?_of_append_none ho.2
    have ha : Overflows octets a := by
      rw [Overflows, h.buffer_eq hn, h.capacity_eq]
      exact ho
    rw [push_of_overflows ha, push_of_overflows ho]
    exact ⟨rfl, h.capacity_eq, id⟩
  · rw [push_of_not_overflows ho] at hb ⊢
    have ha : ¬ Overflows octets a := by
      rintro ⟨hl, hs⟩
      rw [← remainder_of_split?_none hs, hr, h.capacity_eq] at hl
      exact Nat.not_lt.mpr hb hl
    rw [push_of_not_overflows ha]
    constructor
    case remainder_eq => exact hr
    case capacity_eq => exact h.capacity_eq
    case without_line =>
      intro hs
      rw [h.buffer_eq (split?_of_append_none hs)]
      exact hs

theorem Level.run (h : Level a b)
    (hb : ∀ pieces, pieces <+: piecesOf steps → (remainder (pile pieces b).buffer).length ≤ b.capacity) :
    Level (run steps a).2 (pile (piecesOf steps) b) := by
  -- By induction on the steps: whatever is taken in between, what comes after the last line end is
  -- what it would be with no take.
  induction steps generalizing a b with
  | nil => exact h
  | cons s steps ih =>
    cases s with
    | take => exact ih h.take hb
    | push o =>
      have hp : Level (a.push o) (b.push o) := h.push (hb [o] ⟨piecesOf steps, rfl⟩)
      refine ih hp fun pieces hpre ↦ ?_
      rw [capacity_push]
      exact hb (o :: pieces) (List.cons_prefix_cons.mpr ⟨rfl, hpre⟩)

theorem capacity_pile (pieces : List (List UInt8)) (a : Assembler) :
    (pile pieces a).capacity = a.capacity := by
  induction pieces generalizing a with
  | nil => rfl
  | cons o pieces ih => exact (ih (a.push o)).trans (a.capacity_push o)

/-- The bound holds in all states that pushes of the pieces with any takes in between lead to exactly if
the octets after the last line end stay within the capacity when nothing is taken. -/
theorem isBounded_run_iff (capacity : Nat) (pieces : List (List UInt8)) :
    (∀ steps, piecesOf steps <+: pieces → (run steps { capacity }).2.IsBounded) ↔
      ∀ first, first <+: pieces → (remainder (pile first { capacity }).buffer).length ≤ capacity := by
  constructor
  · intro h first hp
    have hcap : (pile first { capacity }).capacity = capacity := capacity_pile first { capacity }
    generalize hpile : pile first { capacity } = b at hcap ⊢
    have hrun : (run (first.map .push ++ takes (texts b.buffer).length) { capacity }).2 =
        { b with buffer := remainder b.buffer } := by
      rw [run_append, run_map_push, hpile, run_takes_length]
      rfl
    have hb : IsBounded { b with buffer := remainder b.buffer } := by
      rw [← hrun]
      refine h _ ?_
      rwa [piecesOf_append, piecesOf_map_push, piecesOf_takes, List.append_nil]
    rw [← hcap]
    exact hb (split?_eq_none_iff_not_contains.mp (split?_remainder b.buffer))
  · intro h steps hp
    have hl : Level (run steps { capacity }).2 (pile (piecesOf steps) { capacity }) :=
      (Level.refl _).run fun first hf ↦ h first (hf.trans hp)
    refine hl.isBounded ?_
    rw [capacity_pile]
    exact h _ hp

def longRest : List Step :=
  [.push [0x5A, 0x0D, 0x0A, 0x7A, 0x7A, 0x7A], .take]

theorem not_isBounded_longRest :
    ¬ ∀ capacity steps, (run steps { capacity }).2.IsBounded := by
  intro h
  have hb : (run longRest { capacity := 2 }).2 = { buffer := [0x7A, 0x7A, 0x7A], capacity := 2 } := by
    decide
  have hl := h 2 longRest (by rw [hb]; decide)
  rw [hb] at hl
  exact absurd hl (by decide)

end Assembler

end AlarmPanel
