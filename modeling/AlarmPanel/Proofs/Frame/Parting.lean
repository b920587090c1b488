import AlarmPanel.Proofs.Frame.Filling

namespace AlarmPanel

open AlarmPanel.Frame

/-- A stretch of octets of which the first ones are older. -/
structure Stretch where
  older : List UInt8
  newer : List UInt8
  deriving DecidableEq

namespace Stretch

variable (s : Stretch)

def octets : List UInt8 :=
  s.older ++ s.newer

def push (octets : List UInt8) : Stretch where
  older := s.older
  newer := s.newer ++ octets

def take (n : Nat) : Stretch where
  older := s.older.take n
  newer := s.newer.take (n - s.older.length)

def drop (n : Nat) : Stretch where
  older := s.older.drop n
  newer := s.newer.drop (n - s.older.length)

def text : String :=
  Frame.text (s.octets.take (s.octets.length - lineEnd.length))

theorem octets_push (octets : List UInt8) : (s.push octets).octets = s.octets ++ octets :=
  (List.append_assoc ..).symm

theorem octets_take (n : Nat) : (s.take n).octets = s.octets.take n :=
  List.take_append.symm

theorem octets_drop (n : Nat) : (s.drop n).octets = s.octets.drop n :=
  List.drop_append.symm

end Stretch

structure PartedAssembler where
  buffer : Stretch
  capacity : Nat

namespace PartedAssembler

open Assembler (Step)

def ofAssembler (a : Assembler) : PartedAssembler where
  buffer := ⟨a.buffer, []⟩
  capacity := a.capacity

def whole (p : PartedAssembler) : Assembler where
  buffer := p.buffer.octets
  capacity := p.capacity

def step (p : PartedAssembler) : Step → List Stretch × PartedAssembler
  | .push o =>
    if (p.whole.push o).buffer = [] then ([], { p with buffer := ⟨[], []⟩ })
    else ([], { p with buffer := p.buffer.push o })
  | .take =>
    match split? p.buffer.octets with
    | some (x, _) =>
      ([p.buffer.take (x ++ lineEnd).length], { p with buffer := p.buffer.drop (x ++ lineEnd).length })
    | none => ([], p)

def run : List Step → PartedAssembler → List Stretch × PartedAssembler
  | [], p => ([], p)
  | s :: steps, p => ((p.step s).1 ++ (run steps (p.step s).2).1, (run steps (p.step s).2).2)

variable {p : PartedAssembler} {steps : List Step} {a : Assembler}

theorem whole_ofAssembler (a : Assembler) : (ofAssembler a).whole = a := by
  obtain ⟨b, c⟩ := a
  simp [ofAssembler, whole, Stretch.octets]

theorem push_eq (p : PartedAssembler) (o : List UInt8) (h : (p.whole.push o).buffer ≠ []) :
    p.whole.push o = { p.whole with buffer := p.whole.buffer ++ o } := by
  unfold Assembler.push Assembler.settle at h ⊢
  split
  case isTrue hc => rw [if_pos hc] at h; exact absurd rfl h
  case isFalse => rfl

theorem whole_step (p : PartedAssembler) (s : Step) :
    (p.step s).1.map Stretch.text = (p.whole.step s).1 ∧ (p.step s).2.whole = (p.whole.step s).2 := by
  cases s with
  | push o =>
    by_cases h : (p.whole.push o).buffer = []
    · have hc := Assembler.capacity_push p.whole o
      rw [step, if_pos h, Assembler.step]
      refine ⟨rfl, ?_⟩
      generalize p.whole.push o = b at h hc ⊢
      obtain ⟨b, c⟩ := b
      obtain rfl : b = [] := h
      obtain rfl : c = p.capacity := hc
      rfl
    · rw [step, if_neg h, Assembler.step, p.push_eq o h]
      exact ⟨rfl, congrArg (Assembler.mk · _) (p.buffer.octets_push o)⟩
  | take =>
    have hw : p.whole.buffer = p.buffer.octets := rfl
    cases hs : split? p.buffer.octets with
    | none =>
      rw [Assembler.step_take_of_none hs, step, hs]
      exact ⟨rfl, rfl⟩
    | some r =>
      obtain ⟨x, r⟩ := r
      have he : p.buffer.octets = (x ++ lineEnd) ++ r := by
        rw [eq_append_of_split?_some hs, List.append_assoc]
      rw [Assembler.step_take_of_some (a := p.whole) hs, step, hs]
      refine ⟨?_, ?_⟩
      · have ht : (p.buffer.take (x ++ lineEnd).length).octets = x ++ lineEnd := by
          rw [Stretch.octets_take, he, List.take_left]
        rw [List.map_singleton, Stretch.text, ht, List.length_append, Nat.add_sub_cancel,
          List.take_left]
      · have hd : (p.buffer.drop (x ++ lineEnd).length).octets = r := by
          rw [Stretch.octets_drop, he, List.drop_left]
        exact congrArg (Assembler.mk · _) hd

theorem whole_run (steps : List Step) (p : PartedAssembler) :
    (run steps p).1.map Stretch.text = (Assembler.run steps p.whole).1 ∧
      (run steps p).2.whole = (Assembler.run steps p.whole).2 := by
  induction steps generalizing p with
  | nil => exact ⟨rfl, rfl⟩
  | cons s steps ih =>
    obtain ⟨hl, hw⟩ := p.whole_step s
    obtain ⟨hl', hw'⟩ := ih (p.step s).2
    rw [hw] at hl' hw'
    refine ⟨?_, hw'⟩
    rw [run, List.map_append, hl, hl']
    rfl

theorem run_append (steps more : List Step) (p : PartedAssembler) :
    run (steps ++ more) p =
      ((run steps p).1 ++ (run more (run steps p).2).1, (run more (run steps p).2).2) := by
  induction steps generalizing p with
  | nil => rfl
  | cons s steps ih => simp only [List.cons_append, run, ih, List.append_assoc]

theorem older_step (h : p.buffer.older = []) (s : Step) :
    (p.step s).2.buffer.older = [] ∧ ∀ l ∈ (p.step s).1, l.older = [] := by
  cases s with
  | push o =>
    rw [step]
    split
    · exact ⟨rfl, by simp⟩
    · exact ⟨h, by simp⟩
  | take =>
    rw [step]
    split
    · simp [Stretch.take, Stretch.drop, h]
    · exact ⟨h, by simp⟩

theorem older_run (h : p.buffer.older = []) (steps : List Step) :
    ∀ l ∈ (run steps p).1, l.older = [] := by
  induction steps generalizing p with
  | nil => simp [run]
  | cons s steps ih =>
    obtain ⟨hb, hl⟩ := older_step h s
    intro l hmem
    rcases List.mem_append.mp hmem with hmem | hmem
    · exact hl l hmem
    · exact ih hb l hmem

end PartedAssembler

namespace Assembler

/-- No line is taken before the buffer is empty, or none at all. -/
def Sheds (steps : List Step) (a : Assembler) : Prop :=
  ∃ before after, steps = before ++ after ∧ (run before a).1 = [] ∧
    ((run before a).2.buffer = [] ∨ after = [])

variable {steps : List Step} {a : Assembler} {s : Step}

theorem Sheds.cons (hs : (a.step s).1 = []) (h : Sheds steps (a.step s).2) : Sheds (s :: steps) a := by
  obtain ⟨before, after, rfl, hn, he⟩ := h
  refine ⟨s :: before, after, rfl, ?_, he⟩
  rw [run, hs, hn]
  rfl

theorem sheds_of_nil (h : a.buffer = []) (steps : List Step) : Sheds steps a :=
  ⟨[], steps, rfl, rfl, .inl h⟩

end Assembler

namespace PartedAssembler

open Assembler (Step Sheds)

variable {p : PartedAssembler} {steps : List Step} {a : Assembler}

theorem older_of_sheds (h : Sheds steps p.whole) : ∀ l ∈ (run steps p).1, l.older = [] := by
  obtain ⟨before, after, rfl, hn, he⟩ := h
  obtain ⟨hl, hw⟩ := whole_run before p
  have hnone : (run before p).1 = [] := by
    rw [hn] at hl
    exact List.map_eq_nil_iff.mp hl
  rw [run_append, hnone, List.nil_append]
  rcases he with hb | rfl
  · rw [← hw] at hb
    exact older_run (List.append_eq_nil_iff.mp hb).1 after
  · simp [run]

theorem sheds_of_older (hp : p.buffer.older ≠ []) (h : ∀ l ∈ (run steps p).1, l.older = []) :
    Sheds steps p.whole := by
  -- By induction on the steps: while older octets are there, no line may be taken.
  induction steps generalizing p with
  | nil => exact ⟨[], [], rfl, rfl, .inr rfl⟩
  | cons s steps ih =>
    obtain ⟨hl, hw⟩ := p.whole_step s
    have hrest : ∀ l ∈ (run steps (p.step s).2).1, l.older = [] :=
      fun l hmem ↦ h l (List.mem_append_right _ hmem)
    have hfirst : ∀ l ∈ (p.step s).1, l.older = [] :=
      fun l hmem ↦ h l (List.mem_append_left _ hmem)
    cases s with
    | push o =>
      refine Sheds.cons rfl ?_
      by_cases hb : (p.whole.push o).buffer = []
      · exact Assembler.sheds_of_nil hb steps
      · rw [← hw]
        refine ih ?_ hrest
        rw [step, if_neg hb]
        exact hp
    | take =>
      cases hs : split? p.buffer.octets with
      | none =>
        have ht : p.step .take = ([], p) := by rw [step, hs]
        rw [ht] at hl hw hrest
        refine Sheds.cons hl.symm ?_
        rw [← hw]
        exact ih hp hrest
      | some r =>
        rw [step, hs] at hfirst
        have ht := hfirst _ List.mem_cons_self
        simp [Stretch.take, lineEnd, hp] at ht

/-- The lines are free of the octets that were there at the start exactly if these are shed. -/
theorem forall_older_iff (a : Assembler) (steps : List Step) :
    (∀ l ∈ (run steps (ofAssembler a)).1, l.older = []) ↔ Sheds steps a := by
  constructor
  · intro h
    by_cases hb : a.buffer = []
    · exact Assembler.sheds_of_nil hb steps
    · have hs := sheds_of_older (p := ofAssembler a) hb h
      rwa [whole_ofAssembler] at hs
  · intro h
    rw [← whole_ofAssembler a] at h
    exact older_of_sheds h

theorem older_of_first {l : Stretch} {rest : List Stretch} (hp : split? p.buffer.older = none)
    (h : (run steps p).1 = l :: rest) : l.older = [] ∨ l.older = p.buffer.older := by
  induction steps generalizing p with
  | nil => cases h
  | cons s steps ih =>
    cases s with
    | push o =>
      by_cases hb : (p.whole.push o).buffer = []
      · rw [run, step, if_pos hb, List.nil_append] at h
        exact .inl (older_run rfl steps l (by rw [h]; exact List.mem_cons_self))
      · rw [run, step, if_neg hb, List.nil_append] at h
        exact ih (p := { p with buffer := p.buffer.push o }) hp h
    | take =>
      cases hs : split? p.buffer.octets with
      | none =>
        rw [run, step, hs, List.nil_append] at h
        exact ih hp h
      | some r =>
        rw [run, step, hs, List.singleton_append] at h
        obtain ⟨rfl, -⟩ := List.cons.inj h
        have hle := length_le_of_split?_append hp hs
        refine .inr (List.take_of_length_le ?_)
        rw [List.length_append]
        exact Nat.le_trans hle (Nat.le_succ _)

end PartedAssembler

end AlarmPanel
