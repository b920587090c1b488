import AlarmPanel.Proofs.Device.Hearing

namespace AlarmPanel.Assembler

open AlarmPanel.Frame

inductive Step where
  | push (octets : List UInt8)
  | take
  deriving DecidableEq

def Step.octets : Step → List UInt8
  | push o => o
  | take => []

variable {a : Assembler} {steps : List Step} {taken before : List String} {stream : List UInt8}

/-- The lines that a step gives, one at most, and the assembler after it. -/
def step (a : Assembler) : Step → List String × Assembler
  | .push o => ([], a.push o)
  | .take =>
    match a.take? with
    | some (text, b) => ([text], b)
    | none => ([], a)

def run : List Step → Assembler → List String × Assembler
  | [], a => ([], a)
  | s :: steps, a => ((a.step s).1 ++ (run steps (a.step s).2).1, (run steps (a.step s).2).2)

def pushed (steps : List Step) : List UInt8 :=
  steps.flatMap Step.octets

def takes (n : Nat) : List Step :=
  List.replicate n .take

@[simp] theorem pushed_cons (s : Step) (steps : List Step) :
    pushed (s :: steps) = s.octets ++ pushed steps := rfl

theorem pushed_takes (steps : List Step) (n : Nat) : pushed (steps ++ takes n) = pushed steps := by
  have h : (takes n).flatMap Step.octets = [] := by
    rw [List.flatMap_eq_nil_iff]
    intro s hs
    rw [List.eq_of_mem_replicate hs, Step.octets]
  rw [pushed, List.flatMap_append, h, List.append_nil, pushed]

theorem run_append (steps more : List Step) (a : Assembler) :
    run (steps ++ more) a =
      ((run steps a).1 ++ (run more (run steps a).2).1, (run more (run steps a).2).2) := by
  induction steps generalizing a with
  | nil => rfl
  | cons s steps ih => simp only [List.cons_append, run, ih, List.append_assoc]

theorem step_take_of_none (h : split? a.buffer = none) : a.step .take = ([], a) := by
  simp [step, take?, h]

theorem step_take_of_some {x r : List UInt8} (h : split? a.buffer = some (x, r)) :
    a.step .take = ([text x], { a with buffer := r }) := by
  simp [step, take?, h]

/-- Taking line after line is taking all lines at once. -/
theorem run_takes_length (a : Assembler) : run (takes (texts a.buffer).length) a = a.takeAll := by
  rw [takeAll_eq]
  induction h : (texts a.buffer).length generalizing a with
  | zero =>
    have ht : texts a.buffer = [] := List.eq_nil_of_length_eq_zero h
    rw [ht, remainder_of_split?_none (split?_eq_none_iff_texts.mpr ht)]
    rfl
  | succ n ih =>
    cases hs : split? a.buffer with
    | none => rw [split?_eq_none_iff_texts.mp hs] at h; cases h
    | some p =>
      obtain ⟨x, r⟩ := p
      have ht := texts_of_split?_some hs
      rw [ht, List.length_cons, Nat.add_right_cancel_iff] at h
      have hr := ih { a with buffer := r } h
      have hrun : run (takes (n + 1)) a = ((a.step .take).1 ++ (run (takes n) (a.step .take).2).1,
          (run (takes n) (a.step .take).2).2) := rfl
      rw [hrun, step_take_of_some hs, hr, ht, remainder_of_split?_some hs]
      rfl

theorem exists_takes (a : Assembler) : ∃ n, (run (takes n) a).2.take? = none := by
  refine ⟨(texts a.buffer).length, ?_⟩
  rw [run_takes_length, takeAll_eq, take?, split?_remainder]
  rfl

theorem follows_step (s : Step) (hf : Hearing.Follows before stream ⟨taken, a, []⟩)
    (hc : Fits a.capacity (stream ++ s.octets)) :
    Hearing.Follows before (stream ++ s.octets) ⟨taken ++ (a.step s).1, (a.step s).2, []⟩ ∧
      (a.step s).2.capacity = a.capacity := by
  cases s with
  | push o =>
    have hfeed := hf.feed [.chunk o]
    rw [ScriptedLine.octets_cons, ScriptedLine.octets_nil, List.append_nil] at hfeed
    have hp := Hearing.Follows.push rfl hfeed hc
    rw [step, List.append_nil]
    exact ⟨hp, capacity_push a o⟩
  | take =>
    have ht := hf.tell
    rw [Step.octets, List.append_nil]
    cases hb : split? a.buffer with
    | none =>
      rw [step_take_of_none hb, List.append_nil]
      exact ⟨hf, rfl⟩
    | some p =>
      rw [step_take_of_some hb]
      refine ⟨?_, rfl⟩
      rw [Hearing.tell, take?, hb] at ht
      exact ht

theorem follows_run (hf : Hearing.Follows before stream ⟨taken, a, []⟩)
    (hc : Fits a.capacity (stream ++ pushed steps)) :
    Hearing.Follows before (stream ++ pushed steps) ⟨taken ++ (run steps a).1, (run steps a).2, []⟩ ∧
      (run steps a).2.capacity = a.capacity := by
  induction steps generalizing a stream taken with
  | nil => simpa [run, pushed] using hf
  | cons s steps ih =>
    rw [pushed_cons, ← List.append_assoc] at hc ⊢
    obtain ⟨hs, hcap⟩ := follows_step s hf hc.of_append
    obtain ⟨hr, hcap'⟩ := ih hs (hcap ▸ hc)
    rw [List.append_assoc taken] at hr
    exact ⟨hr, hcap'.trans hcap⟩

theorem fits_of_isSplit {lines : List (List UInt8)} {rest : List UInt8} {capacity : Nat}
    (hs : IsSplit lines rest stream) (hl : ∀ x ∈ lines, x.length < capacity)
    (hr : rest.length ≤ capacity) : Fits capacity stream := by
  have he := hs.splitAll_eq
  refine ⟨?_, ?_⟩
  · rw [he]
    exact hl
  · rw [remainder, he]
    exact hr

/-- Pushes and takes in any order, and then takes until no line is left, give the lines of the whole
stream, each once and in order; what is left over is the rest of the stream. -/
theorem run_of_isSplit (capacity : Nat) (steps : List Step) {lines : List (List UInt8)}
    {rest : List UInt8} (hs : IsSplit lines rest (pushed steps))
    (hl : ∀ x ∈ lines, x.length < capacity) (hr : rest.length ≤ capacity) :
    (∃ n, (run (steps ++ takes n) { capacity }).2.take? = none) ∧
      ∀ n, (run (steps ++ takes n) { capacity }).2.take? = none →
        run (steps ++ takes n) { capacity } = (lines.map text, { buffer := rest, capacity }) := by
  constructor
  · obtain ⟨n, hn⟩ := exists_takes (run steps { capacity }).2
    exact ⟨n, by rw [run_append]; exact hn⟩
  · intro n hn
    have hfit : Fits capacity (pushed (steps ++ takes n)) := by
      rw [pushed_takes]
      exact fits_of_isSplit hs hl hr
    have hstart : Hearing.Follows [] [] ⟨[], { capacity }, []⟩ := ⟨[], rfl, rfl, rfl⟩
    obtain ⟨⟨done, hd, hrem, ht⟩, hcap⟩ := follows_run hstart hfit
    rw [pushed_takes, List.nil_append] at hd
    generalize run (steps ++ takes n) { capacity } = r at hn hd ht hcap ⊢
    obtain ⟨got, b, c⟩ := r
    obtain rfl : c = capacity := hcap
    have hb : split? b = none := by simpa [take?] using hn
    have hd' : pushed steps = done ++ b := by simpa [Hearing.pending] using hd
    have htold : got = texts done := ht
    have he := hs.splitAll_eq
    rw [hd'] at he
    have htexts := texts_append_of_remainder_nil hrem b
    have hrest := remainder_append_of_remainder_nil hrem b
    rw [texts, he, split?_eq_none_iff_texts.mp hb, List.append_nil] at htexts
    rw [remainder, he, remainder_of_split?_none hb] at hrest
    rw [htold, ← htexts, ← hrest]

def cutRun : List Step :=
  [.push [0x5A, 0xC3], .take, .push [0xA9, 0x0D], .take, .push [0x0A, 0x0D], .push [0x0D], .take,
    .push [0x0A, 0x31]]

theorem run_of_isSplit_cutRun :
    (∃ n, (run (cutRun ++ takes n) { capacity := 4 }).2.take? = none) ∧
      ∀ n, (run (cutRun ++ takes n) { capacity := 4 }).2.take? = none →
        run (cutRun ++ takes n) { capacity := 4 } =
          ([[0x5A, 0xC3, 0xA9], [0x0D]].map text, { buffer := [0x31], capacity := 4 }) := by
  refine run_of_isSplit 4 cutRun ⟨by decide, ?_, ?_⟩ (by decide) (by decide)
  · intro x hx
    rw [← split?_eq_none_iff_not_contains]
    revert x
    decide
  · rw [← split?_eq_none_iff_not_contains]
    decide

end AlarmPanel.Assembler
