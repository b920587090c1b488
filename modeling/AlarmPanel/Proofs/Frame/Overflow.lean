import AlarmPanel.Proofs.Frame.Filling
import Mathlib.Data.List.Forall2
import Mathlib.Data.List.Infix

namespace AlarmPanel

namespace Frame

variable {a b x : List UInt8}

/-- The first part ends with the return of a line end, and the second begins with its line feed. -/
def Tears (a b : List UInt8) : Prop :=
  a.getLast? = some 0x0D ∧ b.head? = some 0x0A

instance : Decidable (Tears a b) :=
  inferInstanceAs (Decidable (_ ∧ _))

theorem tears_iff : Tears a b ↔ ∃ c d, a = c ++ [0x0D] ∧ b = 0x0A :: d := by
  rw [Tears, List.getLast?_eq_some_iff, List.head?_eq_some_iff, exists_and_exists_comm]

theorem split?_append_of_not_tears (ha : split? a = none) (hb : split? b = none) (h : ¬ Tears a b) :
    split? (a ++ b) = none := by
  fun_induction split? a with
  | case1 => exact hb
  | case2 => cases ha
  | case3 c a hc ih =>
    have ha : split? a = none := by simpa using ha
    have hne : ∀ l, c = 13 → a ++ b = 10 :: l → False := by
      intro l hcr he
      cases a with
      | nil => exact h ⟨by rw [hcr]; rfl, by rw [← List.nil_append b, he]; rfl⟩
      | cons d a => exact hc a hcr (by rw [(List.cons.inj he).1])
    have ht : ¬ Tears a b := by
      rintro ⟨hl, hr⟩
      cases a with
      | nil => cases hl
      | cons d a => exact h ⟨by rw [List.getLast?_cons_cons, hl], hr⟩
    rw [List.cons_append, split?, ih ha ht]
    · rfl
    · exact hne

theorem lines_append (a b : List UInt8) :
    (splitAll (a ++ b)).1 = (splitAll a).1 ++ (splitAll (remainder a ++ b)).1 := by
  rw [splitAll_append]

theorem lines_append_lineEnd (a b : List UInt8) :
    (splitAll (a ++ (lineEnd ++ b))).1 = (splitAll a).1 ++ remainder a :: (splitAll b).1 := by
  rw [lines_append, splitAll_of_split?_some (split?_append_lineEnd (split?_remainder a) b)]

theorem remainder_append_of_lines (h : split? b ≠ none) (a : List UInt8) :
    remainder (a ++ b) = remainder b := by
  obtain ⟨⟨x, r⟩, hs⟩ := Option.ne_none_iff_exists'.mp h
  rw [eq_append_of_split?_some hs, ← List.append_assoc, remainder_append_lineEnd,
    remainder_append_lineEnd]

theorem getLast?_ne_of_remainder_nil (h : remainder a = []) : a.getLast? ≠ some 0x0D := by
  intro hl
  obtain ⟨c, rfl⟩ := List.getLast?_eq_some_iff.mp hl
  have ht : ¬ Tears (remainder c) [0x0D] := fun h ↦ by cases h.2
  have hs := split?_append_of_not_tears (split?_remainder c) (by rfl) ht
  rw [remainder_append, remainder_of_split?_none hs] at h
  simp at h

theorem tears_remainder_iff : Tears (remainder a) b ↔ Tears a b := by
  obtain ⟨done, he, hd, -⟩ := exists_append_remainder a
  by_cases hr : remainder a = []
  · rw [hr]
    exact iff_of_false (fun h ↦ by cases h.1) fun h ↦ getLast?_ne_of_remainder_nil hr h.1
  · have hl : a.getLast? = (remainder a).getLast? := by
      conv_lhs => rw [he, List.getLast?_append_of_ne_nil _ hr]
    rw [Tears, Tears, hl]

theorem remainder_of_not_tears (hx : split? x = none) (h : ¬ Tears a x) :
    remainder (a ++ x) = remainder a ++ x := by
  have hs := split?_append_of_not_tears (split?_remainder a) hx fun ht ↦ h (tears_remainder_iff.mp ht)
  rw [remainder_append, remainder_of_split?_none hs]

theorem cons_remainder_of_tears (hx : split? x = none) (h : Tears a x) :
    x = 0x0A :: remainder (a ++ x) := by
  obtain ⟨c, d, rfl, rfl⟩ := tears_iff.mp h
  have hd : split? d = none := by simpa [split?] using hx
  have he : (c ++ [0x0D]) ++ 0x0A :: d = c ++ (lineEnd ++ d) := by simp [lineEnd]
  rw [he, remainder_append_lineEnd, remainder_of_split?_none hd]

/-- What comes after the last line end is all of a line but its front part, unless that line end is
torn. -/
theorem suffix_remainder_iff (hx : split? x = none) : x <:+ remainder (a ++ x) ↔ ¬ Tears a x := by
  constructor
  · intro hs ht
    have hl := hs.length_le
    have he := congrArg List.length (cons_remainder_of_tears hx ht)
    rw [List.length_cons] at he
    omega
  · intro ht
    rw [remainder_of_not_tears hx ht]
    exact List.suffix_append _ _

/-- Where a stream goes on after its last line end, what goes on is complete lines or the line feed of
a torn line end. -/
theorem remainder_nil_or_tears (h : remainder (a ++ b) = []) :
    remainder b = [] ∨ Tears a b ∧ b = [0x0A] := by
  by_cases hb : split? b = none
  · by_cases ht : Tears a b
    · have he := cons_remainder_of_tears hb ht
      rw [h] at he
      exact .inr ⟨ht, he⟩
    · rw [remainder_of_not_tears hb ht] at h
      rw [remainder_of_split?_none hb]
      exact .inl (List.append_eq_nil_iff.mp h).2
  · rw [remainder_append_of_lines hb] at h
    exact .inl h

end Frame

namespace Assembler

open AlarmPanel.Frame

variable {a : Assembler} {octets : List UInt8}

/-- The octets empty the buffer, because they overfill it and complete no line. -/
def Overflows (octets : List UInt8) (a : Assembler) : Prop :=
  a.capacity < (a.buffer ++ octets).length ∧ split? (a.buffer ++ octets) = none

instance : Decidable (Overflows octets a) :=
  inferInstanceAs (Decidable (_ ∧ _))

theorem push_of_overflows (h : Overflows octets a) : a.push octets = { a with buffer := [] } :=
  push_of_overflow h.2 h.1

theorem push_of_not_overflows (h : ¬ Overflows octets a) :
    a.push octets = { a with buffer := a.buffer ++ octets } :=
  push_of_length_le fun hs ↦ Nat.le_of_not_lt fun hl ↦ h ⟨hl, hs⟩

end Assembler

open AlarmPanel.Frame

/-- A line taken off a stream: all that comes before it, and its octets without the line end. -/
structure Taking where
  before : List UInt8
  octets : List UInt8
  deriving DecidableEq

namespace Taking

variable (t : Taking)

def text : String :=
  Frame.text t.octets

def upTo : List UInt8 :=
  t.before ++ (t.octets ++ lineEnd)

/-- The line of the stream that ends in the same place. -/
def line : List UInt8 :=
  remainder (t.before ++ t.octets)

def IsTorn : Prop :=
  Tears t.before t.octets

instance : DecidablePred IsTorn := fun t ↦
  inferInstanceAs (Decidable (Tears t.before t.octets))

theorem lines_upTo : (splitAll t.upTo).1 = (splitAll (t.before ++ t.octets)).1 ++ [t.line] := by
  have h := lines_append_lineEnd (t.before ++ t.octets) []
  rwa [List.append_nil, List.append_assoc] at h

/-- The lines one after the other, each taken after those in front of it. -/
def list (before : List UInt8) : List (List UInt8) → List Taking
  | [] => []
  | x :: lines => ⟨before, x⟩ :: list (before ++ (x ++ lineEnd)) lines

theorem list_append (before : List UInt8) (l m : List (List UInt8)) :
    list before (l ++ m) = list before l ++ list (before ++ l.flatMap (· ++ lineEnd)) m := by
  induction l generalizing before with
  | nil => simp [list]
  | cons x l ih => simp [list, ih]

end Taking

/-- An assembler that knows the stream so far: what is dropped or was taken before the last overflow, and
the lines that were taken since then. -/
structure Recorder where
  lost : List UInt8
  lines : List (List UInt8)
  assembler : Assembler

namespace Recorder

open Assembler (Step)

variable {r : Recorder} {steps : List Step} {stream : List UInt8} {taken : List Taking}

def ofCapacity (capacity : Nat) : Recorder where
  lost := []
  lines := []
  assembler := { capacity }

def past (r : Recorder) : List UInt8 :=
  r.lost ++ r.lines.flatMap (· ++ lineEnd)

def step (r : Recorder) : Step → List Taking × Recorder
  | .push o =>
    if r.assembler.Overflows o then
      ([], ⟨r.past ++ (r.assembler.buffer ++ o), [], r.assembler.push o⟩)
    else ([], { r with assembler := r.assembler.push o })
  | .take =>
    match split? r.assembler.buffer with
    | some (x, rest) =>
      ([⟨r.past, x⟩], ⟨r.lost, r.lines ++ [x], { r.assembler with buffer := rest }⟩)
    | none => ([], r)

def run : List Step → Recorder → List Taking × Recorder
  | [], r => ([], r)
  | s :: steps, r => ((r.step s).1 ++ (run steps (r.step s).2).1, (run steps (r.step s).2).2)

theorem assembler_step (r : Recorder) (s : Step) :
    (r.step s).1.map Taking.text = (r.assembler.step s).1 ∧
      (r.step s).2.assembler = (r.assembler.step s).2 := by
  cases s with
  | push o =>
    rw [step, Assembler.step]
    split <;> exact ⟨rfl, rfl⟩
  | take =>
    cases hs : split? r.assembler.buffer with
    | none =>
      rw [Assembler.step_take_of_none hs, step, hs]
      exact ⟨rfl, rfl⟩
    | some p =>
      rw [Assembler.step_take_of_some hs, step, hs]
      exact ⟨rfl, rfl⟩

theorem assembler_run (steps : List Step) (r : Recorder) :
    (run steps r).1.map Taking.text = (Assembler.run steps r.assembler).1 ∧
      (run steps r).2.assembler = (Assembler.run steps r.assembler).2 := by
  induction steps generalizing r with
  | nil => exact ⟨rfl, rfl⟩
  | cons s steps ih =>
    obtain ⟨ht, ha⟩ := r.assembler_step s
    obtain ⟨ht', ha'⟩ := ih (r.step s).2
    rw [ha] at ht' ha'
    refine ⟨?_, ha'⟩
    rw [run, List.map_append, ht, ht']
    rfl

/-- The stream is what was lost, the lines taken since and the buffer. All that was ever taken are
lines in their order, each of them free of line ends. -/
structure Records (stream : List UInt8) (taken : List Taking) (r : Recorder) : Prop where
  stream_eq : stream = r.past ++ r.assembler.buffer
  lines_free : ∀ x ∈ r.lines, split? x = none
  exists_earlier : ∃ earlier, taken = earlier ++ Taking.list r.lost r.lines
  taken_free : ∀ t ∈ taken, split? t.octets = none
  upTo_prefix : ∀ t ∈ taken, t.upTo <+: r.past
  sublist : (taken.map Taking.line).Sublist (splitAll r.past).1

theorem records_ofCapacity (capacity : Nat) : Records [] [] (ofCapacity capacity) where
  stream_eq := rfl
  lines_free := by simp [ofCapacity]
  exists_earlier := ⟨[], rfl⟩
  taken_free := by simp
  upTo_prefix := by simp
  sublist := List.Sublist.refl _

theorem past_push_of_overflows (r : Recorder) (o : List UInt8) :
    past ⟨r.past ++ (r.assembler.buffer ++ o), [], r.assembler.push o⟩ =
      (r.past ++ r.assembler.buffer) ++ o := by
  simp [past]

theorem Records.push (h : Records stream taken r) (o : List UInt8) :
    Records (stream ++ o) (taken ++ (r.step (.push o)).1) (r.step (.push o)).2 := by
  rw [step]
  split
  case isTrue ho =>
    have hp := past_push_of_overflows r o
    constructor
    case stream_eq =>
      rw [hp, h.stream_eq, Assembler.push_of_overflows ho, List.append_nil]
    case lines_free => simp
    case exists_earlier => exact ⟨taken, rfl⟩
    case taken_free => rw [List.append_nil]; exact h.taken_free
    case upTo_prefix =>
      intro t ht
      rw [List.append_nil] at ht
      rw [hp, List.append_assoc]
      exact (h.upTo_prefix t ht).trans (List.prefix_append _ _)
    case sublist =>
      rw [List.append_nil, hp, List.append_assoc, lines_append]
      exact h.sublist.trans (List.sublist_append_left _ _)
  case isFalse ho =>
    constructor
    case stream_eq =>
      rw [h.stream_eq, List.append_assoc, Assembler.push_of_not_overflows ho]
      rfl
    case lines_free => exact h.lines_free
    case exists_earlier => rw [List.append_nil]; exact h.exists_earlier
    case taken_free => rw [List.append_nil]; exact h.taken_free
    case upTo_prefix => rw [List.append_nil]; exact h.upTo_prefix
    case sublist => rw [List.append_nil]; exact h.sublist

theorem past_concat (r : Recorder) (x : List UInt8) (a : Assembler) :
    past ⟨r.lost, r.lines ++ [x], a⟩ = Taking.upTo ⟨r.past, x⟩ := by
  simp [past, Taking.upTo]

theorem Records.take (h : Records stream taken r) :
    Records stream (taken ++ (r.step .take).1) (r.step .take).2 := by
  cases hs : split? r.assembler.buffer with
  | none =>
    have ht : r.step .take = ([], r) := by rw [step, hs]
    rw [ht, List.append_nil]
    exact h
  | some p =>
    obtain ⟨x, rest⟩ := p
    have hx := split?_fst hs
    rw [step, hs]
    constructor
    case stream_eq =>
      rw [past_concat, h.stream_eq, eq_append_of_split?_some hs]
      simp [Taking.upTo]
    case lines_free => exact List.forall_mem_append.mpr ⟨h.lines_free, by simpa using hx⟩
    case exists_earlier =>
      obtain ⟨earlier, he⟩ := h.exists_earlier
      refine ⟨earlier, ?_⟩
      rw [he, Taking.list_append, List.append_assoc]
      rfl
    case taken_free => exact List.forall_mem_append.mpr ⟨h.taken_free, by simpa using hx⟩
    case upTo_prefix =>
      rw [past_concat]
      refine List.forall_mem_append.mpr ⟨fun t ht ↦ ?_, by simp⟩
      exact (h.upTo_prefix t ht).trans (List.prefix_append _ _)
    case sublist =>
      rw [past_concat, Taking.lines_upTo, List.map_append, lines_append, List.append_assoc]
      exact h.sublist.append (List.sublist_append_right _ _)

theorem Records.run (h : Records stream taken r) (steps : List Step) :
    Records (stream ++ Assembler.pushed steps) (taken ++ (Recorder.run steps r).1)
      (Recorder.run steps r).2 := by
  -- By induction on the steps: the record is kept from any state on.
  induction steps generalizing stream taken r with
  | nil => simpa [Recorder.run, Assembler.pushed] using h
  | cons s steps ih =>
    have hs : Records (stream ++ s.octets) (taken ++ (r.step s).1) (r.step s).2 := by
      cases s with
      | push o => exact h.push o
      | take =>
        rw [Step.octets, List.append_nil]
        exact h.take
    rw [Assembler.pushed_cons, ← List.append_assoc, Recorder.run, ← List.append_assoc]
    exact ih hs

theorem Records.isSplit (h : Records stream taken r) (hb : split? r.assembler.buffer = none) :
    IsSplit r.lines r.assembler.buffer (r.lines.flatMap (· ++ lineEnd) ++ r.assembler.buffer) where
  eq := rfl
  lines_free := fun x hx ↦ split?_eq_none_iff_not_contains.mp (h.lines_free x hx)
  rest_free := split?_eq_none_iff_not_contains.mp hb

/-- Once no line is left in the buffer, every line since the last overflow is taken in its place. -/
theorem Records.mem_taken (h : Records stream taken r) (hb : split? r.assembler.buffer = none)
    {before x after : List UInt8} (hr : remainder before = []) (hx : split? x = none)
    (hs : r.lines.flatMap (· ++ lineEnd) ++ r.assembler.buffer = before ++ (x ++ (lineEnd ++ after))) :
    ⟨r.lost ++ before, x⟩ ∈ taken := by
  have hlines : r.lines = (splitAll before).1 ++ x :: (splitAll after).1 := by
    have hl := congrArg Prod.fst (h.isSplit hb).splitAll_eq
    rw [hs, lines_append, hr, List.nil_append, splitAll_of_split?_some (split?_append_lineEnd hx after)]
      at hl
    exact hl.symm
  have hbefore : (splitAll before).1.flatMap (· ++ lineEnd) = before := by
    have he := (isSplit_splitAll before).eq
    rw [← remainder, hr, List.append_nil] at he
    exact he.symm
  obtain ⟨earlier, rfl⟩ := h.exists_earlier
  rw [hlines, Taking.list_append, hbefore]
  exact List.mem_append_right _ (List.mem_append_right _ List.mem_cons_self)

theorem Records.exists_taking (h : Records stream taken r) (hb : split? r.assembler.buffer = none)
    {before line after : List UInt8} (hs : stream = before ++ (line ++ (lineEnd ++ after)))
    (hr : remainder before = []) (hl : split? line = none) (hp : r.lost <+: before) :
    ∃ t ∈ taken, t.upTo = before ++ (line ++ lineEnd) ∧ t.line = line ∧
      (t.octets = line ↔ ¬ t.IsTorn) := by
  obtain ⟨since, rfl⟩ := hp
  have he : r.lines.flatMap (· ++ lineEnd) ++ r.assembler.buffer =
      since ++ (line ++ (lineEnd ++ after)) := by
    rw [h.stream_eq, past, List.append_assoc, List.append_assoc] at hs
    exact List.append_cancel_left hs
  rcases remainder_nil_or_tears hr with hn | ⟨ht, rfl⟩
  · have ht : ¬ Taking.IsTorn ⟨r.lost ++ since, line⟩ := fun ht ↦ getLast?_ne_of_remainder_nil hr ht.1
    have hline : Taking.line ⟨r.lost ++ since, line⟩ = line := by
      rw [Taking.line, remainder_append_of_remainder_nil hr, remainder_of_split?_none hl]
    exact ⟨_, h.mem_taken hb hn hl he, rfl, hline, iff_of_true rfl ht⟩
  · have ht : Taking.IsTorn ⟨r.lost, 0x0A :: line⟩ := ⟨ht.1, rfl⟩
    have hx : split? (0x0A :: line) = none := by simp [split?, hl]
    have he : r.lines.flatMap (· ++ lineEnd) ++ r.assembler.buffer =
        [] ++ ((0x0A :: line) ++ (lineEnd ++ after)) := he
    have hmem := h.mem_taken hb remainder_nil hx he
    rw [List.append_nil] at hmem
    have hline : Taking.line ⟨r.lost, 0x0A :: line⟩ = line :=
      (List.cons.inj (cons_remainder_of_tears hx ht)).2.symm
    refine ⟨_, hmem, ?_, hline, iff_of_false (List.cons_ne_self _ _) fun hn ↦ hn ht⟩
    simp [Taking.upTo]

end Recorder

namespace Assembler

/-- The lines taken, in order and each once, are lines of the stream that end in the same places. Each is
all of its line but the front part that an overflow dropped, and all of it where the line begins after the
last overflow, exactly if no overflow tears the line end in front of it; else the line feed of that line
end is taken with the whole line. -/
theorem takings_exact (capacity : Nat) (steps : List Step) :
    let record := Recorder.run steps (.ofCapacity capacity)
    (run steps { capacity }).1 = record.1.map Taking.text ∧
      (record.1.map Taking.line).Sublist (splitAll (pushed steps)).1 ∧
      (∀ t ∈ record.1, t.upTo <+: pushed steps ∧ (t.octets <:+ t.line ↔ ¬ t.IsTorn) ∧
        (t.IsTorn → t.octets = 0x0A :: t.line)) ∧
      ((run steps { capacity }).2.take? = none → ∀ before line after,
        pushed steps = before ++ (line ++ (lineEnd ++ after)) → remainder before = [] →
        split? line = none → record.2.lost <+: before →
        ∃ t ∈ record.1, t.upTo = before ++ (line ++ lineEnd) ∧ t.line = line ∧
          (t.octets = line ↔ ¬ t.IsTorn)) := by
  intro record
  obtain ⟨htext, hassembler⟩ := Recorder.assembler_run steps (.ofCapacity capacity)
  have h : Recorder.Records (pushed steps) record.1 record.2 :=
    (Recorder.records_ofCapacity capacity).run steps
  refine ⟨htext.symm, ?_, fun t ht ↦ ?_, fun hn before line after hs hr hl hp ↦ ?_⟩
  · rw [h.stream_eq, lines_append]
    exact h.sublist.trans (List.sublist_append_left _ _)
  · have ho := h.taken_free t ht
    refine ⟨?_, suffix_remainder_iff ho, cons_remainder_of_tears ho⟩
    rw [h.stream_eq]
    exact (h.upTo_prefix t ht).trans (List.prefix_append _ _)
  · have hb : split? record.2.assembler.buffer = none := by
      rw [hassembler]
      exact Option.map_eq_none_iff.mp hn
    exact h.exists_taking hb hs hr hl hp

def cutNoise : List Step :=
  [.push [0x7A, 0x7A, 0x7A, 0x0D], .push [0x0A, 0x5A, 0x31, 0x0D, 0x0A], .take]

/-- The line feed of the noise is taken for the beginning of the line. -/
theorem not_suffixes_cutNoise : ¬ ∀ capacity steps,
    List.SublistForall₂ (fun frame line ↦ ∃ octets, octets <:+ line ∧ frame = text octets)
      (run steps { capacity }).1 (splitAll (pushed steps)).1 := by
  intro h
  obtain ⟨lines, hf, hl⟩ := List.sublistForall₂_iff.mp (h 3 cutNoise)
  have hlines : (splitAll (pushed cutNoise)).1 = [[0x7A, 0x7A, 0x7A], [0x5A, 0x31]] := by decide
  have hframes : (run cutNoise { capacity := 3 }).1 = [text [0x0A, 0x5A, 0x31]] := by decide
  rw [hframes] at hf
  cases hf with
  | cons hx hnil =>
    obtain ⟨octets, hs, ht⟩ := hx
    have hline := hl.subset List.mem_cons_self
    have hno : ∀ line ∈ (splitAll (pushed cutNoise)).1, ∀ octets ∈ line.tails,
        text [0x0A, 0x5A, 0x31] ≠ text octets := by rw [hlines]; decide
    exact hno _ hline octets ((List.mem_tails octets _).mpr hs) ht

end Assembler

end AlarmPanel
