import Mathlib.Data.List.Forall2
import AlarmPanel.Event.Line
import AlarmPanel.Proofs.Text.Number

namespace AlarmPanel

open Text Line

namespace Line

def SameWord (w s : List Char) : Prop :=
  List.Forall₂ (fun a c ↦ sameLetter a c = true) w s

def HasForm (form s : List Char) : Prop :=
  List.Forall₂ (fun f c ↦ (if f = '0' then isDecimalDigit c else c == f) = true) form s

end Line

/-- What stands after the action. -/
inductive Line.Shape.Tail : Shape → List Char → List Char → Prop
  | zone {w₁ w₂ ds w₃ : List Char} (h₁ : BlankRun w₁) (h₂ : BlankRun w₂) (hd : DigitRun ds)
      (h₃ : Blanks w₃) : Tail .zone ds (w₁ ++ ("Zone".toList ++ (w₂ ++ (ds ++ w₃))))
  | user {w₁ user w₂ code w₃ ds w₄ : List Char} (h₁ : BlankRun w₁)
      (hu : SameWord "User".toList user) (h₂ : BlankRun w₂) (hc : SameWord "Code".toList code)
      (h₃ : BlankRun w₃) (hd : DigitRun ds) (h₄ : Blanks w₄) :
      Tail .user ds (w₁ ++ (user ++ (w₂ ++ (code ++ (w₃ ++ (ds ++ w₄))))))
  | partition {w : List Char} (h : Blanks w) : Tail .partition [] w

inductive Line.Head.Opens : Head → List Char → Prop
  | mk {h : Head} {w₁ w₂ w₃ : List Char} (hd : HasForm dateForm h.date) (h₁ : BlankRun w₁)
      (hc : HasForm clockForm h.clock) (h₂ : BlankRun w₂) (h₃ : BlankRun w₃)
      (hp : DigitRun h.partition) : Opens h
        (h.date ++ (w₁ ++ (h.clock ++ (w₂ ++ ("Partition".toList ++ (w₃ ++ h.partition))))))

/-- The line has a shape, with any text of one line for the action. -/
inductive Line.Parts.Matches : Parts → List Char → Prop
  | mk {p : Parts} {lead w tail : List Char} (hh : p.head.Opens lead) (hw : BlankRun w)
      (ha : p.action ≠ []) (hn : '\n' ∉ p.action) (ht : p.shape.Tail p.subject tail) :
      Matches p (lead ++ (w ++ (p.action ++ tail)))

inductive Line.Shape.Names : Shape → List Char → Option Subject → Prop
  | zone {ds : List Char} {n : UInt32} (hd : Denotes ds n) : Names .zone ds (some (.zone n))
  | user {ds : List Char} {n : UInt32} (hd : Denotes ds n) : Names .user ds (some (.user n))
  | partition : Names .partition [] none

/-- The ways to write an event. -/
inductive Event.Renders : Event → List Char → Prop
  | mk {e : Event} {w₁ w₂ w₃ ds w₄ action : List Char} {shape : Shape} {subject tail : List Char}
      (h₁ : BlankRun w₁) (h₂ : BlankRun w₂) (h₃ : BlankRun w₃) (hp : Denotes ds e.partition)
      (h₄ : BlankRun w₄) (ha : Action.sameLetters e.action.phrase.toList action = true)
      (hs : shape.Names subject e.subject) (ht : shape.Tail subject tail) : Renders e
        (e.date.render '/' ++ (w₁ ++ (e.clock.render ++ (w₂ ++ ("Partition".toList ++
          (w₃ ++ (ds ++ (w₄ ++ (action ++ tail)))))))))

namespace Line

variable {s r w ds form : List Char}

theorem of_afterBlanks? (h : afterBlanks? s = some r) : ∃ w, BlankRun w ∧ s = w ++ r := by
  cases s with
  | nil => cases h
  | cons c s =>
    rw [afterBlanks?] at h
    split at h
    case isFalse => cases h
    case isTrue hc =>
      obtain rfl := Option.some.inj h
      refine ⟨c :: s.takeWhile isBlank, ⟨by simp, fun b hb ↦ ?_⟩, ?_⟩
      · rcases List.mem_cons.mp hb with rfl | hb
        · exact hc
        · exact List.all_eq_true.mp List.all_takeWhile b hb
      · rw [List.cons_append, List.takeWhile_append_dropWhile]

theorem afterBlanks?_run (hw : BlankRun w) (hr : ∀ c ∈ r.head?, isBlank c = false) :
    afterBlanks? (w ++ r) = some r := by
  cases w with
  | nil => exact absurd rfl hw.ne_nil
  | cons c w =>
    have hb : ∀ b ∈ w, isBlank b = true := fun b hb ↦ hw.blanks b (List.mem_cons_of_mem _ hb)
    rw [List.cons_append, afterBlanks?, if_pos (hw.blanks c List.mem_cons_self),
      (takeWhile_run hb hr).2]

theorem of_digits? (h : digits? s = some (ds, r)) : DigitRun ds ∧ s = ds ++ r := by
  unfold digits? at h
  dsimp only at h
  split at h
  case isTrue => cases h
  case isFalse hn =>
    cases h
    refine ⟨⟨by simpa using hn, List.all_eq_true.mp List.all_takeWhile⟩, ?_⟩
    rw [List.takeWhile_append_dropWhile]

theorem digits?_run (hd : DigitRun ds) (hr : ∀ c ∈ r.head?, isDecimalDigit c = false) :
    digits? (ds ++ r) = some (ds, r) := by
  obtain ⟨ht, hw⟩ := takeWhile_run hd.digits hr
  rw [digits?, ht, hw, if_neg (by simpa using hd.ne_nil)]

theorem word?_eq_some_iff : word? w s = some r ↔ s = w ++ r :=
  afterHead?_eq_some_iff

theorem wordAnyCase?_eq_some_iff :
    wordAnyCase? w s = some r ↔ ∃ v, SameWord w v ∧ s = v ++ r := by
  induction w generalizing s with
  | nil => simp [wordAnyCase?, SameWord]
  | cons a w ih =>
    cases s with
    | nil => simp [wordAnyCase?, SameWord]
    | cons c s =>
      rw [wordAnyCase?]
      constructor
      · intro h
        split at h
        case isFalse => cases h
        case isTrue hc =>
          obtain ⟨v, hv, rfl⟩ := ih.mp h
          exact ⟨c :: v, .cons hc hv, rfl⟩
      · rintro ⟨v, hv, hs⟩
        cases hv with
        | cons hc hv =>
          cases hs
          rw [if_pos hc]
          exact ih.mpr ⟨_, hv, rfl⟩

theorem digitForm?_eq_some_iff :
    digitForm? form s = some (ds, r) ↔ HasForm form ds ∧ s = ds ++ r := by
  induction form generalizing s ds with
  | nil =>
    constructor
    · intro h
      cases h
      exact ⟨.nil, rfl⟩
    · rintro ⟨hd, rfl⟩
      cases hd
      rfl
  | cons f form ih =>
    cases s with
    | nil =>
      constructor
      · intro h
        cases h
      · rintro ⟨hd, hs⟩
        cases hd
        cases hs
    | cons c s =>
      rw [digitForm?]
      by_cases hc : (if f = '0' then isDecimalDigit c else c == f) = true
      · rw [if_pos hc]
        constructor
        · intro h
          obtain ⟨⟨v, r'⟩, hv, he⟩ := Option.map_eq_some_iff.mp h
          cases he
          obtain ⟨hf, rfl⟩ := ih.mp hv
          exact ⟨.cons hc hf, rfl⟩
        · rintro ⟨hd, hs⟩
          cases hd with
          | cons _ hd =>
            cases hs
            exact Option.map_eq_some_iff.mpr ⟨_, ih.mpr ⟨hd, rfl⟩, rfl⟩
      · rw [if_neg hc]
        constructor
        · intro h
          cases h
        · rintro ⟨hd, hs⟩
          cases hd with
          | cons hc' _ =>
            cases hs
            exact absurd hc' hc

theorem HasForm.length_eq (h : HasForm form ds) : ds.length = form.length :=
  (List.Forall₂.length_eq h).symm

theorem SameWord.length_eq (h : SameWord w s) : s.length = w.length :=
  (List.Forall₂.length_eq h).symm

theorem isBlank_of_sameLetter {a c : Char} (h : sameLetter a c = true) : isBlank c = isBlank a := by
  simp only [sameLetter, Bool.or_eq_true, Bool.and_eq_true, beq_iff_eq] at h
  rcases h with h | ⟨ha, rfl⟩
  · rw [← isBlank_toLower c, h, isBlank_toLower]
  · rw [← isBlank_toLower a, ha]
    decide

theorem SameWord.not_blank (h : SameWord w s) (hw : ∀ a ∈ w, isBlank a = false) :
    ∀ c ∈ s, isBlank c = false := by
  induction h with
  | nil => exact hw
  | cons hc _ ih =>
    intro c hm
    rcases List.mem_cons.mp hm with rfl | hm
    · rw [isBlank_of_sameLetter hc]
      exact hw _ List.mem_cons_self
    · exact ih (fun a ha ↦ hw a (List.mem_cons_of_mem _ ha)) c hm

theorem SameWord.ne_nil (h : SameWord w s) (hw : w ≠ []) : s ≠ [] := by
  rintro rfl
  cases h
  exact hw rfl

theorem lastNumber?_eq_some_iff : lastNumber? s = some ds ↔
    ∃ w w', BlankRun w ∧ DigitRun ds ∧ Blanks w' ∧ s = w ++ (ds ++ w') := by
  constructor
  · intro h
    obtain ⟨r, hr, hn⟩ := Option.bind_eq_some_iff.mp h
    obtain ⟨⟨ds', w'⟩, hd, he⟩ := Option.bind_eq_some_iff.mp hn
    obtain ⟨w, hw, rfl⟩ := of_afterBlanks? hr
    obtain ⟨hdr, rfl⟩ := of_digits? hd
    dsimp only at he
    split at he
    case isFalse => cases he
    case isTrue hb =>
      cases he
      exact ⟨w, w', hw, hdr, blanks_iff_all.mpr hb, rfl⟩
  · rintro ⟨w, w', hw, hd, hb, rfl⟩
    have h₁ := afterBlanks?_run hw (hd.head_not_blank w')
    have h₂ := digits?_run hd hb.head_not_digit
    simp only [lastNumber?, h₁, h₂, Option.bind_eq_bind, Option.bind_some]
    exact if_pos (blanks_iff_all.mp hb)

theorem ending?_eq_some_iff (shape : Shape) : shape.ending? s = some ds ↔ shape.Tail ds s := by
  constructor
  · intro h
    cases shape with
    | zone =>
      obtain ⟨r, hr, hz⟩ := Option.bind_eq_some_iff.mp h
      obtain ⟨r', hr', hl⟩ := Option.bind_eq_some_iff.mp hz
      obtain ⟨w₁, h₁, rfl⟩ := of_afterBlanks? hr
      obtain rfl := word?_eq_some_iff.mp hr'
      obtain ⟨w₂, w₃, h₂, hd, h₃, rfl⟩ := lastNumber?_eq_some_iff.mp hl
      exact .zone h₁ h₂ hd h₃
    | user =>
      obtain ⟨r, hr, hx⟩ := Option.bind_eq_some_iff.mp h
      obtain ⟨r₂, hr₂, hy⟩ := Option.bind_eq_some_iff.mp hx
      obtain ⟨r₃, hr₃, hz⟩ := Option.bind_eq_some_iff.mp hy
      obtain ⟨r₄, hr₄, hl⟩ := Option.bind_eq_some_iff.mp hz
      obtain ⟨w₁, h₁, rfl⟩ := of_afterBlanks? hr
      obtain ⟨user, hu, rfl⟩ := wordAnyCase?_eq_some_iff.mp hr₂
      obtain ⟨w₂, h₂, rfl⟩ := of_afterBlanks? hr₃
      obtain ⟨code, hc, rfl⟩ := wordAnyCase?_eq_some_iff.mp hr₄
      obtain ⟨w₃, w₄, h₃, hd, h₄, rfl⟩ := lastNumber?_eq_some_iff.mp hl
      exact .user h₁ hu h₂ hc h₃ hd h₄
    | partition =>
      rw [Shape.ending?] at h
      split at h
      case isFalse => cases h
      case isTrue hb =>
        cases h
        exact .partition (blanks_iff_all.mpr hb)
  · intro h
    cases h with
    | @zone w₁ w₂ ds w₃ h₁ h₂ hd h₃ =>
      have hz : ∀ c ∈ ("Zone".toList ++ (w₂ ++ (ds ++ w₃))).head?, isBlank c = false := by
        intro c hc
        obtain rfl := Option.some.inj hc
        decide
      rw [Shape.ending?, afterBlanks?_run h₁ hz, Option.bind_some, word?_eq_some_iff.mpr rfl,
        Option.bind_some]
      exact lastNumber?_eq_some_iff.mpr ⟨w₂, w₃, h₂, hd, h₃, rfl⟩
    | @user w₁ user w₂ code w₃ ds w₄ h₁ hu h₂ hc h₃ hd h₄ =>
      have hub := head_run (hu.ne_nil (by decide)) (hu.not_blank (visible_of_all rfl))
        (w₂ ++ (code ++ (w₃ ++ (ds ++ w₄))))
      have hcb := head_run (hc.ne_nil (by decide)) (hc.not_blank (visible_of_all rfl)) (w₃ ++ (ds ++ w₄))
      rw [Shape.ending?, afterBlanks?_run h₁ hub, Option.bind_some,
        wordAnyCase?_eq_some_iff.mpr ⟨user, hu, rfl⟩, Option.bind_some, afterBlanks?_run h₂ hcb,
        Option.bind_some, wordAnyCase?_eq_some_iff.mpr ⟨code, hc, rfl⟩, Option.bind_some]
      exact lastNumber?_eq_some_iff.mpr ⟨w₃, w₄, h₃, hd, h₄, rfl⟩
    | partition h => rw [Shape.ending?, if_pos (blanks_iff_all.mp h)]

section

variable {α : Type} {ending rest : List Char → Option α} {action : List Char} {a : α}

theorem of_shortest? (h : shortest? ending s = some (action, a)) :
    ∃ r, s = action ++ r ∧ action ≠ [] ∧ '\n' ∉ action ∧ ending r = some a := by
  induction s generalizing action with
  | nil => cases h
  | cons c s ih =>
    rw [shortest?] at h
    split at h
    case isTrue => cases h
    case isFalse hc =>
      split at h
      case h_1 b hb =>
        cases h
        exact ⟨s, rfl, by simp, by simpa using fun hn ↦ hc hn.symm, hb⟩
      case h_2 =>
        obtain ⟨⟨action', b⟩, hs, he⟩ := Option.map_eq_some_iff.mp h
        cases he
        obtain ⟨r, rfl, -, hn, hr⟩ := ih hs
        refine ⟨r, rfl, by simp, ?_, hr⟩
        simpa [hn] using fun hn ↦ hc hn.symm

theorem isSome_shortest? (ha : action ≠ []) (hn : '\n' ∉ action) (hr : ending r = some a) :
    (shortest? ending (action ++ r)).isSome = true := by
  induction action with
  | nil => exact absurd rfl ha
  | cons c action ih =>
    have hc : c ≠ '\n' := fun h ↦ hn (h ▸ List.mem_cons_self)
    rw [List.cons_append, shortest?, if_neg hc]
    split
    case h_1 => rfl
    case h_2 he =>
      rw [Option.isSome_map]
      refine ih ?_ fun h ↦ hn (List.mem_cons_of_mem _ h)
      rintro rfl
      cases he.symm.trans hr

theorem of_skipBlanks? (h : skipBlanks? rest s = some a) :
    ∃ w r, BlankRun w ∧ s = w ++ r ∧ rest r = some a := by
  induction s with
  | nil => cases h
  | cons c s ih =>
    rw [skipBlanks?] at h
    split at h
    case isFalse => cases h
    case isTrue hc =>
      have hb : BlankRun [c] := ⟨by simp, by simpa [Blanks] using hc⟩
      split at h
      case h_1 b hs =>
        cases h
        obtain ⟨w, r, hw, rfl, hr⟩ := ih hs
        exact ⟨c :: w, r, hb.append hw.blanks, rfl, hr⟩
      case h_2 => exact ⟨[c], s, hb, rfl, h⟩

theorem isSome_skipBlanks? (hw : BlankRun w) (hr : (rest r).isSome = true) :
    (skipBlanks? rest (w ++ r)).isSome = true := by
  obtain ⟨hn, hb⟩ := hw
  induction w with
  | nil => exact absurd rfl hn
  | cons c w ih =>
    rw [List.cons_append, skipBlanks?, if_pos (hb c List.mem_cons_self)]
    split
    case h_1 => rfl
    case h_2 hs =>
      cases w with
      | nil => exact hr
      | cons c' w =>
        have := ih (by simp) fun b hm ↦ hb b (List.mem_cons_of_mem _ hm)
        rw [hs] at this
        cases this

end

theorem HasForm.head_not_blank (h : HasForm ('0' :: form) ds) (r : List Char) :
    ∀ c ∈ (ds ++ r).head?, isBlank c = false := by
  cases h with
  | cons hc _ =>
    intro c hm
    obtain rfl := Option.some.inj hm
    exact isBlank_of_isDecimalDigit hc

theorem of_head? {h : Head} (hh : head? s = some (h, r)) : ∃ lead, h.Opens lead ∧ s = lead ++ r := by
  obtain ⟨⟨date, s₁⟩, e₁, hx₁⟩ := Option.bind_eq_some_iff.mp hh
  obtain ⟨s₂, e₂, hx₂⟩ := Option.bind_eq_some_iff.mp hx₁
  obtain ⟨⟨clock, s₃⟩, e₃, hx₃⟩ := Option.bind_eq_some_iff.mp hx₂
  obtain ⟨s₄, e₄, hx₄⟩ := Option.bind_eq_some_iff.mp hx₃
  obtain ⟨s₅, e₅, hx₅⟩ := Option.bind_eq_some_iff.mp hx₄
  obtain ⟨s₆, e₆, hx₆⟩ := Option.bind_eq_some_iff.mp hx₅
  obtain ⟨⟨partition, s₇⟩, e₇, hx₇⟩ := Option.bind_eq_some_iff.mp hx₆
  cases hx₇
  obtain ⟨hd, rfl⟩ := digitForm?_eq_some_iff.mp e₁
  obtain ⟨w₁, h₁, rfl⟩ := of_afterBlanks? e₂
  obtain ⟨hc, rfl⟩ := digitForm?_eq_some_iff.mp e₃
  obtain ⟨w₂, h₂, rfl⟩ := of_afterBlanks? e₄
  obtain rfl := word?_eq_some_iff.mp e₅
  obtain ⟨w₃, h₃, rfl⟩ := of_afterBlanks? e₆
  obtain ⟨hp, rfl⟩ := of_digits? e₇
  refine ⟨date ++ (w₁ ++ (clock ++ (w₂ ++ ("Partition".toList ++ (w₃ ++ partition))))),
    .mk hd h₁ hc h₂ h₃ hp, ?_⟩
  simp only [List.append_assoc]

theorem head?_of_opens {h : Head} {lead : List Char} (hh : h.Opens lead)
    (hr : ∀ c ∈ r.head?, isDecimalDigit c = false) : head? (lead ++ r) = some (h, r) := by
  cases hh with
  | @mk w₁ w₂ w₃ hd h₁ hc h₂ h₃ hp =>
    have hw : ∀ c ∈ ("Partition".toList ++ (w₃ ++ (h.partition ++ r))).head?, isBlank c = false := by
      intro c hc
      obtain rfl := Option.some.inj hc
      decide
    have e₁ (t : List Char) : digitForm? dateForm (h.date ++ t) = some (h.date, t) :=
      digitForm?_eq_some_iff.mpr ⟨hd, rfl⟩
    have e₃ (t : List Char) : digitForm? clockForm (h.clock ++ t) = some (h.clock, t) :=
      digitForm?_eq_some_iff.mpr ⟨hc, rfl⟩
    have e₂ := afterBlanks?_run h₁ (hc.head_not_blank
      (w₂ ++ ("Partition".toList ++ (w₃ ++ (h.partition ++ r)))))
    have e₄ := afterBlanks?_run h₂ hw
    have e₅ (t : List Char) : word? "Partition".toList ("Partition".toList ++ t) = some t :=
      word?_eq_some_iff.mpr rfl
    have e₆ := afterBlanks?_run h₃ (hp.head_not_blank r)
    have e₇ := digits?_run hp hr
    simp only [head?, List.append_assoc, e₁, e₂, e₃, e₄, e₅, e₆, e₇, Option.bind_eq_bind,
      Option.bind_some]
    rfl

theorem of_match? {shape : Shape} {p : Parts} (h : shape.match? s = some p) :
    p.shape = shape ∧ p.Matches s := by
  obtain ⟨⟨h', r⟩, hh, hx⟩ := Option.bind_eq_some_iff.mp h
  obtain ⟨⟨action, subject⟩, hs, he⟩ := Option.map_eq_some_iff.mp hx
  cases he
  obtain ⟨lead, hl, rfl⟩ := of_head? hh
  obtain ⟨w, r', hw, rfl, hr⟩ := of_skipBlanks? hs
  obtain ⟨tail, rfl, ha, hn, ht⟩ := of_shortest? hr
  exact ⟨rfl, .mk hl hw ha hn ((ending?_eq_some_iff shape).mp ht)⟩

theorem isSome_match? {p : Parts} (h : p.Matches s) : (p.shape.match? s).isSome = true := by
  cases h with
  | @mk lead w tail hh hw ha hn ht =>
    have hs := isSome_shortest? ha hn ((ending?_eq_some_iff p.shape).mpr ht)
    have hb := isSome_skipBlanks? hw hs
    rw [Shape.match?, head?_of_opens hh (hw.head_not_digit _), Option.bind_some, Option.isSome_map]
    exact hb

theorem of_parts? {p : Parts} (h : parts? s = some p) : p.Matches s := by
  obtain ⟨shape, -, hm⟩ := List.exists_of_findSome?_eq_some h
  exact (of_match? hm).2

/-- Exactly the lines without any shape have no parts. -/
theorem parts?_eq_none_iff : parts? s = none ↔ ¬ ∃ p : Parts, p.Matches s := by
  constructor
  · rintro h ⟨p, hp⟩
    have hs : p.shape.match? s = none := by
      rw [parts?, List.findSome?_eq_none_iff] at h
      refine h p.shape ?_
      cases p.shape <;> decide
    have := isSome_match? hp
    rw [hs] at this
    cases this
  · intro h
    cases hp : parts? s with
    | none => rfl
    | some p => exact absurd ⟨p, of_parts? hp⟩ h

end Line

end AlarmPanel
