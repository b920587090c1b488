import Mathlib.Data.List.Basic
import AlarmPanel.Text.Utf8
import AlarmPanel.Proofs.Command.Template

namespace AlarmPanel

namespace Text

/-- Cuts a text behind a number of octets, if a character ends there. -/
def cut? : Nat → List Char → Option (List Char × List Char)
  | 0, s => some ([], s)
  | _ + 1, [] => none
  | n + 1, c :: s =>
    if n + 1 < c.utf8Size then none
    else (cut? (n + 1 - c.utf8Size) s).map fun r ↦ (c :: r.1, r.2)

variable {n : Nat} {s a b : List Char}

theorem length_encode_cons (c : Char) (s : List Char) :
    (Utf8.encode (c :: s)).length = c.utf8Size + (Utf8.encode s).length := by
  rw [Utf8.encode, List.flatMap_cons, List.length_append, String.length_utf8EncodeChar, Utf8.encode]

theorem cut?_append (a b : List Char) : cut? (Utf8.encode a).length (a ++ b) = some (a, b) := by
  induction a with
  | nil => cases b <;> rfl
  | cons c a ih =>
    obtain ⟨k, hk⟩ : ∃ k, c.utf8Size + (Utf8.encode a).length = k + 1 :=
      Nat.exists_eq_add_one_of_ne_zero (Nat.ne_of_gt (Nat.add_pos_left c.utf8Size_pos _))
    have hle : ¬ k + 1 < c.utf8Size := by omega
    rw [length_encode_cons, List.cons_append, hk, cut?, if_neg hle, ← hk, Nat.add_sub_cancel_left, ih]
    rfl

theorem eq_append_of_cut? (h : cut? n s = some (a, b)) :
    s = a ++ b ∧ (Utf8.encode a).length = n := by
  fun_induction cut? n s generalizing a with
  | case1 s =>
    cases h
    exact ⟨rfl, rfl⟩
  | case2 => cases h
  | case3 => cases h
  | case4 n c s hn ih =>
    obtain ⟨⟨a, b⟩, hr, he⟩ := Option.map_eq_some_iff.mp h
    cases he
    obtain ⟨rfl, hl⟩ := ih hr
    refine ⟨rfl, ?_⟩
    rw [length_encode_cons, hl]
    omega

theorem cut?_eq_some_iff :
    cut? n s = some (a, b) ↔ s = a ++ b ∧ (Utf8.encode a).length = n := by
  refine ⟨eq_append_of_cut?, ?_⟩
  rintro ⟨rfl, rfl⟩
  exact cut?_append a b

def isDigitOctet (b : UInt8) : Bool :=
  0x30 ≤ b && b ≤ 0x39

theorem isDigitOctet_ofNat {k : Nat} :
    isDigitOctet (UInt8.ofNat k) = true ↔ 48 ≤ k % 256 ∧ k % 256 ≤ 57 := by
  simp only [isDigitOctet, Bool.and_eq_true, decide_eq_true_eq, UInt8.le_iff_toNat_le,
    UInt8.toNat_ofNat']
  rfl

theorem all_octets_iff (c : Char) :
    (String.utf8EncodeChar c).all isDigitOctet = true ↔ c.isDigit = true := by
  rw [isDigit_iff]
  have hc : c.val.toNat = c.toNat := rfl
  unfold String.utf8EncodeChar
  dsimp only
  rw [hc]
  split_ifs <;> simp only [List.all_cons, List.all_nil, Bool.and_true, Bool.and_eq_true,
    isDigitOctet_ofNat] <;> omega

theorem all_encode_iff : (Utf8.encode s).all isDigitOctet = true ↔ ∀ c ∈ s, c.isDigit = true := by
  rw [Utf8.encode, List.all_flatMap, List.all_eq_true]
  exact forall₂_congr fun c _ ↦ all_octets_iff c

theorem utf8Size_of_le {c : Char} (h : c.toNat ≤ 127) : c.utf8Size = 1 :=
  Char.utf8Size_eq_one_iff.mpr (UInt32.le_iff_toNat_le.mpr h)

theorem length_encode_of_digits (h : ∀ c ∈ s, c.isDigit = true) :
    (Utf8.encode s).length = s.length := by
  induction s with
  | nil => rfl
  | cons c s ih =>
    have hc := isDigit_iff.mp (h c List.mem_cons_self)
    have hs := ih fun b hb ↦ h b (List.mem_cons_of_mem c hb)
    rw [length_encode_cons, hs, utf8Size_of_le (by omega), List.length_cons, Nat.add_comm]

end Text

namespace Command

open Text

/-- Reading with cuts: outside stands whether each cut made was between characters, inside whether the
text has the form. -/
abbrev Cutting := OptionT Option

namespace Cutting

variable {α β : Type}

def tried (o : Option α) : Cutting α :=
  OptionT.mk (some o)

def required (o : Option α) : Cutting α :=
  OptionT.mk (o.map some)

theorem tried_bind (o : Option α) (f : α → Option β) :
    (tried o >>= fun a ↦ tried (f a)) = tried (o.bind f) := by
  cases o <;> rfl

theorem tried_orElse (o o' : Option α) : (tried o <|> tried o') = tried (o <|> o') := by
  cases o <;> rfl

theorem tried_firstM (f : α → Option β) (l : List α) :
    l.firstM (fun a ↦ tried (f a)) = tried (l.findSome? f) := by
  induction l with
  | nil => rfl
  | cons a l ih =>
    rw [List.firstM, ih, tried_orElse, List.findSome?_cons]
    cases f a <;> rfl

end Cutting

open AlarmPanel.Command.Cutting

def cutIndex (s : List Char) : Cutting (UInt32 × List Char) := do
  let (ds, _) ← tried (cut? 3 s)
  if (Utf8.encode ds).all isDigitOctet then
    let n ← tried (Numeral.readIndex ds).toOption
    let (_, r) ← required (cut? 3 s)
    return (n, r)
  else failure

def cutAfterLetters (letters s : List Char) : Cutting (UInt32 × List Char) :=
  tried (afterHead? letters s) >>= cutIndex

def cutArm (s : List Char) : Cutting Command := do
  let (area, r) ← cutAfterLetters ['A', 'A'] s
  let mode ← tried (r.head?.bind ArmMode.ofLetter?)
  let (_, code) ← required (cut? 1 r)
  return arm area mode (String.ofList code)

def cutDisarm (s : List Char) : Cutting Command := do
  let (area, code) ← cutAfterLetters ['A', 'D'] s
  return disarm area (String.ofList code)

def cutIndexed (operation : Operation) (s : List Char) : Cutting Command := do
  let (n, r) ← cutAfterLetters operation.letters s
  if r.isEmpty then return indexed operation n else failure

def cutRead (s : List Char) : Cutting Command :=
  tried (readFixed? s) <|> tried (readPower? s) <|> cutArm s <|> cutDisarm s <|>
    Operation.all.firstM fun operation ↦ cutIndexed operation s

/-- What a text is read as, if no cut goes through a character. -/
def ofOctets? (text : String) : Option Command :=
  (cutRead text.toList).run.map fun o ↦ o.getD (raw text)

variable {s r letters : List Char} {n : UInt32}

theorem cut?_of_splitIndex? (h : splitIndex? s = some (n, r)) :
    ∃ ds, cut? 3 s = some (ds, r) ∧ ∀ c ∈ ds, c.isDigit = true := by
  obtain ⟨ds, rfl, hi⟩ := splitIndex?_eq_some_iff.mp h
  refine ⟨ds, cut?_eq_some_iff.mpr ⟨rfl, ?_⟩, hi.digits⟩
  rw [length_encode_of_digits hi.digits, hi.length_eq]

theorem cutIndex_eq (s : List Char) : cutIndex s = tried (splitIndex? s) := by
  have hnone (h : ∀ ds r, cut? 3 s = some (ds, r) → ¬ ∀ c ∈ ds, c.isDigit = true) :
      splitIndex? s = none := by
    refine Option.eq_none_iff_forall_ne_some.mpr fun p hp ↦ ?_
    obtain ⟨ds, hc, hd⟩ := cut?_of_splitIndex? hp
    exact h ds p.2 hc hd
  rw [cutIndex]
  cases hc : cut? 3 s with
  | none =>
    rw [hnone (by rw [hc]; simp)]
    rfl
  | some p =>
    obtain ⟨ds, r⟩ := p
    by_cases hd : ∀ c ∈ ds, c.isDigit = true
    · have ha := all_encode_iff.mpr hd
      obtain ⟨rfl, hl⟩ := cut?_eq_some_iff.mp hc
      rw [length_encode_of_digits hd] at hl
      obtain ⟨x, y, z, rfl⟩ := List.length_eq_three.mp hl
      simp only [List.mem_cons, List.not_mem_nil, or_false, forall_eq_or_imp, forall_eq] at hd
      have hs : splitIndex? ([x, y, z] ++ r) =
          (Numeral.readIndex [x, y, z]).toOption.map fun n ↦ (n, r) := by
        simp [splitIndex?, hd]
      rw [hs]
      refine (if_pos ha).trans ?_
      cases (Numeral.readIndex [x, y, z]).toOption <;> rfl
    · have ha : ¬ (Utf8.encode ds).all isDigitOctet = true := fun h ↦ hd (all_encode_iff.mp h)
      have hs := hnone fun ds' r' h ↦ by
        rw [hc] at h
        cases h
        exact hd
      rw [hs]
      exact if_neg ha

theorem cutAfterLetters_eq (letters s : List Char) :
    cutAfterLetters letters s = tried (afterLetters? letters s) := by
  rw [cutAfterLetters, afterLetters?, ← tried_bind]
  exact bind_congr cutIndex_eq

theorem cut?_letter (mode : ArmMode) (s : List Char) :
    cut? 1 (mode.letter :: s) = some ([mode.letter], s) := by
  refine cut?_eq_some_iff.mpr ⟨rfl, ?_⟩
  cases mode <;> rfl

theorem cutArm_eq (s : List Char) : cutArm s = tried (readArm? s) := by
  rw [cutArm, readArm?, cutAfterLetters_eq]
  cases afterLetters? ['A', 'A'] s with
  | none => rfl
  | some p =>
    obtain ⟨area, r⟩ := p
    cases r with
    | nil => rfl
    | cons x code =>
      change (tried (ArmMode.ofLetter? x) >>= fun mode ↦ _) = tried ((ArmMode.ofLetter? x).map _)
      cases hm : ArmMode.ofLetter? x with
      | none => rfl
      | some mode =>
        obtain rfl := ofLetter?_eq_some_iff.mp hm
        change (required (cut? 1 (mode.letter :: code)) >>= fun p ↦ _) = _
        rw [cut?_letter]
        rfl

theorem cutDisarm_eq (s : List Char) : cutDisarm s = tried (readDisarm? s) := by
  rw [cutDisarm, readDisarm?, cutAfterLetters_eq]
  cases afterLetters? ['A', 'D'] s <;> rfl

theorem cutIndexed_eq (operation : Operation) (s : List Char) : cutIndexed operation s =
    tried (match afterLetters? operation.letters s with
      | some (n, []) => some (indexed operation n)
      | _ => none) := by
  rw [cutIndexed, cutAfterLetters_eq]
  cases afterLetters? operation.letters s with
  | none => rfl
  | some p =>
    obtain ⟨n, r⟩ := p
    cases r <;> rfl

theorem cutRead_eq (s : List Char) : cutRead s = tried (read? s) := by
  have hi : (Operation.all.firstM fun operation ↦ cutIndexed operation s) =
      tried (readIndexed? s) := by
    rw [readIndexed?, ← tried_firstM]
    exact congrArg (Operation.all.firstM ·) (funext fun operation ↦ cutIndexed_eq operation s)
  rw [cutRead, read?, cutArm_eq, cutDisarm_eq, hi]
  simp only [tried_orElse]

theorem ofOctets?_eq (text : String) : ofOctets? text = some (ofText text) := by
  rw [ofOctets?, cutRead_eq]
  rfl

end Command

end AlarmPanel
