import Mathlib.Data.List.Basic
import AlarmPanel.Command
import AlarmPanel.Proofs.Text.Number

namespace AlarmPanel.Command

open Text Numeral

structure IsIndex (ds : List Char) (n : UInt32) : Prop extends Denotes ds n where
  length_eq : ds.length = 3

/-- The texts that stand for a command. A raw command has no template. -/
def Follows (s : List Char) : Command → Prop
  | powerQuery => s = "PWR?".toList
  | errorQuery => s = "ERR?".toList
  | resetAll => s = "INITALL".toList
  | setPower state => ∃ r, s = "POWER ".toList ++ r ∧ Spells 10 r state.toInt
  | arm area mode code =>
    ∃ ds, s = ['A', 'A'] ++ (ds ++ mode.letter :: code.toList) ∧ IsIndex ds area
  | disarm area code => ∃ ds, s = ['A', 'D'] ++ (ds ++ code.toList) ∧ IsIndex ds area
  | indexed operation n => ∃ ds, s = operation.letters ++ ds ∧ IsIndex ds n
  | raw _ => False

variable {s r ds letters : List Char} {c c' : Command} {n : UInt32}

theorem IsIndex.lt (h : IsIndex ds n) : n.toNat < 1000 := by
  have hv := ofDigitChars_lt h.digits 0
  rwa [h.length_eq, h.value] at hv

theorem isIndex_index (h : n.toNat < 1000) : IsIndex (index n) n := by
  have hl : (index n).length = 3 := length_padded (by omega) h
  refine ⟨⟨?_, digits_padded 3 _, value_padded 3 _⟩, hl⟩
  rintro hn
  rw [hn] at hl
  cases hl

theorem splitIndex?_eq_some_iff :
    splitIndex? s = some (n, r) ↔ ∃ ds, s = ds ++ r ∧ IsIndex ds n := by
  have hread {x y z : Char} (hx : x.isDigit = true) (hy : y.isDigit = true)
      (hz : z.isDigit = true) : readIndex [x, y, z] = .ok n ↔ Denotes [x, y, z] n := by
    refine readIndex_eq_ok_iff ⟨by simp, ?_⟩
    intro b hb
    apply isDecimalDigit_of_isDigit
    simp only [List.mem_cons, List.not_mem_nil, or_false] at hb
    rcases hb with rfl | rfl | rfl <;> assumption
  constructor
  · intro h
    unfold splitIndex? at h
    split at h
    case h_2 => cases h
    case h_1 x y z t =>
      split at h
      case isFalse => cases h
      case isTrue hd =>
        simp only [Bool.and_eq_true] at hd
        cases hr : readIndex [x, y, z] with
        | error e =>
          rw [hr] at h
          cases h
        | ok m =>
          rw [hr] at h
          cases h
          exact ⟨[x, y, z], rfl, (hread hd.1.1 hd.1.2 hd.2).mp hr, rfl⟩
  · rintro ⟨ds, rfl, hi⟩
    obtain ⟨x, y, z, rfl⟩ := List.length_eq_three.mp hi.length_eq
    have hd := hi.digits
    simp only [List.mem_cons, List.not_mem_nil, or_false, forall_eq_or_imp, forall_eq] at hd
    have hr := (hread hd.1 hd.2.1 hd.2.2).mpr hi.toDenotes
    simp [splitIndex?, hd, hr, Except.toOption]

theorem afterLetters?_eq_some_iff : afterLetters? letters s = some (n, r) ↔
    ∃ ds, s = letters ++ (ds ++ r) ∧ IsIndex ds n := by
  rw [afterLetters?, Option.bind_eq_some_iff]
  constructor
  · rintro ⟨t, ht, hs⟩
    obtain ⟨ds, rfl, hi⟩ := splitIndex?_eq_some_iff.mp hs
    exact ⟨ds, afterHead?_eq_some_iff.mp ht, hi⟩
  · rintro ⟨ds, rfl, hi⟩
    exact ⟨ds ++ r, afterHead?_eq_some_iff.mpr rfl, splitIndex?_eq_some_iff.mpr ⟨ds, rfl, hi⟩⟩

theorem ofLetter?_eq_some_iff {x : Char} {mode : ArmMode} :
    ArmMode.ofLetter? x = some mode ↔ x = mode.letter := by
  constructor
  · intro h
    have hx := List.find?_some h
    exact (beq_iff_eq.mp hx).symm
  · rintro rfl
    cases mode <;> rfl

theorem readPower?_eq_some_iff :
    readPower? s = some c ↔ ∃ state, c = setPower state ∧ Follows s c := by
  simp only [readPower?, Option.bind_eq_some_iff, Option.map_eq_some_iff, afterHead?_eq_some_iff,
    read?_i64_eq_some_iff]
  constructor
  · rintro ⟨r, rfl, m, ⟨hm, hlo, hhi⟩, rfl⟩
    refine ⟨_, rfl, r, rfl, ?_⟩
    rwa [Int64.toInt_ofInt_of_le hlo hhi]
  · rintro ⟨state, rfl, r, rfl, hr⟩
    exact ⟨r, rfl, _, ⟨hr, state.le_toInt, state.toInt_lt⟩, by rw [Int64.ofInt_toInt]⟩

theorem readArm?_eq_some_iff :
    readArm? s = some c ↔ ∃ area mode code, c = arm area mode code ∧ Follows s c := by
  constructor
  · intro h
    unfold readArm? at h
    split at h
    case h_2 => cases h
    case h_1 area x code hs =>
      obtain ⟨mode, hm, rfl⟩ := Option.map_eq_some_iff.mp h
      obtain rfl := ofLetter?_eq_some_iff.mp hm
      obtain ⟨ds, rfl, hi⟩ := afterLetters?_eq_some_iff.mp hs
      exact ⟨area, mode, _, rfl, ds, by rw [String.toList_ofList], hi⟩
  · rintro ⟨area, mode, code, rfl, ds, hs, hi⟩
    have ha := afterLetters?_eq_some_iff.mpr ⟨ds, hs, hi⟩
    rw [readArm?, ha]
    dsimp only
    rw [ofLetter?_eq_some_iff.mpr rfl, Option.map_some, String.ofList_toList]

theorem readDisarm?_eq_some_iff :
    readDisarm? s = some c ↔ ∃ area code, c = disarm area code ∧ Follows s c := by
  simp only [readDisarm?, Option.map_eq_some_iff, Prod.exists, afterLetters?_eq_some_iff]
  constructor
  · rintro ⟨area, code, ⟨ds, rfl, hi⟩, rfl⟩
    exact ⟨area, _, rfl, ds, by rw [String.toList_ofList], hi⟩
  · rintro ⟨area, code, rfl, ds, hs, hi⟩
    exact ⟨area, code.toList, ⟨ds, hs, hi⟩, by rw [String.ofList_toList]⟩

theorem length_letters (operation : Operation) : operation.letters.length = 2 := by
  cases operation <;> rfl

theorem letters_inj {operation operation' : Operation}
    (h : operation.letters = operation'.letters) : operation = operation' := by
  revert h
  cases operation <;> cases operation' <;> decide

theorem readIndexed?_eq_some_iff :
    readIndexed? s = some c ↔ ∃ operation n, c = indexed operation n ∧ Follows s c := by
  have of_some {c : Command} (h : readIndexed? s = some c) :
      ∃ operation n, c = indexed operation n ∧ Follows s c := by
    obtain ⟨operation, -, ho⟩ := List.exists_of_findSome?_eq_some h
    split at ho
    case h_2 => cases ho
    case h_1 n hs =>
      obtain ⟨ds, hs, hi⟩ := afterLetters?_eq_some_iff.mp hs
      cases ho
      exact ⟨operation, n, rfl, ds, by rw [hs, List.append_nil], hi⟩
  refine ⟨of_some, ?_⟩
  rintro ⟨operation, n, rfl, ds, hs, hi⟩
  have ha : afterLetters? operation.letters s = some (n, []) :=
    afterLetters?_eq_some_iff.mpr ⟨ds, by rw [hs, List.append_nil], hi⟩
  have hm : operation ∈ Operation.all := by cases operation <;> decide
  have hsome : (readIndexed? s).isSome = true := by
    rw [readIndexed?, List.findSome?_isSome_iff]
    exact ⟨operation, hm, by rw [ha]; rfl⟩
  obtain ⟨c, hc⟩ := Option.isSome_iff_exists.mp hsome
  -- no other operation has these letters
  obtain ⟨operation', n', rfl, ds', hs', hi'⟩ := of_some hc
  obtain ⟨hl, rfl⟩ := List.append_inj (hs.symm.trans hs')
    ((length_letters operation).trans (length_letters operation').symm)
  obtain rfl := letters_inj hl
  obtain rfl := UInt32.toNat_inj.mp (hi.value.symm.trans hi'.value)
  exact hc

theorem follows_of_readFixed? (h : readFixed? s = some c) : Follows s c := by
  rw [readFixed?] at h
  have hs := List.find?_some h
  have hc := List.mem_of_find?_eq_some h
  obtain rfl := beq_iff_eq.mp hs
  simp only [List.mem_cons, List.not_mem_nil, or_false] at hc
  rcases hc with rfl | rfl | rfl <;> rfl

theorem follows_of_read? (h : read? s = some c) : Follows s c := by
  simp only [read?, Option.orElse_eq_orElse, Option.orElse_eq_or, Option.or_eq_some_iff] at h
  obtain h | ⟨-, h | ⟨-, h | ⟨-, h | ⟨-, h⟩⟩⟩⟩ := h
  · exact follows_of_readFixed? h
  · obtain ⟨_, -, hf⟩ := readPower?_eq_some_iff.mp h
    exact hf
  · obtain ⟨_, _, _, -, hf⟩ := readArm?_eq_some_iff.mp h
    exact hf
  · obtain ⟨_, _, -, hf⟩ := readDisarm?_eq_some_iff.mp h
    exact hf
  · obtain ⟨_, _, -, hf⟩ := readIndexed?_eq_some_iff.mp h
    exact hf

/-- The readers that come first pass over the text of a later one, by its first two letters. -/
theorem read?_of_follows (h : Follows s c) : read? s = some c := by
  have ht := h
  cases c with
  | powerQuery | errorQuery | resetAll =>
    obtain rfl := h
    rfl
  | setPower state =>
    obtain ⟨r, rfl, -⟩ := h
    have hr := readPower?_eq_some_iff.mpr ⟨state, rfl, ht⟩
    rw [read?, hr]
    rfl
  | arm area mode code =>
    obtain ⟨ds, rfl, -⟩ := h
    have hr := readArm?_eq_some_iff.mpr ⟨area, mode, code, rfl, ht⟩
    rw [read?, hr]
    rfl
  | disarm area code =>
    obtain ⟨ds, rfl, -⟩ := h
    have hr := readDisarm?_eq_some_iff.mpr ⟨area, code, rfl, ht⟩
    rw [read?, hr]
    rfl
  | indexed operation n =>
    obtain ⟨ds, rfl, -⟩ := h
    have hr := readIndexed?_eq_some_iff.mpr ⟨operation, n, rfl, ht⟩
    rw [read?, hr]
    cases operation <;> rfl
  | raw text => exact h.elim

theorem read?_eq_some_iff : read? s = some c ↔ Follows s c :=
  ⟨follows_of_read?, read?_of_follows⟩

theorem Follows.unique (h : Follows s c) (h' : Follows s c') : c = c' :=
  Option.some.inj ((read?_of_follows h).symm.trans (read?_of_follows h'))

def isRaw : Command → Bool
  | raw _ => true
  | _ => false

theorem Follows.isRaw_eq (h : Follows s c) : c.isRaw = false := by
  cases c with
  | raw text => exact h.elim
  | _ => rfl

theorem ofText_eq_iff {text : String} (hc : c.isRaw = false) :
    ofText text = c ↔ Follows text.toList c := by
  rw [← read?_eq_some_iff, ofText]
  cases read? text.toList with
  | some c' => rw [Option.getD_some, Option.some.injEq]
  | none =>
    constructor
    · rintro rfl
      cases hc
    · intro h
      cases h

theorem ofText_eq_raw_iff {text : String} :
    ofText text = raw text ↔ ¬ ∃ c, Follows text.toList c := by
  rw [ofText]
  cases h : read? text.toList with
  | some c =>
    have hc := follows_of_read? h
    rw [Option.getD_some]
    constructor
    · rintro rfl
      cases hc.isRaw_eq
    · intro hn
      exact absurd ⟨c, hc⟩ hn
  | none =>
    refine ⟨fun _ ↦ ?_, fun _ ↦ rfl⟩
    rintro ⟨c, hc⟩
    cases h.symm.trans (read?_of_follows hc)

end AlarmPanel.Command
