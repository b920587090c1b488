import AlarmPanel.Poll
import AlarmPanel.Proofs.Text.Number

namespace AlarmPanel.Poll

open Text

def word : Poll → String
  | areaStatus _ => "RAS"
  | zoneStatus _ => "RZS"
  | zone _ => "Zone"
  | user _ => "User"
  | powerState => "PowerState"
  | errorCode => "Err_code"
  | errorMessage => "Err_msg"

def index? : Poll → Option UInt32
  | areaStatus n | zoneStatus n | zone n | user n => some n
  | powerState | errorCode | errorMessage => none

/-- The name with `gap` before the number, where there is one. -/
def spelled (gap : List Char) (p : Poll) : List Char :=
  p.word.toList ++ (p.index?.map fun n ↦ gap ++ Numeral.decimal n.toNat).getD []

variable {p : Poll} {n : UInt32} {gap before after s : List Char} {c : Char}

theorem toList_name (p : Poll) : p.name.toList = p.spelled [' '] := by
  cases p <;> simp [name, numbered, spelled, word, index?]

theorem visible_word (p : Poll) : ∀ c ∈ p.word.toList, isBlank c = false := by
  cases p <;> refine visible_of_all ?_ <;> rw [word] <;> decide

theorem word_ne_nil (p : Poll) : p.word.toList ≠ [] := by
  cases p <;> simp [word]

theorem ofWord?_of_mem (hc : c ∈ s) (hb : isBlank c = true) : ofWord? s = none := by
  have hne (p : Poll) : s ≠ p.word.toList := by
    rintro rfl
    cases hb.symm.trans (p.visible_word c hc)
  have hs : s ≠ "PowerState".toList := hne powerState
  have hc : s ≠ "Err_code".toList := hne errorCode
  have hm : s ≠ "Err_msg".toList := hne errorMessage
  rw [ofWord?, if_neg hs, if_neg hc, if_neg hm]

theorem ofNumbered?_word (h : p.index? = some n) : ofNumbered? p.word.toList n = some p := by
  cases p <;> cases h <;> simp [ofNumbered?, word]

theorem ofWord?_word (h : p.index? = none) : ofWord? p.word.toList = some p := by
  cases p <;> cases h <;> rfl

theorem visible_decimal (n : Nat) : ∀ c ∈ Numeral.decimal n, isBlank c = false := by
  intro c hc
  have hd := Numeral.digits_decimal n c hc
  exact isBlank_of_isDecimalDigit (by simp [isDecimalDigit, hd])

theorem trim_visible (h : ∀ c ∈ s, isBlank c = false) : trim s = s :=
  trim_eq_self (fun c hc ↦ h c (List.mem_of_mem_head? hc)) fun c hc ↦ h c (List.mem_of_getLast? hc)

theorem readIndex_decimal (n : UInt32) : Numeral.readIndex (Numeral.decimal n.toNat) = .ok n := by
  have hne : Numeral.decimal n.toNat ≠ [] := Nat.toDigits_ne_nil
  have hd := Numeral.digits_decimal n.toNat
  have hr : DigitRun (Numeral.decimal n.toNat) := ⟨hne, fun c hc ↦ by simp [isDecimalDigit, hd c hc]⟩
  exact (Numeral.readIndex_eq_ok_iff hr).mpr
    ⟨hne, hd, Nat.ofDigitChars_toDigits (by omega) (by omega)⟩

theorem read?_spelled (hb : Blanks before) (hg : BlankRun gap) (ha : Blanks after) (p : Poll) :
    read? (before ++ (p.spelled gap ++ after)) = some p := by
  have hw := p.visible_word
  rw [read?, trim_append hb _ ha, spelled]
  cases hi : p.index? with
  | none => rw [Option.map_none, Option.getD_none, List.append_nil, trim_visible hw, ofWord?_word hi]
  | some n =>
    have hd := visible_decimal n.toNat
    have hne : Numeral.decimal n.toNat ≠ [] := Nat.toDigits_ne_nil
    obtain ⟨g, gap, rfl⟩ := List.exists_cons_of_ne_nil hg.ne_nil
    obtain ⟨hg, hgap⟩ := List.forall_mem_cons.mp hg.blanks
    have ht : trim (p.word.toList ++ (g :: gap ++ Numeral.decimal n.toNat)) =
        p.word.toList ++ (g :: gap ++ Numeral.decimal n.toNat) := by
      refine trim_eq_self (head_run p.word_ne_nil hw _) ?_
      rw [← List.append_assoc]
      exact last_run hne hd _
    have hs : splitFirst? isBlank (p.word.toList ++ (g :: gap ++ Numeral.decimal n.toNat)) =
        some (p.word.toList, gap ++ Numeral.decimal n.toNat) :=
      splitFirst?_eq_some_iff.mpr ⟨g, hg, rfl, hw⟩
    have hr : trim (gap ++ Numeral.decimal n.toNat) = Numeral.decimal n.toNat := by
      have hta := trim_append hgap (Numeral.decimal n.toNat) blanks_nil
      rwa [List.append_nil, trim_visible hd] at hta
    have ho : ofWord? (p.word.toList ++ (g :: gap ++ Numeral.decimal n.toNat)) = none :=
      ofWord?_of_mem (c := g) (by simp) hg
    rw [Option.map_some, Option.getD_some, ht, ho, hs]
    dsimp only [Option.bind_some]
    rw [hr, readIndex_decimal, Except.toOption, Option.bind_some, ofNumbered?_word hi]

theorem ofName_spelled (hb : Blanks before) (hg : BlankRun gap) (ha : Blanks after) (p : Poll) :
    ofName (String.ofList (before ++ (p.spelled gap ++ after))) = .ok p := by
  rw [ofName, String.toList_ofList, read?_spelled hb hg ha]

end AlarmPanel.Poll
