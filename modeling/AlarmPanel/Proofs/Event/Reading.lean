import AlarmPanel.Proofs.Event.Grammar

namespace AlarmPanel

open Text Line Numeral Calendar

theorem bind_eq_ok_iff {ε α β : Type} {x : Except ε α} {f : α → Except ε β} {b : β} :
    x.bind f = .ok b ↔ ∃ a, x = .ok a ∧ f a = .ok b := by
  cases x with
  | error e =>
    constructor
    · intro h
      cases h
    · rintro ⟨a, h, -⟩
      cases h
  | ok a =>
    constructor
    · intro h
      exact ⟨a, rfl, h⟩
    · rintro ⟨a', h, hf⟩
      cases h
      exact hf

namespace Calendar

variable {w lo hi n : Nat} {c : Char} {s r : List Char}

theorem of_number (h : number w s = .ok (n, r)) : ∃ ds : List Char, (∀ c ∈ ds, c.isDigit = true) ∧
    0 < ds.length ∧ ds.length ≤ w ∧ n = Nat.ofDigitChars 10 ds 0 ∧ s = ds ++ r := by
  unfold number at h
  dsimp only at h
  generalize hd : (s.take w).takeWhile Char.isDigit = ds at h
  have hp : ds <+: s.take w := hd ▸ List.takeWhile_prefix _
  have hs : ds <+: s := hp.trans (List.take_prefix w s)
  split at h
  case h_1 => cases h
  case h_2 => cases h
  case h_3 hn _ =>
    cases h
    refine ⟨ds, ?_, ?_, ?_, rfl, ?_⟩
    · intro c hc
      rw [← hd] at hc
      exact List.all_eq_true.mp List.all_takeWhile c hc
    · exact List.length_pos_iff.mpr hn
    · exact Nat.le_trans hp.length_le (List.length_take_le w s)
    · exact (List.prefix_iff_eq_append.mp hs).symm

theorem number_padded (hw : 0 < w) (hn : n < 10 ^ w) (r : List Char) :
    number w (padded w n ++ r) = .ok (n, r) := by
  have hl := length_padded hw hn
  have ht : ((padded w n ++ r).take w).takeWhile Char.isDigit = padded w n := by
    rw [List.take_left' hl]
    simpa using (takeWhile_run (b := []) (digits_padded w n) (by simp)).1
  have hne : padded w n ≠ [] := List.length_pos_iff.mp (hl.symm ▸ hw)
  unfold number
  dsimp only
  rw [ht]
  split
  case h_1 h _ => exact absurd h hne
  case h_2 h _ => exact absurd h hne
  case h_3 => rw [value_padded, List.drop_left]

theorem of_numberIn (h : numberIn w lo hi s = .ok (n, r)) :
    number w s = .ok (n, r) ∧ lo ≤ n ∧ n ≤ hi := by
  unfold numberIn at h
  split at h
  case h_1 => cases h
  case h_2 n' r' hn =>
    split at h
    case isTrue hb =>
      cases h
      exact ⟨hn, hb⟩
    case isFalse => cases h

theorem numberIn_padded (hw : 0 < w) (hn : n < 10 ^ w) (hlo : lo ≤ n) (hhi : n ≤ hi)
    (r : List Char) : numberIn w lo hi (padded w n ++ r) = .ok (n, r) := by
  rw [numberIn, number_padded hw hn]
  exact if_pos ⟨hlo, hhi⟩

theorem expect_eq_ok_iff : expect c s = .ok r ↔ s = c :: r := by
  cases s with
  | nil => simp [expect]
  | cons a s =>
    by_cases ha : a = c <;> simp [expect, ha]

theorem ended_eq_ok_iff {u : Unit} : ended s = .ok u ↔ s = [] := by
  cases s <;> simp [ended]

end Calendar

theorem Date.ofParts?_eq_some_iff {year month day : Nat} {d : Date} :
    Date.ofParts? year month day = some d ↔ year = d.year ∧ month = d.month ∧ day = d.day := by
  unfold Date.ofParts?
  constructor
  · intro h
    split at h
    case isTrue => cases h; exact ⟨rfl, rfl, rfl⟩
    case isFalse => cases h
  · rintro ⟨rfl, rfl, rfl⟩
    exact dif_pos ⟨d.year_le, d.month_pos, d.month_le, d.day_pos, d.day_le⟩

theorem Clock.ofParts?_eq_some_iff {hour minute : Nat} {c : Clock} :
    Clock.ofParts? hour minute = some c ↔ hour = c.hour ∧ minute = c.minute := by
  unfold Clock.ofParts?
  constructor
  · intro h
    split at h
    case isTrue => cases h; exact ⟨rfl, rfl⟩
    case isFalse => cases h
  · rintro ⟨rfl, rfl⟩
    exact dif_pos ⟨c.hour_lt, c.minute_lt⟩

theorem daysIn_le (year month : Nat) : daysIn year month ≤ 31 := by
  unfold daysIn
  split
  · split <;> omega
  · split <;> omega

section

variable {s : List Char}

theorem Date.read_eq_ok_iff (hl : s.length = dateForm.length) {d : Date} :
    Date.read s = .ok d ↔ s = d.render '/' := by
  constructor
  · intro h
    obtain ⟨⟨y, s₁⟩, hy, h₁⟩ := bind_eq_ok_iff.mp h
    obtain ⟨s₂, e₁, h₂⟩ := bind_eq_ok_iff.mp h₁
    obtain ⟨⟨m, s₃⟩, hm, h₃⟩ := bind_eq_ok_iff.mp h₂
    obtain ⟨s₄, e₂, h₄⟩ := bind_eq_ok_iff.mp h₃
    obtain ⟨⟨n, s₅⟩, hn, h₅⟩ := bind_eq_ok_iff.mp h₄
    obtain ⟨_, e₃, h₆⟩ := bind_eq_ok_iff.mp h₅
    obtain ⟨ys, hys, -, ly, rfl, rfl⟩ := of_number hy
    obtain rfl := expect_eq_ok_iff.mp e₁
    obtain ⟨ms, hms, -, lm, rfl, rfl⟩ := of_number (of_numberIn hm).1
    obtain rfl := expect_eq_ok_iff.mp e₂
    obtain ⟨ns, hns, -, ln, rfl, rfl⟩ := of_number (of_numberIn hn).1
    obtain rfl := ended_eq_ok_iff.mp e₃
    split at h₆
    case h_2 => cases h₆
    case h_1 d' hd =>
      cases h₆
      obtain ⟨ey, em, ed⟩ := Date.ofParts?_eq_some_iff.mp hd
      have h10 : dateForm.length = 10 := rfl
      simp only [List.length_append, List.length_cons, List.length_nil, h10] at hl
      have hyear := d.year_le
      have hmonth := d.month_le
      have hday := Nat.le_trans d.day_le (daysIn_le d.year d.month)
      have py := padded_value hys (w := 4) (by omega) (by omega) (by omega)
      have pm := padded_value hms (w := 2) (by omega) (by omega) (by omega)
      have pd := padded_value hns (w := 2) (by omega) (by omega) (by omega)
      rw [Date.render, ← ey, ← em, ← ed, py, pm, pd, List.append_nil,
        List.append_assoc, List.cons_append]
  · rintro rfl
    have hyear := d.year_le
    have hday := Nat.le_trans d.day_le (daysIn_le d.year d.month)
    have hmonth := d.month_le
    have e₁ (r : List Char) : number 4 (padded 4 d.year ++ r) = .ok (d.year, r) :=
      number_padded (by omega) (by omega) r
    have e₂ (r : List Char) : numberIn 2 1 12 (padded 2 d.month ++ r) = .ok (d.month, r) :=
      numberIn_padded (by omega) (by omega) d.month_pos hmonth r
    have e₃ : numberIn 2 1 31 (padded 2 d.day) = .ok (d.day, []) := by
      have h := numberIn_padded (w := 2) (by omega) (by omega) d.day_pos hday []
      rwa [List.append_nil] at h
    have hd : Date.ofParts? d.year d.month d.day = some d :=
      Date.ofParts?_eq_some_iff.mpr ⟨rfl, rfl, rfl⟩
    simp only [Date.read, Date.render, List.append_assoc, List.cons_append, bind, Except.bind, e₁, e₂,
      e₃, expect, if_pos, ended, hd]

theorem Clock.read_eq_ok_iff (hl : s.length = clockForm.length) {c : Clock} :
    Clock.read s = .ok c ↔ s = c.render := by
  have hhour := c.hour_lt
  have hminute := c.minute_lt
  constructor
  · intro h
    obtain ⟨⟨a, s₁⟩, ha, h₁⟩ := bind_eq_ok_iff.mp h
    obtain ⟨s₂, e₁, h₂⟩ := bind_eq_ok_iff.mp h₁
    obtain ⟨⟨b, s₃⟩, hb, h₃⟩ := bind_eq_ok_iff.mp h₂
    obtain ⟨_, e₂, h₄⟩ := bind_eq_ok_iff.mp h₃
    obtain ⟨as, has, -, la, rfl, rfl⟩ := of_number (of_numberIn ha).1
    obtain rfl := expect_eq_ok_iff.mp e₁
    obtain ⟨bs, hbs, -, lb, rfl, rfl⟩ := of_number (of_numberIn hb).1
    obtain rfl := ended_eq_ok_iff.mp e₂
    split at h₄
    case h_2 => cases h₄
    case h_1 c' hc =>
      cases h₄
      obtain ⟨eh, em⟩ := Clock.ofParts?_eq_some_iff.mp hc
      have h5 : clockForm.length = 5 := rfl
      simp only [List.length_append, List.length_cons, List.length_nil, h5] at hl
      have ph := padded_value has (w := 2) (by omega) (by omega) (by omega)
      have pm := padded_value hbs (w := 2) (by omega) (by omega) (by omega)
      rw [Clock.render, ← eh, ← em, ph, pm, List.append_nil]
  · rintro rfl
    have e₁ (r : List Char) : numberIn 2 0 23 (padded 2 c.hour ++ r) = .ok (c.hour, r) :=
      numberIn_padded (by omega) (by omega) (by omega) (by omega) r
    have e₂ : numberIn 2 0 59 (padded 2 c.minute) = .ok (c.minute, []) := by
      have h : numberIn 2 0 59 (padded 2 c.minute ++ []) = .ok (c.minute, []) :=
        numberIn_padded (by omega) (by omega) (by omega) (by omega) []
      rwa [List.append_nil] at h
    have hc : Clock.ofParts? c.hour c.minute = some c := Clock.ofParts?_eq_some_iff.mpr ⟨rfl, rfl⟩
    simp only [Clock.read, Clock.render, bind, Except.bind, e₁, e₂, expect, if_pos, ended, hc]

end

theorem hasForm_padded {w n : Nat} (hw : 0 < w) (hn : n < 10 ^ w) :
    HasForm (List.replicate w '0') (padded w n) := by
  have h (ds : List Char) (hd : ∀ c ∈ ds, c.isDigit = true) :
      HasForm (List.replicate ds.length '0') ds := by
    induction ds with
    | nil => exact .nil
    | cons c ds ih =>
      refine .cons ?_ (ih fun b hb ↦ hd b (List.mem_cons_of_mem _ hb))
      rw [if_pos rfl]
      exact isDecimalDigit_of_isDigit (hd c List.mem_cons_self)
  have hp := h _ (digits_padded w n)
  rwa [length_padded hw hn] at hp

theorem Date.hasForm_render (d : Date) : HasForm dateForm (d.render '/') := by
  have hyear := d.year_le
  have hmonth := d.month_le
  have hday := Nat.le_trans d.day_le (daysIn_le d.year d.month)
  have hy : HasForm _ (padded 4 d.year) := hasForm_padded (by omega) (by omega)
  have hm : HasForm _ (padded 2 d.month) := hasForm_padded (by omega) (by omega)
  have hd : HasForm _ (padded 2 d.day) := hasForm_padded (by omega) (by omega)
  exact List.rel_append (List.rel_append hy (.cons (by decide) hm)) (.cons (by decide) hd)

theorem Clock.hasForm_render (c : Clock) : HasForm clockForm c.render := by
  have hhour := c.hour_lt
  have hminute := c.minute_lt
  have hh : HasForm _ (padded 2 c.hour) := hasForm_padded (by omega) (by omega)
  have hm : HasForm _ (padded 2 c.minute) := hasForm_padded (by omega) (by omega)
  exact List.rel_append hh (.cons (by decide) hm)

namespace Action

variable {a : Action} {s : List Char}

theorem sameLetters_iff {s t : List Char} :
    sameLetters s t = true ↔ s.map Char.toLower = t.map Char.toLower := beq_iff_eq

theorem ofPhrase?_eq_some_iff :
    ofPhrase? s = some a ↔ sameLetters a.phrase.toList (trim s) = true := by
  constructor
  · intro h
    have ha := List.find?_some (p := fun b : Action ↦ sameLetters b.phrase.toList (trim s)) h
    exact ha
  · intro h
    have ha : all.find? (fun b ↦ sameLetters b.phrase.toList a.phrase.toList) = some a := by
      cases a <;> decide
    rw [← ha]
    simp only [ofPhrase?, sameLetters, ← sameLetters_iff.mp h]

theorem head_of_sameLetters {t : List Char} (h : sameLetters a.phrase.toList t = true) :
    ∀ c ∈ t.head?, isBlank c = false := by
  intro c hc
  have hl : c.toLower ∈ (a.phrase.toList.map Char.toLower).head? := by
    rw [sameLetters_iff.mp h, List.head?_map]
    exact Option.mem_map_of_mem _ hc
  have ha : ((a.phrase.toList.map Char.toLower).head?.all fun b ↦ !isBlank b) = true := by
    cases a <;> rfl
  rw [← isBlank_toLower]
  simpa using Option.all_eq_true _ _ |>.mp ha _ hl

theorem last_of_sameLetters {t : List Char} (h : sameLetters a.phrase.toList t = true) :
    ∀ c ∈ t.getLast?, isBlank c = false ∧ isDecimalDigit c = false := by
  intro c hc
  have hl : c.toLower ∈ (a.phrase.toList.map Char.toLower).getLast? := by
    rw [sameLetters_iff.mp h, List.getLast?_map]
    exact Option.mem_map_of_mem _ hc
  have ha : ((a.phrase.toList.map Char.toLower).getLast?.all fun b ↦
      !isBlank b && !isDecimalDigit b) = true := by
    cases a <;> rfl
  rw [← isBlank_toLower, ← isDecimalDigit_toLower]
  simpa using Option.all_eq_true _ _ |>.mp ha _ hl

theorem ne_nil_of_sameLetters {t : List Char} (h : sameLetters a.phrase.toList t = true) :
    t ≠ [] := by
  rintro rfl
  revert h
  cases a <;> decide

theorem no_lineFeed_of_sameLetters {t : List Char} (h : sameLetters a.phrase.toList t = true) :
    '\n' ∉ t := by
  intro hn
  have hl : '\n' ∈ a.phrase.toList.map Char.toLower := by
    rw [sameLetters_iff.mp h]
    exact List.mem_map_of_mem (f := Char.toLower) hn
  revert hl
  cases a <;> decide

end Action

namespace Line

structure Parts.Says (p : Parts) (e : Event) : Prop where
  date : p.head.date = e.date.render '/'
  clock : p.head.clock = e.clock.render
  partition : Denotes p.head.partition e.partition
  action : Action.sameLetters e.action.phrase.toList (trim p.action) = true
  subject : p.shape.Names p.subject e.subject

variable {line s ds tail : List Char} {p : Parts} {e : Event}

theorem mapError_eq_ok_iff {ε ε' α : Type} {x : Except ε α} {f : ε → ε'} {a : α} :
    x.mapError f = .ok a ↔ x = .ok a := by
  cases x <;> simp [Except.mapError]

theorem map_eq_ok_iff {ε α β : Type} {x : Except ε α} {f : α → β} {b : β} :
    x.map f = .ok b ↔ ∃ a, x = .ok a ∧ f a = b := by
  cases x <;> simp [Except.map]

theorem readIndex_eq_ok_iff {n : UInt32} (hd : DigitRun ds) :
    readIndex line ds = .ok n ↔ Denotes ds n :=
  mapError_eq_ok_iff.trans (Numeral.readIndex_eq_ok_iff hd)

theorem readAction_eq_ok_iff {a : Action} :
    readAction line s = .ok a ↔ Action.sameLetters a.phrase.toList (trim s) = true := by
  rw [← Action.ofPhrase?_eq_some_iff, readAction]
  cases Action.ofPhrase? s <;> simp

theorem readSubject_eq_ok_iff (ht : p.shape.Tail p.subject tail) {subject : Option Subject} :
    readSubject line p = .ok subject ↔ p.shape.Names p.subject subject := by
  obtain ⟨head, shape, action, ds⟩ := p
  dsimp only at ht
  cases ht with
  | zone _ _ hd _ =>
    refine map_eq_ok_iff.trans ⟨?_, ?_⟩
    · rintro ⟨n, hn, rfl⟩
      exact .zone ((readIndex_eq_ok_iff hd).mp hn)
    · intro h
      cases h with
      | zone hn => exact ⟨_, (readIndex_eq_ok_iff hd).mpr hn, rfl⟩
  | user _ _ _ _ _ hd _ =>
    refine map_eq_ok_iff.trans ⟨?_, ?_⟩
    · rintro ⟨n, hn, rfl⟩
      exact .user ((readIndex_eq_ok_iff hd).mp hn)
    · intro h
      cases h with
      | user hn => exact ⟨_, (readIndex_eq_ok_iff hd).mpr hn, rfl⟩
  | partition _ =>
    constructor
    · intro h
      cases h
      exact .partition
    · intro h
      cases h
      rfl

theorem readParts_eq_ok_iff (hp : p.Matches s) : readParts line p = .ok e ↔ p.Says e := by
  cases hp with
  | @mk lead w tail hh hw ha hn ht =>
    cases hh with
    | @mk w₁ w₂ w₃ hd h₁ hc h₂ h₃ hp =>
      constructor
      · intro h
        obtain ⟨action, ha, hx₁⟩ := bind_eq_ok_iff.mp h
        obtain ⟨subject, hs, hx₂⟩ := bind_eq_ok_iff.mp hx₁
        obtain ⟨date, hdate, hx₃⟩ := bind_eq_ok_iff.mp hx₂
        obtain ⟨clock, hclock, hx₄⟩ := bind_eq_ok_iff.mp hx₃
        obtain ⟨partition, hpart, hx₅⟩ := bind_eq_ok_iff.mp hx₄
        cases hx₅
        exact {
          date := (Date.read_eq_ok_iff hd.length_eq).mp (mapError_eq_ok_iff.mp hdate)
          clock := (Clock.read_eq_ok_iff hc.length_eq).mp (mapError_eq_ok_iff.mp hclock)
          partition := (readIndex_eq_ok_iff hp).mp hpart
          action := readAction_eq_ok_iff.mp ha
          subject := (readSubject_eq_ok_iff ht).mp hs }
      · intro h
        have hdate := (Date.read_eq_ok_iff hd.length_eq).mpr h.date
        have hclock := (Clock.read_eq_ok_iff hc.length_eq).mpr h.clock
        have hpart : readIndex line p.head.partition = .ok e.partition :=
          (readIndex_eq_ok_iff hp).mpr h.partition
        have hact : readAction line p.action = .ok e.action := readAction_eq_ok_iff.mpr h.action
        have hsub : readSubject line p = .ok e.subject := (readSubject_eq_ok_iff ht).mpr h.subject
        simp only [readParts, bind, Except.bind, hact, hsub, mapError_eq_ok_iff.mpr hdate,
          mapError_eq_ok_iff.mpr hclock, hpart]
        rfl

end Line

end AlarmPanel
