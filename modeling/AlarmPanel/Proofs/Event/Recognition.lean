import AlarmPanel.Proofs.Event.Reading

namespace AlarmPanel

open Text Line

namespace Line

variable {s x x' w w' v v' ds ds' t t' a a' : List Char} {shape shape' : Shape} {p p' : Parts}
  {e : Event}

structure Keyword (a : List Char) : Prop where
  length_eq : a.length = 4
  visible : ∀ c ∈ a, isBlank c = false

theorem Keyword.last (h : Keyword a) (x : List Char) : ∀ c ∈ (x ++ a).getLast?, isBlank c = false := by
  have hn : a ≠ [] := by
    rintro rfl
    cases h.length_eq
  exact last_run hn h.visible x

theorem keyword_zone : Keyword "Zone".toList := ⟨rfl, visible_of_all rfl⟩

theorem SameWord.keyword (h : SameWord w a) (hw : Keyword w) : Keyword a :=
  ⟨h.length_eq.trans hw.length_eq, h.not_blank hw.visible⟩

theorem keyword_user (h : SameWord "User".toList a) : Keyword a := h.keyword ⟨rfl, visible_of_all rfl⟩

theorem keyword_code (h : SameWord "Code".toList a) : Keyword a := h.keyword ⟨rfl, visible_of_all rfl⟩

theorem keyword_unique (ha : Keyword a) (ha' : Keyword a') (hw : BlankRun w) (hw' : BlankRun w')
    (h : x ++ (a ++ w) = x' ++ (a' ++ w')) : x = x' ∧ a = a' := by
  rw [← List.append_assoc, ← List.append_assoc] at h
  obtain ⟨hx, -⟩ := suffix_unique hw.blanks (ha.last x) hw'.blanks (ha'.last x') h
  exact List.append_inj' hx (ha.length_eq.trans ha'.length_eq.symm)

theorem number_unique (hw : BlankRun w) (hw' : BlankRun w') (hd : DigitRun ds) (hd' : DigitRun ds')
    (hv : Blanks v) (hv' : Blanks v') (h : x ++ (w ++ (ds ++ v)) = x' ++ (w' ++ (ds' ++ v'))) :
    x ++ w = x' ++ w' ∧ ds = ds' := by
  have hr : ((x ++ w) ++ ds) ++ v = ((x' ++ w') ++ ds') ++ v' := by
    simpa only [List.append_assoc] using h
  obtain ⟨hn, -⟩ := suffix_unique hv (hd.last_not_blank _) hv' (hd'.last_not_blank _) hr
  exact suffix_unique hd.digits (hw.last_not_digit x) hd'.digits (hw'.last_not_digit x') hn

theorem keyword_number_unique (ha : Keyword a) (ha' : Keyword a') (hw : BlankRun w)
    (hw' : BlankRun w') (hd : DigitRun ds) (hd' : DigitRun ds') (hv : Blanks v) (hv' : Blanks v')
    (h : x ++ (a ++ (w ++ (ds ++ v))) = x' ++ (a' ++ (w' ++ (ds' ++ v')))) :
    x = x' ∧ a = a' ∧ ds = ds' := by
  have hr : (x ++ a) ++ (w ++ (ds ++ v)) = (x' ++ a') ++ (w' ++ (ds' ++ v')) := by
    simpa only [List.append_assoc] using h
  obtain ⟨hx, hds⟩ := number_unique hw hw' hd hd' hv hv' hr
  rw [List.append_assoc, List.append_assoc] at hx
  obtain ⟨hx, hk⟩ := keyword_unique ha ha' hw hw' hx
  exact ⟨hx, hk, hds⟩

theorem Shape.Tail.blanks_append (hw : Blanks w) (h : shape.Tail ds t) : shape.Tail ds (w ++ t) := by
  cases h with
  | zone h₁ h₂ hd h₃ =>
    rw [← List.append_assoc]
    exact .zone (hw.append_run h₁) h₂ hd h₃
  | user h₁ hu h₂ hc h₃ hd h₄ =>
    rw [← List.append_assoc]
    exact .user (hw.append_run h₁) hu h₂ hc h₃ hd h₄
  | partition h => exact .partition (hw.append h)

theorem Shape.Tail.unique (h : shape.Tail ds t) (h' : shape.Tail ds' t') (he : x ++ t = x' ++ t') :
    ds = ds' ∧ ∃ w w', Blanks w ∧ Blanks w' ∧ x ++ w = x' ++ w' := by
  cases h with
  | @zone w₁ w₂ _ w₃ h₁ h₂ hd h₃ =>
    cases h' with
    | @zone v₁ v₂ _ v₃ h₁' h₂' hd' h₃' =>
      rw [← List.append_assoc, ← List.append_assoc x'] at he
      obtain ⟨hx, -, hds⟩ :=
        keyword_number_unique keyword_zone keyword_zone h₂ h₂' hd hd' h₃ h₃' he
      exact ⟨hds, w₁, v₁, h₁.blanks, h₁'.blanks, hx⟩
  | @user w₁ u w₂ c w₃ _ w₄ h₁ hu h₂ hc h₃ hd h₄ =>
    cases h' with
    | @user v₁ u' v₂ c' v₃ _ v₄ h₁' hu' h₂' hc' h₃' hd' h₄' =>
      have hr : ((x ++ w₁) ++ (u ++ w₂)) ++ (c ++ (w₃ ++ (ds ++ w₄))) =
          ((x' ++ v₁) ++ (u' ++ v₂)) ++ (c' ++ (v₃ ++ (ds' ++ v₄))) := by
        simpa only [List.append_assoc] using he
      obtain ⟨hx, -, hds⟩ :=
        keyword_number_unique (keyword_code hc) (keyword_code hc') h₃ h₃' hd hd' h₄ h₄' hr
      obtain ⟨hx, -⟩ := keyword_unique (keyword_user hu) (keyword_user hu') h₂ h₂' hx
      exact ⟨hds, w₁, v₁, h₁.blanks, h₁'.blanks, hx⟩
  | partition h =>
    cases h' with
    | partition h' => exact ⟨rfl, t, t', h, h', he⟩

theorem not_zone_and_user (h : Shape.zone.Tail ds t) (h' : Shape.user.Tail ds' t') :
    x ++ t ≠ x' ++ t' := by
  intro he
  cases h with
  | @zone w₁ w₂ _ w₃ h₁ h₂ hd h₃ =>
    cases h' with
    | @user v₁ u v₂ c v₃ _ v₄ h₁' hu h₂' hc h₃' hd' h₄' =>
      have hr : (x ++ w₁) ++ ("Zone".toList ++ (w₂ ++ (ds ++ w₃))) =
          (x' ++ (v₁ ++ (u ++ v₂))) ++ (c ++ (v₃ ++ (ds' ++ v₄))) := by
        simpa only [List.append_assoc] using he
      obtain ⟨-, rfl, -⟩ :=
        keyword_number_unique keyword_zone (keyword_code hc) h₂ h₃' hd hd' h₃ h₄' hr
      cases hc with
      | cons hl _ => revert hl; decide

theorem Shape.Tail.exists_number (h : shape.Tail ds t) (hs : shape ≠ .partition) :
    ∃ y v, DigitRun ds ∧ Blanks v ∧ t = y ++ (ds ++ v) := by
  cases h with
  | @zone w₁ w₂ _ w₃ h₁ h₂ hd h₃ =>
    exact ⟨w₁ ++ ("Zone".toList ++ w₂), w₃, hd, h₃, by simp only [List.append_assoc]⟩
  | @user w₁ u w₂ c w₃ _ w₄ h₁ hu h₂ hc h₃ hd h₄ =>
    exact ⟨w₁ ++ (u ++ (w₂ ++ (c ++ w₃))), w₄, hd, h₄, by simp only [List.append_assoc]⟩
  | partition => exact absurd rfl hs

/-- Text that ends in neither a blank nor a digit does not hold the number of a zone or user. -/
theorem Shape.Tail.eq_partition (h : shape.Tail ds t) (h' : Shape.partition.Tail ds' t')
    (hx : ∀ c ∈ x'.getLast?, isBlank c = false ∧ isDecimalDigit c = false)
    (he : x ++ t = x' ++ t') : shape = .partition := by
  cases h' with
  | partition hb =>
    by_contra hs
    obtain ⟨y, v, hd, hv, rfl⟩ := h.exists_number hs
    have hr : ((x ++ y) ++ ds) ++ v = x' ++ t' := by
      simpa only [List.append_assoc] using he
    obtain ⟨rfl, -⟩ := suffix_unique hv (hd.last_not_blank _) hb (fun c hc ↦ (hx c hc).1) hr
    have hl : ∀ c ∈ ((x ++ y) ++ ds).getLast?, False := by
      intro c hc
      have hn := (hx c hc).2
      have hy := last_run hd.ne_nil hd.digits (x ++ y) c hc
      rw [hn] at hy
      cases hy
    rw [getLast?_append_of_ne_nil hd.ne_nil, List.getLast?_eq_some_getLast hd.ne_nil] at hl
    exact hl _ rfl

theorem Shape.Tail.shape_unique (h : shape.Tail ds t) (h' : shape'.Tail ds' t')
    (hx : ∀ c ∈ x'.getLast?, isBlank c = false ∧ isDecimalDigit c = false)
    (ho : shape = .partition → shape' = .partition) (he : x ++ t = x' ++ t') : shape = shape' := by
  cases shape' with
  | partition => exact h.eq_partition h' hx he
  | zone =>
    cases shape with
    | zone => rfl
    | user => exact absurd he.symm (not_zone_and_user h' h)
    | partition => cases ho rfl
  | user =>
    cases shape with
    | zone => exact absurd he (not_zone_and_user h h')
    | user => rfl
    | partition => cases ho rfl

/-- Of two layouts of a line the one with the visible end of its action fixes the other, unless the
other leaves nothing after the action where the first leaves a zone or user. -/
theorem Parts.Matches.unique (hp : p.Matches s) (hp' : p'.Matches s)
    (hl : ∀ c ∈ p'.action.getLast?, isBlank c = false ∧ isDecimalDigit c = false)
    (ho : p.shape = .partition → p'.shape = .partition) :
    p.head = p'.head ∧ p.shape = p'.shape ∧ p.subject = p'.subject ∧
      trim p.action = trim p'.action := by
  obtain ⟨h, shape, action, ds⟩ := p
  obtain ⟨h', shape', action', ds'⟩ := p'
  dsimp only at hl ho ⊢
  generalize hs : s = s' at hp'
  cases hp with
  | @mk lead w tail hh hw ha hn ht =>
    cases hp' with
    | @mk lead' w' tail' hh' hw' ha' hn' ht' =>
      dsimp only at hh hh' ha ha' ht ht' hs
      -- Both heads are what reading the line from the left gives.
      have e₁ := head?_of_opens hh (hw.head_not_digit (action ++ tail))
      have e₂ := head?_of_opens hh' (hw'.head_not_digit (action' ++ tail'))
      rw [hs, e₂] at e₁
      obtain ⟨rfl, hr⟩ := Prod.mk.inj (Option.some.inj e₁)
      rw [← List.append_assoc, ← List.append_assoc w] at hr
      have hx : ∀ c ∈ (w' ++ action').getLast?, isBlank c = false ∧ isDecimalDigit c = false := by
        rwa [getLast?_append_of_ne_nil ha']
      obtain rfl := ht.shape_unique ht' hx ho hr.symm
      obtain ⟨hds, v, v', hv, hv', he⟩ := ht.unique ht' hr.symm
      rw [List.append_assoc, List.append_assoc] at he
      refine ⟨rfl, rfl, hds, ?_⟩
      calc trim action = trim (w ++ (action ++ v)) := (trim_append hw.blanks action hv).symm
        _ = trim (w' ++ (action' ++ v')) := by rw [he]
        _ = trim action' := trim_append hw'.blanks action' hv'

theorem shape_of_parts? (h : parts? s = some p) (hp' : p'.Matches s) (hs : p.shape = .partition) :
    p'.shape = .partition := by
  have hm := isSome_match? hp'
  rw [parts?, List.findSome?_cons, List.findSome?_cons] at h
  cases hz : Shape.zone.match? s with
  | some q =>
    rw [hz] at h
    cases h
    cases hs.symm.trans (of_match? hz).1
  | none =>
    rw [hz] at h
    cases hu : Shape.user.match? s with
    | some q =>
      rw [hu] at h
      cases h
      cases hs.symm.trans (of_match? hu).1
    | none =>
      cases hs' : p'.shape with
      | zone =>
        rw [hs', hz] at hm
        cases hm
      | user =>
        rw [hs', hu] at hm
        cases hm
      | partition => rfl

theorem Parts.Says.of_eq (h : p'.Says e) (hh : p.head = p'.head) (hs : p.shape = p'.shape)
    (hds : p.subject = p'.subject) (ha : trim p.action = trim p'.action) : p.Says e where
  date := hh ▸ h.date
  clock := hh ▸ h.clock
  partition := hh ▸ h.partition
  action := ha ▸ h.action
  subject := by
    rw [hs, hds]
    exact h.subject

theorem Parts.Matches.renders (hp : p.Matches s) (h : p.Says e) : e.Renders s := by
  cases hp with
  | @mk lead w tail hh hw ha hn ht =>
    cases hh with
    | @mk w₁ w₂ w₃ hd h₁ hc h₂ h₃ hds =>
      obtain ⟨l, r, hl, hr, hs⟩ := exists_trim p.action
      have hlay := Event.Renders.mk h₁ h₂ h₃ h.partition (hw.append hl) h.action h.subject
        (ht.blanks_append hr)
      rw [← h.date, ← h.clock] at hlay
      generalize trim p.action = action at hs hlay
      rw [hs]
      simpa only [List.append_assoc] using hlay

end Line

namespace Event

variable {line : List Char} {e : Event}

theorem Renders.exists_parts (h : e.Renders line) : ∃ p : Parts, p.Matches line ∧ p.Says e ∧
    Action.sameLetters e.action.phrase.toList p.action = true := by
  cases h with
  | @mk w₁ w₂ w₃ ds w₄ action shape subject tail h₁ h₂ h₃ hp h₄ ha hs ht =>
    have hd : DigitRun ds := ⟨hp.ne_nil, fun c hc ↦ isDecimalDigit_of_isDigit (hp.digits c hc)⟩
    have htrim : trim action = action := trim_eq_self (Action.head_of_sameLetters ha)
      fun c hc ↦ (Action.last_of_sameLetters ha c hc).1
    have hopens : Head.Opens ⟨e.date.render '/', e.clock.render, ds⟩ _ :=
      .mk e.date.hasForm_render h₁ e.clock.hasForm_render h₂ h₃ hd
    refine ⟨⟨⟨e.date.render '/', e.clock.render, ds⟩, shape, action, subject⟩, ?_, ?_, ha⟩
    · have hm := Parts.Matches.mk
        (p := ⟨⟨e.date.render '/', e.clock.render, ds⟩, shape, action, subject⟩) hopens h₄
        (Action.ne_nil_of_sameLetters ha) (Action.no_lineFeed_of_sameLetters ha) ht
      simpa only [List.append_assoc] using hm
    · exact ⟨rfl, rfl, hp, by rwa [htrim], hs⟩

theorem ofLine_eq_some_iff : ofLine line = .ok (some e) ↔ e.Renders line := by
  constructor
  · intro h
    unfold ofLine at h
    split at h
    case h_1 => cases h
    case h_2 p hp =>
      obtain ⟨e', he, hsome⟩ := map_eq_ok_iff.mp h
      cases hsome
      have hm := of_parts? hp
      exact hm.renders ((readParts_eq_ok_iff hm).mp he)
  · intro h
    obtain ⟨p', hm', he, ha⟩ := h.exists_parts
    cases hp : parts? line with
    | none => exact absurd ⟨p', hm'⟩ (parts?_eq_none_iff.mp hp)
    | some p =>
      have hm := of_parts? hp
      obtain ⟨hh, hs, hds, htrim⟩ :=
        hm.unique hm' (Action.last_of_sameLetters ha) (shape_of_parts? hp hm')
      have hr : readParts line p = .ok e :=
        (readParts_eq_ok_iff hm).mpr (he.of_eq hh hs hds htrim)
      rw [ofLine, hp]
      exact map_eq_ok_iff.mpr ⟨e, hr, rfl⟩

theorem ofLine_eq_none_iff : ofLine line = .ok none ↔ ¬ ∃ p : Parts, p.Matches line := by
  rw [← parts?_eq_none_iff]
  unfold ofLine
  constructor
  · intro h
    split at h
    case h_1 hp => exact hp
    case h_2 =>
      obtain ⟨e, -, he⟩ := map_eq_ok_iff.mp h
      cases he
  · intro h
    rw [h]

/-- Reading lines is the inverse of rendering events. -/
theorem ofLine_exact (line : List Char) :
    (∀ e : Event, ofLine line = .ok (some e) ↔ e.Renders line) ∧
      (∀ e e' : Event, e.Renders line → e'.Renders line → e = e') ∧
      (ofLine line = .ok none ↔ ¬ ∃ p : Parts, p.Matches line) := by
  refine ⟨fun e ↦ ofLine_eq_some_iff, ?_, ofLine_eq_none_iff⟩
  intro e e' h h'
  have he := ofLine_eq_some_iff.mpr h
  rw [ofLine_eq_some_iff.mpr h'] at he
  cases he
  rfl

theorem ofLine_exact_zoneOpening :
    let line := "2014/01/14 17:01 Partition 2 ZONE open  Zone 05 ".toList
    let date : Date := ⟨2014, 1, 14, by decide, by decide, by decide, by decide, by decide⟩
    let clock : Clock := ⟨17, 1, by decide, by decide⟩
    let e : Event := ⟨date, clock, 2, .zoneOpen, some (.zone 5)⟩
    e.Renders line ∧ ofLine line = .ok (some e) ∧
      ¬ Event.Renders ⟨date, clock, 2, .zoneOpen, none⟩ line := by
  intro line date clock e
  have hb : BlankRun " ".toList := ⟨by decide, blanks_iff_all.mpr rfl⟩
  have hb₂ : BlankRun "  ".toList := ⟨by decide, blanks_iff_all.mpr rfl⟩
  have hp : Denotes "2".toList 2 := ⟨by decide, List.all_eq_true.mp rfl, rfl⟩
  have hn : Denotes "05".toList 5 := ⟨by decide, List.all_eq_true.mp rfl, rfl⟩
  have ha : Action.sameLetters Action.zoneOpen.phrase.toList "ZONE open".toList = true := by decide
  have ht : Shape.zone.Tail "05".toList "  Zone 05 ".toList :=
    .zone hb₂ hb ⟨by decide, List.all_eq_true.mp rfl⟩ hb.blanks
  have hline : line = date.render '/' ++ (" ".toList ++ (clock.render ++ (" ".toList ++
      ("Partition".toList ++ (" ".toList ++ ("2".toList ++ (" ".toList ++ ("ZONE open".toList ++
        "  Zone 05 ".toList)))))))) := by decide +kernel
  have hr : e.Renders line := by
    rw [hline]
    exact .mk hb hb hb hp hb ha (.zone hn) ht
  obtain ⟨hread, hunique, -⟩ := ofLine_exact line
  refine ⟨hr, (hread e).mpr hr, ?_⟩
  intro h
  cases congrArg Event.subject (hunique _ _ hr h)

/-- No shape has an action with a line feed in it. -/
theorem ofLine_lineFeed :
    let line := "2014/01/14 17:01 Partition 2 a\nb".toList
    ofLine line = .ok none ∧ ∃ (h : Head) (lead w action tail : List Char), h.Opens lead ∧
      BlankRun w ∧ action ≠ [] ∧ Shape.partition.Tail [] tail ∧
      line = lead ++ (w ++ (action ++ tail)) := by
  intro line
  have hb : BlankRun " ".toList := ⟨by decide, blanks_iff_all.mpr rfl⟩
  obtain ⟨lead, hl, he⟩ := of_head? (s := line) (r := " a\nb".toList)
    (h := ⟨"2014/01/14".toList, "17:01".toList, "2".toList⟩) rfl
  exact ⟨rfl, _, lead, " ".toList, "a\nb".toList, [], hl, hb, by decide, .partition blanks_nil, he⟩

end Event

end AlarmPanel
