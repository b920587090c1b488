import AlarmPanel.Proofs.Binding.Token
import AlarmPanel.Proofs.Event.Keys

namespace AlarmPanel

open Text Source

namespace Key

variable {k : Key} {new s t : List Char} {n : Nat}

theorem isExpression_text (k : Key) : isExpression k.text = false := by
  have hall : (operators.all fun c ↦ !(c.isAlpha || c == ' ' || c.isDigit)) = true := by decide
  rw [isExpression, List.any_eq_false]
  intro c hc ho
  have hn := List.all_eq_true.mp hall c (List.contains_iff_mem.mp ho)
  simp only [Bool.not_eq_true', Bool.or_eq_false_iff, beq_eq_false_iff_ne] at hn
  rcases mem_text hc with h | h | h
  · cases h.symm.trans hn.1.1
  · exact hn.1.2 h
  · cases h.symm.trans hn.2

theorem replace_eq (h : Written k.text new none s t n) : replace k.text new s = t := by
  obtain ⟨c, w, hw, hc, -⟩ := k.exists_text
  rw [hw] at h ⊢
  exact h.replace_eq hc

theorem text_ne_nil (k : Key) : k.text ≠ [] := by
  obtain ⟨c, w, hw, -⟩ := k.exists_text
  simp [hw]

theorem written_replace (k : Key) (new s : List Char) :
    ∃ n, Written k.text new none s (replace k.text new s) n := by
  obtain ⟨t, n, h⟩ := exists_written k.text_ne_nil new none s
  exact ⟨n, by rwa [replace_eq h]⟩

theorem occurs_iff (h : Written k.text new none s t n) : occurs k.text s = true ↔ 0 < n := by
  obtain ⟨c, w, hw, hc, -⟩ := k.exists_text
  rw [hw] at h ⊢
  exact h.occurs_iff hc

theorem occurs_iff_hasToken : occurs k.text s = true ↔ HasToken k.text s := by
  obtain ⟨t, n, h⟩ := exists_written k.text_ne_nil [] none s
  rw [occurs_iff h, h.hasToken_iff k.text_ne_nil, hasTokenAfter_none]

end Key

namespace Source

variable {u v w : String × Int} {values values' : List (String × Int)}

theorem keyBefore_iff : keyBefore v w = true ↔ w.1.utf8ByteSize < v.1.utf8ByteSize ∨
    v.1.utf8ByteSize = w.1.utf8ByteSize ∧ v.1 ≤ w.1 := by
  simp [keyBefore]

theorem keyBefore_trans (h : keyBefore u v = true) (h' : keyBefore v w = true) :
    keyBefore u w = true := by
  rw [keyBefore_iff] at h h' ⊢
  rcases h with h | ⟨h, hl⟩ <;> rcases h' with h' | ⟨h', hl'⟩
  · exact .inl (by omega)
  · exact .inl (by omega)
  · exact .inl (by omega)
  · exact .inr ⟨h.trans h', String.le_trans hl hl'⟩

theorem keyBefore_total (v w : String × Int) : (keyBefore v w || keyBefore w v) = true := by
  rw [Bool.or_eq_true, keyBefore_iff, keyBefore_iff]
  rcases Nat.lt_trichotomy v.1.utf8ByteSize w.1.utf8ByteSize with h | h | h
  · exact .inr (.inl h)
  · exact (String.le_total v.1 w.1).imp (fun hl ↦ .inr ⟨h, hl⟩) fun hl ↦ .inr ⟨h.symm, hl⟩
  · exact .inl (.inl h)

theorem keyBefore_antisymm (h : keyBefore v w = true) (h' : keyBefore w v = true) : v.1 = w.1 := by
  rw [keyBefore_iff] at h h'
  rcases h with h | ⟨h, hl⟩
  · omega
  · rcases h' with h' | ⟨-, hl'⟩
    · omega
    · exact String.le_antisymm hl hl'

theorem eq_of_keyBefore (h : IsReport values) (hv : values.Pairwise (keyBefore · ·))
    (hw : values'.Pairwise (keyBefore · ·)) (hp : values'.Perm values) : values' = values := by
  refine hp.eq_of_pairwise (fun v w hm hm' hvw hwv ↦ ?_) hw hv
  exact List.inj_on_of_nodup_map h.nodup (hp.mem_iff.mp hm) hm' (keyBefore_antisymm hvw hwv)

theorem pairwise_mergeSort_keyBefore (values : List (String × Int)) :
    (values.mergeSort keyBefore).Pairwise (keyBefore · ·) :=
  @List.pairwise_mergeSort _ keyBefore (fun _ _ _ ↦ keyBefore_trans) keyBefore_total values

theorem isReport_mergeSort (h : IsReport values) : IsReport (values.mergeSort keyBefore) :=
  h.perm (List.mergeSort_perm values keyBefore)

theorem substitute_perm (h : IsReport values) (hp : values'.Perm values) :
    substitute values' = substitute values := by
  have hs : (values'.mergeSort keyBefore).Perm (values.mergeSort keyBefore) :=
    ((List.mergeSort_perm values' keyBefore).trans hp).trans
      (List.mergeSort_perm values keyBefore).symm
  funext s
  rw [substitute, substitute, eq_of_keyBefore (isReport_mergeSort h) (pairwise_mergeSort_keyBefore _)
    (pairwise_mergeSort_keyBefore _) hs]

end Source

namespace Binding

variable {b : Binding} {values values' : List (String × Int)} {n : Int} {s : String}

theorem source_notMem (h : IsReport values) (hx : isExpression b.source.toList = true) :
    b.source ∉ values.map Prod.fst := by
  intro hm
  obtain ⟨v, hv, hs⟩ := List.mem_map.mp hm
  obtain ⟨k, n, rfl⟩ := h.known v hv
  rw [← hs, Key.toList_name, Key.isExpression_text] at hx
  cases hx

theorem feed?_of_isExpression (h : IsReport values) (hx : isExpression b.source.toList = true) :
    b.feed? values = if values.any fun v ↦ occurs v.1.toList b.source.toList then
      some (.expression (String.ofList (substitute values b.source.toList))) else none := by
  have hn : ∀ v ∈ values, b.source ≠ v.1 := fun v hv hs ↦
    source_notMem h hx (hs ▸ List.mem_map_of_mem hv)
  rw [feed?, hx]
  generalize String.ofList (substitute values b.source.toList) = text
  clear h
  induction values with
  | nil => rfl
  | cons v values ih =>
    obtain ⟨hv, hn⟩ := List.forall_mem_cons.mp hn
    rw [List.findSome?_cons, if_neg hv, List.any_cons, ih hn]
    cases occurs v.1.toList b.source.toList <;> rfl

theorem feed?_of_not_isExpression (hx : isExpression b.source.toList = false) :
    b.feed? values = (values.lookup b.source).map .value := by
  rw [feed?, hx]
  generalize String.ofList (substitute values b.source.toList) = text
  induction values with
  | nil => rfl
  | cons v values ih =>
    rw [List.findSome?_cons, List.lookup_cons]
    by_cases hv : b.source = v.1
    · rw [if_pos hv, beq_iff_eq.mpr hv]
      rfl
    · rw [if_neg hv, beq_eq_false_iff_ne.mpr hv]
      exact ih

theorem feed?_eq_value_iff (h : IsReport values) :
    b.feed? values = some (.value n) ↔ (b.source, n) ∈ values := by
  cases hx : isExpression b.source.toList with
  | true =>
    rw [feed?_of_isExpression h hx]
    refine ⟨fun hf ↦ ?_, fun hm ↦ absurd (List.mem_map_of_mem hm) (source_notMem h hx)⟩
    split at hf <;> cases hf
  | false =>
    rw [feed?_of_not_isExpression hx, ← h.lookup_eq_some_iff]
    simp

theorem feed?_eq_expression_iff (h : IsReport values) : b.feed? values = some (.expression s) ↔
    isExpression b.source.toList = true ∧ (∃ v ∈ values, HasToken v.1.toList b.source.toList) ∧
      s = String.ofList (substitute values b.source.toList) := by
  have ho : ∀ v ∈ values, occurs v.1.toList b.source.toList = true ↔
      HasToken v.1.toList b.source.toList := by
    intro v hv
    obtain ⟨k, n, rfl⟩ := h.known v hv
    rw [Key.toList_name]
    exact Key.occurs_iff_hasToken
  cases hx : isExpression b.source.toList with
  | true =>
    have hany : (values.any fun v ↦ occurs v.1.toList b.source.toList) = true ↔
        ∃ v ∈ values, HasToken v.1.toList b.source.toList := by
      rw [List.any_eq_true]
      exact exists_congr fun v ↦ and_congr_right fun hv ↦ ho v hv
    rw [feed?_of_isExpression h hx, ← hany]
    split
    case isTrue ho => simp [ho, @eq_comm _ s]
    case isFalse ho => simp [ho]
  | false =>
    rw [feed?_of_not_isExpression hx]
    simp

theorem feed?_perm (h : IsReport values) (hp : values'.Perm values) :
    b.feed? values' = b.feed? values := by
  cases hx : isExpression b.source.toList with
  | true =>
    rw [feed?_of_isExpression h hx, feed?_of_isExpression (h.perm hp) hx, substitute_perm h hp,
      hp.any_eq]
  | false => rw [feed?_of_not_isExpression hx, feed?_of_not_isExpression hx, h.lookup_perm hp]

end Binding

end AlarmPanel
