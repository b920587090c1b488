import AlarmPanel.Dispatch
import AlarmPanel.Proofs.Binding.Matching

namespace AlarmPanel

namespace Source

inductive WrittenAll : List (String × Int) → List Char → List Char → Prop
  | nil (s : List Char) : WrittenAll [] s s
  | cons {v : String × Int} {values : List (String × Int)} {s t u : List Char} {n : Nat}
      (h : Written v.1.toList (Numeral.signed v.2) none s t n) (ht : WrittenAll values t u) :
    WrittenAll (v :: values) s u

/-- All numbers are written, those of longer keys first. -/
def Substituted (values : List (String × Int)) (s t : List Char) : Prop :=
  ∃ order : List (String × Int), order.Perm values ∧ order.Pairwise (keyBefore · ·) ∧
    WrittenAll order s t

variable {values : List (String × Int)} {s t : List Char}

theorem writtenAll_iff (hv : ∀ v ∈ values, ∃ (k : Key) (n : Nat), v = (k.name, (n : Int))) :
    WrittenAll values s t ↔
      values.foldl (fun s v ↦ replace v.1.toList (Numeral.signed v.2) s) s = t := by
  induction values generalizing s with
  | nil =>
    constructor
    · rintro ⟨⟩
      rfl
    · rintro rfl
      exact .nil s
  | cons v values ih =>
    obtain ⟨⟨k, n, rfl⟩, hl⟩ := List.forall_mem_cons.mp hv
    rw [List.foldl_cons, ← ih hl]
    dsimp only
    rw [Key.toList_name]
    constructor
    · intro h
      cases h with
      | cons h ht =>
        dsimp only at h
        rw [Key.toList_name] at h
        rwa [Key.replace_eq h]
    · intro ht
      obtain ⟨m, h⟩ := k.written_replace (Numeral.signed n) s
      refine .cons (n := m) ?_ ht
      dsimp only
      rwa [Key.toList_name]

theorem substituted_iff (h : IsReport values) : Substituted values s t ↔ substitute values s = t := by
  have hs := isReport_mergeSort h
  have hsorted := pairwise_mergeSort_keyBefore values
  rw [substitute, ← writtenAll_iff hs.known]
  constructor
  · rintro ⟨order, hp, ho, hw⟩
    have hp := hp.trans (List.mergeSort_perm values keyBefore).symm
    rwa [← eq_of_keyBefore hs hsorted ho hp]
  · exact fun hw ↦ ⟨_, List.mergeSort_perm values keyBefore, hsorted, hw⟩

end Source

namespace Dispatcher

open Source

variable (d : Dispatcher)

/-- What a source comes to: the number of the key that it is, or the outcome of the expression that the
event's keys stand in. -/
inductive Measures (values : List (String × Int)) (source : String) : Float → Prop
  | key {n : Int} (h : (source, n) ∈ values) : Measures values source (Decimal.ofInt n)
  | expression {t : List Char} {x : Float} (hk : source ∉ values.map Prod.fst)
      (hx : ∃ c ∈ source.toList, c ∈ operators)
      (ho : ∃ v ∈ values, HasToken v.1.toList source.toList)
      (ht : Substituted values source.toList t) (he : d.evaluate (String.ofList t) = .ok x) :
    Measures values source x

inductive Transforms (b : Binding) (v : Reading) : Reading → Prop
  | plain (h : b.transformation = none) : Transforms b v v
  | unserved {t : Transformation} (h : b.transformation = some t) (hs : d.services t.kind = none) :
    Transforms b v v
  | served {t : Transformation} {service : Service} {s : String} (h : b.transformation = some t)
      (hs : d.services t.kind = some service) (ho : service t.function v.display = .ok s) :
    Transforms b v (.ofText s)

def Yields (values : List (String × Int)) (b : Binding) (u : Update) : Prop :=
  u.item = b.item ∧ ∃ x, d.Measures values b.source x ∧ d.Transforms b (.number x) u.value

variable {d} {values values' : List (String × Int)} {b : Binding} {x : Float} {v v' : Reading}
  {u : Update}

theorem measures_iff (h : IsReport values) : d.Measures values b.source x ↔
    ∃ f, b.feed? values = some f ∧ d.numberOf f = .ok x := by
  constructor
  · rintro (⟨hn⟩ | ⟨hk, hx, ho, ht, he⟩)
    · exact ⟨_, (Binding.feed?_eq_value_iff h).mpr hn, rfl⟩
    · have hx : isExpression b.source.toList = true := by
        simpa [isExpression, List.any_eq_true] using hx
      rw [← (substituted_iff h).mp ht] at he
      exact ⟨_, (Binding.feed?_eq_expression_iff h).mpr ⟨hx, ho, rfl⟩, he⟩
  · rintro ⟨f, hf, hx⟩
    cases f with
    | value n =>
      cases hx
      exact .key ((Binding.feed?_eq_value_iff h).mp hf)
    | expression s =>
      obtain ⟨hop, ho, rfl⟩ := (Binding.feed?_eq_expression_iff h).mp hf
      have hc : ∃ c ∈ b.source.toList, c ∈ operators := by
        simpa [isExpression, List.any_eq_true] using hop
      exact .expression (Binding.source_notMem h hop) hc ho ((substituted_iff h).mpr rfl) hx

theorem transforms_iff : d.Transforms b v v' ↔ d.transform b v = .ok v' := by
  constructor
  · rintro (h | ⟨h, hs⟩ | ⟨h, hs, ho⟩)
    · rw [transform, h]
    · simp only [transform, h, Services.apply, hs]
    · simp only [transform, h, Services.apply, hs, ho]
  · intro h
    rw [transform] at h
    cases ht : b.transformation with
    | none =>
      rw [ht] at h
      cases h
      exact .plain ht
    | some t =>
      simp only [ht, Services.apply] at h
      cases hs : d.services t.kind with
      | none =>
        rw [hs] at h
        cases h
        exact .unserved ht hs
      | some service =>
        simp only [hs] at h
        cases ho : service t.function v.display with
        | error e => simp [ho] at h
        | ok s =>
          simp only [ho] at h
          cases h
          exact .served ht hs ho

theorem updateOf?_eq_some_iff (h : IsReport values) :
    d.updateOf? values b = some u ↔ d.Yields values b u := by
  simp only [Yields, measures_iff h, transforms_iff]
  rw [updateOf?]
  cases hf : b.feed? values with
  | none => simp
  | some f =>
    cases hx : d.numberOf f with
    | error e => simp [Except.bind, hx]
    | ok x =>
      cases hv : d.transform b (.number x) with
      | error e => simp [Except.bind, hx, hv]
      | ok v =>
        obtain ⟨item, value⟩ := u
        simp [Except.bind, hx, hv, eq_comm]

theorem updateOf?_perm (h : IsReport values) (hp : values'.Perm values) :
    d.updateOf? values' = d.updateOf? values := by
  funext b
  rw [updateOf?, updateOf?, Binding.feed?_perm h hp]

theorem dispatch_append (d : Dispatcher) (device : String) (e : Event) (before after : List Binding) :
    { d with bindings := before ++ after }.dispatch device e =
      { d with bindings := before }.dispatch device e ++
        { d with bindings := after }.dispatch device e := by
  simp only [dispatch, List.filter_append, List.filterMap_append]
  rfl

/-- The updates come in the order of the bindings, each of them from one binding of the device and
settled by that alone, in whatever order the keys are gone through. -/
theorem dispatch_reference (d : Dispatcher) (device : String) (e : Event) :
    (∃ update : Binding → Option Update, d.dispatch device e = d.bindings.filterMap update ∧
      ∀ b u, update b = some u ↔ b.device = device ∧ d.Yields e.values b u) ∧
    (∀ before after, { d with bindings := before ++ after }.dispatch device e =
      { d with bindings := before }.dispatch device e ++
        { d with bindings := after }.dispatch device e) ∧
    ∀ values, values.Perm e.values →
      (d.bindings.filter fun b ↦ b.device == device).filterMap (d.updateOf? values) =
        d.dispatch device e := by
  have h := e.isReport_values
  refine ⟨⟨fun b ↦ if b.device = device then d.updateOf? e.values b else none, ?_, fun b u ↦ ?_⟩,
    d.dispatch_append device e, ?_⟩
  · rw [dispatch, List.filterMap_filter]
    simp
  · rw [← updateOf?_eq_some_iff h]
    by_cases hb : b.device = device <;> simp [hb]
  · intro values hp
    rw [dispatch, updateOf?_perm h hp]

def refusing : Dispatcher where
  bindings :=
    [⟨"sum", "panel", "Zone 5 + 1", none, 0, none⟩, ⟨"zone", "panel", "Zone 5", none, 0, none⟩]
  evaluate := fun text ↦ .error (.expression text "refused")

theorem dispatch_reference_refusing :
    refusing.bindings.filterMap (refusing.updateOf? Event.breakIn.values.reverse) =
        refusing.dispatch "panel" Event.breakIn ∧
      ∃ u ∈ refusing.dispatch "panel" Event.breakIn, u.item = "zone" := by
  obtain ⟨⟨update, hu, hy⟩, -, hp⟩ := dispatch_reference refusing "panel" Event.breakIn
  refine ⟨hp _ (List.reverse_perm _), ?_⟩
  have hm : refusing.Measures Event.breakIn.values "Zone 5" (Decimal.ofInt 128) := .key (by decide)
  have hz : update ⟨"zone", "panel", "Zone 5", none, 0, none⟩ =
      some ⟨"zone", .number (Decimal.ofInt 128)⟩ := (hy _ _).mpr ⟨rfl, rfl, _, hm, .plain rfl⟩
  rw [hu]
  exact ⟨_, List.mem_filterMap.mpr ⟨_, List.mem_cons_of_mem _ List.mem_cons_self, hz⟩, rfl⟩

end Dispatcher

end AlarmPanel
