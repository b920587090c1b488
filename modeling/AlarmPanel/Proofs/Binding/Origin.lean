import AlarmPanel.Line.Session
import AlarmPanel.Proofs.Binding.Dispatching
import AlarmPanel.Proofs.Decimal.Spelling
import AlarmPanel.Proofs.Line.Keeping
import AlarmPanel.Proofs.Reply.Payload

namespace AlarmPanel

open Text Line

/-- What the value of an update is made of. -/
inductive Origin where
  | key (n : Int)
  | outcome (x : Float)
  | polled (r : Reading)
  | output (s : String)

namespace Origin

def value : Origin → Reading
  | key n => .number (Decimal.ofInt n)
  | outcome x => .number x
  | polled r => r
  | output s => .ofText s

/-- It is taken for a number, but is not finite. -/
def IsVoid : Origin → Prop
  | outcome x => x.isFinite = false
  | output s => Decimal.Unbounded (trim s.toList)
  | _ => False

end Origin

namespace Dispatcher

variable (d : Dispatcher)

/-- What an event or a poll has for a binding. -/
inductive Offers (b : Binding) : Origin → Prop
  | key {e : Event} {n : Int} (h : b.feed? e.values = some (.value n)) : Offers b (.key n)
  | outcome {e : Event} {text : String} {x : Float} (h : b.feed? e.values = some (.expression text))
      (hx : d.evaluate text = .ok x) : Offers b (.outcome x)
  | polled {σ : Type} [Transport σ] {timeout : Nat} {p : Poll} {l l' : Line σ} {r : Reading}
      (hp : b.poll = some p) (hr : Session.poll timeout p l = .ok r l') : Offers b (.polled r)

/-- What is left of it behind the transformation of the binding: itself where no service is in charge,
else the text of the service. -/
inductive Leaves (b : Binding) : Origin → Prop
  | plain {o : Origin} (ho : d.Offers b o) (h : b.transformation = none) : Leaves b o
  | unserved {o : Origin} {t : Transformation} (ho : d.Offers b o) (h : b.transformation = some t)
      (hs : d.services t.kind = none) : Leaves b o
  | served {o : Origin} {t : Transformation} {service : Service} {s : String} (ho : d.Offers b o)
      (h : b.transformation = some t) (hs : d.services t.kind = some service)
      (hw : service t.function o.value.display = .ok s) : Leaves b (.output s)

def Makes (o : Origin) (u : Update) : Prop :=
  ∃ b ∈ d.bindings, d.Leaves b o ∧ u = ⟨b.item, o.value⟩

inductive Emits : Update → Prop
  | event {device : String} {e : Event} {u : Update} (h : u ∈ d.dispatch device e) : Emits u
  | poll {σ : Type} [Transport σ] {timeout : Nat} {b : Binding} {p : Poll} {l l' : Line σ}
      {r v : Reading} (hb : (b, p) ∈ d.polled) (hr : Session.poll timeout p l = .ok r l')
      (hv : d.transform b r = .ok v) : Emits ⟨b.item, v⟩

end Dispatcher

variable {d : Dispatcher} {b : Binding} {o : Origin} {u : Update} {e : Event} {r v : Reading}
  {s : String} {n : Int}

def Reading.IsFinite : Reading → Prop
  | number x => x.isFinite = true
  | text _ => True

theorem Reading.isFinite_ofText : (ofText s).IsFinite ↔ ¬ Decimal.Unbounded (trim s.toList) := by
  rw [Decimal.unbounded_iff, ofText]
  cases Decimal.read? (trim s.toList) with
  | none => simp [IsFinite]
  | some x => simp [IsFinite]

theorem Decimal.isFinite_octet (c : UInt8) : (ofInt c.toNat).isFinite = true := by
  have := c.toNat_lt
  exact isFinite_ofInt (by omega)

section

variable {σ : Type} {timeout : Nat} {l l' : Line σ}

theorem Line.of_ofExcept {α : Type} {x : Except PanelError α} {a : α}
    (h : (ofExcept x : LineM σ α) l = .ok a l') : x = .ok a := by
  cases x with
  | ok b =>
    cases h
    rfl
  | error e => cases h

variable [Transport σ]

theorem Session.isFinite_queryInt {c : Command} {own : Option Nat} {radix : Nat} (h0 : 0 < radix)
    (h36 : radix ≤ 36) (h : queryInt timeout c own radix l = .ok n l') :
    (Decimal.ofInt n).isFinite = true := by
  obtain ⟨payload, l₁, -, h⟩ := of_bind_ok h
  obtain ⟨-, hlo, hhi⟩ := (Payload.readInt_eq_ok_iff h0 h36).mp (of_ofExcept h)
  exact Decimal.isFinite_ofInt (by omega)

theorem Session.isFinite_poll {p : Poll} (h : poll timeout p l = .ok r l') : r.IsFinite := by
  cases p with
  | user => cases h
  | areaStatus | zoneStatus | zone =>
    obtain ⟨s, l₁, -, h⟩ := of_bind_ok h
    cases h
    exact Decimal.isFinite_octet _
  | powerState | errorCode =>
    obtain ⟨n, l₁, hn, h⟩ := of_bind_ok h
    cases h
    exact isFinite_queryInt (by decide) (by decide) hn
  | errorMessage =>
    obtain ⟨s, l₁, -, h⟩ := of_bind_ok h
    cases h
    trivial

end

theorem Event.isFinite_of_mem {key : String} (h : (key, n) ∈ e.values) :
    (Decimal.ofInt n).isFinite = true := by
  have hnumber (m : UInt32) : (Decimal.ofInt (number m)).isFinite = true := by
    have := m.toNat_lt
    exact Decimal.isFinite_ofInt (by rw [number]; omega)
  have hcode (a : Action) : (Decimal.ofInt a.code).isFinite = true := by
    have hl : Action.all.idxOf a ≤ Action.all.length := List.idxOf_le_length
    have hn : Action.all.length < 2 ^ 32 := by decide
    exact Decimal.isFinite_ofInt (by rw [Action.code]; omega)
  rw [e.values_perm.mem_iff, entries, List.mem_cons, List.mem_cons, Option.mem_toList] at h
  rcases h with h | h | h
  · cases h
    exact hnumber _
  · cases h
    rw [subjectNumber]
    split <;> exact hnumber _
  · rw [subjectMember?] at h
    split at h
    · obtain ⟨s, -, h⟩ := Option.map_eq_some_iff.mp h
      cases h
      exact Decimal.isFinite_octet _
    · cases h
      exact hcode _
    · cases h

namespace Dispatcher

theorem Offers.isFinite_iff (h : d.Offers b o) : o.value.IsFinite ↔ ¬ o.IsVoid := by
  cases h with
  | key h =>
    have hm := (Binding.feed?_eq_value_iff (Event.isReport_values _)).mp h
    exact iff_of_true (Event.isFinite_of_mem hm) id
  | outcome => simp [Origin.value, Reading.IsFinite, Origin.IsVoid]
  | polled hp hr => exact iff_of_true (Session.isFinite_poll hr) id

theorem Leaves.isFinite_iff (h : d.Leaves b o) : o.value.IsFinite ↔ ¬ o.IsVoid := by
  cases h with
  | plain ho => exact ho.isFinite_iff
  | unserved ho => exact ho.isFinite_iff
  | served => exact Reading.isFinite_ofText

theorem Offers.exists_leaves (h : d.Offers b o) (hv : d.transform b o.value = .ok v) :
    ∃ o', d.Leaves b o' ∧ v = o'.value := by
  rcases transforms_iff.mpr hv with ht | ⟨ht, hs⟩ | ⟨ht, hs, hw⟩
  · exact ⟨o, .plain h ht, rfl⟩
  · exact ⟨o, .unserved h ht hs, rfl⟩
  · exact ⟨_, .served h ht hs hw, rfl⟩

/-- An event's update comes from one binding of the device, and a poll's from the binding polled for. -/
theorem Emits.exists_makes (h : d.Emits u) : ∃ o, d.Makes o u := by
  cases h with
  | @event device e u h =>
    obtain ⟨b, hb, hu⟩ := List.mem_filterMap.mp h
    have hb : b ∈ d.bindings := (List.mem_filter.mp hb).1
    obtain ⟨hi, x, hm, ht⟩ := (updateOf?_eq_some_iff e.isReport_values).mp hu
    obtain ⟨f, hf, hx⟩ := (measures_iff e.isReport_values).mp hm
    obtain ⟨o, hr, ho⟩ : ∃ o : Origin, o.value = .number x ∧ d.Offers b o := by
      cases f with
      | value n =>
        cases hx
        exact ⟨.key n, rfl, .key hf⟩
      | expression text => exact ⟨.outcome x, rfl, .outcome hf hx⟩
    rw [← hr, transforms_iff] at ht
    obtain ⟨o', ho', hv⟩ := ho.exists_leaves ht
    exact ⟨o', b, hb, ho', by rw [← hi, ← hv]⟩
  | @poll _ _ _ b p _ _ r v hb hr hv =>
    obtain ⟨b', hb', hp⟩ := List.mem_filterMap.mp hb
    obtain ⟨q, hq, hp⟩ := Option.map_eq_some_iff.mp hp
    cases hp
    obtain ⟨o, ho, rfl⟩ := Offers.exists_leaves (o := .polled r) (.polled hq hr) hv
    exact ⟨o, b, hb', ho, rfl⟩

end Dispatcher

end AlarmPanel
