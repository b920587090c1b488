import AlarmPanel.Proofs.Binding.Dispatching
import AlarmPanel.Proofs.Binding.Naming
import AlarmPanel.Proofs.Line.Inquiry

namespace AlarmPanel

open Text Line Payload

variable {e : Event} {n : UInt32} {s : ZoneStatus}

namespace Event

theorem zone_mem_values (hs : e.subject = some (.zone n)) (ha : e.action.zoneStatus? = some s) :
    ((Poll.zone n).name, (s.code.toNat : Int)) ∈ e.values := by
  have hn : (Poll.zone n).name = numberedKey "Zone" n := rfl
  rw [e.values_perm.mem_iff, hn]
  simp [entries, subjectMember?, hs, ha]

theorem user_mem_values (hs : e.subject = some (.user n)) :
    ((Poll.user n).name, (e.action.code : Int)) ∈ e.values := by
  have hn : (Poll.user n).name = numberedKey "User" n := rfl
  rw [e.values_perm.mem_iff, hn]
  simp [entries, subjectMember?, hs]

end Event

namespace Dispatcher

variable {d : Dispatcher} {b : Binding} {values : List (String × Int)}

theorem updateOf?_of_mem (h : IsReport values) {m : Int} (hm : (b.source, m) ∈ values) :
    d.updateOf? values b =
      (d.transform b (.number (Decimal.ofInt m))).toOption.map fun v ↦ ⟨b.item, v⟩ := by
  rw [updateOf?, (Binding.feed?_eq_value_iff h).mpr hm, Option.bind_some, numberOf]
  dsimp only [Except.bind]
  cases d.transform b (.number (Decimal.ofInt m)) <;> rfl

theorem dispatch_cons (d : Dispatcher) (b : Binding) (l : List Binding) (e : Event) :
    { d with bindings := b :: l }.dispatch b.device e =
      (d.updateOf? e.values b).toList ++ { d with bindings := l }.dispatch b.device e := by
  have hu (b' : Binding) :
      { d with bindings := b :: l }.updateOf? e.values b' = d.updateOf? e.values b' := rfl
  have hl : { d with bindings := b :: l }.updateOf? e.values =
      { d with bindings := l }.updateOf? e.values := rfl
  rw [dispatch, List.filter_cons_of_pos (by simp), List.filterMap_cons, dispatch, hu, hl]
  cases d.updateOf? e.values b <;> rfl

end Dispatcher

theorem Session.poll_zone_of_delivers {l l₁ : Line ScriptedLine} {timeout : Nat} {got : List UInt8}
    (ho : ensureOpen l = .ok () l₁) (hp : 0 < l₁.transport.interval) (hd : Delivers timeout l₁ got)
    (ht : Tells 16 (Reply.clean (Utf8.decode got)) s.code.toNat) (n : UInt32) :
    ∃ l₂, Session.poll timeout (.zone n) l = .ok (.number (Decimal.ofInt s.code.toNat)) l₂ := by
  obtain ⟨r, l₂, hr, hj⟩ := StatusTable.ask_of_delivers StatusTable.decodes_zones ho hp n hd
  obtain rfl := (hj.status s).mpr ht
  rw [← StatusTable.ask_eq] at hr
  have hz : Session.zoneStatus timeout n l = .ok s l₂ := hr
  exact ⟨l₂, by rw [Session.poll, bind_of_ok hz]; rfl⟩

structure Poll.ReadsBack (p : Poll) : Prop where
  name : p.name.toList = p.spelled [' ']
  ofName : ∀ before gap after, Blanks before → BlankRun gap → Blanks after →
    Poll.ofName (String.ofList (before ++ (p.spelled gap ++ after))) = .ok p

/-- The names of polls under which an event reports its user and its zone, which bindings to that name
are fed with as if it had been polled. -/
structure Event.FeedsPolls (e : Event) : Prop where
  distinct : (e.entries.map Prod.fst).Nodup ∧ e.values.Perm e.entries
  user : ∀ n, e.subject = some (.user n) → (Poll.user n).name ∈ e.values.map Prod.fst
  zone : ∀ n s, e.subject = some (.zone n) → e.action.zoneStatus? = some s →
    (Poll.zone n).name ∈ e.values.map Prod.fst
  agrees : ∀ n s, e.subject = some (.zone n) → e.action.zoneStatus? = some s →
    ∀ (timeout : Nat) (l l₁ : Line ScriptedLine) (got : List UInt8),
      ensureOpen l = .ok () l₁ → 0 < l₁.transport.interval → Delivers timeout l₁ got →
      Tells 16 (Reply.clean (Utf8.decode got)) s.code.toNat →
      ∃ x l₂, Session.poll timeout (.zone n) l = .ok (.number x) l₂ ∧
        ∀ (d : Dispatcher) (before after : List Binding) (b : Binding), b.source = (Poll.zone n).name →
          { d with bindings := before ++ b :: after }.dispatch b.device e =
            { d with bindings := before }.dispatch b.device e ++
              (((d.transform b (.number x)).toOption.map fun v ↦ ⟨b.item, v⟩).toList ++
                { d with bindings := after }.dispatch b.device e)

/-- One name stands for the same thing where it is polled and where events report it. -/
theorem polls_and_events_agree : (∀ p : Poll, p.ReadsBack) ∧ ∀ e : Event, e.FeedsPolls := by
  refine ⟨fun p ↦ ⟨p.toList_name, fun before gap after hb hg ha ↦ Poll.ofName_spelled hb hg ha p⟩,
    fun e ↦ ?_⟩
  constructor
  case distinct => exact ⟨e.nodup_entries, e.values_perm⟩
  case user => exact fun n hs ↦ List.mem_map_of_mem (Event.user_mem_values hs)
  case zone => exact fun n s hs ha ↦ List.mem_map_of_mem (Event.zone_mem_values hs ha)
  case agrees =>
    intro n s hs ha timeout l l₁ got ho hp hd ht
    obtain ⟨l₂, hl₂⟩ := Session.poll_zone_of_delivers ho hp hd ht n
    refine ⟨_, l₂, hl₂, fun d before after b hb ↦ ?_⟩
    have hm := Event.zone_mem_values hs ha
    rw [← hb] at hm
    have happ := Dispatcher.dispatch_append d b.device e before (b :: after)
    rw [happ, Dispatcher.dispatch_cons, Dispatcher.updateOf?_of_mem e.isReport_values hm]

/-- The alarm of a zone, as an event and in a reply that comes in two parts. -/
theorem polls_and_events_agree_breakIn :
    Poll.ofName "\tZone \t5 " = .ok (.zone 5) ∧
      ∃ x l, Session.poll 150 (.zone 5) (StatusTable.partedStatus false) = .ok (.number x) l ∧
        ∀ (d : Dispatcher) (b : Binding), b.source = "Zone 5" →
          { d with bindings := [b] }.dispatch b.device Event.breakIn =
            ((d.transform b (.number x)).toOption.map fun v ↦ ⟨b.item, v⟩).toList := by
  obtain ⟨hp, he⟩ := polls_and_events_agree
  refine ⟨(hp (.zone 5)).ofName ['\t'] [' ', '\t'] [' '] (blanks_iff_all.mpr rfl)
    ⟨by decide, blanks_iff_all.mpr rfl⟩ (blanks_iff_all.mpr rfl), ?_⟩
  have ho : ensureOpen (StatusTable.partedStatus false) = .ok () (StatusTable.partedStatus true) := rfl
  obtain ⟨x, l, hx, hd⟩ := (he Event.breakIn).agrees 5 .alarm rfl rfl 150 _ _ _ ho (by decide)
    StatusTable.delivers_parted StatusTable.tells_parted
  refine ⟨x, l, hx, fun d b hb ↦ ?_⟩
  have hn : { d with bindings := [] }.dispatch b.device Event.breakIn = [] := rfl
  simpa only [hn, List.nil_append, List.append_nil] using hd d [] [] b hb

end AlarmPanel
