import AlarmPanel.Message
import AlarmPanel.Proofs.Binding.Feeding
import AlarmPanel.Proofs.Binding.Origin
import AlarmPanel.Proofs.Bridge.Acknowledging
import AlarmPanel.Proofs.Bridge.Refreshing

namespace AlarmPanel

open Text Line

def Json.member? (name : String) : Json → Option Json
  | object l => l.lookup name
  | _ => none

/-- A text for a text, and a number for that number. -/
def Json.Carries : Json → Reading → Prop
  | float x, .number y => x = y ∧ x.isFinite = true
  | text s, .text t => s = t
  | _, _ => False

namespace Update

variable (u : Update) (now : Nat)

def published? : Option Json :=
  ((Message.update u).toJson now).member? "value"

def IsCarried : Prop :=
  ∃ j, u.published? now = some j ∧ j.Carries u.value

end Update

variable {d : Dispatcher} {u u' : Update} {now now' : Nat} {r v : Reading}

namespace Update

theorem isCarried_iff : u.IsCarried now ↔ u.value.IsFinite := by
  have hp : u.published? now = some (Message.reading u.value) := rfl
  rw [IsCarried, hp]
  cases u.value with
  | text s => simp [Message.reading, Json.Carries, Reading.IsFinite]
  | number x =>
    cases hx : x.isFinite <;> simp [Message.reading, Json.ofFloat, Json.Carries, Reading.IsFinite, hx]

theorem published?_of_not_isFinite (h : ¬ u.value.IsFinite) : u.published? now = some .null := by
  have hp : u.published? now = some (Message.reading u.value) := rfl
  rw [hp]
  revert h
  cases u.value with
  | text s => exact fun h ↦ absurd trivial h
  | number x => exact fun h ↦ congrArg some (if_neg h)

end Update

theorem Reading.eq_of_published (h : r.IsFinite) (he : Message.reading r = Message.reading v) :
    r = v := by
  cases r with
  | text s =>
    cases v with
    | text t => exact congrArg text (Json.text.inj he)
    | number y =>
      rw [Message.reading, Message.reading, Json.ofFloat] at he
      split_ifs at he
  | number x =>
    have hx : Message.reading (number x) = .float x := if_pos h
    rw [hx] at he
    cases v with
    | text t => cases he
    | number y =>
      rw [Message.reading, Json.ofFloat] at he
      split_ifs at he
      exact congrArg number (Json.float.inj he)

namespace Bridge

variable {b : Bridge} {o : Option Message}

/-- The updates that the client was handed. -/
def updates (b : Bridge) : List Update :=
  b.posted.filterMap Message.update?

theorem updates_publish_update (u : Update) :
    (b.publish (.update u)).updates = b.updates ++ [u] := by
  have hp : (b.publish (.update u)).posted = b.posted ++ [.update u] :=
    posted_publishAny (some (.update u))
  rw [updates, hp, List.filterMap_append]
  rfl

theorem updates_publishAny (ho : o.bind Message.update? = none) :
    (b.publishAny o).updates = b.updates := by
  have hn : o.toList.filterMap Message.update? = [] := by
    cases o with
    | none => rfl
    | some m => exact List.filterMap_cons_none ho
  rw [updates, posted_publishAny, List.filterMap_append, hn, List.append_nil, updates]

end Bridge

namespace Desk

open Bridge

variable {s s' : Desk} {m : Move} {e : Errand} {lives : List Life}

/-- What is published, or is about to be, are updates by events and polls. -/
structure Draws (d : Dispatcher) (s : Desk) : Prop extends Rounds d s where
  chosen : ∀ x, s.chosen = some x → x ∈ d.polled
  errands : ∀ b p, .poll b p ∈ s.tasks.map Task.errand → (b, p) ∈ d.polled
  outbox : ∀ u ∈ s.outbox, d.Emits u
  updates : ∀ u ∈ s.bridge.updates, d.Emits u

theorem draws_start (d : Dispatcher) (c : Client) : Draws d (start d c) where
  dispatcher := rfl
  agenda := List.nil_suffix
  chosen _ h := by cases h
  errands _ _ h := by cases h
  outbox _ h := by cases h
  updates _ h := by cases h

theorem Draws.concat (hs : Draws d s) (hr : Rounds d s') (hc : s'.chosen = s.chosen)
    (he : s'.tasks.map Task.errand = s.tasks.map Task.errand ++ [e])
    (hp : ∀ b p, e = .poll b p → (b, p) ∈ d.polled) (ho : s'.outbox = s.outbox)
    (hu : s'.bridge.updates = s.bridge.updates) : Draws d s' where
  toRounds := hr
  chosen := hc ▸ hs.chosen
  errands b p h := by
    rw [he] at h
    rcases List.mem_append.mp h with h | h
    · exact hs.errands b p h
    · exact hp b p (List.mem_singleton.mp h).symm
  outbox := ho ▸ hs.outbox
  updates := hu ▸ hs.updates

theorem put_frame (s : Desk) (e : Errand) (id : String) (q : Request) :
    (s.put e id q).chosen = s.chosen ∧ (s.put e id q).outbox = s.outbox ∧
      (s.put e id q).bridge.updates = s.bridge.updates := by
  unfold put
  split
  case h_1 r _ => exact ⟨rfl, rfl, updates_publishAny (update?_of_outcome_error s.bridge r e)⟩
  case h_2 => exact ⟨rfl, rfl, rfl⟩

theorem begin_frame (s : Desk) (e : Errand) : (s.begin e).chosen = s.chosen ∧
    (s.begin e).outbox = s.outbox ∧ (s.begin e).bridge.updates = s.bridge.updates := by
  unfold begin
  split
  case h_1 o ho => exact ⟨rfl, rfl, updates_publishAny (update?_of_onset ho)⟩
  case h_2 id q _ => exact put_frame s e id q

theorem Draws.put {id : String} {q : Request} (hs : Draws d s)
    (hp : ∀ b p, e = .poll b p → (b, p) ∈ d.polled) : Draws d (s.put e id q) := by
  obtain ⟨hc, ho, hu⟩ := put_frame s e id q
  exact hs.concat hs.toRounds.put hc (errands_put s e id q) hp ho hu

theorem Draws.begin (hs : Draws d s) (hp : ∀ b p, e = .poll b p → (b, p) ∈ d.polled) :
    Draws d (s.begin e) := by
  obtain ⟨hc, ho, hu⟩ := begin_frame s e
  exact hs.concat (hs.toRounds.begin e) hc (errands_begin s e) hp ho hu

theorem Draws.weigh {b : Binding} {p : Poll} (hs : Draws d s) (hp : (b, p) ∈ d.polled) :
    Draws d (s.weigh b p) := by
  have hr := hs.toRounds.weigh b p
  unfold Desk.weigh at hr ⊢
  split
  case h_1 o h =>
    rw [h] at hr
    refine hs.concat hr rfl (List.map_append ..) (fun _ _ h ↦ ?_) rfl rfl
    cases h
    exact hp
  case h_2 id q h =>
    rw [h] at hr
    refine ⟨hr, fun x hx ↦ ?_, hs.errands, hs.outbox, hs.updates⟩
    cases hx
    exact hp

theorem poll_of_answer (hb : Books s lives) {k i n : Nat} {b : Binding} {p : Poll}
    (hk : s.tasks[k]? = some ⟨.poll b p, .asked i n⟩)
    (ha : s.bridge.hub.answerTo? i n = some (.ok r)) :
    ∃ timeout, ∃ l l' : Line Link, Session.poll timeout p l = .ok r l' := by
  obtain ⟨l, q, hq, ⟨x, -, hx, ho⟩ | h | h⟩ := hb.outcome_of_answerTo? hk ha
  · cases hq
    have hw : Worker.answer? (.poll p) x.worker = some (.ok r) := by
      rw [← ho, Exchange.outcome?, hx]
    exact Worker.perform_of_serve (Worker.serve_of_answer?_ok hw)
  · cases h
  · cases h

theorem Draws.conclude {k i n : Nat} {a : Except PanelError Reading} (hb : Books s lives)
    (hs : Draws d s) (hk : s.tasks[k]? = some ⟨e, .asked i n⟩)
    (ha : s.bridge.hub.answerTo? i n = some a) :
    Draws d { s.issue .polls (s.bridge.outcome a e) with
      tasks := s.tasks.set k ⟨e, .answered i n a⟩ } := by
  have hmap := map_set_of_eq (f := Task.errand) (y := ⟨e, .answered i n a⟩) hk rfl
  have hr : Rounds d { s.issue .polls (s.bridge.outcome a e) with
      tasks := s.tasks.set k ⟨e, .answered i n a⟩ } := hs.toRounds.congr (by simp) (by simp)
  refine ⟨hr, chosen_issue.symm ▸ hs.chosen, hmap ▸ hs.errands, outbox_issue.symm ▸ hs.outbox,
    fun u hu ↦ ?_⟩
  rw [bridge_issue] at hu
  rcases outcome_cases s.bridge a e with ho | ⟨b, p, v, rfl, hv, ho⟩
  · rw [updates_publishAny ho] at hu
    exact hs.updates u hu
  · rw [ho] at hu
    have hm : u ∈ s.bridge.updates ++ [⟨b.item, v⟩] := updates_publish_update (b := s.bridge) _ ▸ hu
    rcases List.mem_append.mp hm with hm | hm
    · exact hs.updates u hm
    · cases List.mem_singleton.mp hm
      cases a with
      | error x => cases hv
      | ok r =>
        obtain ⟨timeout, l, l', hx⟩ := poll_of_answer hb hk ha
        have hpoll := hs.errands b p (List.mem_map_of_mem (List.mem_of_getElem? hk))
        exact .poll hpoll hx (hs.dispatcher ▸ hv)

theorem Draws.does (hb : Books s lives) (hs : Draws d s) (hd : s.Does m s') : Draws d s' := by
  have hr := hs.toRounds.does hd
  cases hd with
  | nothing | tick | note | happen | enter | assign | pass =>
    exact ⟨hr, hs.chosen, hs.errands, hs.outbox, hs.updates⟩
  | order => exact hs.begin fun _ _ h ↦ by cases h
  | @consider b p l hl =>
    have hp : (b, p) ∈ d.polled := hs.agenda.subset (hl ▸ List.mem_cons_self)
    have hs' : Draws d { s with agenda := l } :=
      ⟨⟨hs.dispatcher, (List.suffix_cons _ l).trans (hl ▸ hs.agenda)⟩, hs.chosen, hs.errands,
        hs.outbox, hs.updates⟩
    exact hs'.weigh hp
  | @put b p hc =>
    have hs' : Draws d { s with chosen := none } :=
      ⟨hs.toRounds.congr rfl rfl, fun _ h ↦ (by cases h), hs.errands, hs.outbox, hs.updates⟩
    refine hs'.put fun _ _ h ↦ ?_
    cases h
    exact hs.chosen _ hc
  | conclude hk ha => exact hs.conclude hb hk ha
  | relay n =>
    refine ⟨hr, hs.chosen, hs.errands, fun u hu ↦ ?_, fun u hu ↦ ?_⟩
    · dsimp only [updatesBy] at hu
      split at hu
      · exact .event (hs.dispatcher ▸ hu)
      all_goals cases hu
    · rw [announce, updates_publishAny (update?_ofNotice? n)] at hu
      exact hs.updates u hu
  | @deliver u l hl =>
    obtain ⟨hu, hrest⟩ := List.forall_mem_cons.mp (hl ▸ hs.outbox)
    refine ⟨hr, chosen_issue.symm ▸ hs.chosen, tasks_issue.symm ▸ hs.errands, hrest, ?_⟩
    have hup : (s.issue .events (some (.update u))).bridge.updates = s.bridge.updates ++ [u] :=
      updates_publish_update u
    rw [hup]
    exact List.forall_mem_append.mpr ⟨hs.updates, List.forall_mem_singleton.mpr hu⟩

theorem draws_run (d : Dispatcher) (c : Client) (moves : List Move) :
    Draws d ((start d c).run moves) := by
  have hrun : (∃ lives, Books ((start d c).run moves) lives) ∧ Draws d ((start d c).run moves) :=
    run_induction (p := fun s ↦ (∃ lives, Books s lives) ∧ Draws d s)
      ⟨⟨[], Books.start d c⟩, draws_start d c⟩
      (fun _ _ _ hd ⟨⟨_, hb⟩, hs⟩ ↦ ⟨hb.does hd, hs.does hb hd⟩) moves
  exact hrun.2

end Desk

structure Dispatcher.Publishes (d : Dispatcher) (u : Update) (now : Nat) : Prop where
  origin : ∃ o, d.Makes o u
  carried : ∀ o, d.Makes o u → ¬ o.IsVoid → u.IsCarried now
  null : ∀ o, d.Makes o u → o.IsVoid → u.published? now = some .null
  alone : ∀ (u' : Update) (now' : Nat), u.IsCarried now →
    u.published? now = u'.published? now' → u.value = u'.value

/-- The value of an update stands in its message, and no other value is published like it, except for
numbers that are not finite. In their place stands null, and they can only be outcomes of expressions and
texts of services. Whatever a bridge does, it publishes no updates but those of events and polls. -/
theorem Desk.updates_exact (d : Dispatcher) :
    (∀ u now, d.Emits u → d.Publishes u now) ∧
      ∀ c moves, ∀ u ∈ ((start d c).run moves).bridge.updates, d.Emits u := by
  refine ⟨fun u now h ↦ ?_, fun c moves ↦ (draws_run d c moves).updates⟩
  constructor
  case origin => exact h.exists_makes
  case carried =>
    rintro o ⟨b, -, ho, rfl⟩ hv
    exact Update.isCarried_iff.mpr (ho.isFinite_iff.mpr hv)
  case null =>
    rintro o ⟨b, -, ho, rfl⟩ hv
    exact Update.published?_of_not_isFinite fun hn ↦ ho.isFinite_iff.mp hn hv
  case alone =>
    intro u' now' hc he
    exact Reading.eq_of_published (Update.isCarried_iff.mp hc) (Option.some.inj he)

namespace Dispatcher

def mappedZone : Binding where
  item := "zone"
  device := "panel"
  source := "Zone 5"
  transformation := some ⟨"MAP", "states"⟩

def mapped (s : String) : Dispatcher where
  bindings := [mappedZone]
  services := fun _ ↦ some fun _ _ ↦ .ok s

theorem makes_mapped (s : String) : (mapped s).Makes (.output s) ⟨"zone", .ofText s⟩ := by
  have hf := (Binding.feed?_eq_value_iff (b := mappedZone) (Event.isReport_values .breakIn)).mpr
    (show ("Zone 5", 128) ∈ Event.breakIn.values by decide)
  exact ⟨mappedZone, List.mem_singleton_self _, .served (.key hf) rfl rfl rfl, rfl⟩

theorem dispatch_mapped (s : String) :
    (mapped s).dispatch "panel" .breakIn = [⟨"zone", .ofText s⟩] := by
  have hm : (mappedZone.source, (128 : Int)) ∈ Event.breakIn.values := by decide
  have hu := updateOf?_of_mem (d := mapped s) Event.breakIn.isReport_values hm
  have hd := dispatch_cons (mapped s) mappedZone [] .breakIn
  rw [hu] at hd
  exact hd

end Dispatcher

namespace Desk

open Dispatcher

theorem updates_mapped (s : String) : ⟨"zone", .ofText s⟩ ∈
    ((start (mapped s) {}).run [.relay ⟨"panel", .event .breakIn⟩, .deliver]).bridge.updates := by
  have hr : (start (mapped s) {}).step (.relay ⟨"panel", .event .breakIn⟩) =
      { start (mapped s) {} with
        bridge := (start (mapped s) {}).bridge.announce ⟨"panel", .event .breakIn⟩
        outbox := [⟨"zone", .ofText s⟩] } := by
    rw [← dispatch_mapped s]
    rfl
  rw [run, List.foldl_cons, hr, List.foldl_cons, step_deliver rfl rfl]
  exact Bridge.updates_publish_update _ ▸ List.mem_append_right _ (List.mem_singleton_self _)

/-- The bridge publishes null for what lies beyond the range, and a number for what lies within. -/
theorem updates_exact_mapped :
    (⟨"zone", .ofText "-1e400"⟩ : Update).published? 0 = some .null ∧
      (⟨"zone", .ofText " 1.797e+308 "⟩ : Update).IsCarried 0 := by
  obtain ⟨hnull, hn⟩ := updates_exact (mapped "-1e400")
  obtain ⟨hcarried, hc⟩ := updates_exact (mapped " 1.797e+308 ")
  have hv : Decimal.Unbounded (trim "-1e400".toList) := by decide +kernel
  have hf : ¬ Decimal.Unbounded (trim " 1.797e+308 ".toList) := by decide +kernel
  exact ⟨(hnull _ 0 (hn _ _ _ (updates_mapped _))).null _ (makes_mapped _) hv,
    (hcarried _ 0 (hc _ _ _ (updates_mapped _))).carried _ (makes_mapped _) hf⟩

/-- A service that writes inf makes an update without a value. -/
theorem not_isCarried_mapped :
    ¬ ∀ (d : Dispatcher) (u : Update) (now : Nat), d.Emits u → u.IsCarried now := by
  intro h
  have hu : (⟨"zone", .ofText "inf"⟩ : Update) ∈ (mapped "inf").dispatch "panel" .breakIn := by
    rw [dispatch_mapped]
    exact List.mem_singleton_self _
  have hv : Decimal.Unbounded (trim "inf".toList) := by decide +kernel
  have hc := h (mapped "inf") _ 0 (.event hu)
  exact Reading.isFinite_ofText.mp (Update.isCarried_iff.mp hc) hv

end Desk

end AlarmPanel
