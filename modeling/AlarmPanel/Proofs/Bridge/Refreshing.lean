import AlarmPanel.Proofs.Binding.Dispatching
import AlarmPanel.Proofs.Bridge.Journal

namespace AlarmPanel

variable {journal : List Posting} {item device : String}

/-- Each update of the item was noted in the instant in which it was published. -/
def Prompt (journal : List Posting) (item : String) : Prop :=
  ∀ e ∈ journal, e.item = item → e.noted = some e.time

namespace Dispatcher

variable {d : Dispatcher} {b : Binding} {before after : List Binding} {e : Event}

/-- The binding is fed, but its expression or its transformation fails. -/
def Fails (d : Dispatcher) (values : List (String × Int)) (b : Binding) : Prop :=
  ∃ f r, b.feed? values = some f ∧
    (d.numberOf f).bind (fun x ↦ d.transform b (.number x)) = .error r

/-- Such a binding counts for nothing. -/
theorem dispatch_of_fails (hd : d.bindings = before ++ b :: after) (hf : d.Fails e.values b) :
    d.dispatch device e = { d with bindings := before ++ after }.dispatch device e := by
  obtain ⟨f, r, hf, hr⟩ := hf
  have hnone : d.updateOf? e.values b = none := by
    rw [updateOf?, hf, Option.bind_some]
    simp only [hr]
  have hu : { d with bindings := before ++ after }.updateOf? e.values = d.updateOf? e.values := rfl
  rw [dispatch, dispatch, hu, hd, List.filter_append, List.filter_append, List.filterMap_append,
    List.filterMap_append, List.filter_cons]
  split
  · rw [List.filterMap_cons_none hnone]
  · rfl

end Dispatcher

/-- No update of the item was published within the interval. -/
def Bridge.Unpublished (b : Bridge) (item : String) (interval : Nat) : Prop :=
  ∀ p ∈ b.posts, p.taken = true → p.isUpdateOf item = true → interval ≤ b.hub.clock - p.time

namespace Desk

open Bridge

variable {s s' : Desk} {m : Move} {lives : List Life}

theorem Tracks.filter_posts (ht : Tracks journal s) (item : String) :
    (s.bridge.posts.filter fun p ↦ p.taken && p.isUpdateOf item) =
      (journal.filter fun e ↦ e.taken && e.item == item).map Posting.post := by
  have hj := congrArg (List.filter fun p ↦ p.taken && p.isUpdateOf item) ht.posts
  have hp (p : Post) : (p.isUpdate && (p.taken && p.isUpdateOf item)) =
      (p.taken && p.isUpdateOf item) := by
    unfold Post.isUpdate Post.isUpdateOf
    cases p.message.update? <;> simp
  rw [List.filter_filter, List.filter_map] at hj
  simp only [Bool.and_comm _ (Post.isUpdate _), hp] at hj
  exact hj

theorem Tracks.lastUpdate?_eq_some_iff (ht : Tracks journal s) {t : Nat} :
    s.bridge.lastUpdate? item = some t ↔
      (∃ e ∈ journal, e.item = item ∧ e.taken = true ∧ e.time = t) ∧
        ∀ e ∈ journal, e.item = item → e.taken = true → e.time ≤ t := by
  have hm (t' : Nat) : t' ∈ (((journal.filter fun e ↦ e.taken && e.item == item).map Posting.post).map
      Post.time) ↔ ∃ e ∈ journal, e.item = item ∧ e.taken = true ∧ e.time = t' := by
    simp only [List.map_map, List.mem_map, List.mem_filter, Bool.and_eq_true, beq_iff_eq]
    exact exists_congr fun e ↦ ⟨fun ⟨⟨h, ht, hi⟩, ht'⟩ ↦ ⟨h, hi, ht, ht'⟩,
      fun ⟨h, hi, ht, ht'⟩ ↦ ⟨⟨h, ht, hi⟩, ht'⟩⟩
  rw [lastUpdate?, ht.filter_posts, List.max?_eq_some_iff]
  simp only [hm]
  refine and_congr_right fun _ ↦ ⟨fun h e he hi hk ↦ h _ ⟨e, he, hi, hk, rfl⟩, ?_⟩
  rintro h t' ⟨e, he, hi, hk, rfl⟩
  exact h e he hi hk

theorem Tracks.lastUpdate?_eq_none_iff (ht : Tracks journal s) :
    s.bridge.lastUpdate? item = none ↔ ∀ e ∈ journal, e.item = item → e.taken = false := by
  rw [lastUpdate?, ht.filter_posts, List.max?_eq_none_iff]
  simp only [List.map_eq_nil_iff, List.filter_eq_nil_iff, Bool.and_eq_true, beq_iff_eq, not_and,
    Bool.eq_false_iff]
  exact forall₂_congr fun e _ ↦ ⟨fun h hi hk ↦ h hk hi, fun h hk hi ↦ h hi hk⟩

/-- Where updates are noted at once, the tracker tells when the last update was published exactly if
after each update that the client refused it took another one. -/
theorem Tracks.last?_eq_iff (ht : Tracks journal s) (hp : Prompt journal item) :
    s.bridge.tracker.last? item = s.bridge.lastUpdate? item ↔
      ∀ e ∈ journal, e.item = item → e.taken = false →
        ∃ e' ∈ journal, e'.item = item ∧ e'.taken = true ∧ e.time ≤ e'.time := by
  rw [ht.last]
  constructor
  · intro h e he hi _
    cases hl : lastNoted? journal item with
    | none =>
      have hn := lastNoted?_eq_none_iff.mp hl e he hi
      cases hn.symm.trans (hp e he hi)
    | some t =>
      obtain ⟨⟨e', he', hi', hk, rfl⟩, -⟩ := ht.lastUpdate?_eq_some_iff.mp (h.symm.trans hl)
      exact ⟨e', he', hi', hk, (lastNoted?_eq_some_iff.mp hl).2 e he hi _ (hp e he hi)⟩
  · intro h
    cases hl : lastNoted? journal item with
    | none =>
      refine (ht.lastUpdate?_eq_none_iff.mpr fun e he hi ↦ ?_).symm
      have hn := lastNoted?_eq_none_iff.mp hl e he hi
      cases hn.symm.trans (hp e he hi)
    | some t =>
      obtain ⟨⟨e, he, hi, hn⟩, hmax⟩ := lastNoted?_eq_some_iff.mp hl
      obtain rfl : e.time = t := Option.some.inj ((hp e he hi).symm.trans hn)
      have hle (e' : Posting) (he' : e' ∈ journal) (hi' : e'.item = item) : e'.time ≤ e.time :=
        hmax e' he' hi' _ (hp e' he' hi')
      refine (ht.lastUpdate?_eq_some_iff.mpr ⟨?_, fun e' he' hi' _ ↦ hle e' he' hi'⟩).symm
      -- where the client refused the last update, the one that it took since came in the same instant
      cases hk : e.taken with
      | true => exact ⟨e, he, hi, hk, rfl⟩
      | false =>
        obtain ⟨e', he', hi', hk', ht'⟩ := h e he hi hk
        exact ⟨e', he', hi', hk', Nat.le_antisymm (hle e' he' hi') ht'⟩

theorem Tracks.onset_poll_iff (ht : Tracks journal s) (b : Binding) (p : Poll) :
    s.bridge.onset (.poll b p) = .request b.device (.poll p) ↔
      Overdue journal b.item b.refresh s.bridge.hub.clock := by
  rw [← Tracker.isDue_iff (ht.last b.item), onset]
  split
  case isTrue hd => exact iff_of_true rfl hd
  case isFalse hd => exact iff_of_false (fun h ↦ by cases h) hd

theorem Tracks.unpublished_iff (ht : Tracks journal s) (item : String) (interval : Nat) :
    s.bridge.Unpublished item interval ↔ ∀ e ∈ journal, e.item = item → e.taken = true →
      interval ≤ s.bridge.hub.clock - e.time := by
  have hm (p : Post) : (p ∈ s.bridge.posts ∧ p.taken = true ∧ p.isUpdateOf item = true) ↔
      ∃ e ∈ journal, (e.taken = true ∧ e.item = item) ∧ e.post = p := by
    have hp : p ∈ s.bridge.posts.filter (fun p ↦ p.taken && p.isUpdateOf item) ↔
        p ∈ (journal.filter fun e ↦ e.taken && e.item == item).map Posting.post := by
      rw [ht.filter_posts]
    simpa only [List.mem_filter, List.mem_map, Bool.and_eq_true, beq_iff_eq, and_assoc] using hp
  constructor
  · intro h e he hi hk
    obtain ⟨hp, ht, hu⟩ := (hm e.post).mpr ⟨e, he, ⟨hk, hi⟩, rfl⟩
    exact h _ hp ht hu
  · intro h p hp hk hu
    obtain ⟨e, he, ⟨hk, hi⟩, rfl⟩ := (hm p).mp ⟨hp, hk, hu⟩
    exact h e he hi hk

/-- Where updates are noted at once, a poll is due for want of a published update exactly if no refused
update is the only one of its interval. -/
theorem Tracks.due_iff (ht : Tracks journal s) {b : Binding} (p : Poll) (hp : Prompt journal b.item) :
    (s.bridge.onset (.poll b p) = .request b.device (.poll p) ↔
      s.bridge.Unpublished b.item b.refresh) ↔
    ∀ e ∈ journal, e.item = b.item → s.bridge.hub.clock - e.time < b.refresh →
      ∃ e' ∈ journal, e'.item = b.item ∧ e'.taken = true ∧
        s.bridge.hub.clock - e'.time < b.refresh := by
  rw [ht.onset_poll_iff, ht.unpublished_iff]
  constructor
  · intro h e he hi hlt
    by_contra hno
    have hu : ∀ e ∈ journal, e.item = b.item → e.taken = true →
        b.refresh ≤ s.bridge.hub.clock - e.time := fun e he hi hk ↦
      Nat.not_lt.mp fun hlt ↦ hno ⟨e, he, hi, hk, hlt⟩
    have hle := h.mpr hu e he hi e.time (hp e he hi)
    omega
  · intro h
    refine ⟨fun hd e he hi _ ↦ hd e he hi e.time (hp e he hi), fun hu e he hi t ht ↦ ?_⟩
    obtain rfl : e.time = t := Option.some.inj ((hp e he hi).symm.trans ht)
    refine Nat.not_lt.mp fun hlt ↦ ?_
    obtain ⟨e', he', hi', hk, hlt'⟩ := h e he hi hlt
    have hle := hu e' he' hi' hk
    omega

/-- If a poll is due though an update of its item was published within the interval, then that has yet
to be noted. -/
theorem Tracks.unnoted_of_due (ht : Tracks journal s) {b : Binding} {p : Poll}
    (hd : s.bridge.onset (.poll b p) = .request b.device (.poll p)) {e : Posting} (he : e ∈ journal)
    (hi : e.item = b.item) (hlt : s.bridge.hub.clock - e.time < b.refresh) :
    s.unnoted e.clerk = some b.item := by
  refine (ht.unnoted e.clerk b.item).mpr ⟨e, he, rfl, ?_, hi⟩
  cases hn : e.noted with
  | none => rfl
  | some t =>
    have hle := (ht.onset_poll_iff b p).mp hd e he hi t hn
    have htime := ((ht.past e he).2 t hn).1
    omega

/-- What is left of a round are its last polls, and bindings stay as they are. -/
structure Rounds (d : Dispatcher) (s : Desk) : Prop where
  dispatcher : s.bridge.dispatcher = d
  agenda : s.agenda <:+ d.polled

variable {d : Dispatcher}

theorem Rounds.congr (hr : Rounds d s) (hd : s'.bridge.dispatcher = s.bridge.dispatcher)
    (ha : s'.agenda = s.agenda) : Rounds d s' :=
  ⟨hd.trans hr.dispatcher, ha ▸ hr.agenda⟩

theorem Rounds.put {e : Errand} {id : String} {q : Request} (hr : Rounds d s) :
    Rounds d (s.put e id q) := by
  unfold Desk.put
  split
  · exact hr.congr (dispatcher_publishAny _) rfl
  · exact hr.congr rfl rfl

theorem Rounds.begin (hr : Rounds d s) (e : Errand) : Rounds d (s.begin e) := by
  unfold Desk.begin
  split
  · exact hr.congr (dispatcher_publishAny _) rfl
  · exact hr.put

theorem Rounds.weigh (hr : Rounds d s) (b : Binding) (p : Poll) : Rounds d (s.weigh b p) := by
  unfold Desk.weigh
  split <;> exact hr.congr rfl rfl

theorem Rounds.does (hr : Rounds d s) (hd : s.Does m s') : Rounds d s' := by
  cases hd with
  | order => exact hr.begin _
  | tick => exact ⟨hr.dispatcher, hr.dispatcher ▸ List.suffix_rfl⟩
  | @consider b p l hl =>
    have hr' : Rounds d { s with agenda := l } :=
      ⟨hr.dispatcher, (List.suffix_cons _ l).trans (hl ▸ hr.agenda)⟩
    exact hr'.weigh b p
  | put =>
    have hr' : Rounds d { s with chosen := none } := hr.congr rfl rfl
    exact hr'.put
  | conclude | deliver => exact hr.congr (by simp) (by simp)
  | relay n => exact hr.congr (dispatcher_publishAny _) rfl
  | nothing | note | happen | enter | assign | pass => exact hr.congr rfl rfl

/-- What becomes of polls, the journal of updates being so far. -/
structure Polls (d : Dispatcher) (journal : List Posting) (s : Desk) : Prop extends Rounds d s where
  alone : s.pending ≤ 1
  /-- A binding is chosen when it is considered if its item is overdue, and else its poll is over. -/
  considered : ∀ b p rest, s.agenda = (b, p) :: rest → s.isPolling = false →
    (s.step .consider).bridge = s.bridge ∧
      (Overdue journal b.item b.refresh s.bridge.hub.clock →
        (s.step .consider).chosen = some (b, p) ∧ (s.step .consider).tasks = s.tasks) ∧
      (¬ Overdue journal b.item b.refresh s.bridge.hub.clock →
        (s.step .consider).chosen = none ∧
          (s.step .consider).tasks = s.tasks ++ [⟨.poll b p, .ended⟩])
  put : ∀ b p, s.chosen = some (b, p) → ∀ i, s.bridge.hub.place? b.device = some i →
    (s.step .put).bridge = { s.bridge with hub := s.bridge.hub.change i (·.submit (.poll p)) } ∧
      (s.step .put).tasks = s.tasks ++ [⟨.poll b p, .asked i (s.bridge.hub.issued i)⟩]
  unknown : ∀ b p, s.chosen = some (b, p) → s.bridge.hub.place? b.device = none →
    (s.step .put).bridge = s.bridge ∧ (s.step .put).tasks = s.tasks ++ [⟨.poll b p, .ended⟩]
  answered : ∀ k b p i n a, s.tasks[k]? = some ⟨.poll b p, .asked i n⟩ →
    s.bridge.hub.answerTo? i n = some a → ∀ v, a.bind (d.transform b) = .ok v →
      (s.step (.conclude k)).bridge = s.bridge.publish (.update ⟨b.item, v⟩) ∧
        (s.step (.conclude k)).unnoted .polls = some b.item
  failed : ∀ k b p i n a, s.tasks[k]? = some ⟨.poll b p, .asked i n⟩ →
    s.bridge.hub.answerTo? i n = some a →
    (∃ r, a.bind (d.transform b) = .error r) ∨ p.command? = none →
      (s.step (.conclude k)).bridge = s.bridge ∧ (s.step (.conclude k)).unnoted = s.unnoted

/-- What becomes of the updates by an event. -/
structure Relays (d : Dispatcher) (s : Desk) : Prop where
  relayed : ∀ device e, s.outbox = [] → s.unnoted .events = none →
    (s.step (.relay ⟨device, .event e⟩)).outbox = d.dispatch device e ∧
      (s.step (.relay ⟨device, .event e⟩)).bridge = s.bridge.publish (.event device e)
  failed : ∀ device e before b after, d.bindings = before ++ b :: after → d.Fails e.values b →
    d.dispatch device e = { d with bindings := before ++ after }.dispatch device e
  delivered : ∀ u rest, s.outbox = u :: rest → s.unnoted .events = none →
    (s.step .deliver).bridge = s.bridge.publish (.update u) ∧ (s.step .deliver).outbox = rest ∧
      (s.step .deliver).unnoted .events = some u.item

/-- What the polls and the tracker of a bridge have to do with the updates published so far. -/
structure Refreshes (d : Dispatcher) (journal : List Posting) (s : Desk) : Prop where
  tracks : Tracks journal s
  /-- The tracker is right about what was published unless the last update was refused. -/
  agrees : ∀ item, Prompt journal item →
    (s.bridge.tracker.last? item = s.bridge.lastUpdate? item ↔
      ∀ e ∈ journal, e.item = item → e.taken = false →
        ∃ e' ∈ journal, e'.item = item ∧ e'.taken = true ∧ e.time ≤ e'.time)
  due : ∀ b p, s.bridge.onset (.poll b p) = .request b.device (.poll p) ↔
    Overdue journal b.item b.refresh s.bridge.hub.clock
  /-- So is what is due, unless all updates of the interval were refused. -/
  due_agrees : ∀ b p, Prompt journal b.item →
    ((s.bridge.onset (.poll b p) = .request b.device (.poll p) ↔
        s.bridge.Unpublished b.item b.refresh) ↔
      ∀ e ∈ journal, e.item = b.item → s.bridge.hub.clock - e.time < b.refresh →
        ∃ e' ∈ journal, e'.item = b.item ∧ e'.taken = true ∧
          s.bridge.hub.clock - e'.time < b.refresh)
  /-- A poll is due in spite of an update only while that has yet to be noted. -/
  early : ∀ b p, s.bridge.onset (.poll b p) = .request b.device (.poll p) →
    ∀ e ∈ journal, e.item = b.item → s.bridge.hub.clock - e.time < b.refresh →
      s.unnoted e.clerk = some b.item
  polls : Polls d journal s
  relays : Relays d s
  noted : ∀ c item, s.unnoted c = some item →
    (s.step (.note c)).bridge = s.bridge.note item ∧ (s.step (.note c)).unnoted c = none

theorem step_consider {b : Binding} {p : Poll} {rest : List (Binding × Poll)}
    (ha : s.agenda = (b, p) :: rest) (hp : s.isPolling = false) :
    s.step .consider = { s with agenda := rest }.weigh b p := by
  simp only [step, ha, hp]
  rfl

theorem step_put {b : Binding} {p : Poll} (hc : s.chosen = some (b, p)) :
    s.step .put = { s with chosen := none }.put (.poll b p) b.device (.poll p) := by
  simp only [step, hc]

theorem outcome_poll {b : Bridge} {a : Except PanelError Reading} {binding : Binding} {p : Poll} :
    (∀ v, a.bind (b.dispatcher.transform binding) = .ok v →
      b.outcome a (.poll binding p) = some (.update ⟨binding.item, v⟩)) ∧
    ∀ r, a.bind (b.dispatcher.transform binding) = .error r → b.outcome a (.poll binding p) = none := by
  refine ⟨fun v hv ↦ ?_, fun r hr ↦ ?_⟩
  · simp only [outcome, hv]
  · simp only [outcome, hr]

theorem considered_of_agenda (ht : Tracks journal s) {b : Binding} {p : Poll}
    {rest : List (Binding × Poll)} (ha : s.agenda = (b, p) :: rest) (hp : s.isPolling = false) :
    (s.step .consider).bridge = s.bridge ∧
      (Overdue journal b.item b.refresh s.bridge.hub.clock →
        (s.step .consider).chosen = some (b, p) ∧ (s.step .consider).tasks = s.tasks) ∧
      (¬ Overdue journal b.item b.refresh s.bridge.hub.clock →
        (s.step .consider).chosen = none ∧
          (s.step .consider).tasks = s.tasks ++ [⟨.poll b p, .ended⟩]) := by
  have hnone : s.chosen = none := by
    have hz := pending_eq_zero_iff.mpr hp
    rw [pending] at hz
    cases hc : s.chosen with
    | none => rfl
    | some x => simp [hc] at hz
  rw [step_consider ha hp, weigh, ← ht.onset_poll_iff b p]
  cases ho : s.bridge.onset (.poll b p) with
  | ended o =>
    refine ⟨rfl, fun h ↦ ?_, fun _ ↦ ⟨hnone, rfl⟩⟩
    cases h
  | request id q =>
    have hd : Onset.request id q = .request b.device (.poll p) := by
      rw [onset] at ho
      split at ho
      · exact ho.symm
      · cases ho
    exact ⟨rfl, fun _ ↦ ⟨rfl, rfl⟩, fun h ↦ absurd hd h⟩

/-- What nothing is sent for has no answer but a failure. -/
theorem error_of_command?_eq_none (hb : Books s lives) {k i n : Nat} {b : Binding} {p : Poll}
    {a : Except PanelError Reading} (ht : s.tasks[k]? = some ⟨.poll b p, .asked i n⟩)
    (ha : s.bridge.hub.answerTo? i n = some a) (hp : p.command? = none) : ∃ r, a = .error r := by
  obtain ⟨l, q, hq, ⟨x, -, hx, ho⟩ | h | h⟩ := hb.outcome_of_answerTo? ht ha
  · cases hq
    cases a with
    | error r => exact ⟨r, rfl⟩
    | ok r =>
      obtain ⟨c, hc, -⟩ := x.written_of_ok ho
      rw [hx] at hc
      cases hp.symm.trans hc
  · exact ⟨_, h⟩
  · exact ⟨_, h⟩

theorem polls_of_tracks (ht : Tracks journal s) (hb : Books s lives) (hr : Rounds d s)
    (hs : s.pending ≤ 1) : Polls d journal s := by
  obtain ⟨rfl, ha⟩ := hr
  refine ⟨⟨rfl, ha⟩, hs, fun b p rest ha hp ↦ considered_of_agenda ht ha hp, ?_, ?_, ?_, ?_⟩
  · intro b p hc i hi
    have hplace : s.bridge.hub.place b.device = .ok i := by rw [Hub.place, hi]
    rw [step_put hc, put]
    simp only [hplace]
    exact ⟨rfl, trivial⟩
  · intro b p hc hi
    have hplace : s.bridge.hub.place b.device = .error (.unknownDevice b.device) := by
      rw [Hub.place, hi]
    rw [step_put hc, put]
    simp only [hplace]
    exact ⟨rfl, trivial⟩
  · intro k b p i n a hk ha v hv
    rw [step_conclude hk ha, outcome_poll.1 v hv]
    exact ⟨bridge_issue, s.unnoted_issue .polls _⟩
  · intro k b p i n a hk ha hf
    have ho : s.bridge.outcome a (.poll b p) = none := by
      rcases hf with ⟨r, hr⟩ | hp
      · exact outcome_poll.2 r hr
      · obtain ⟨r, rfl⟩ := error_of_command?_eq_none hb hk ha hp
        exact outcome_poll.2 r rfl
    rw [step_conclude hk ha, ho]
    exact ⟨rfl, rfl⟩

theorem relays (s : Desk) : Relays s.bridge.dispatcher s where
  relayed device e ho hu := by
    simp only [step, ho, hu]
    exact ⟨rfl, rfl⟩
  failed _ _ _ _ _ hd hf := Dispatcher.dispatch_of_fails hd hf
  delivered u rest ho hu := by
    rw [step_deliver ho hu]
    exact ⟨bridge_issue, rfl, s.unnoted_issue .events u⟩

/-- However the devices, the events and the polls are interleaved, whatever fails, and whatever the
client takes or refuses: the tracker tells when an update of each item was last noted, which its clerk
does after it has handed the update to the client. So it follows the published updates exactly as far as
updates are noted at once and the client takes them. -/
theorem refreshes_run (d : Dispatcher) (c : Client) (moves : List Move) :
    Refreshes d (journalFrom [] (start d c) moves) ((start d c).run moves) := by
  have hpending : ((start d c).run moves).pending ≤ 1 :=
    run_induction (Nat.zero_le _) (fun _ _ _ hd hs ↦ pending_does hs hd) moves
  have hrounds : Rounds d ((start d c).run moves) :=
    run_induction ⟨rfl, List.nil_suffix⟩ (fun _ _ _ hd hr ↦ hr.does hd) moves
  have ht := tracks_run (tracks_start d c) (Nat.zero_le _) moves
  obtain ⟨lives, hb⟩ := (Books.start d c).run moves
  refine ⟨ht, fun item hp ↦ ht.last?_eq_iff hp, ht.onset_poll_iff, fun b p hp ↦ ht.due_iff p hp,
    fun b p hd e he hi hlt ↦ ht.unnoted_of_due hd he hi hlt, polls_of_tracks ht hb hrounds hpending,
    ?_, fun c item hc ↦ ?_⟩
  · have hr := relays ((start d c).run moves)
    rwa [hrounds.dispatcher] at hr
  · rw [step_note hc]
    exact ⟨rfl, unnoted_owe ..⟩

def answering : ScriptedLine where
  replies := [.items [.chunk (Text.Utf8.encode "Z005=1\r:".toList)]]

/-- A zone that events tell of, and that is polled after an hour without. -/
def hourly (item : String) : Dispatcher where
  bindings := [⟨item, "panel", "Zone 5", some (.zoneStatus 5), 3600000, none⟩]

def pollOnce : List Move :=
  [.enter { id := "panel", interface := .ptr3 } (.scripted answering), .assign [("panel", 0)], .tick,
    .consider, .put, .happen 0 .turn trivial, .conclude 0, .note .polls]

def passedOn : List Move :=
  [.relay ⟨"panel", .event .breakIn⟩, .deliver]

/-- The client refuses an update whose item holds a wildcard. It is noted all the same, so that for an
hour there is no further poll. And an update that was published holds no poll back until it is noted. -/
theorem not_follows_hourly :
    (((start (hourly "zone#5") {}).run pollOnce).bridge.lastUpdate? "zone#5" = none ∧
      ((start (hourly "zone#5") {}).run pollOnce).bridge.tracker.last? "zone#5" = some 0 ∧
      ((start (hourly "zone#5") {}).run (pollOnce ++ [.tick, .consider])).chosen = none) ∧
    ((start (hourly "zone") {}).run passedOn).bridge.lastUpdate? "zone" = some 0 ∧
      ((start (hourly "zone") {}).run passedOn).bridge.tracker.last? "zone" = none ∧
      ((start (hourly "zone") {}).run (passedOn ++ [.tick, .consider])).chosen.isSome = true :=
  ⟨⟨rfl, rfl, rfl⟩, rfl, rfl, rfl⟩

end Desk

end AlarmPanel
