import AlarmPanel.Proofs.Bridge.Books

namespace AlarmPanel

/-- The time of the last update of an item that the client took. -/
def Bridge.lastUpdate? (b : Bridge) (item : String) : Option Nat :=
  ((b.posts.filter fun p ↦ p.taken && p.isUpdateOf item).map Post.time).max?

/-- An update that a clerk handed to the client, whether the client took it, and when it was noted. -/
structure Posting where
  clerk : Clerk
  time : Nat
  update : Update
  taken : Bool
  noted : Option Nat := none

namespace Posting

def item (e : Posting) : String :=
  e.update.item

def post (e : Posting) : Post :=
  ⟨e.time, .update e.update, e.taken⟩

def ofPost? (c : Clerk) (p : Post) : Option Posting :=
  p.message.update?.map fun u ↦ ⟨c, p.time, u, p.taken, none⟩

def note (c : Clerk) (now : Nat) (e : Posting) : Posting :=
  if e.clerk = c ∧ e.noted = none then { e with noted := some now } else e

variable {c : Clerk} {now t : Nat} {e : Posting}

@[simp] theorem clerk_note (c : Clerk) (now : Nat) (e : Posting) : (e.note c now).clerk = e.clerk := by
  unfold note
  split <;> rfl

@[simp] theorem time_note (c : Clerk) (now : Nat) (e : Posting) : (e.note c now).time = e.time := by
  unfold note
  split <;> rfl

@[simp] theorem item_note (c : Clerk) (now : Nat) (e : Posting) : (e.note c now).item = e.item := by
  unfold note
  split <;> rfl

@[simp] theorem post_note (c : Clerk) (now : Nat) (e : Posting) : (e.note c now).post = e.post := by
  unfold note
  split <;> rfl

theorem noted_note_eq_some_iff : (e.note c now).noted = some t ↔
    e.noted = some t ∨ e.clerk = c ∧ e.noted = none ∧ now = t := by
  unfold note
  split
  case isTrue h => simp [h.1, h.2]
  case isFalse h =>
    have hn : ¬ (e.clerk = c ∧ e.noted = none ∧ now = t) := fun hn ↦ h ⟨hn.1, hn.2.1⟩
    simp [hn]

theorem noted_note_eq_none_iff :
    (e.note c now).noted = none ↔ e.noted = none ∧ e.clerk ≠ c := by
  unfold note
  split
  case isTrue h => simp [h.1]
  case isFalse h => exact ⟨fun hn ↦ ⟨hn, fun hc ↦ h ⟨hc, hn⟩⟩, And.left⟩

theorem map_note {journal : List Posting} (h : ∀ e ∈ journal, e.noted = none → e.clerk ≠ c) (now : Nat) :
    journal.map (note c now) = journal := by
  refine (List.map_congr_left fun e he ↦ ?_).trans (List.map_id _)
  exact if_neg fun hc ↦ h e he hc.2 hc.1

end Posting

def lastNoted? (journal : List Posting) (item : String) : Option Nat :=
  ((journal.filter fun e ↦ e.item == item).filterMap Posting.noted).max?

theorem lastNoted?_eq_some_iff {journal : List Posting} {item : String} {t : Nat} :
    lastNoted? journal item = some t ↔ (∃ e ∈ journal, e.item = item ∧ e.noted = some t) ∧
      ∀ e ∈ journal, e.item = item → ∀ t' ∈ e.noted, t' ≤ t := by
  have hm (t' : Nat) : t' ∈ (journal.filter fun e ↦ e.item == item).filterMap Posting.noted ↔
      ∃ e ∈ journal, e.item = item ∧ e.noted = some t' := by
    simp only [List.mem_filterMap, List.mem_filter, beq_iff_eq, and_assoc]
  rw [lastNoted?, List.max?_eq_some_iff]
  simp only [hm]
  refine and_congr_right fun _ ↦ ⟨fun h e he hi t' ht ↦ h t' ⟨e, he, hi, ht⟩, ?_⟩
  rintro h t' ⟨e, he, hi, ht⟩
  exact h e he hi t' ht

theorem lastNoted?_eq_none_iff {journal : List Posting} {item : String} :
    lastNoted? journal item = none ↔ ∀ e ∈ journal, e.item = item → e.noted = none := by
  rw [lastNoted?, List.max?_eq_none_iff, List.filterMap_eq_nil_iff]
  simp only [List.mem_filter, beq_iff_eq, and_imp]

theorem lastNoted?_map_note {journal : List Posting} {item : String} {c : Clerk} {now : Nat}
    (h : ∀ e ∈ journal, e.item = item → e.noted = none → e.clerk ≠ c) :
    lastNoted? (journal.map (Posting.note c now)) item = lastNoted? journal item := by
  have hf : (fun e : Posting ↦ e.item == item) ∘ Posting.note c now = fun e ↦ e.item == item :=
    funext fun e ↦ by rw [Function.comp_apply, Posting.item_note]
  have hn : ∀ e ∈ journal.filter fun e ↦ e.item == item, e.noted = none → e.clerk ≠ c := fun e he ↦
    h e (List.mem_of_mem_filter he) (beq_iff_eq.mp (List.mem_filter.mp he).2)
  rw [lastNoted?, List.filter_map, hf, Posting.map_note hn, lastNoted?]

/-- No update of the item was noted within the interval before `now`. -/
def Overdue (journal : List Posting) (item : String) (interval now : Nat) : Prop :=
  ∀ e ∈ journal, e.item = item → ∀ t ∈ e.noted, interval ≤ now - t

theorem Tracker.isDue_iff {tracker : Tracker} {journal : List Posting} {item : String}
    (h : tracker.last? item = lastNoted? journal item) (interval now : Nat) :
    tracker.isDue item interval now = true ↔ Overdue journal item interval now := by
  rw [isDue, h]
  cases hl : lastNoted? journal item with
  | none =>
    refine iff_of_true rfl fun e he hi t ht ↦ ?_
    rw [lastNoted?_eq_none_iff.mp hl e he hi] at ht
    cases ht
  | some t =>
    obtain ⟨⟨e, he, hi, ht⟩, hmax⟩ := lastNoted?_eq_some_iff.mp hl
    simp only [decide_eq_true_eq]
    refine ⟨fun hd e' he' hi' t' ht' ↦ ?_, fun hd ↦ hd e he hi t ht⟩
    have hle := hmax e' he' hi' t' ht'
    omega

namespace Desk

variable {s s' : Desk} {m : Move} {c : Clerk} {u : Update} {journal : List Posting}

def Move.clerk : Move → Clerk
  | deliver => .events
  | _ => .polls

/-- The journal after a move, in which updates are entered as they are published, and then noted. -/
def recorded (journal : List Posting) (s : Desk) : Move → List Posting
  | .note c => journal.map (Posting.note c s.bridge.hub.clock)
  | m => journal ++
    ((s.step m).bridge.posts.drop s.bridge.posts.length).filterMap (Posting.ofPost? m.clerk)

/-- The updates of a run, in the order in which they were published. -/
def journalFrom (journal : List Posting) (s : Desk) : List Move → List Posting
  | [] => journal
  | m :: moves => journalFrom (recorded journal s m) (s.step m) moves

def pending (s : Desk) : Nat :=
  s.chosen.toList.length + s.tasks.countP Task.isPoll + (s.unnoted .polls).toList.length

theorem pending_eq_zero_iff : s.pending = 0 ↔ s.isPolling = false := by
  rw [pending, isPolling]
  cases s.chosen <;> cases s.unnoted .polls <;>
    simp [List.countP_eq_zero, List.any_eq_false]

theorem countP_isPoll_concat (l : List Task) {t : Task} (ht : t.isPoll = false) :
    (l ++ [t]).countP Task.isPoll = l.countP Task.isPoll := by
  rw [List.countP_append, List.countP_singleton, ht]
  exact Nat.add_zero _

theorem countP_isPoll_pos {k i n : Nat} {b : Binding} {p : Poll}
    (hk : s.tasks[k]? = some ⟨.poll b p, .asked i n⟩) : 0 < s.tasks.countP Task.isPoll :=
  List.countP_pos_iff.mpr ⟨_, List.mem_of_getElem? hk, rfl⟩

theorem pending_put {e : Errand} {id : String} {q : Request} :
    (s.put e id q).pending ≤ s.pending + 1 := by
  have h (t : Task) : (s.tasks ++ [t]).countP Task.isPoll ≤ s.tasks.countP Task.isPoll + 1 := by
    rw [List.countP_append]
    exact Nat.add_le_add_left List.countP_le_length _
  unfold put pending
  split
  case h_1 r _ =>
    have h := h ⟨e, .ended⟩
    dsimp only
    omega
  case h_2 i _ =>
    have h := h ⟨e, .asked i (s.bridge.hub.issued i)⟩
    dsimp only [onHub]
    omega

theorem pending_begin_order (s : Desk) (text : String) (i : Instruction) :
    (s.begin (.order text i)).pending = s.pending := by
  unfold begin
  split
  · rw [pending, countP_isPoll_concat _ rfl, pending]
  · unfold put
    split <;> rw [pending, countP_isPoll_concat _ rfl] <;> rfl

theorem pending_weigh (s : Desk) (b : Binding) (p : Poll) (hs : s.pending = 0) :
    (s.weigh b p).pending ≤ 1 := by
  have h := countP_isPoll_concat s.tasks (t := ⟨.poll b p, .ended⟩) rfl
  rw [pending] at hs
  unfold weigh pending
  split
  · dsimp only
    omega
  · dsimp only [Option.toList_some, List.length_singleton]
    omega

theorem length_toList_le {α : Type} (o : Option α) : o.toList.length ≤ 1 := by
  cases o <;> simp

/-- A poll that has its answer is under way only until its update has been noted. -/
theorem pending_conclude {k i n : Nat} {e : Errand} {a : Except PanelError Reading}
    (hk : s.tasks[k]? = some ⟨e, .asked i n⟩) (hs : s.pending ≤ 1) :
    ({ s.issue .polls (s.bridge.outcome a e) with
      tasks := s.tasks.set k ⟨e, .answered i n a⟩ } : Desk).pending ≤ 1 := by
  obtain ⟨hlt, hg⟩ := List.getElem?_eq_some_iff.mp hk
  have hc := List.countP_set (p := Task.isPoll) (a := ⟨e, .answered i n a⟩) hlt
  rw [hg] at hc
  rw [pending] at hs ⊢
  cases e with
  | order text j =>
    have ho : (s.bridge.outcome a (.order text j)).bind Message.update? = none := by
      cases a <;> rfl
    rw [issue_of_update?_eq_none ho, hc]
    exact hs
  | poll b p =>
    have hpos := countP_isPoll_pos hk
    have hu := length_toList_le ((s.issue .polls (s.bridge.outcome a (.poll b p))).unnoted .polls)
    have hset : (s.tasks.set k ⟨.poll b p, .answered i n a⟩).countP Task.isPoll =
        s.tasks.countP Task.isPoll - 1 := hc
    dsimp only
    rw [chosen_issue, hset]
    omega

theorem pending_does (hs : s.pending ≤ 1) (hd : s.Does m s') : s'.pending ≤ 1 := by
  cases hd with
  | order =>
    rw [pending_begin_order]
    exact hs
  | @consider b p l _ hp => exact pending_weigh { s with agenda := l } b p (pending_eq_zero_iff.mpr hp)
  | @put b p hc =>
    refine Nat.le_trans pending_put ?_
    rw [pending, hc] at hs
    rw [pending]
    dsimp only [Option.toList_some, Option.toList_none, List.length_nil, List.length_singleton] at hs ⊢
    omega
  | conclude hk => exact pending_conclude hk hs
  | deliver => exact hs
  | @note c item =>
    refine Nat.le_trans ?_ hs
    cases c with
    | events => exact Nat.le_refl _
    | polls =>
      have hn := { s with bridge := s.bridge.note item }.unnoted_owe .polls none
      rw [pending, hn, pending]
      exact Nat.add_le_add_left (Nat.zero_le _) _
  | nothing | tick | relay | happen | enter | assign | pass => exact hs

/-- No update is published or noted, and time does not go back. -/
structure Quiet (s s' : Desk) : Prop where
  posts : ∃ l, s'.bridge.posts = s.bridge.posts ++ l ∧ ∀ p ∈ l, p.message.update? = none
  tracker : s'.bridge.tracker = s.bridge.tracker
  unnoted : s'.unnoted = s.unnoted
  clock : s.bridge.hub.clock ≤ s'.bridge.hub.clock

/-- A clerk that has nothing to note publishes an update. -/
structure Publishes (c : Clerk) (u : Update) (taken : Bool) (s s' : Desk) : Prop where
  free : s.unnoted c = none
  posts : s'.bridge.posts = s.bridge.posts ++ [⟨s.bridge.hub.clock, .update u, taken⟩]
  tracker : s'.bridge.tracker = s.bridge.tracker
  unnoted : s'.unnoted = Function.update s.unnoted c (some u.item)
  clock : s'.bridge.hub.clock = s.bridge.hub.clock

/-- What the journal says of the updates handed to the client, of the tracker and of the clerks. -/
structure Tracks (journal : List Posting) (s : Desk) : Prop where
  posts : s.bridge.posts.filter Post.isUpdate = journal.map Posting.post
  last : ∀ item, s.bridge.tracker.last? item = lastNoted? journal item
  past : ∀ e ∈ journal, e.time ≤ s.bridge.hub.clock ∧
    ∀ t ∈ e.noted, e.time ≤ t ∧ t ≤ s.bridge.hub.clock
  ordered : journal.Pairwise fun e e' ↦ e.time ≤ e'.time
  inTurn : journal.Pairwise fun e e' ↦ e.clerk = e'.clerk → ∃ t ∈ e.noted, t ≤ e'.time
  unnoted : ∀ c item, s.unnoted c = some item ↔
    ∃ e ∈ journal, e.clerk = c ∧ e.noted = none ∧ e.item = item

theorem tracks_start (d : Dispatcher) (c : Client) : Tracks [] (start d c) where
  posts := rfl
  last _ := rfl
  past _ he := by cases he
  ordered := .nil
  inTurn := .nil
  unnoted c item := by simp [start]

theorem Tracks.quiet (ht : Tracks journal s) (hq : Quiet s s') : Tracks journal s' where
  posts := by
    obtain ⟨l, hl, hn⟩ := hq.posts
    have hf : l.filter Post.isUpdate = [] :=
      List.filter_eq_nil_iff.mpr fun p hp ↦ by simp [Post.isUpdate, hn p hp]
    rw [hl, List.filter_append, hf, List.append_nil, ht.posts]
  last item := by rw [hq.tracker, ht.last]
  past e he := by
    obtain ⟨hle, hnoted⟩ := ht.past e he
    exact ⟨Nat.le_trans hle hq.clock, fun t hm ↦
      ⟨(hnoted t hm).1, Nat.le_trans (hnoted t hm).2 hq.clock⟩⟩
  ordered := ht.ordered
  inTurn := ht.inTurn
  unnoted := hq.unnoted ▸ ht.unnoted

theorem Tracks.exists_noted (ht : Tracks journal s) (hc : s.unnoted c = none) {e : Posting}
    (he : e ∈ journal) (hec : e.clerk = c) : ∃ t ∈ e.noted, t ≤ s.bridge.hub.clock := by
  cases hn : e.noted with
  | none =>
    have hu := (ht.unnoted c e.item).mpr ⟨e, he, hec, hn, rfl⟩
    cases hc.symm.trans hu
  | some t => exact ⟨t, rfl, ((ht.past e he).2 t hn).2⟩

theorem Tracks.publish {taken : Bool} (ht : Tracks journal s) (hp : Publishes c u taken s s') :
    Tracks (journal ++ [⟨c, s.bridge.hub.clock, u, taken, none⟩]) s' where
  posts := by
    rw [hp.posts, List.filter_append, ht.posts, List.map_append]
    rfl
  last item := by
    have hf (e : Posting) (he : e.noted = none) :
        ([e].filter fun e ↦ e.item == item).filterMap Posting.noted = [] := by
      rw [List.filterMap_eq_nil_iff]
      rintro e' he'
      cases List.mem_singleton.mp (List.mem_of_mem_filter he')
      exact he
    rw [hp.tracker, ht.last, lastNoted?, lastNoted?, List.filter_append, List.filterMap_append,
      hf _ rfl, List.append_nil]
  past e he := by
    rw [hp.clock]
    rcases List.mem_append.mp he with he | he
    · exact ht.past e he
    · cases List.mem_singleton.mp he
      exact ⟨Nat.le_refl _, fun t hm ↦ by cases hm⟩
  ordered := by
    refine List.pairwise_append.mpr ⟨ht.ordered, List.pairwise_singleton _ _, fun e he e' he' ↦ ?_⟩
    cases List.mem_singleton.mp he'
    exact (ht.past e he).1
  inTurn := by
    refine List.pairwise_append.mpr ⟨ht.inTurn, List.pairwise_singleton _ _, fun e he e' he' hc ↦ ?_⟩
    cases List.mem_singleton.mp he'
    exact ht.exists_noted hp.free he hc
  unnoted c' item := by
    rw [hp.unnoted]
    simp only [List.mem_append, List.mem_singleton, or_and_right, exists_or, exists_eq_left]
    by_cases hc : c' = c
    · subst hc
      have hnone : ¬ ∃ e ∈ journal, e.clerk = c' ∧ e.noted = none ∧ e.item = item := fun he ↦ by
        cases hp.free.symm.trans ((ht.unnoted c' item).mpr he)
      rw [Function.update_self, or_iff_right hnone]
      simp [Posting.item]
    · rw [Function.update_of_ne hc, ht.unnoted]
      simp [Ne.symm hc]

theorem Tracks.note {item : String} (ht : Tracks journal s) (hc : s.unnoted c = some item) :
    Tracks (journal.map (Posting.note c s.bridge.hub.clock))
      ({ s with bridge := s.bridge.note item }.owe c none) where
  posts := by
    rw [List.map_map]
    refine ht.posts.trans (List.map_congr_left fun e _ ↦ ?_)
    exact (e.post_note c _).symm
  last item' := by
    by_cases hi : item' = item
    · subst hi
      obtain ⟨e, he, hec, hn, hei⟩ := (ht.unnoted c item').mp hc
      refine (Tracker.last?_mark_self ..).trans (lastNoted?_eq_some_iff.mpr ⟨?_, ?_⟩).symm
      · exact ⟨_, List.mem_map_of_mem he, (e.item_note c _).trans hei,
          Posting.noted_note_eq_some_iff.mpr (.inr ⟨hec, hn, rfl⟩)⟩
      · intro e₁ he₁ _ t hm
        obtain ⟨e₀, he₀, rfl⟩ := List.mem_map.mp he₁
        rcases Posting.noted_note_eq_some_iff.mp hm with hm | ⟨-, -, rfl⟩
        · exact ((ht.past e₀ he₀).2 t hm).2
        · exact Nat.le_refl _
    · refine (Tracker.last?_mark_of_ne hi _).trans ((ht.last item').trans ?_)
      -- a clerk has one update to note at most, and that is one of another item
      refine (lastNoted?_map_note fun e he hei hn hec ↦ hi ?_).symm
      have hu := (ht.unnoted c e.item).mpr ⟨e, he, hec, hn, rfl⟩
      exact hei.symm.trans (Option.some.inj (hu.symm.trans hc))
  past e he := by
    obtain ⟨e, hm, rfl⟩ := List.mem_map.mp he
    obtain ⟨hle, hnoted⟩ := ht.past e hm
    rw [Posting.time_note]
    refine ⟨hle, fun t ht ↦ ?_⟩
    rcases Posting.noted_note_eq_some_iff.mp ht with ht | ⟨-, -, rfl⟩
    · exact hnoted t ht
    · exact ⟨hle, Nat.le_refl _⟩
  ordered := by
    rw [List.pairwise_map]
    simpa only [Posting.time_note] using ht.ordered
  inTurn := by
    rw [List.pairwise_map]
    refine ht.inTurn.imp fun {e e'} h hc ↦ ?_
    rw [Posting.clerk_note, Posting.clerk_note] at hc
    obtain ⟨t, hm, hle⟩ := h hc
    exact ⟨t, Posting.noted_note_eq_some_iff.mpr (.inl hm), by rwa [Posting.time_note]⟩
  unnoted c' item' := by
    simp only [List.mem_map, exists_exists_and_eq_and, Posting.clerk_note, Posting.item_note,
      Posting.noted_note_eq_none_iff]
    by_cases hc' : c' = c
    · subst hc'
      rw [unnoted_owe]
      refine iff_of_false (fun h ↦ by cases h) ?_
      rintro ⟨e, -, hec, ⟨-, hne⟩, -⟩
      exact hne hec
    · have hu : ({ s with bridge := s.bridge.note item }.owe c none).unnoted c' = s.unnoted c' :=
        Function.update_of_ne hc' _ _
      rw [hu, ht.unnoted]
      refine exists_congr fun e ↦ and_congr_right fun _ ↦ and_congr_right fun hec ↦ ?_
      have hne : e.clerk ≠ c := hec.symm ▸ hc'
      exact and_congr_left' (and_iff_left hne).symm

theorem Tracks.map_note (ht : Tracks journal s) (hc : s.unnoted c = none) (now : Nat) :
    journal.map (Posting.note c now) = journal := by
  refine Posting.map_note (fun e he hn hec ↦ ?_) now
  obtain ⟨t, ht, -⟩ := ht.exists_noted hc he hec
  cases hn.symm.trans ht

theorem quiet_publishAny {o : Option Message} (ho : o.bind Message.update? = none)
    (hb : s'.bridge = s.bridge.publishAny o) (hu : s'.unnoted = s.unnoted) : Quiet s s' := by
  have hc : s.bridge.hub.clock = s'.bridge.hub.clock := by rw [hb, Bridge.hub_publishAny]
  refine ⟨?_, by rw [hb, Bridge.tracker_publishAny], hu, Nat.le_of_eq hc⟩
  rw [hb]
  cases o with
  | none => exact ⟨[], (List.append_nil _).symm, fun p hp ↦ by cases hp⟩
  | some x =>
    refine ⟨_, rfl, fun p hp ↦ ?_⟩
    cases List.mem_singleton.mp hp
    exact ho

theorem quiet_onHub {f : Hub → Hub} (hb : s'.bridge = (s.onHub f).bridge)
    (hu : s'.unnoted = s.unnoted) (hf : s.bridge.hub.clock ≤ (f s.bridge.hub).clock) : Quiet s s' := by
  refine ⟨⟨[], ?_, fun p hp ↦ by cases hp⟩, by rw [hb]; rfl, hu, by rwa [hb]⟩
  rw [hb, List.append_nil]
  rfl

theorem update?_of_onset {b : Bridge} {e : Errand} {o : Option Message} (h : b.onset e = .ended o) :
    o.bind Message.update? = none := by
  cases e with
  | order text i =>
    rw [Bridge.onset] at h
    split at h
    · cases h
      rfl
    · split at h <;> cases h
      rfl
  | poll binding p =>
    rw [Bridge.onset] at h
    split at h <;> cases h
    rfl

theorem update?_ofNotice? (n : Notice) : (Message.ofNotice? n).bind Message.update? = none := by
  rw [Message.ofNotice?]
  split <;> rfl

theorem update?_of_outcome_error (b : Bridge) (r : PanelError) (e : Errand) :
    (b.outcome (.error r) e).bind Message.update? = none := by
  cases e <;> rfl

theorem outcome_cases (b : Bridge) (a : Except PanelError Reading) (e : Errand) :
    (b.outcome a e).bind Message.update? = none ∨
      ∃ binding p v, e = .poll binding p ∧ a.bind (b.dispatcher.transform binding) = .ok v ∧
        b.outcome a e = some (.update ⟨binding.item, v⟩) := by
  cases e with
  | order text i =>
    left
    cases a <;> rfl
  | poll binding p =>
    cases h : a.bind (b.dispatcher.transform binding) with
    | ok v => exact .inr ⟨binding, p, v, rfl, h, by simp only [Bridge.outcome, h]⟩
    | error x =>
      left
      simp only [Bridge.outcome, h, Option.bind_none]

theorem quiet_put (s : Desk) (e : Errand) (id : String) (q : Request) : Quiet s (s.put e id q) := by
  unfold put
  split
  case h_1 r _ => exact quiet_publishAny (update?_of_outcome_error s.bridge r e) rfl rfl
  case h_2 i _ =>
    exact quiet_onHub (f := (·.change i (·.happen (.submit q)))) rfl rfl
      (Nat.le_of_eq (Hub.clock_change _ i _).symm)

theorem quiet_begin (s : Desk) (e : Errand) : Quiet s (s.begin e) := by
  unfold begin
  split
  case h_1 o ho => exact quiet_publishAny (update?_of_onset ho) rfl rfl
  case h_2 id q _ => exact quiet_put s e id q

theorem publishes_issue (hc : s.unnoted c = none)
    (hb : s'.bridge = (s.issue c (some (.update u))).bridge)
    (hu : s'.unnoted = (s.issue c (some (.update u))).unnoted) :
    ∃ taken, Publishes c u taken s s' := by
  refine ⟨s.bridge.client.accepts s.bridge.posts.length
    ((Message.update u).topic s.bridge.client.topic), hc, ?_, ?_, hu, ?_⟩ <;> rw [hb] <;> rfl

theorem cases_of_does (hs : s.pending ≤ 1) (hd : s.Does m s') (hm : ∀ c, m ≠ .note c) :
    Quiet s s' ∨ ∃ u taken, Publishes m.clerk u taken s s' := by
  have hrefl : Quiet s s := ⟨⟨[], (List.append_nil _).symm, by simp⟩, rfl, rfl, Nat.le_refl _⟩
  cases hd with
  | nothing | tick => exact .inl ⟨hrefl.posts, rfl, rfl, Nat.le_refl _⟩
  | order => exact .inl (quiet_begin s _)
  | consider =>
    left
    unfold weigh
    split <;> exact ⟨hrefl.posts, rfl, rfl, Nat.le_refl _⟩
  | @put b p =>
    obtain ⟨hp, ht, hu, hc⟩ := quiet_put { s with chosen := none } (.poll b p) b.device (.poll p)
    exact .inl ⟨hp, ht, hu, hc⟩
  | @conclude k i n e a hk ha =>
    rcases outcome_cases s.bridge a e with ho | ⟨b, p, v, rfl, -, ho⟩
    · rw [issue_of_update?_eq_none ho]
      exact .inl (quiet_publishAny ho rfl rfl)
    · rw [ho]
      have hpos := countP_isPoll_pos hk
      -- no other poll is under way, so the last update of a poll has been noted
      have hu : s.unnoted .polls = none := by
        rw [pending] at hs
        cases hu : s.unnoted .polls with
        | none => rfl
        | some item =>
          rw [hu, Option.toList_some, List.length_singleton] at hs
          omega
      exact .inr ⟨_, publishes_issue hu rfl rfl⟩
  | relay n => exact .inl (quiet_publishAny (update?_ofNotice? n) rfl rfl)
  | deliver _ hu => exact .inr ⟨_, publishes_issue hu rfl rfl⟩
  | note => exact absurd rfl (hm _)
  | happen i o _ => exact .inl (quiet_onHub rfl rfl (Nat.le_of_eq (Hub.clock_change _ i _).symm))
  | enter | assign => exact .inl (quiet_onHub rfl rfl (Nat.le_refl _))
  | pass ms => exact .inl (quiet_onHub rfl rfl (Nat.le_add_right _ _))

theorem recorded_of_ne (journal : List Posting) (s : Desk) (hm : ∀ c, m ≠ .note c) :
    recorded journal s m = journal ++
      ((s.step m).bridge.posts.drop s.bridge.posts.length).filterMap (Posting.ofPost? m.clerk) := by
  cases m with
  | note c => exact absurd rfl (hm c)
  | _ => rfl

/-- What one move does to the updates is entered in the journal. -/
theorem Tracks.step (ht : Tracks journal s) (hs : s.pending ≤ 1) (m : Move) :
    Tracks (recorded journal s m) (s.step m) := by
  by_cases hm : ∃ c, m = .note c
  · obtain ⟨c, rfl⟩ := hm
    cases hc : s.unnoted c with
    | none =>
      have hstep : s.step (.note c) = s := by simp only [Desk.step, hc]
      rw [recorded, ht.map_note hc, hstep]
      exact ht
    | some item =>
      rw [step_note hc]
      exact ht.note hc
  · rw [not_exists] at hm
    rw [recorded_of_ne journal s hm]
    rcases cases_of_does hs (s.does_step m) hm with hq | ⟨u, taken, hp⟩
    · obtain ⟨l, hl, hn⟩ := hq.posts
      have hnone : l.filterMap (Posting.ofPost? m.clerk) = [] :=
        List.filterMap_eq_nil_iff.mpr fun p hp ↦ by rw [Posting.ofPost?, hn p hp, Option.map_none]
      rw [hl, List.drop_left, hnone, List.append_nil]
      exact ht.quiet hq
    · rw [hp.posts, List.drop_left]
      exact ht.publish hp

theorem tracks_run (ht : Tracks journal s) (hs : s.pending ≤ 1) (moves : List Move) :
    Tracks (journalFrom journal s moves) (s.run moves) := by
  induction moves generalizing s journal with
  | nil => exact ht
  | cons m moves ih => exact ih (ht.step hs m) (pending_does hs (s.does_step m))

end Desk

end AlarmPanel
