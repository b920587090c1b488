import AlarmPanel.Proofs.Bridge.Desk

namespace AlarmPanel

open Transport

theorem map_set_of_eq {α β : Type} {f : α → β} {l : List α} {k : Nat} {x y : α}
    (hk : l[k]? = some x) (h : f y = f x) : (l.set k y).map f = l.map f := by
  obtain ⟨hlt, rfl⟩ := List.getElem?_eq_some_iff.mp hk
  rw [List.map_set, h, ← List.map_set, List.set_getElem_self]

theorem filterMap_set_of_eq {α β : Type} {f : α → Option β} {l : List α} {k : Nat} {x y : α}
    (hk : l[k]? = some x) (h : f y = f x) : (l.set k y).filterMap f = l.filterMap f := by
  have hid (l : List α) : l.filterMap f = (l.map f).filterMap id := by
    rw [List.filterMap_map]
    rfl
  rw [hid, map_set_of_eq hk h, ← hid]

namespace Bridge

variable {b : Bridge} {e : Errand} {id : String} {q : Request} {a : Except PanelError Reading}

@[simp] theorem hub_publishAny (m : Option Message) : (b.publishAny m).hub = b.hub := by
  cases m <;> rfl

@[simp] theorem posted_publishAny (m : Option Message) :
    (b.publishAny m).posted = b.posted ++ m.toList := by
  cases m with
  | none => exact (List.append_nil _).symm
  | some m => exact List.map_append ..

@[simp] theorem dispatcher_publishAny (m : Option Message) :
    (b.publishAny m).dispatcher = b.dispatcher := by
  cases m <;> rfl

@[simp] theorem tracker_publishAny (m : Option Message) : (b.publishAny m).tracker = b.tracker := by
  cases m <;> rfl

theorem asks_of_onset (h : b.onset e = .request id q) : e.Asks q := by
  cases e with
  | order text i =>
    rw [onset] at h
    split at h
    case isTrue => cases h
    case isFalse =>
      split at h
      case h_1 c x hc hx =>
        cases h
        exact ⟨c, hc, rfl⟩
      case h_2 => cases h
  | poll binding p =>
    rw [onset] at h
    split at h
    · cases h
      exact (rfl : Errand.Asks (.poll binding p) (.poll p))
    · cases h

end Bridge

theorem Hub.place_mem {h : Hub} {id : String} {i : Nat} (hp : h.place id = .ok i) :
    (id, i) ∈ h.handles := by
  rw [place] at hp
  split at hp
  case h_2 => cases hp
  case h_1 j hj =>
    cases hp
    obtain ⟨p, hf, rfl⟩ := Option.map_eq_some_iff.mp hj
    have hx : p.1 = id := by simpa using List.find?_some hf
    exact hx ▸ List.mem_of_find?_eq_some hf

/-- Each device has gone on, and what it was asked and answered stays so. -/
def Later (lives lives' : List Life) : Prop :=
  ∀ (i : Nat) (l : Life), lives[i]? = some l →
    ∃ l' : Life, lives'[i]? = some l' ∧ l.asked <+: l'.asked ∧ l.device.answers <+: l'.device.answers

theorem Later.refl (lives : List Life) : Later lives lives :=
  fun _ l hl ↦ ⟨l, hl, List.prefix_rfl, List.prefix_rfl⟩

theorem later_append (lives : List Life) (l : Life) : Later lives (lives ++ [l]) :=
  fun _ l' hl ↦ ⟨l', getElem?_concat_iff.mpr (.inl hl), List.prefix_rfl, List.prefix_rfl⟩

theorem later_set {lives : List Life} {i : Nat} {l : Life} {o : Occurrence Link}
    (hl : lives[i]? = some l) (ho : o.Leaves Recording.sent) :
    Later lives (lives.set i (l.next o ho)) := by
  intro j l' hj
  by_cases hij : i = j
  · subst hij
    cases hl.symm.trans hj
    refine ⟨_, List.getElem?_set_self (List.getElem?_eq_some_iff.mp hl).1, ?_, Life.answers_next ho⟩
    rw [Life.asked_next]
    exact List.prefix_append _ _
  · exact ⟨l', by rwa [List.getElem?_set_ne hij], List.prefix_rfl, List.prefix_rfl⟩

namespace Desk

variable {s s' : Desk} {lives lives' : List Life} {i k : Nat} {e : Errand} {o : Occurrence Link}

structure Books (s : Desk) (lives : List Life) : Prop where
  devices : s.bridge.hub.devices = lives.map Life.device
  known : ∀ p ∈ s.bridge.hub.handles, p.2 < lives.length
  asked : ∀ t ∈ s.tasks, ∀ i n, t.slip? = some (i, n) →
    ∃ l q, lives[i]? = some l ∧ t.errand.Asks q ∧ ⟨n, q⟩ ∈ l.asked
  answered : ∀ t ∈ s.tasks, ∀ i n a, t.stage = .answered i n a →
    ∃ l, lives[i]? = some l ∧ (n, a) ∈ l.device.answers
  distinct : (s.tasks.filterMap Task.slip?).Nodup

namespace Books

theorem start (d : Dispatcher) (c : Client) : Books (Desk.start d c) [] where
  devices := rfl
  known _ hp := by cases hp
  asked _ ht := by cases ht
  answered _ ht := by cases ht
  distinct := List.nodup_nil

theorem later (hb : Books s lives) (hl : Later lives lives')
    (hd : s'.bridge.hub.devices = lives'.map Life.device)
    (hh : ∀ p ∈ s'.bridge.hub.handles, p.2 < lives'.length) (ht : s'.tasks = s.tasks) :
    Books s' lives' where
  devices := hd
  known := hh
  asked t hm i n hs := by
    obtain ⟨l, q, hi, ha, hq⟩ := hb.asked t (ht ▸ hm) i n hs
    obtain ⟨l', hi', hp, -⟩ := hl i l hi
    exact ⟨l', q, hi', ha, hp.subset hq⟩
  answered t hm i n a hs := by
    obtain ⟨l, hi, ha⟩ := hb.answered t (ht ▸ hm) i n a hs
    obtain ⟨l', hi', -, hp⟩ := hl i l hi
    exact ⟨l', hi', hp.subset ha⟩
  distinct := by
    rw [ht]
    exact hb.distinct

theorem congr (hb : Books s lives) (hh : s'.bridge.hub = s.bridge.hub) (ht : s'.tasks = s.tasks) :
    Books s' lives :=
  hb.later (.refl lives) (hh ▸ hb.devices) (hh ▸ hb.known) ht

theorem getElem?_devices (hb : Books s lives) (i : Nat) :
    s.bridge.hub.devices[i]? = lives[i]?.map Life.device := by
  rw [hb.devices, List.getElem?_map]

theorem happen (hb : Books s lives) (i : Nat) (ho : o.Leaves Recording.sent) :
    ∃ lives', Later lives lives' ∧ Books (s.onHub (·.change i (·.happen o))) lives' ∧
      ∀ l, lives[i]? = some l → lives'[i]? = some (l.next o ho) := by
  have hg := hb.getElem?_devices i
  cases hl : lives[i]? with
  | none =>
    rw [hl] at hg
    refine ⟨lives, .refl lives, hb.congr (Hub.change_of_none hg) rfl, fun l hl' ↦ ?_⟩
    cases hl'
  | some l =>
    rw [hl] at hg
    have hc := Hub.change_of_some (f := (·.happen o)) hg
    refine ⟨lives.set i (l.next o ho), later_set hl ho, hb.later (later_set hl ho) ?_ ?_ rfl,
      fun l' hl' ↦ ?_⟩
    · refine (congrArg Hub.devices hc).trans ?_
      rw [List.map_set, Life.device_next, ← hb.devices]
    · intro p hp
      rw [List.length_set]
      exact hb.known p ((congrArg Hub.handles hc) ▸ hp)
    · cases hl'
      exact List.getElem?_set_self (List.getElem?_eq_some_iff.mp hl).1

theorem concat {t : Task} (hb : Books s lives) (hh : s'.bridge.hub = s.bridge.hub)
    (ht : s'.tasks = s.tasks ++ [t]) (hans : ∀ i n a, t.stage ≠ .answered i n a)
    (hask : ∀ i n, t.slip? = some (i, n) → (i, n) ∉ s.tasks.filterMap Task.slip? ∧
      ∃ l q, lives[i]? = some l ∧ t.errand.Asks q ∧ ⟨n, q⟩ ∈ l.asked) : Books s' lives where
  devices := hh ▸ hb.devices
  known := hh ▸ hb.known
  asked u hm i n hs := by
    rw [ht] at hm
    rcases List.mem_append.mp hm with hm | hm
    · exact hb.asked u hm i n hs
    · cases List.mem_singleton.mp hm
      exact (hask i n hs).2
  answered u hm i n a hs := by
    rw [ht] at hm
    rcases List.mem_append.mp hm with hm | hm
    · exact hb.answered u hm i n a hs
    · cases List.mem_singleton.mp hm
      exact absurd hs (hans i n a)
  distinct := by
    rw [ht, List.filterMap_append]
    refine List.nodup_append.mpr ⟨hb.distinct, ?_, ?_⟩
    · cases hs : t.slip? <;> simp [hs]
    · rintro x hx y hy rfl
      obtain ⟨u, hu, hs⟩ := List.mem_filterMap.mp hy
      cases List.mem_singleton.mp hu
      exact (hask x.1 x.2 hs).1 hx

theorem concat_ended (hb : Books s lives) (hh : s'.bridge.hub = s.bridge.hub)
    (ht : s'.tasks = s.tasks ++ [⟨e, .ended⟩]) : Books s' lives :=
  hb.concat hh ht (fun _ _ _ h ↦ by cases h) fun _ _ h ↦ by cases h

theorem put {id : String} {q : Request} (hb : Books s lives) (hq : e.Asks q) :
    ∃ lives', Books (s.put e id q) lives' := by
  unfold Desk.put
  split
  case h_1 r _ => exact ⟨lives, hb.concat_ended (Bridge.hub_publishAny _) rfl⟩
  case h_2 i hp =>
    obtain ⟨l, hl⟩ : ∃ l, lives[i]? = some l :=
      ⟨_, List.getElem?_eq_getElem (hb.known _ (Hub.place_mem hp))⟩
    have hn : s.bridge.hub.issued i = l.device.issued := by
      rw [Hub.issued, hb.getElem?_devices, hl]
      rfl
    have hleaves : (Occurrence.submit q : Occurrence Link).Leaves Recording.sent := trivial
    obtain ⟨lives', -, hb', hi⟩ := hb.happen i hleaves
    refine ⟨lives', hb'.concat rfl rfl (fun _ _ _ h ↦ by cases h) fun j n hs ↦ ?_⟩
    cases hs
    refine ⟨fun hm ↦ ?_, _, q, hi l hl, hq, ?_⟩
    · obtain ⟨t, ht, hs⟩ := List.mem_filterMap.mp hm
      obtain ⟨l', q', hl', -, hq⟩ := hb.asked t ht i _ hs
      cases hl.symm.trans hl'
      exact absurd (Life.numbers_lt hq) (by omega)
    · rw [hn, Life.asked_next]
      exact List.mem_append_right _ (List.mem_singleton_self _)

theorem begin (hb : Books s lives) (e : Errand) : ∃ lives', Books (s.begin e) lives' := by
  unfold Desk.begin
  split
  case h_1 m _ => exact ⟨lives, hb.concat_ended (Bridge.hub_publishAny m) rfl⟩
  case h_2 id q ho => exact hb.put (Bridge.asks_of_onset ho)

theorem weigh (hb : Books s lives) (b : Binding) (p : Poll) : Books (s.weigh b p) lives := by
  unfold Desk.weigh
  split
  case h_1 => exact hb.concat_ended rfl rfl
  case h_2 => exact hb.congr rfl rfl

theorem conclude {n : Nat} {a : Except PanelError Reading} (hb : Books s lives)
    (hk : s.tasks[k]? = some ⟨e, .asked i n⟩) (ha : s.bridge.hub.answerTo? i n = some a) :
    Books { s.issue .polls (s.bridge.outcome a e) with tasks := s.tasks.set k ⟨e, .answered i n a⟩ }
      lives := by
  have hh : (s.issue .polls (s.bridge.outcome a e)).bridge.hub = s.bridge.hub := by simp
  have hold := List.mem_of_getElem? hk
  refine ⟨(congrArg Hub.devices hh).trans hb.devices, fun p hp ↦ ?_, fun t ht j m hs ↦ ?_,
    fun t ht j m r hs ↦ ?_, ?_⟩
  · exact hb.known p ((congrArg Hub.handles hh) ▸ hp)
  · rcases List.mem_or_eq_of_mem_set ht with ht | rfl
    · exact hb.asked t ht j m hs
    · exact hb.asked _ hold j m hs
  · rcases List.mem_or_eq_of_mem_set ht with ht | rfl
    · exact hb.answered t ht j m r hs
    · cases hs
      obtain ⟨d, hd, hr⟩ := Option.bind_eq_some_iff.mp ha
      rw [hb.getElem?_devices] at hd
      obtain ⟨l, hl, rfl⟩ := Option.map_eq_some_iff.mp hd
      exact ⟨l, hl, Device.mem_of_answerTo? hr⟩
  · rw [filterMap_set_of_eq hk (by rfl)]
    exact hb.distinct

/-- The answer to the request of an errand is the outcome of its exchange, or it was turned away. -/
theorem outcome_of_answerTo? {n : Nat} {a : Except PanelError Reading} (hb : Books s lives)
    (hk : s.tasks[k]? = some ⟨e, .asked i n⟩) (ha : s.bridge.hub.answerTo? i n = some a) :
    ∃ l q, e.Asks q ∧ ((∃ x ∈ Life.served l, x.ticket = ⟨n, q⟩ ∧ x.outcome? = some a) ∨
      a = .error .channelClosed ∨ a = .error .disconnected) := by
  obtain ⟨l, q, hl, hq, hm⟩ := hb.asked _ (List.mem_of_getElem? hk) i n rfl
  obtain ⟨d, hd, hr⟩ := Option.bind_eq_some_iff.mp ha
  rw [hb.getElem?_devices, hl] at hd
  cases hd
  exact ⟨l, q, hq, Life.outcome_of_mem (Device.mem_of_answerTo? hr) hm⟩

theorem does {m : Move} (hb : Books s lives) (hd : s.Does m s') : ∃ lives', Books s' lives' := by
  cases hd with
  | order => exact hb.begin _
  | @consider b p l =>
    have hb' : Books { s with agenda := l } lives := hb.congr rfl rfl
    exact ⟨lives, hb'.weigh b p⟩
  | @put b p =>
    have hb' : Books { s with chosen := none } lives := hb.congr rfl rfl
    exact hb'.put rfl
  | conclude hk ha => exact ⟨lives, hb.conclude hk ha⟩
  | relay n => exact ⟨lives, hb.congr (Bridge.hub_publishAny _) rfl⟩
  | happen i o leaves =>
    obtain ⟨lives', -, hb', -⟩ := hb.happen i leaves
    exact ⟨lives', hb'⟩
  | enter c t =>
    refine ⟨lives ++ [⟨c, t, s.bridge.hub.clock, [], by simp⟩], hb.later (later_append _ _) ?_ ?_ rfl⟩
    · rw [List.map_append, ← hb.devices]
      rfl
    · intro p hp
      rw [List.length_append]
      exact Nat.lt_succ_of_lt (hb.known p hp)
  | assign hh =>
    refine ⟨lives, hb.later (.refl lives) hb.devices (fun p hp ↦ ?_) rfl⟩
    have hp := hh p hp
    rwa [hb.devices, List.length_map] at hp
  | deliver => exact ⟨lives, hb.congr (by simp) (by simp)⟩
  | nothing | tick | note => exact ⟨lives, hb.congr rfl rfl⟩
  | pass => exact ⟨lives, hb.later (.refl lives) hb.devices hb.known rfl⟩

theorem run (hb : Books s lives) (moves : List Move) : ∃ lives', Books (s.run moves) lives' :=
  run_induction (p := fun s ↦ ∃ lives, Books s lives) ⟨lives, hb⟩
    (fun _ _ _ hd ⟨_, hb⟩ ↦ hb.does hd) moves

end Books

end Desk

end AlarmPanel
