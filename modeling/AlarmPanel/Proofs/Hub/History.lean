import AlarmPanel.Proofs.Hub.Replacement

namespace AlarmPanel

namespace Hub

open Transport

/-- A device that was started on a closed line, and that has gone on since. -/
structure Entrant where
  config : DeviceConfig
  link : Link
  now : Nat := 0
  past : List (Occurrence Link) := []
  closed : isOpen link = false
  leaves : ∀ o ∈ past, o.Leaves isOpen

def Entrant.device (e : Entrant) : Device Link :=
  (Device.start e.config e.link e.now).course e.past

theorem Entrant.sound (e : Entrant) : e.device.Sound :=
  (Device.sound_start e.config e.now e.closed).course e.leaves

theorem isOpen_ofConfig (c : DeviceConfig) (script : Option ScriptedLine) :
    isOpen (Link.ofConfig c script) = false := by
  unfold Link.ofConfig
  split
  case h_3 => rfl
  all_goals cases script <;> rfl

/-- What is done to a hub, or happens to one of its devices. -/
inductive Deed where
  | add (c : DeviceConfig)
  | insert (e : Entrant)
  | reconnect (id : String)
  | remove (id : String)
  | restart
  | shutdown
  | happen (i : Nat) (o : Occurrence Link) (leaves : o.Leaves isOpen)
  | run
  | runUntil (t : Nat)
  | ask (id : String) (q : Request)
  | settle (i : Nat)

variable (h : Hub)

/-- A deed that is refused leaves the hub as it is. -/
def act : Deed → Hub
  | .add c => h.add c
  | .insert e => h.insert e.device
  | .reconnect id => (h.reconnect id).toOption.getD h
  | .remove id => (h.remove id).toOption.getD h
  | .restart => h.restart
  | .shutdown => h.shutdown
  | .happen i o _ => h.change i (·.happen o)
  | .run => h.run
  | .runUntil t => h.runUntil t
  | .ask id q => (h.ask id q).2
  | .settle i => h.settle i

def history (deeds : List Deed) : Hub :=
  deeds.foldl act h

/-- Every deed has the property in the hub that it meets. -/
def Throughout (p : Hub → Deed → Prop) : Hub → List Deed → Prop
  | _, [] => True
  | h, a :: deeds => p h a ∧ Throughout p (h.act a) deeds

instance decidableThroughout (p : Hub → Deed → Prop) [DecidableRel p] :
    ∀ (h : Hub) (deeds : List Deed), Decidable (Throughout p h deeds)
  | _, [] => inferInstanceAs (Decidable True)
  | h, a :: deeds =>
    have := decidableThroughout p (h.act a) deeds
    inferInstanceAs (Decidable (p h a ∧ Throughout p (h.act a) deeds))

/-- The device that a deed takes in. A restart takes devices in too, but only where one has stopped. -/
def entering? : Deed → Option (Device Link)
  | .add c => some (Device.start c (h.link h.devices.length c) h.clock)
  | .insert e => some e.device
  | .reconnect id =>
    (h.get? id).map fun d ↦ Device.start d.config (h.link h.devices.length d.config) h.clock
  | _ => none

def stopping : Deed → List String
  | .add c => [c.id]
  | .insert e => [e.device.config.id]
  | .reconnect id | .remove id => [id]
  | .shutdown => h.ids
  | _ => []

/-- A device that turns for ever does not come to see that it is to stop. -/
def Returns (h : Hub) (a : Deed) : Prop :=
  ∀ id ∈ h.stopping a, ∀ d ∈ h.get? id, d.status ≠ .spinning

instance : DecidableRel Returns := fun h a ↦
  inferInstanceAs (Decidable (∀ id ∈ h.stopping a, ∀ d ∈ h.get? id, d.status ≠ .spinning))

/-- The deed takes a device in that opens its line while that of the one before is open. -/
def Mixes (id : String) (h : Hub) (a : Deed) : Prop :=
  ∃ d ∈ h.entering? a, Overtakes id h d

instance (id : String) : DecidableRel (Mixes id) := fun h a ↦
  inferInstanceAs (Decidable (∃ d ∈ h.entering? a, Overtakes id h d))

variable {h} {id : String} {a : Deed} {deeds : List Deed} {d : Device Link}

theorem reconnect_getD (id : String) : (h.reconnect id).toOption.getD h =
    match h.get? id with
    | some d => h.add d.config
    | none => h := by
  unfold reconnect get
  cases h.get? id <;> rfl

theorem log_stop (h : Hub) (i : Nat) : h.log <+: (h.stop i).log :=
  log_change _ _ _

theorem log_reconnect (h : Hub) (id : String) :
    h.log <+: ((h.reconnect id).toOption.getD h).log := by
  rw [reconnect_getD]
  split
  · exact log_insert_prefix _ _
  · exact List.prefix_rfl

theorem log_changeAll (h : Hub) (f : Device Link → Device Link) : h.log <+: (h.changeAll f).log :=
  log_foldl (fun _ _ ↦ log_change _ _ _) _ _

theorem log_act (h : Hub) (a : Deed) : h.log <+: (h.act a).log := by
  cases a with
  | add c => exact log_insert_prefix _ _
  | insert e => exact log_insert_prefix _ _
  | reconnect id => exact log_reconnect h id
  | remove id =>
    rw [act, Hub.remove]
    cases h.place id with
    | error e => exact List.prefix_rfl
    | ok i => exact log_change (h.release id) i _
  | restart => exact log_foldl log_reconnect _ _
  | shutdown => exact log_foldl (fun h (p : String × Nat) ↦ log_stop h p.2) _ { h with handles := [] }
  | happen i o => exact log_change _ _ _
  | run => exact log_changeAll _ _
  | runUntil t => exact log_changeAll _ _
  | ask id q =>
    rw [act, ask]
    split
    · rw [request]
      split
      · exact List.prefix_rfl
      · exact (log_change _ _ _).trans (log_changeAll _ _)
    · exact List.prefix_rfl
  | settle i =>
    rw [act, settle]
    split
    · exact List.prefix_rfl
    · exact (log_change _ _ _).trans (log_changeAll _ _)

theorem log_history (h : Hub) (deeds : List Deed) : h.log <+: (h.history deeds).log :=
  log_foldl log_act deeds h

theorem getElem?_devices_change {f : Device Link → Device Link} {i j : Nat} (hij : i ≠ j) :
    (h.change i f).devices[j]? = h.devices[j]? := by
  unfold change
  split
  · rfl
  · exact List.getElem?_set_ne hij

theorem InOrder.stop (ho : InOrder id h) {x : String} {i : Nat} (hm : (x, i) ∈ h.handles)
    (hn : ∀ d, h.get? x = some d → d.status ≠ .spinning) : InOrder id ((h.release x).stop i) := by
  have hs : (h.release x).stop i = (h.stop i).release x := by
    unfold Hub.stop Hub.change
    dsimp only [release]
    split <;> rfl
  have hk := Orderly.stop_release ho hm hn
  rw [hs, InOrder, release, Hub.stop, handles_change]
  exact ⟨hk.inUse, hk.alternates, hk.isUp_iff⟩

theorem Orderly.stopAll {l : List (String × Nat)} (ho : Orderly id l h)
    (hn : ∀ p ∈ l, ∀ d, h.devices[p.2]? = some d → d.status ≠ .spinning) :
    Orderly id [] (l.foldl (fun h p ↦ h.stop p.2) h) := by
  induction l generalizing h with
  | nil => exact ho
  | cons p l ih =>
    have ho' : Orderly id l (h.stop p.2) := by
      refine Orderly.stop ho (hn p List.mem_cons_self) (List.sublist_cons_self p l) ?_
      intro q hq hq'
      rcases List.mem_cons.mp hq with rfl | hq
      · rfl
      · exact absurd hq hq'
    refine ih ho' fun q hq d hd ↦ hn q (List.mem_cons_of_mem p hq) d ?_
    have hpq : p.2 ≠ q.2 := by
      intro he
      obtain ⟨d', hd', hp⟩ := ho.inUse.known p List.mem_cons_self
      have hq' := ho.inUse.id_of_mem (List.mem_cons_of_mem p hq) (he ▸ hd')
      have hnd := (List.nodup_cons.mp ho.inUse.unique).1
      exact hnd (List.mem_map.mpr ⟨q, hq, hq'.symm.trans hp⟩)
    exact (getElem?_devices_change hpq).symm.trans hd

theorem handles_stopAll (l : List (String × Nat)) (h : Hub) :
    (l.foldl (fun h p ↦ h.stop p.2) h).handles = h.handles := by
  induction l generalizing h with
  | nil => rfl
  | cons p l ih => exact (ih (h.stop p.2)).trans (handles_change h p.2 _)

theorem InOrder.shutdown (ho : InOrder id h)
    (hn : ∀ x ∈ h.ids, ∀ d, h.get? x = some d → d.status ≠ .spinning) : InOrder id h.shutdown := by
  have hs : Orderly id h.handles { h with handles := [] } := ⟨ho.inUse, ho.alternates, ho.isUp_iff⟩
  rw [InOrder, Hub.shutdown, handles_stopAll]
  refine hs.stopAll fun p hp d hd ↦ ?_
  exact hn p.1 (List.mem_map_of_mem hp) d ((get?_eq_some_iff ho.inUse.unique).mpr ⟨p.2, hp, hd⟩)

theorem get?_of_insert (ho : InOrder id h) (hi : InOrder id (h.insert d)) {x : String}
    {e : Device Link} (hx : d.config.id ≠ x) (hg : (h.insert d).get? x = some e) :
    h.get? x = some e := by
  obtain ⟨i, hm, hd⟩ := (get?_eq_some_iff hi.inUse.unique).mp hg
  refine (get?_eq_some_iff ho.inUse.unique).mpr ⟨i, ?_⟩
  cases hp : h.place? d.config.id with
  | none =>
    rw [insert_of_none hp] at hm hd
    have hm' : (x, i) ∈ h.handles := by simpa [hx.symm] using hm
    obtain ⟨d', hd', -⟩ := ho.inUse.known _ hm'
    cases (getElem?_concat_iff.mpr (.inl hd')).symm.trans hd
    exact ⟨hm', hd'⟩
  | some j =>
    obtain ⟨old, hold, hid⟩ := ho.inUse.known _ ((place?_eq_some_iff ho.inUse.unique).mp hp)
    rw [insert_of_some hp hold] at hm hd
    have hm' : (x, i) ∈ h.handles := by simpa [hx.symm] using hm
    obtain ⟨d', hd', -⟩ := ho.inUse.known _ hm'
    have hij : j ≠ i := by
      rintro rfl
      exact hx (hid.symm.trans (ho.inUse.id_of_mem hm' hold))
    have hset : (h.devices.set j old.cancel.run)[i]? = some d' :=
      (List.getElem?_set_ne hij).trans hd'
    cases (getElem?_concat_iff.mpr (.inl hset)).symm.trans hd
    exact ⟨hm', hd'⟩

/-- Starting a stopped device again is harmless: it holds no line open. -/
theorem InOrder.reconnectAll {l : List String} (ho : InOrder id h) (hl : l.Nodup)
    (hf : ∀ x ∈ l, ∀ d, h.get? x = some d → d.isFinished = true) :
    InOrder id (l.foldl (fun h x ↦ (h.reconnect x).toOption.getD h) h) := by
  induction l generalizing h with
  | nil => exact ho
  | cons x l ih =>
    obtain ⟨hx, hl⟩ := List.nodup_cons.mp hl
    rw [List.foldl_cons, reconnect_getD]
    cases hg : h.get? x with
    | none => exact ih ho hl fun y hy ↦ hf y (List.mem_cons_of_mem x hy)
    | some d =>
      have hid : d.config.id = x := id_of_get? ho.inUse hg
      have hfin : d.isFinished = true := hf x List.mem_cons_self d hg
      have hs : d.Sound := by
        obtain ⟨i, -, hd⟩ := (get?_eq_some_iff ho.inUse.unique).mp hg
        exact ho.inUse.sound i d hd
      have hi : InOrder id (h.add d.config) := by
        refine ho.insert (Device.sound_start _ _ (isOpen_ofConfig _ _)) ?_ ?_
        · intro old hold hspin
          cases (hid ▸ hg).symm.trans hold
          simp [Device.isFinished, hspin] at hfin
        · rintro ⟨rfl, -, old, hold, hc⟩
          cases (hid ▸ hg).symm.trans hold
          cases (hs.stopped hfin).symm.trans hc
      refine ih hi hl fun y hy e he ↦ ?_
      refine hf y (List.mem_cons_of_mem x hy) e (get?_of_insert ho hi ?_ he)
      rintro rfl
      exact hx (hid ▸ hy)

theorem InOrder.restart (ho : InOrder id h) : InOrder id h.restart := by
  refine ho.reconnectAll (ho.inUse.unique.filter _) fun x hx d hd ↦ ?_
  have hf := (List.mem_filter.mp hx).2
  rw [hd] at hf
  exact hf

theorem act_of_entering? (hu : InUse h.handles h.devices) (hd : h.entering? a = some d) :
    h.act a = h.insert d ∧ d.Sound ∧ d.config.id ∈ h.stopping a := by
  cases a with
  | add c =>
    cases hd
    exact ⟨rfl, Device.sound_start _ _ (isOpen_ofConfig c _), List.mem_singleton_self _⟩
  | insert e =>
    cases hd
    exact ⟨rfl, e.sound, List.mem_singleton_self _⟩
  | reconnect x =>
    obtain ⟨old, hg, rfl⟩ := Option.map_eq_some_iff.mp hd
    refine ⟨?_, Device.sound_start _ _ (isOpen_ofConfig _ _), ?_⟩
    · rw [act, reconnect_getD, hg]
      rfl
    · have hid := id_of_get? hu hg
      exact List.mem_singleton.mpr hid
  | remove | restart | shutdown | happen | run | runUntil | ask | settle => cases hd

theorem InOrder.remove (ho : InOrder id h) {x : String}
    (hn : ∀ d, h.get? x = some d → d.status ≠ .spinning) :
    InOrder id ((h.remove x).toOption.getD h) := by
  rw [Hub.remove, place]
  cases hp : h.place? x with
  | none => exact ho
  | some i => exact ho.stop ((place?_eq_some_iff ho.inUse.unique).mp hp) hn

theorem InOrder.ask (ho : InOrder id h) (x : String) (q : Request) : InOrder id (h.ask x q).2 := by
  unfold Hub.ask
  split
  · exact ho.request _ q
  · exact ho

theorem InOrder.act (ho : InOrder id h) (hr : Returns h a) (hm : ¬ Mixes id h a) :
    InOrder id (h.act a) := by
  cases hd : h.entering? a with
  | some d =>
    obtain ⟨hk, hs, hx⟩ := act_of_entering? ho.inUse hd
    rw [hk]
    exact ho.insert hs (hr _ hx) fun hc ↦ hm ⟨d, hd, hc⟩
  | none =>
    cases a with
    | add c => cases hd
    | insert e => cases hd
    | reconnect x =>
      rw [Hub.act, reconnect_getD, Option.map_eq_none_iff.mp hd]
      exact ho
    | remove x => exact ho.remove (hr x (List.mem_singleton_self x))
    | restart => exact ho.restart
    | shutdown => exact ho.shutdown hr
    | happen i o leaves => exact ho.change fun d _ ↦ d.goes_happen leaves
    | run => exact ho.changeAll Device.goes_run
    | runUntil t => exact ho.runUntil t
    | ask x q => exact ho.ask x q
    | settle i => exact ho.settle i

theorem InOrder.not_alternates_act (ho : InOrder id h) (hr : Returns h a) (hm : Mixes id h a) :
    ¬ News.Alternates (newsOf id (h.act a).log) := by
  obtain ⟨d, hd, hc⟩ := hm
  obtain ⟨hk, hs, hx⟩ := act_of_entering? ho.inUse hd
  rw [hk]
  exact ho.not_alternates_insert hs (hr _ hx) hc

theorem inOrder_empty (id : String) (ports : Ports) : InOrder id { ports } := by
  refine ⟨⟨?_, ?_, ?_, ?_⟩, ?_, ?_⟩ <;> simp [newsOf, News.Alternates, News.IsUp, HasOpenLine]

theorem alternates_history_iff_of_inOrder (ho : InOrder id h) (hr : Throughout Returns h deeds) :
    News.Alternates (newsOf id (h.history deeds).log) ↔
      Throughout (fun h a ↦ ¬ Mixes id h a) h deeds := by
  induction deeds generalizing h with
  | nil => exact iff_of_true ho.alternates trivial
  | cons a deeds ih =>
    obtain ⟨ha, hr⟩ := hr
    by_cases hm : Mixes id h a
    · refine iff_of_false (fun h' ↦ ?_) fun h' ↦ h'.1 hm
      -- what was told stays told, so the order cannot be mended later
      obtain ⟨l, hl⟩ := log_history (h.act a) deeds
      have hl' : newsOf id (h.history (a :: deeds)).log = newsOf id (h.act a).log ++ newsOf id l := by
        rw [← newsOf_append, hl]
        rfl
      rw [hl'] at h'
      exact ho.not_alternates_act ha hm h'.of_append
    · exact (ih (ho.act ha hm) hr).trans (and_iff_right hm).symm

/-- However the devices of a hub come, go and fail: the openings and closings told under an identifier
take turns, beginning with an opening, exactly if no device is taken in under it that tells of its own
line first while the line of the one before is open. -/
theorem alternates_history_iff {ports : Ports} (hr : Throughout Returns { ports } deeds) (id : String) :
    News.Alternates (newsOf id (history { ports } deeds).log) ↔
      Throughout (fun h a ↦ ¬ Mixes id h a) { ports } deeds :=
  alternates_history_iff_of_inOrder (inOrder_empty id ports) hr

def breaking : Entrant where
  config := { id := "b" }
  link := .scripted { queue := [.failure .disconnected] }
  closed := rfl
  leaves := by simp

def renewal : List Deed :=
  [.add { id := "a" }, .run, .remove "a", .add { id := "a" }, .insert breaking, .run, .restart, .run,
    .shutdown]

theorem alternates_renewal : Throughout Returns {} renewal ∧
    newsOf "a" (history {} renewal).log = [.connected, .disconnected, .connected, .disconnected] ∧
    News.Alternates (newsOf "a" (history {} renewal).log) := by
  have hr : Throughout Returns {} renewal := by decide +kernel
  refine ⟨hr, by decide +kernel, ?_⟩
  exact (alternates_history_iff hr "a").mpr (by decide +kernel)

def replacement : List Deed := [.add { id := "a" }, .run, .add { id := "a" }]

theorem not_alternates_replacement : Throughout Returns {} replacement ∧
    newsOf "a" (history {} replacement).log = [.connected, .connected, .disconnected] ∧
    ¬ News.Alternates (newsOf "a" (history {} replacement).log) := by
  have hn : newsOf "a" (history {} replacement).log = [.connected, .connected, .disconnected] := by
    decide +kernel
  refine ⟨by decide +kernel, hn, fun ha ↦ ?_⟩
  rw [hn] at ha
  cases ha 1 .connected rfl

end Hub

end AlarmPanel
