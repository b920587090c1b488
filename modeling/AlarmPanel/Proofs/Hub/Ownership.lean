import AlarmPanel.Proofs.Hub.Everywhere
import Mathlib.Data.Fintype.EquivFin

namespace AlarmPanel

open Transport

namespace Hub

variable {x y : String} {h g : Hub} {d old : Device Link} {i j : Nat} {deeds : List Deed} {a : Deed}
  {ports : Ports}

theorem inOrder_history {id : String} (ho : InOrder id h) (hr : Throughout Returns h deeds)
    (hm : Throughout (fun h a ↦ ¬ Mixes id h a) h deeds) : InOrder id (h.history deeds) := by
  induction deeds generalizing h with
  | nil => exact ho
  | cons a deeds ih => exact ih (ho.act hr.1 hm.1) hr.2 hm.2

theorem Wired.mem_ids (hw : Wired h) (hx : x ∈ h.ids) : x ∈ h.configs.map DeviceConfig.id := by
  obtain ⟨c, hc⟩ := Option.isSome_iff_exists.mp (hw.config?_isSome_iff.mpr hx)
  obtain ⟨i, -, hi⟩ := Option.bind_eq_some_iff.mp hc
  rw [← hw.id_of_config? hc]
  exact List.mem_map_of_mem (List.mem_of_getElem? hi)

theorem not_mixes_of_notMem {id : String} (hw : Wired h)
    (hx : id ∉ (h.history deeds).configs.map DeviceConfig.id) :
    Throughout (fun h a ↦ ¬ Mixes id h a) h deeds := by
  induction deeds generalizing h with
  | nil => trivial
  | cons a deeds ih =>
    refine ⟨?_, ih (follows_act hw a).wired hx⟩
    rintro ⟨d, -, -, -, old, hg, -⟩
    obtain ⟨i, hp, -⟩ := Option.bind_eq_some_iff.mp hg
    have hm := hw.mem_ids (place?_isSome_iff.mp (by rw [hp]; rfl : (h.place? id).isSome))
    rw [configs_history hw, List.map_append] at hx
    exact hx (List.mem_append_left _ hm)

/-- Which devices are in use does not depend on the order of what is told under some identifier, so it is
enough to look at one that no device has. -/
theorem inUse_history (hr : Throughout Returns { ports } deeds) :
    InUse (history { ports } deeds).handles (history { ports } deeds).devices := by
  obtain ⟨id, hid⟩ := Infinite.exists_notMem_finset
    ((history { ports } deeds).configs.map DeviceConfig.id).toFinset
  rw [List.mem_toFinset] at hid
  have hm := not_mixes_of_notMem (wired_empty ports) hid
  exact (inOrder_history (inOrder_empty id ports) hr hm).inUse

theorem Entrant.numbered (e : Entrant) : e.device.Numbered :=
  Device.course_induction (Device.numbered_start _ _ _) fun o _ _ hd ↦ hd.happen o

theorem numbered_history (ports : Ports) (deeds : List Deed) :
    Everywhere (fun _ d ↦ d.Numbered) (history { ports } deeds) := by
  refine Everywhere.history (n := 0) (fun _ ↦ Device.lasting_numbered.persists) (fun a _ ↦ ?_)
    (wired_empty ports) (Nat.zero_le _) fun i d hd ↦ by cases hd
  exact ⟨fun c script now i _ ↦ Device.numbered_start _ _ _, fun e _ i _ ↦ e.numbered,
    fun i o _ _ d hd ↦ hd.happen o⟩

theorem goes_history (hw : Wired h) (hd : h.devices[i]? = some d) (deeds : List Deed) :
    ∃ e, (h.history deeds).devices[i]? = some e ∧ d.Goes e := by
  have hlt : i < h.devices.length := (List.getElem?_eq_some_iff.mp hd).1
  have hgoes : Everywhere (fun j e ↦ j = i → d.Goes e) (h.history deeds) := by
    refine Everywhere.history (n := h.devices.length) (fun j ↦ ?_) (fun a _ ↦ ?_) hw le_rfl ?_
    · by_cases hj : j = i
      · simpa [hj] using d.persists_goes
      · constructor <;> intros <;> contradiction
    · refine ⟨fun _ _ j hj hji ↦ ?_, fun _ _ j hj hji ↦ ?_, fun j o leaves _ e he hji ↦ ?_⟩
      · omega
      · omega
      · exact (he hji).trans (e.goes_happen leaves)
    · rintro j e he rfl
      cases hd.symm.trans he
      exact .refl d
  have hle := length_le_of_configs (configs_history hw deeds)
  have he := List.getElem?_eq_getElem (hlt.trans_le hle)
  exact ⟨_, he, hgoes i _ he rfl⟩

theorem request_of_isFinished (hd : h.devices[i]? = some d) (hn : d.Numbered)
    (hf : d.isFinished = true) (q : Request) :
    (h.request i q).1 = some (.error .disconnected) := by
  have hs : (d.submit q).isFinished = true := by
    rw [Device.isFinished, Device.status_submit]
    exact hf
  have hrun : (d.submit q).run = d.submit q :=
    Device.run_of_not_isReady (Device.not_isReady_of_isFinished hs)
  rw [request, hd]
  dsimp only
  rw [hrun, hn.answerTo?_submit hf q]

theorem clock_insert (h : Hub) (d : Device Link) : (h.insert d).clock = h.clock := by
  unfold insert
  dsimp only
  split
  · exact (clock_change _ _ _).trans (clock_change _ _ _)
  · rfl

theorem ports_change (h : Hub) (i : Nat) (f : Device Link → Device Link) :
    (h.change i f).ports = h.ports := by
  unfold change
  split <;> rfl

theorem ports_insert (h : Hub) (d : Device Link) : (h.insert d).ports = h.ports := by
  unfold insert
  dsimp only
  split
  · exact (ports_change _ _ _).trans (ports_change _ _ _)
  · rfl

theorem getElem?_insert_of_ne (hw : Wired h) (hi : h.devices[i]? = some old)
    (hp : h.place? d.config.id ≠ some i) : (h.insert d).devices[i]? = some old := by
  cases hx : h.place? d.config.id with
  | none =>
    rw [insert_of_none hx]
    exact getElem?_concat_iff.mpr (.inl hi)
  | some j =>
    obtain ⟨e, he, -⟩ := hw.exists_device hx
    rw [insert_of_some hx he]
    refine getElem?_concat_iff.mpr (.inl ?_)
    rwa [List.getElem?_set_ne fun hj ↦ hp (hx.trans (congrArg some hj))]

theorem getElem?_insert_of_mem (hw : Wired h) (hx : d.config.id ∈ h.ids) :
    (h.insert d).devices[h.devices.length]? = some d.run := by
  obtain ⟨j, hj⟩ := Option.isSome_iff_exists.mp (place?_isSome_iff.mpr hx)
  obtain ⟨e, he, -⟩ := hw.exists_device hj
  rw [insert_of_some hj he]
  exact getElem?_concat_iff.mpr (.inr ⟨(List.length_set ..).symm, rfl⟩)

/-- The devices under the identifiers `l` are started anew, and all others are left as they are. -/
structure Renews (l : List String) (h g : Hub) : Prop where
  kept : ∀ x, x ∉ l → g.place? x = h.place? x ∧
    ∀ i, h.place? x = some i → g.devices[i]? = h.devices[i]?
  fresh : ∀ x ∈ l, ∀ d, h.get? x = some d → ∃ j, h.devices.length ≤ j ∧ g.place? x = some j ∧
    g.devices[j]? = some (Device.start d.config (h.link j d.config) h.clock).run

theorem Wired.ne_of_place? (hw : Wired h) (hx : h.place? x = some i) (hy : h.place? y = some j)
    (hne : x ≠ y) : i ≠ j := by
  rintro rfl
  obtain ⟨d, hd, rfl⟩ := hw.exists_device hx
  obtain ⟨d', hd', rfl⟩ := hw.exists_device hy
  cases hd.symm.trans hd'
  exact hne rfl

theorem Wired.id_of_get? (hw : Wired h) (hg : h.get? x = some d) : d.config.id = x := by
  refine hw.id_of_config? ?_
  rw [config?_eq_get?, hg]
  rfl

theorem renews_reconnect (hw : Wired h) (x : String) : Renews [x] h (h.act (.reconnect x)) := by
  cases hg : h.get? x with
  | none =>
    rw [reconnect_of_none hg]
    refine ⟨fun _ _ ↦ ⟨rfl, fun _ _ ↦ rfl⟩, fun y hy d hd ↦ ?_⟩
    cases List.mem_singleton.mp hy
    cases hg.symm.trans hd
  | some d =>
    have hid : d.config.id = x := hw.id_of_get? hg
    obtain ⟨i, hp, hi⟩ := Option.bind_eq_some_iff.mp hg
    rw [reconnect_of_get? hg]
    refine ⟨fun y hy ↦ ?_, fun y hy e he ↦ ?_⟩
    · have hne : y ≠ x := fun he ↦ hy (List.mem_singleton.mpr he)
      have hpy := place?_insert
        (d := Device.start d.config (h.link h.devices.length d.config) h.clock) hw y
      rw [if_neg fun he ↦ hne (he.symm.trans hid)] at hpy
      refine ⟨hpy, fun j hj ↦ ?_⟩
      obtain ⟨e, he, -⟩ := hw.exists_device hj
      rw [he]
      refine getElem?_insert_of_ne hw he fun hxj ↦ ?_
      exact hw.ne_of_place? hj (hid ▸ hxj) hne rfl
    · cases List.mem_singleton.mp hy
      cases hg.symm.trans he
      refine ⟨h.devices.length, le_rfl, (place?_insert hw x).trans (if_pos hid), ?_⟩
      refine getElem?_insert_of_mem hw (place?_isSome_iff.mp ?_)
      exact (congrArg (fun z ↦ (h.place? z).isSome) hid).trans (by rw [hp]; rfl)

theorem clock_reconnect (h : Hub) (x : String) : (h.act (.reconnect x)).clock = h.clock := by
  cases hg : h.get? x with
  | none => rw [reconnect_of_none hg]
  | some d =>
    rw [reconnect_of_get? hg]
    exact clock_insert _ _

theorem ports_reconnect (h : Hub) (x : String) : (h.act (.reconnect x)).ports = h.ports := by
  cases hg : h.get? x with
  | none => rw [reconnect_of_none hg]
  | some d =>
    rw [reconnect_of_get? hg]
    exact ports_insert _ _

theorem get?_eq_of_kept (hp : g.place? x = h.place? x)
    (hd : ∀ i, h.place? x = some i → g.devices[i]? = h.devices[i]?) : g.get? x = h.get? x := by
  rw [get?, get?, hp]
  cases hx : h.place? x with
  | none => rfl
  | some i => exact hd i hx

theorem renews_reconnects (hw : Wired h) {l : List String} (hl : l.Nodup) :
    Renews l h (h.history (l.map .reconnect)) := by
  induction l generalizing h with
  | nil => exact ⟨fun _ _ ↦ ⟨rfl, fun _ _ ↦ rfl⟩, fun _ hx ↦ by cases hx⟩
  | cons x l ih =>
    obtain ⟨hx, hl⟩ := List.nodup_cons.mp hl
    have hone := renews_reconnect hw x
    have hall := ih (hw.reconnect x) hl
    have hstart := clock_reconnect h x
    have hlen := hw.length_le_act (.reconnect x)
    refine ⟨fun y hy ↦ ?_, fun y hy d hd ↦ ?_⟩
    · obtain ⟨hp, hk⟩ := hone.kept y fun he ↦ hy (List.mem_cons.mpr (.inl (List.mem_singleton.mp he)))
      obtain ⟨hp', hk'⟩ := hall.kept y fun he ↦ hy (List.mem_cons_of_mem x he)
      exact ⟨hp'.trans hp, fun i hi ↦ (hk' i (hp.trans hi)).trans (hk i hi)⟩
    · rcases List.mem_cons.mp hy with rfl | hy
      · obtain ⟨j, hj, hp, hd'⟩ := hone.fresh y (List.mem_singleton_self y) d hd
        obtain ⟨hp', hk'⟩ := hall.kept y hx
        exact ⟨j, hj, hp'.trans hp, (hk' j hp).trans hd'⟩
      · have hne : y ∉ [x] := by
          intro he
          cases List.mem_singleton.mp he
          exact hx hy
        obtain ⟨hp, hk⟩ := hone.kept y hne
        obtain ⟨j, hj, hp', hd'⟩ := hall.fresh y hy d ((get?_eq_of_kept hp hk).trans hd)
        rw [link, hstart, ports_reconnect] at hd'
        exact ⟨j, hlen.trans hj, hp', hd'⟩

/-- A restart replaces the devices that have stopped, and only those. -/
theorem restart_of_place? (hw : Wired h) (hp : h.place? x = some i) (hd : h.devices[i]? = some d) :
    if d.isFinished then
      ∃ j, h.devices.length ≤ j ∧ h.restart.place? x = some j ∧
        h.restart.devices[j]? = some (Device.start d.config (h.link j d.config) h.clock).run
    else h.restart.place? x = some i ∧ h.restart.devices[i]? = some d := by
  have hg : h.get? x = some d := Option.bind_eq_some_iff.mpr ⟨i, hp, hd⟩
  have hr := renews_reconnects hw
    (hw.unique.filter fun x ↦ (h.get? x).any Device.isFinished)
  rw [← restart_eq] at hr
  split
  case isTrue hf =>
    refine hr.fresh x (List.mem_filter.mpr ⟨?_, ?_⟩) d hg
    · exact place?_isSome_iff.mp (by rw [hp]; rfl)
    · rw [hg]
      exact hf
  case isFalse hf =>
    obtain ⟨hp', hd'⟩ := hr.kept x fun hm ↦ by
      have hany := (List.mem_filter.mp hm).2
      rw [hg] at hany
      exact hf hany
    exact ⟨hp'.trans hp, (hd' i hp).trans hd⟩

/-- What a hub owns after the deeds that were done to it. -/
structure Owns (ports : Ports) (deeds : List Deed) (h : Hub) : Prop where
  unique : h.ids.Nodup
  mem_ids_iff : ∀ x, x ∈ h.ids ↔ (roster deeds x).isSome
  config : ∀ x, (h.get? x).map Device.config = roster deeds x
  devices : h.devices.map Device.config = taken { ports } deeds
  goes : ∀ before after, deeds = before ++ after → ∀ (i : Nat) (d : Device Link),
    (history { ports } before).devices[i]? = some d → ∃ e, h.devices[i]? = some e ∧ d.Goes e
  retired : ∀ i d, h.devices[i]? = some d → (∀ p ∈ h.handles, p.2 ≠ i) →
    d.isFinished = true ∧ isOpen d.worker.transport = false ∧
      ∀ q, (h.request i q).1 = some (.error .disconnected)
  restart : ∀ x i d, h.place? x = some i → h.devices[i]? = some d →
    if d.isFinished then
      ∃ j, h.devices.length ≤ j ∧ h.restart.place? x = some j ∧
        h.restart.devices[j]? = some (Device.start d.config (h.link j d.config) h.clock).run
    else h.restart.place? x = some i ∧ h.restart.devices[i]? = some d
  unknown : ∀ x, roster deeds x = none →
    h.get x = .error (.unknownDevice x) ∧ h.place x = .error (.unknownDevice x) ∧
      h.reconnect x = .error (.unknownDevice x) ∧ h.remove x = .error (.unknownDevice x) ∧
        ∀ q, h.ask x q = (some (.error (.unknownDevice x)), h)

theorem unknown_of_notMem (hx : x ∉ h.ids) :
    h.get x = .error (.unknownDevice x) ∧ h.place x = .error (.unknownDevice x) ∧
      h.reconnect x = .error (.unknownDevice x) ∧ h.remove x = .error (.unknownDevice x) ∧
        ∀ q, h.ask x q = (some (.error (.unknownDevice x)), h) := by
  have hp : h.place? x = none := place?_eq_none_iff.mpr hx
  have hplace : h.place x = .error (.unknownDevice x) := by rw [place, hp]
  have hget : h.get x = .error (.unknownDevice x) := by rw [get, get?, hp, Option.bind_none]
  refine ⟨hget, hplace, ?_, ?_, fun q ↦ ?_⟩
  · rw [reconnect, hget]
    rfl
  · rw [remove, hplace]
    rfl
  · rw [ask, hplace]

/-- However devices are taken in, replaced, removed, restarted and shut down, and whatever they do in
between: a hub owns what was last taken in and not removed since, and nothing else. -/
theorem owns_history (hr : Throughout Returns { ports } deeds) :
    Owns ports deeds (history { ports } deeds) := by
  have hw : Wired (history { ports } deeds) := wired_history (wired_empty ports) deeds
  have hu := inUse_history hr
  have hc := config?_history_empty ports deeds
  have hmem (x : String) : x ∈ (history { ports } deeds).ids ↔ (roster deeds x).isSome := by
    rw [← hc]
    exact hw.config?_isSome_iff.symm
  refine ⟨hw.unique, hmem, fun x ↦ ?_, ?_, ?_, fun i d hd hn ↦ ?_, fun x i d ↦ restart_of_place? hw,
    fun x hx ↦ ?_⟩
  · rw [← config?_eq_get?, hc]
  · exact (configs_history (wired_empty ports) deeds).trans (List.nil_append _)
  · rintro before after rfl i d hd
    rw [history, List.foldl_append]
    exact goes_history (wired_history (wired_empty ports) before) hd after
  · have hf := hu.retired i d hd hn
    have hs := hu.sound i d hd
    exact ⟨hf, hs.worker.state_eq_isOpen.symm.trans (hs.stopped hf),
      request_of_isFinished hd (numbered_history ports deeds i d hd) hf⟩
  · refine unknown_of_notMem fun hm ↦ ?_
    rw [hmem, hx] at hm
    cases hm

def turnover : List Deed :=
  [.add { id := "a" }, .insert breaking, .add { id := "c" }, .run, .ask "a" (.poll .powerState),
    .add { id := "a", commandTimeout := 500 }, .remove "c", .restart]

theorem owns_history_turnover : Throughout Returns {} turnover ∧
    (history {} turnover).ids = ["a", "b"] ∧ (history {} turnover).devices.length = 5 ∧
    Owns (fun _ _ ↦ none) turnover (history {} turnover) := by
  have hr : Throughout Returns {} turnover := by decide +kernel
  exact ⟨hr, by decide +kernel, by decide +kernel, owns_history hr⟩

end Hub

end AlarmPanel
