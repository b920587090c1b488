import AlarmPanel.Proofs.Hub.History
import Mathlib.Logic.Function.Basic

namespace AlarmPanel

abbrev Roster := String → Option DeviceConfig

namespace Hub

variable {x y : String} {h g : Hub} {d e old : Device Link} {i j : Nat}
  {f : Device Link → Device Link} {a : Deed} {deeds : List Deed}

/-- What a deed changes on a roster. Starting a device again keeps its configuration. -/
def Deed.enroll : Deed → Roster → Roster
  | .add c, r => Function.update r c.id (some c)
  | .insert e, r => Function.update r e.config.id (some e.config)
  | .remove id, r => Function.update r id none
  | .shutdown, _ => fun _ ↦ none
  | .reconnect _, r | .restart, r | .happen .., r | .run, r | .runUntil _, r | .ask .., r
  | .settle _, r => r

/-- What was last taken in under each identifier and not removed since. -/
def roster (deeds : List Deed) : Roster :=
  deeds.foldl (fun r a ↦ a.enroll r) fun _ ↦ none

def configs (h : Hub) : List DeviceConfig :=
  h.devices.map Device.config

def config? (h : Hub) (x : String) : Option DeviceConfig :=
  (h.place? x).bind fun i ↦ h.configs[i]?

/-- The handles name devices by their identifiers, each identifier once. -/
structure Wired (h : Hub) : Prop where
  known : ∀ p ∈ h.handles, ∃ c, h.configs[p.2]? = some c ∧ c.id = p.1
  unique : h.ids.Nodup

theorem config?_eq_get? (h : Hub) (x : String) : h.config? x = (h.get? x).map Device.config := by
  rw [config?, get?, Option.map_bind]
  refine congrArg _ (funext fun i ↦ ?_)
  rw [configs, List.getElem?_map]
  rfl

theorem place?_eq_none_iff : h.place? x = none ↔ x ∉ h.ids := by
  rw [place?, Option.map_eq_none_iff, List.find?_eq_none, ids, List.mem_map, not_exists]
  exact forall_congr' fun p ↦ by rw [decide_eq_true_eq, not_and]

theorem place?_isSome_iff : (h.place? x).isSome ↔ x ∈ h.ids := by
  rw [← not_iff_not, Option.not_isSome_iff_eq_none, place?_eq_none_iff]

theorem Wired.exists_config (hw : Wired h) (hp : h.place? x = some i) :
    ∃ c, h.configs[i]? = some c ∧ c.id = x :=
  hw.known _ ((place?_eq_some_iff hw.unique).mp hp)

theorem Wired.exists_device (hw : Wired h) (hp : h.place? x = some i) :
    ∃ d, h.devices[i]? = some d ∧ d.config.id = x := by
  obtain ⟨c, hc, hx⟩ := hw.exists_config hp
  rw [configs, List.getElem?_map] at hc
  obtain ⟨d, hd, rfl⟩ := Option.map_eq_some_iff.mp hc
  exact ⟨d, hd, hx⟩

theorem Wired.config?_isSome_iff (hw : Wired h) : (h.config? x).isSome ↔ x ∈ h.ids := by
  rw [config?, ← place?_isSome_iff]
  cases hp : h.place? x with
  | none => rfl
  | some i =>
    obtain ⟨c, hc, -⟩ := hw.exists_config hp
    exact iff_of_true (by rw [Option.bind_some, hc]; rfl) rfl

theorem Wired.id_of_config? {c : DeviceConfig} (hw : Wired h) (hc : h.config? x = some c) :
    c.id = x := by
  obtain ⟨i, hp, hi⟩ := Option.bind_eq_some_iff.mp hc
  obtain ⟨c', hc', hx⟩ := hw.exists_config hp
  cases hi.symm.trans hc'
  exact hx

theorem Wired.congr (hw : Wired h) (hh : g.handles = h.handles) (hc : g.configs = h.configs) :
    Wired g where
  known p hp := by
    rw [hc]
    exact hw.known p (hh ▸ hp)
  unique := by
    rw [ids, hh]
    exact hw.unique

theorem config?_congr (hh : g.handles = h.handles) (hc : g.configs = h.configs) :
    g.config? = h.config? := by
  funext x
  rw [config?, config?, place?, place?, hh, hc]

theorem configs_change (hf : ∀ d, h.devices[i]? = some d → (f d).config = d.config) :
    (h.change i f).configs = h.configs := by
  cases hd : h.devices[i]? with
  | none => rw [change_of_none hd]
  | some d =>
    rw [change_of_some hd, configs, configs, List.map_set, hf d hd]
    obtain ⟨hi, rfl⟩ := List.getElem?_eq_some_iff.mp hd
    rw [← List.getElem_map Device.config (h := by rwa [List.length_map]), List.set_getElem_self]

theorem handles_changeAll (h : Hub) (f : Device Link → Device Link) :
    (h.changeAll f).handles = h.handles := by
  unfold changeAll
  generalize List.range h.devices.length = l
  induction l generalizing h with
  | nil => rfl
  | cons i l ih => exact (ih _).trans (handles_change h i f)

theorem configs_changeAll (hf : ∀ d, (f d).config = d.config) :
    (h.changeAll f).configs = h.configs := by
  unfold changeAll
  generalize List.range h.devices.length = l
  induction l generalizing h with
  | nil => rfl
  | cons i l ih => exact ih.trans (configs_change fun d _ ↦ hf d)

theorem handles_runUntil (h : Hub) (t : Nat) : (h.runUntil t).handles = h.handles :=
  handles_changeAll h _

theorem configs_runUntil (h : Hub) (t : Nat) : (h.runUntil t).configs = h.configs :=
  configs_changeAll fun d ↦ (d.goes_runUntil t).config

theorem configs_stop (h : Hub) (i : Nat) : (h.stop i).configs = h.configs :=
  configs_change fun d _ ↦ d.goes_run_cancel.config

theorem configs_stopAll (l : List (String × Nat)) (h : Hub) :
    (l.foldl (fun h p ↦ h.stop p.2) h).configs = h.configs := by
  induction l generalizing h with
  | nil => rfl
  | cons p l ih => exact (ih (h.stop p.2)).trans (configs_stop h p.2)

theorem handles_insert (hw : Wired h) : (h.insert d).handles =
    (h.handles.filter fun p ↦ p.1 ≠ d.config.id) ++ [(d.config.id, h.devices.length)] := by
  cases hp : h.place? d.config.id with
  | none =>
    have hx : ∀ p ∈ h.handles, p.1 ≠ d.config.id := by
      rintro p hm hx
      exact place?_eq_none_iff.mp hp (hx ▸ List.mem_map_of_mem hm)
    rw [insert_of_none hp, List.filter_eq_self.mpr (by simpa using hx)]
  | some i =>
    obtain ⟨old, hold, -⟩ := hw.exists_device hp
    rw [insert_of_some hp hold]

theorem configs_insert (hw : Wired h) : (h.insert d).configs = h.configs ++ [d.config] := by
  cases hp : h.place? d.config.id with
  | none =>
    rw [insert_of_none hp, configs, configs, List.map_append]
    rfl
  | some i =>
    obtain ⟨old, hold, -⟩ := hw.exists_device hp
    have hs := configs_stop h i
    rw [stop, change_of_some hold] at hs
    rw [insert_of_some hp hold, configs, List.map_append, ← hs, List.map_singleton,
      d.goes_run.config]
    rfl

theorem find?_other (hx : y ≠ x) (l : List (String × Nat)) :
    (l.find? fun p ↦ decide (decide (p.1 ≠ y) = true ∧ decide (p.1 = x) = true)) =
      l.find? fun p ↦ p.1 = x := by
  refine congrArg (List.find? · l) (funext fun p ↦ ?_)
  by_cases hp : p.1 = x
  · simp [hp, Ne.symm hx]
  · simp [hp]

theorem place?_insert (hw : Wired h) (x : String) : (h.insert d).place? x =
    if d.config.id = x then some h.devices.length else h.place? x := by
  rw [place?, handles_insert hw, List.find?_append, List.find?_filter]
  by_cases hx : d.config.id = x
  · subst hx
    rw [List.find?_eq_none.mpr (by simp)]
    simp
  · rw [if_neg hx, List.find?_cons_of_neg (by simpa using hx), List.find?_nil, Option.or_none,
      find?_other hx]
    rfl

theorem Wired.insert (hw : Wired h) : Wired (h.insert d) where
  known p hp := by
    rw [configs_insert hw]
    rw [handles_insert hw] at hp
    rcases List.mem_append.mp hp with hp | hp
    · obtain ⟨c, hc, hx⟩ := hw.known p (List.mem_of_mem_filter hp)
      exact ⟨c, getElem?_concat_iff.mpr (.inl hc), hx⟩
    · obtain rfl := List.mem_singleton.mp hp
      exact ⟨d.config, getElem?_concat_iff.mpr (.inr ⟨by rw [configs, List.length_map], rfl⟩), rfl⟩
  unique := by
    rw [ids, handles_insert hw, List.map_append, List.nodup_append]
    refine ⟨hw.unique.sublist (List.filter_sublist.map _), by simp, ?_⟩
    rintro y hy z hz rfl
    obtain ⟨p, hp, rfl⟩ := List.mem_map.mp hy
    have hne := (List.mem_filter.mp hp).2
    simp_all

theorem config?_insert (hw : Wired h) :
    (h.insert d).config? = Function.update h.config? d.config.id (some d.config) := by
  funext x
  rw [config?, place?_insert hw, configs_insert hw]
  by_cases hx : d.config.id = x
  · subst hx
    rw [if_pos rfl, Function.update_self, Option.bind_some, configs, ← List.length_map Device.config,
      List.getElem?_concat_length]
  · rw [if_neg hx, Function.update_of_ne (Ne.symm hx), config?]
    cases hp : h.place? x with
    | none => rfl
    | some i =>
      obtain ⟨c, hc, -⟩ := hw.exists_config hp
      rw [Option.bind_some, Option.bind_some, hc]
      exact getElem?_concat_iff.mpr (.inl hc)

theorem place?_release (x y : String) :
    (h.release x).place? y = if x = y then none else h.place? y := by
  rw [place?, release, List.find?_filter]
  by_cases hx : x = y
  · subst hx
    rw [List.find?_eq_none.mpr (by simp), if_pos rfl]
    rfl
  · rw [if_neg hx, find?_other hx]
    rfl

theorem Wired.release (hw : Wired h) (x : String) : Wired (h.release x) where
  known p hp := hw.known p (List.mem_of_mem_filter hp)
  unique := hw.unique.sublist (List.filter_sublist.map _)

theorem config?_release (h : Hub) (x : String) :
    (h.release x).config? = Function.update h.config? x none := by
  funext y
  rw [config?, place?_release]
  by_cases hx : x = y
  · subst hx
    rw [if_pos rfl, Function.update_self]
    rfl
  · rw [if_neg hx, Function.update_of_ne (Ne.symm hx)]
    rfl

theorem restart_eq (h : Hub) : h.restart = h.history
    ((h.ids.filter fun x ↦ (h.get? x).any Device.isFinished).map Deed.reconnect) := by
  rw [history, List.foldl_map]
  rfl

theorem reconnect_of_get? (hg : h.get? x = some d) : h.act (.reconnect x) = h.add d.config := by
  rw [act, reconnect_getD, hg]

theorem reconnect_of_none (hg : h.get? x = none) : h.act (.reconnect x) = h := by
  rw [act, reconnect_getD, hg]

theorem remove_of_place? (hp : h.place? x = some i) :
    h.act (.remove x) = (h.release x).stop i := by
  rw [act, remove, place, hp]
  rfl

theorem remove_of_none (hp : h.place? x = none) : h.act (.remove x) = h := by
  rw [act, remove, place, hp]
  rfl

theorem Wired.reconnect (hw : Wired h) (x : String) : Wired (h.act (.reconnect x)) := by
  cases hg : h.get? x with
  | none =>
    rw [reconnect_of_none hg]
    exact hw
  | some d =>
    rw [reconnect_of_get? hg]
    exact hw.insert

theorem config?_reconnect (hw : Wired h) (x : String) : (h.act (.reconnect x)).config? = h.config? := by
  cases hg : h.get? x with
  | none => rw [reconnect_of_none hg]
  | some d =>
    have hc : h.config? x = some d.config := by rw [config?_eq_get?, hg]; rfl
    rw [reconnect_of_get? hg, add, config?_insert hw, Function.update_eq_self_iff]
    exact (congrArg h.config? (hw.id_of_config? hc)).trans hc |>.symm

def taking (h : Hub) : Deed → List DeviceConfig
  | .add c => [c]
  | .insert e => [e.config]
  | .reconnect x => (h.config? x).toList
  | .restart => (h.ids.filter fun x ↦ (h.get? x).any Device.isFinished).filterMap h.config?
  | .remove _ | .shutdown | .happen .. | .run | .runUntil _ | .ask .. | .settle _ => []

def taken : Hub → List Deed → List DeviceConfig
  | _, [] => []
  | h, a :: deeds => h.taking a ++ taken (h.act a) deeds

theorem Entrant.config_device (e : Entrant) : e.device.config = e.config := by
  refine Device.course_induction (p := fun d ↦ d.config = e.config) rfl fun o ho d hd ↦ ?_
  exact (d.goes_happen (e.leaves o ho)).config.trans hd

structure Follows (h : Hub) (a : Deed) : Prop where
  wired : Wired (h.act a)
  config? : (h.act a).config? = a.enroll h.config?
  configs : (h.act a).configs = h.configs ++ h.taking a

theorem Follows.of_insert (hw : Wired h) (hg : h.act a = h.insert d)
    (he : a.enroll h.config? = Function.update h.config? d.config.id (some d.config))
    (ht : h.taking a = [d.config]) : Follows h a where
  wired := hg ▸ hw.insert
  config? := by rw [hg, config?_insert hw, he]
  configs := by rw [hg, configs_insert hw, ht]

theorem Follows.of_congr (hw : Wired h) (hh : (h.act a).handles = h.handles)
    (hc : (h.act a).configs = h.configs) (he : a.enroll h.config? = h.config?)
    (ht : h.taking a = []) : Follows h a where
  wired := hw.congr hh hc
  config? := by rw [config?_congr hh hc, he]
  configs := by rw [hc, ht, List.append_nil]

theorem follows_reconnect (hw : Wired h) (x : String) : Follows h (.reconnect x) where
  wired := hw.reconnect x
  config? := config?_reconnect hw x
  configs := by
    rw [taking, config?_eq_get?]
    cases hg : h.get? x with
    | none =>
      rw [reconnect_of_none hg]
      exact (List.append_nil _).symm
    | some d =>
      rw [reconnect_of_get? hg]
      exact configs_insert hw

theorem follows_reconnects (hw : Wired h) (l : List String) :
    Wired (h.history (l.map .reconnect)) ∧ (h.history (l.map .reconnect)).config? = h.config? ∧
      (h.history (l.map .reconnect)).configs = h.configs ++ l.filterMap h.config? := by
  induction l generalizing h with
  | nil => exact ⟨hw, rfl, (List.append_nil _).symm⟩
  | cons x l ih =>
    have hx := follows_reconnect hw x
    obtain ⟨hw', hc, hs⟩ := ih hx.wired
    have hkeep : (h.act (.reconnect x)).config? = h.config? := hx.config?
    refine ⟨hw', hc.trans hkeep, hs.trans ?_⟩
    rw [hx.configs, hkeep, taking, List.append_assoc]
    cases hx : h.config? x with
    | none => rw [List.filterMap_cons_none hx]; rfl
    | some c => rw [List.filterMap_cons_some hx]; rfl

theorem configs_request (h : Hub) (i : Nat) (q : Request) : (h.request i q).2.configs = h.configs := by
  unfold request
  split
  · rfl
  case h_2 d hd =>
    refine (configs_runUntil _ _).trans (configs_change fun d' hd' ↦ ?_)
    cases hd.symm.trans hd'
    exact ((d.goes_submit q).trans (Device.goes_run _)).config

theorem handles_request (h : Hub) (i : Nat) (q : Request) : (h.request i q).2.handles = h.handles := by
  unfold request
  split
  · rfl
  · exact (handles_runUntil _ _).trans (handles_change _ _ _)

theorem follows_shutdown (h : Hub) : Follows h .shutdown := by
  have hh : (h.act .shutdown).handles = [] := handles_stopAll _ _
  have hc : (h.act .shutdown).configs = h.configs := configs_stopAll _ { h with handles := [] }
  refine ⟨⟨fun p hp ↦ ?_, ?_⟩, funext fun x ↦ ?_, hc.trans (List.append_nil _).symm⟩
  · rw [hh] at hp
    cases hp
  · rw [ids, hh]
    exact List.nodup_nil
  · rw [config?, place?, hh]
    rfl

theorem follows_remove (hw : Wired h) (x : String) : Follows h (.remove x) := by
  cases hp : h.place? x with
  | none =>
    have hn : h.config? x = none := by rw [config?, hp]; rfl
    refine .of_congr hw (by rw [remove_of_none hp]) (by rw [remove_of_none hp]) ?_ rfl
    rw [Deed.enroll, Function.update_eq_self_iff, hn]
  | some i =>
    have hg := remove_of_place? hp
    have hh : (h.act (.remove x)).handles = (h.release x).handles := by
      rw [hg]
      exact handles_change _ _ _
    have hc : (h.act (.remove x)).configs = (h.release x).configs := by
      rw [hg]
      exact configs_stop _ i
    refine ⟨(hw.release x).congr hh hc, ?_, hc.trans (List.append_nil _).symm⟩
    rw [config?_congr hh hc, config?_release]
    rfl

theorem follows_act (hw : Wired h) (a : Deed) : Follows h a := by
  cases a with
  | add c => exact .of_insert hw rfl rfl rfl
  | insert e =>
    have hc : e.device.config = e.config := e.config_device
    refine .of_insert hw (d := e.device) rfl ?_ ?_ <;> rw [hc] <;> rfl
  | reconnect x => exact follows_reconnect hw x
  | remove x => exact follows_remove hw x
  | restart =>
    have hr : h.act .restart = _ := restart_eq h
    obtain ⟨hw', hc, hs⟩ := follows_reconnects hw
      (h.ids.filter fun x ↦ (h.get? x).any Device.isFinished)
    rw [← hr] at hw' hc hs
    exact ⟨hw', hc, hs⟩
  | shutdown => exact follows_shutdown h
  | happen i o leaves =>
    exact .of_congr hw (handles_change _ _ _)
      (configs_change fun d _ ↦ (d.goes_happen leaves).config) rfl rfl
  | run =>
    exact .of_congr hw (handles_changeAll _ _) (configs_changeAll fun d ↦ d.goes_run.config) rfl rfl
  | runUntil t => exact .of_congr hw (handles_runUntil h t) (configs_runUntil h t) rfl rfl
  | ask x q =>
    refine .of_congr hw ?_ ?_ rfl rfl <;> rw [act, ask] <;> split
    · exact handles_request h _ q
    · rfl
    · exact configs_request h _ q
    · rfl
  | settle i =>
    refine .of_congr hw ?_ ?_ rfl rfl <;> rw [act, settle] <;> split
    · rfl
    · exact (handles_runUntil _ _).trans (handles_change _ _ _)
    · rfl
    case h_2 d hd =>
      refine (configs_runUntil _ _).trans (configs_change fun d' hd' ↦ ?_)
      cases hd.symm.trans hd'
      exact d.goes_settle.config

theorem wired_empty (ports : Ports) : Wired { ports } where
  known _ hp := by cases hp
  unique := List.nodup_nil

theorem wired_history (hw : Wired h) (deeds : List Deed) : Wired (h.history deeds) := by
  induction deeds generalizing h with
  | nil => exact hw
  | cons a deeds ih => exact ih (follows_act hw a).wired

theorem config?_history (hw : Wired h) (deeds : List Deed) :
    (h.history deeds).config? = deeds.foldl (fun r a ↦ a.enroll r) h.config? := by
  induction deeds generalizing h with
  | nil => rfl
  | cons a deeds ih =>
    have ha := follows_act hw a
    refine (ih ha.wired).trans ?_
    rw [ha.config?]
    rfl

/-- The configurations of a hub are those last taken in, whatever was done to it. -/
theorem config?_history_empty (ports : Ports) (deeds : List Deed) :
    (history { ports } deeds).config? = roster deeds :=
  config?_history (wired_empty ports) deeds

theorem configs_history (hw : Wired h) (deeds : List Deed) :
    (h.history deeds).configs = h.configs ++ h.taken deeds := by
  induction deeds generalizing h with
  | nil => exact (List.append_nil _).symm
  | cons a deeds ih =>
    have ha := follows_act hw a
    refine (ih ha.wired).trans ?_
    rw [ha.configs, taken, List.append_assoc]

end Hub

end AlarmPanel
