import AlarmPanel.Proofs.Device.Lasting
import AlarmPanel.Proofs.Hub.Roster

namespace AlarmPanel

open Transport

/-- What a hub lets a device do leaves the property in place. -/
structure Device.Persists (p : Device Link → Prop) : Prop where
  submit : ∀ d q, p d → p (d.submit q)
  cancel : ∀ d, p d → p d.cancel
  run : ∀ d, p d → p d.run
  runUntil : ∀ d t, p d → p (d.runUntil t)
  settle : ∀ d, p d → p d.settle

theorem Device.Lasting.persists {p : Device Link → Prop} (hl : Lasting p) : Persists p where
  submit := hl.submit
  cancel := hl.cancel
  run _ := hl.run
  runUntil _ t := hl.runUntil t
  settle _ := hl.settle

theorem Device.persists_goes (d : Device Link) : Persists d.Goes where
  submit e q h := h.trans (e.goes_submit q)
  cancel e h := h.trans e.goes_cancel
  run e h := h.trans e.goes_run
  runUntil e t h := h.trans (e.goes_runUntil t)
  settle e h := h.trans e.goes_settle

namespace Hub

variable {h g : Hub} {p : Nat → Device Link → Prop} {f : Device Link → Device Link}
  {d : Device Link} {a : Deed} {deeds : List Deed}

def Everywhere (p : Nat → Device Link → Prop) (h : Hub) : Prop :=
  ∀ i d, h.devices[i]? = some d → p i d

namespace Everywhere

theorem congr (hp : Everywhere p h) (hd : g.devices = h.devices) : Everywhere p g := by
  intro i d hi
  exact hp i d (hd ▸ hi)

theorem change {i : Nat} (hp : Everywhere p h)
    (hf : ∀ d, h.devices[i]? = some d → p i d → p i (f d)) : Everywhere p (h.change i f) := by
  cases hd : h.devices[i]? with
  | none =>
    rw [change_of_none hd]
    exact hp
  | some d =>
    rw [change_of_some hd]
    intro j e he
    rcases eq_or_of_getElem?_set he with ⟨rfl, rfl⟩ | ⟨-, he⟩
    · exact hf d hd (hp j d hd)
    · exact hp j e he

theorem changeAll (hp : Everywhere p h) (hf : ∀ i d, p i d → p i (f d)) :
    Everywhere p (h.changeAll f) := by
  unfold Hub.changeAll
  generalize List.range h.devices.length = l
  induction l generalizing h with
  | nil => exact hp
  | cons i l ih => exact ih (hp.change fun d _ ↦ hf i d)

variable (hk : ∀ i, Device.Persists (p i))
include hk

theorem runUntil (hp : Everywhere p h) (t : Nat) : Everywhere p (h.runUntil t) :=
  (hp.changeAll fun i d ↦ (hk i).runUntil d t).congr rfl

theorem stop (hp : Everywhere p h) (i : Nat) : Everywhere p (h.stop i) :=
  hp.change fun d _ hd ↦ (hk i).run _ ((hk i).cancel d hd)

theorem request (hp : Everywhere p h) (i : Nat) (q : Request) : Everywhere p (h.request i q).2 := by
  unfold Hub.request
  split
  case h_1 => exact hp
  case h_2 d hd =>
    refine runUntil hk (hp.change fun e _ _ ↦ ?_) _
    exact (hk i).run _ ((hk i).submit d q (hp i d hd))

theorem settle (hp : Everywhere p h) (i : Nat) : Everywhere p (h.settle i) := by
  unfold Hub.settle
  split
  case h_1 => exact hp
  case h_2 d hd =>
    exact runUntil hk (hp.change fun e _ _ ↦ (hk i).settle d (hp i d hd)) _

theorem insert (hp : Everywhere p h) (hd : p h.devices.length d) : Everywhere p (h.insert d) := by
  have hg : Everywhere p { h with
      devices := h.devices ++ [d]
      log := h.log ++ d.worker.log.map (Notice.mk d.config.id) } := by
    intro i e he
    rcases getElem?_concat_iff.mp he with he | ⟨rfl, rfl⟩
    · exact hp i e he
    · exact hd
  unfold Hub.insert
  dsimp only
  split
  · exact (stop hk (hg.change fun e _ ↦ (hk _).run e) _).congr rfl
  · exact hg.congr rfl

theorem stopAll (hp : Everywhere p h) (l : List (String × Nat)) :
    Everywhere p (l.foldl (fun h x ↦ h.stop x.2) h) := by
  induction l generalizing h with
  | nil => exact hp
  | cons x l ih => exact ih (stop hk hp x.2)

end Everywhere

theorem length_le_of_configs {l : List DeviceConfig} (hc : g.configs = h.configs ++ l) :
    h.devices.length ≤ g.devices.length := by
  have hl := congrArg List.length hc
  rw [configs, configs, List.length_append, List.length_map, List.length_map] at hl
  omega

theorem Wired.length_le_act (hw : Wired h) (a : Deed) :
    h.devices.length ≤ (h.act a).devices.length :=
  length_le_of_configs (follows_act hw a).configs

/-- The devices that a deed takes in at a place from `n` on have the property, and what it lets happen
to a device from outside leaves it in place. -/
structure Admits (p : Nat → Device Link → Prop) (n : Nat) (a : Deed) : Prop where
  start : ∀ c script now i, n ≤ i → p i (Device.start c (Link.ofConfig c script) now)
  insert : ∀ e, a = .insert e → ∀ i, n ≤ i → p i e.device
  happen : ∀ i o leaves, a = .happen i o leaves → ∀ d, p i d → p i (d.happen o)

namespace Everywhere

variable {n : Nat} (hk : ∀ i, Device.Persists (p i))
include hk

theorem reconnectAll
    (hs : ∀ c script now i, n ≤ i → p i (Device.start c (Link.ofConfig c script) now)) (hw : Wired h)
    (hn : n ≤ h.devices.length) (hp : Everywhere p h) (l : List String) :
    Everywhere p (l.foldl (fun h x ↦ (h.reconnect x).toOption.getD h) h) := by
  induction l generalizing h with
  | nil => exact hp
  | cons x l ih =>
    refine ih (hw.reconnect x) (Nat.le_trans hn (hw.length_le_act (.reconnect x))) ?_
    have hx := reconnect_getD (h := h) x
    dsimp only at hx ⊢
    rw [hx]
    split
    · exact hp.insert hk (hs _ _ _ _ hn)
    · exact hp

theorem act (ha : Admits p n a) (hw : Wired h) (hn : n ≤ h.devices.length) (hp : Everywhere p h) :
    Everywhere p (h.act a) := by
  cases a with
  | add c => exact hp.insert hk (ha.start c _ _ _ hn)
  | insert e => exact hp.insert hk (ha.insert e rfl _ hn)
  | reconnect x => exact hp.reconnectAll hk ha.start hw hn [x]
  | remove x =>
    cases hx : h.place? x with
    | none => rwa [remove_of_none hx]
    | some i =>
      rw [remove_of_place? hx]
      exact stop hk (hp.congr (g := h.release x) rfl) i
  | restart => exact hp.reconnectAll hk ha.start hw hn _
  | shutdown => exact stopAll hk (hp.congr (g := { h with handles := [] }) rfl) h.handles
  | happen i o leaves => exact hp.change fun d _ ↦ ha.happen i o leaves rfl d
  | run => exact hp.changeAll fun i ↦ (hk i).run
  | runUntil t => exact hp.runUntil hk t
  | ask x q =>
    rw [Hub.act, Hub.ask]
    split
    · exact hp.request hk _ q
    · exact hp
  | settle i => exact hp.settle hk i

theorem history (ha : ∀ a ∈ deeds, Admits p n a) (hw : Wired h) (hn : n ≤ h.devices.length)
    (hp : Everywhere p h) : Everywhere p (h.history deeds) := by
  induction deeds generalizing h with
  | nil => exact hp
  | cons a deeds ih =>
    obtain ⟨ha, ha'⟩ := List.forall_mem_cons.mp ha
    exact ih ha' (follows_act hw a).wired (Nat.le_trans hn (hw.length_le_act a)) (hp.act hk ha hw hn)

end Everywhere

end Hub

end AlarmPanel
