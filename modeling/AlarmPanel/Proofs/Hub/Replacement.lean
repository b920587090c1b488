import AlarmPanel.Proofs.Hub.Upkeep

namespace AlarmPanel

namespace Hub

open Transport

variable {id x : String} {handles handles' : List (String × Nat)} {h : Hub}
  {d old : Device Link} {i : Nat} {f : Device Link → Device Link}

abbrev InOrder (id : String) (h : Hub) : Prop :=
  Orderly id h.handles h

theorem handles_change (h : Hub) (i : Nat) (f : Device Link → Device Link) :
    (h.change i f).handles = h.handles := by
  unfold change
  split <;> rfl

theorem log_change (h : Hub) (i : Nat) (f : Device Link → Device Link) :
    h.log <+: (h.change i f).log := by
  unfold change
  split
  · exact List.prefix_rfl
  · exact List.prefix_append _ _

theorem log_foldl {α : Type} {f : Hub → α → Hub} (hf : ∀ h a, h.log <+: (f h a).log) (l : List α)
    (h : Hub) : h.log <+: (l.foldl f h).log := by
  induction l generalizing h with
  | nil => exact List.prefix_rfl
  | cons a l ih => exact (hf h a).trans (ih (f h a))

theorem InOrder.change (ho : InOrder id h) (hf : ∀ d, h.devices[i]? = some d → d.Goes (f d)) :
    InOrder id (h.change i f) := by
  rw [InOrder, handles_change]
  exact Orderly.change ho hf

theorem InOrder.changeAll (ho : InOrder id h) (hf : ∀ d : Device Link, d.Goes (f d)) :
    InOrder id (h.changeAll f) := by
  unfold Hub.changeAll
  generalize List.range h.devices.length = l
  induction l generalizing h with
  | nil => exact ho
  | cons i l ih => exact ih (ho.change fun d _ ↦ hf d)

theorem InOrder.runUntil (ho : InOrder id h) (t : Nat) : InOrder id (h.runUntil t) := by
  have hc : InOrder id (h.changeAll (Device.runUntil · t)) :=
    ho.changeAll (Device.goes_runUntil t)
  exact ⟨hc.inUse, hc.alternates, hc.isUp_iff⟩

theorem InOrder.request (ho : InOrder id h) (i : Nat) (q : Request) :
    InOrder id (h.request i q).2 := by
  unfold Hub.request
  split
  case h_1 => exact ho
  case h_2 d hd =>
    refine InOrder.runUntil (ho.change fun d' hd' ↦ ?_) _
    cases hd.symm.trans hd'
    exact (d.goes_submit q).trans (Device.goes_run _)

theorem InOrder.settle (ho : InOrder id h) (i : Nat) : InOrder id (h.settle i) := by
  unfold Hub.settle
  split
  case h_1 => exact ho
  case h_2 d hd =>
    refine InOrder.runUntil (ho.change fun d' hd' ↦ ?_) _
    cases hd.symm.trans hd'
    exact d.goes_settle

theorem told_run_cancel (hs : d.Sound) (hn : d.status ≠ .spinning) : told d d.cancel.run =
    (if d.worker.connected then [News.disconnected] else []).map (Notice.mk d.config.id) := by
  rw [told, (Device.stopped_run_cancel hs hn).2, List.drop_left]

theorem Orderly.stop (ho : Orderly id handles h)
    (hn : ∀ d, h.devices[i]? = some d → d.status ≠ .spinning) (hs : handles'.Sublist handles)
    (hp : ∀ p ∈ handles, p ∉ handles' → p.2 = i) : Orderly id handles' (h.stop i) := by
  refine Orderly.sublist (Orderly.change ho fun d _ ↦ d.goes_run_cancel) hs ?_
  intro p hm hm' e he
  rw [hp p hm hm'] at he
  cases hd : h.devices[i]? with
  | none =>
    rw [Hub.stop, change_of_none hd, hd] at he
    cases he
  | some d =>
    rw [Hub.stop, change_of_some hd] at he
    rcases eq_or_of_getElem?_set he with ⟨-, rfl⟩ | ⟨hi, -⟩
    · exact (Device.stopped_run_cancel (ho.inUse.sound i d hd) (hn d hd)).1
    · exact absurd rfl hi

theorem Orderly.stop_release (ho : InOrder id h) (hm : (x, i) ∈ h.handles)
    (hn : ∀ d, h.get? x = some d → d.status ≠ .spinning) :
    Orderly id (h.handles.filter fun p ↦ p.1 ≠ x) (h.stop i) := by
  refine Orderly.stop ho ?_ List.filter_sublist ?_
  · intro d hd
    exact hn d ((get?_eq_some_iff ho.inUse.unique).mpr ⟨i, hm, hd⟩)
  · rintro ⟨y, j⟩ hp hp'
    obtain rfl : y = x := by simpa [hp] using hp'
    exact ho.inUse.eq_of_mem hp hm

/-- The device comes under an identifier whose device holds its line open, and has changes of its own to
tell as soon as it runs. -/
def Overtakes (id : String) (h : Hub) (d : Device Link) : Prop :=
  d.config.id = id ∧ d.run.worker.log.filter News.isChange ≠ [] ∧
    ∃ old ∈ h.get? id, old.worker.connected = true

instance (id : String) (h : Hub) (d : Device Link) : Decidable (Overtakes id h d) :=
  inferInstanceAs (Decidable (_ ∧ _ ∧ _))

theorem insert_of_none (hp : h.place? d.config.id = none) : h.insert d = { h with
    devices := h.devices ++ [d]
    handles := h.handles ++ [(d.config.id, h.devices.length)]
    log := h.log ++ d.worker.log.map (Notice.mk d.config.id) } := by
  simp only [insert, hp]

theorem insert_of_some (hp : h.place? d.config.id = some i) (hi : h.devices[i]? = some old) :
    h.insert d = { h with
      devices := h.devices.set i old.cancel.run ++ [d.run]
      handles := (h.handles.filter fun p ↦ p.1 ≠ d.config.id) ++
        [(d.config.id, h.devices.length)]
      log := h.log ++ d.worker.log.map (Notice.mk d.config.id) ++ told d d.run ++
        told old old.cancel.run } := by
  have hlt : i < h.devices.length := (List.getElem?_eq_some_iff.mp hi).1
  have hnew : (h.devices ++ [d])[h.devices.length]? = some d :=
    getElem?_concat_iff.mpr (.inr ⟨rfl, rfl⟩)
  have hold : (h.devices ++ [d.run])[i]? = some old := getElem?_concat_iff.mpr (.inl hi)
  have hset : (h.devices ++ [d]).set h.devices.length d.run = h.devices ++ [d.run] := by simp
  simp only [insert, hp, stop, release, change, hnew, hset, hold, List.set_append_left _ _ hlt]

/-- What the new device tells first comes before the closing of the old one's line. -/
theorem log_insert (hu : InUse h.handles h.devices) (hg : h.get? d.config.id = some old)
    (hn : old.status ≠ .spinning) : (h.insert d).log = h.log ++
      (d.run.worker.log ++ if old.worker.connected then [News.disconnected] else []).map
        (Notice.mk d.config.id) := by
  obtain ⟨i, hm, hi⟩ := (get?_eq_some_iff hu.unique).mp hg
  obtain ⟨added, hadded⟩ := d.goes_run.log
  rw [insert_of_some ((place?_eq_some_iff hu.unique).mpr hm) hi, told_run_cancel (hu.sound i old hi) hn,
    hu.id_of_mem hm hi, told, ← hadded, List.drop_left]
  simp [List.append_assoc]

theorem newsOf_insert (hu : InUse h.handles h.devices) (hg : h.get? d.config.id = some old)
    (hn : old.status ≠ .spinning) : newsOf id (h.insert d).log = newsOf id h.log ++
      if d.config.id = id then
        d.run.worker.log ++ if old.worker.connected then [News.disconnected] else []
      else [] := by
  rw [log_insert hu hg hn, newsOf_append, newsOf_map_mk]

theorem newsOf_stop (hu : InUse handles h.devices) (hi : h.devices[i]? = some old)
    (hn : old.status ≠ .spinning) : newsOf id (h.stop i).log = newsOf id h.log ++
      if old.config.id = id then if old.worker.connected then [News.disconnected] else []
      else [] := by
  rw [stop, change_of_some hi, newsOf_append, told_run_cancel (hu.sound i old hi) hn, newsOf_map_mk]

/-- A device that does not overtake the old one tells the same changes as if that had stopped first. -/
theorem changes_insert (hu : InUse h.handles h.devices) (hm : (d.config.id, i) ∈ h.handles)
    (hi : h.devices[i]? = some old) (hn : old.status ≠ .spinning) (hc : ¬ Overtakes id h d) :
    (newsOf id (h.insert d).log).filter News.isChange = (newsOf id (h.stop i).log ++
      if d.run.config.id = id then d.run.worker.log else []).filter News.isChange := by
  have hg : h.get? d.config.id = some old := (get?_eq_some_iff hu.unique).mpr ⟨i, hm, hi⟩
  rw [newsOf_insert hu hg hn, newsOf_stop hu hi hn, d.goes_run.config, hu.id_of_mem hm hi]
  by_cases hid : d.config.id = id
  · simp only [if_pos hid, List.filter_append]
    by_cases hconn : old.worker.connected = true
    · have hl : d.run.worker.log.filter News.isChange = [] := by
        by_contra hl
        exact hc ⟨hid, hl, old, hid ▸ hg, hconn⟩
      simp [hl]
    · simp [hconn]
  · simp [hid]

theorem InOrder.insert (ho : InOrder id h) (hd : d.Sound)
    (hn : ∀ old, h.get? d.config.id = some old → old.status ≠ .spinning)
    (hc : ¬ Overtakes id h d) : InOrder id (h.insert d) := by
  cases hp : h.place? d.config.id with
  | none =>
    have hx : d.config.id ∉ h.handles.map Prod.fst := by
      intro hm
      obtain ⟨p, hp', hx⟩ := List.mem_map.mp hm
      rw [← hx, (place?_eq_some_iff ho.inUse.unique).mpr hp'] at hp
      cases hp
    rw [insert_of_none hp]
    refine Orderly.concat ho hx hd rfl ?_
    rw [newsOf_append, newsOf_map_mk]
  | some i =>
    have hm : (d.config.id, i) ∈ h.handles := (place?_eq_some_iff ho.inUse.unique).mp hp
    obtain ⟨old, hi, -⟩ := ho.inUse.known _ hm
    have hold := hn old ((get?_eq_some_iff ho.inUse.unique).mpr ⟨i, hm, hi⟩)
    have hstop := Orderly.stop_release ho hm hn
    have hx : d.run.config.id ∉ (h.handles.filter fun p ↦ p.1 ≠ d.config.id).map Prod.fst := by
      rw [d.goes_run.config]
      simp
    have hdev : (h.insert d).devices = (h.stop i).devices ++ [d.run] := by
      rw [insert_of_some hp hi, stop, change_of_some hi]
    have hhandles : (h.insert d).handles = (h.handles.filter fun p ↦ p.1 ≠ d.config.id) ++
        [(d.run.config.id, (h.stop i).devices.length)] := by
      rw [insert_of_some hp hi, stop, change_of_some hi, List.length_set, d.goes_run.config]
    rw [InOrder, hhandles]
    exact Orderly.concat hstop hx (d.goes_run.sound hd) hdev (changes_insert ho.inUse hm hi hold hc)

theorem InOrder.not_alternates_insert (ho : InOrder id h) (hd : d.Sound)
    (hn : ∀ old, h.get? d.config.id = some old → old.status ≠ .spinning) (hc : Overtakes id h d) :
    ¬ News.Alternates (newsOf id (h.insert d).log) := by
  obtain ⟨rfl, hl, old, hg, hconn⟩ := hc
  have hu : News.IsUp (newsOf d.config.id h.log) :=
    ho.isUp_iff.mpr ((hasOpenLine_iff_get? ho.inUse).mpr ⟨old, hg, hconn⟩)
  intro ha
  rw [newsOf_insert ho.inUse hg (hn old hg), if_pos rfl, ← List.append_assoc] at ha
  exact News.not_alternates_append hu (d.goes_run.sound hd).worker.ordered.alternates hl ha.of_append

theorem log_insert_prefix (h : Hub) (d : Device Link) : h.log <+: (h.insert d).log := by
  let g : Hub := { h with
    devices := h.devices ++ [d]
    log := h.log ++ d.worker.log.map (Notice.mk d.config.id) }
  have hg : h.log <+: g.log := List.prefix_append _ _
  unfold insert
  dsimp only
  split
  · exact hg.trans ((log_change g _ _).trans (log_change _ _ _))
  · exact hg

end Hub

end AlarmPanel
