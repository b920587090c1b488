import AlarmPanel.Hub
import AlarmPanel.Proofs.Device.Growth
import Mathlib.Data.List.Nodup

namespace AlarmPanel

def newsOf (id : String) (log : List Notice) : List News :=
  (log.filter fun n ↦ n.device = id).map Notice.news

theorem newsOf_append (id : String) (log log' : List Notice) :
    newsOf id (log ++ log') = newsOf id log ++ newsOf id log' := by
  rw [newsOf, List.filter_append, List.map_append, newsOf, newsOf]

theorem newsOf_map_mk (id id' : String) (l : List News) :
    newsOf id (l.map (Notice.mk id')) = if id' = id then l else [] := by
  rw [newsOf, List.filter_map, List.map_map]
  by_cases h : id' = id <;> simp [h, Function.comp_def]

section

variable {α : Type} {l : List α} {a b : α} {i j : Nat}

theorem eq_or_of_getElem?_set (h : (l.set i a)[j]? = some b) :
    (j = i ∧ b = a) ∨ (j ≠ i ∧ l[j]? = some b) := by
  by_cases hj : j = i
  · subst hj
    rw [List.getElem?_set_self'] at h
    obtain ⟨c, -, rfl⟩ := Option.map_eq_some_iff.mp h
    exact .inl ⟨rfl, rfl⟩
  · rw [List.getElem?_set_ne (Ne.symm hj)] at h
    exact .inr ⟨hj, h⟩

theorem getElem?_concat_iff :
    (l ++ [a])[i]? = some b ↔ l[i]? = some b ∨ (i = l.length ∧ b = a) := by
  rw [List.getElem?_append]
  split
  case isTrue h =>
    refine ⟨.inl, ?_⟩
    rintro (hl | ⟨rfl, -⟩)
    · exact hl
    · exact absurd h (Nat.lt_irrefl _)
  case isFalse h =>
    rw [List.getElem?_singleton, List.getElem?_eq_none (Nat.le_of_not_lt h)]
    split
    case isTrue h' =>
      have hi : i = l.length := by omega
      simp [hi, eq_comm]
    case isFalse h' =>
      have hi : i ≠ l.length := by omega
      simp [hi]

end

namespace Hub

variable {id x : String} {handles handles' : List (String × Nat)} {devices : List (Device Link)}
  {d e old : Device Link} {i j : Nat}

/-- The handles name sound devices by their own identifiers. All other devices have stopped. -/
structure InUse (handles : List (String × Nat)) (devices : List (Device Link)) : Prop where
  sound : ∀ (i : Nat) (d : Device Link), devices[i]? = some d → d.Sound
  known : ∀ p ∈ handles, ∃ d, devices[p.2]? = some d ∧ d.config.id = p.1
  unique : (handles.map Prod.fst).Nodup
  retired : ∀ (i : Nat) (d : Device Link), devices[i]? = some d → (∀ p ∈ handles, p.2 ≠ i) →
    d.isFinished = true

/-- The device in use under an identifier holds its line open. -/
def HasOpenLine (id : String) (handles : List (String × Nat)) (devices : List (Device Link)) : Prop :=
  ∃ i d, (id, i) ∈ handles ∧ devices[i]? = some d ∧ d.worker.connected = true

namespace InUse

theorem eq_of_mem (h : InUse handles devices) (hi : (x, i) ∈ handles) (hj : (x, j) ∈ handles) :
    i = j :=
  congrArg Prod.snd (List.inj_on_of_nodup_map h.unique hi hj rfl)

theorem id_of_mem (h : InUse handles devices) (hm : (x, i) ∈ handles) (hd : devices[i]? = some d) :
    d.config.id = x := by
  obtain ⟨d', hd', hx⟩ := h.known _ hm
  cases hd.symm.trans hd'
  exact hx

theorem isFinished_of_notMem (h : InUse handles devices) (hd : devices[i]? = some d)
    (hm : (d.config.id, i) ∉ handles) : d.isFinished = true := by
  refine h.retired i d hd ?_
  rintro ⟨x, j⟩ hp rfl
  rw [h.id_of_mem hp hd] at hm
  exact hm hp

theorem hasOpenLine_iff (h : InUse handles devices) (hm : (x, i) ∈ handles)
    (hd : devices[i]? = some d) : HasOpenLine x handles devices ↔ d.worker.connected = true := by
  refine ⟨?_, fun hc ↦ ⟨i, d, hm, hd, hc⟩⟩
  rintro ⟨j, d', hm', hd', hc⟩
  cases h.eq_of_mem hm hm'
  cases hd.symm.trans hd'
  exact hc

theorem set (h : InUse handles devices) (hd : devices[i]? = some d) (hg : d.Goes e) :
    InUse handles (devices.set i e) where
  sound j d' hj := by
    rcases eq_or_of_getElem?_set hj with ⟨-, rfl⟩ | ⟨-, hj'⟩
    · exact hg.sound (h.sound i d hd)
    · exact h.sound j d' hj'
  known p hp := by
    obtain ⟨d', hd', hx⟩ := h.known p hp
    by_cases hi : i = p.2
    · subst hi
      cases hd.symm.trans hd'
      exact ⟨e, List.getElem?_set_self (List.getElem?_eq_some_iff.mp hd).1, hg.config ▸ hx⟩
    · exact ⟨d', by rwa [List.getElem?_set_ne hi], hx⟩
  unique := h.unique
  retired j d' hj hn := by
    rcases eq_or_of_getElem?_set hj with ⟨rfl, rfl⟩ | ⟨-, hj'⟩
    · exact (hg.finished (h.retired j d hd hn)).1
    · exact h.retired j d' hj' hn

theorem sublist (h : InUse handles devices) (hs : handles'.Sublist handles)
    (hf : ∀ p ∈ handles, p ∉ handles' → ∀ d, devices[p.2]? = some d → d.isFinished = true) :
    InUse handles' devices where
  sound := h.sound
  known p hp := h.known p (hs.subset hp)
  unique := h.unique.sublist (hs.map _)
  retired i d hd hn := by
    by_cases hp : ∀ p ∈ handles, p.2 ≠ i
    · exact h.retired i d hd hp
    · obtain ⟨p, hm, rfl⟩ : ∃ p ∈ handles, p.2 = i := by simpa using hp
      exact hf p hm (fun hm' ↦ hn p hm' rfl) d hd

theorem concat (h : InUse handles devices) (hx : e.config.id ∉ handles.map Prod.fst)
    (he : e.Sound) : InUse (handles ++ [(e.config.id, devices.length)]) (devices ++ [e]) where
  sound i d hd := by
    rcases getElem?_concat_iff.mp hd with hd | ⟨-, rfl⟩
    · exact h.sound i d hd
    · exact he
  known p hp := by
    rcases List.mem_append.mp hp with hp | hp
    · obtain ⟨d, hd, hi⟩ := h.known p hp
      exact ⟨d, getElem?_concat_iff.mpr (.inl hd), hi⟩
    · obtain rfl := List.mem_singleton.mp hp
      exact ⟨e, getElem?_concat_iff.mpr (.inr ⟨rfl, rfl⟩), rfl⟩
  unique := by
    rw [List.map_append, List.nodup_append]
    refine ⟨h.unique, by simp, ?_⟩
    rintro a ha b hb rfl
    obtain rfl : a = e.config.id := by simpa using hb
    exact hx ha
  retired i d hd hn := by
    rcases getElem?_concat_iff.mp hd with hd | ⟨rfl, -⟩
    · exact h.retired i d hd fun p hp ↦ hn p (List.mem_append_left _ hp)
    · exact absurd rfl (hn (e.config.id, devices.length) (by simp))

theorem hasOpenLine_concat_iff (h : InUse handles devices) (hx : x ≠ id) :
    HasOpenLine id (handles ++ [(x, devices.length)]) (devices ++ [e]) ↔
      HasOpenLine id handles devices := by
  constructor
  · rintro ⟨i, d, hm, hi, hc⟩
    rcases List.mem_append.mp hm with hm | hm
    · obtain ⟨d', hd', -⟩ := h.known _ hm
      cases (getElem?_concat_iff.mpr (.inl hd')).symm.trans hi
      exact ⟨i, d, hm, hd', hc⟩
    · cases List.mem_singleton.mp hm
      exact absurd rfl hx
  · rintro ⟨i, d, hm, hi, hc⟩
    exact ⟨i, d, List.mem_append_left _ hm, getElem?_concat_iff.mpr (.inl hi), hc⟩

end InUse

theorem hasOpenLine_set_iff (hm : (id, i) ∉ handles) :
    HasOpenLine id handles (devices.set i e) ↔ HasOpenLine id handles devices := by
  refine exists_congr fun j ↦ exists_congr fun d ↦ and_congr_right fun hj ↦ ?_
  have hij : i ≠ j := by
    rintro rfl
    exact hm hj
  rw [List.getElem?_set_ne hij]

/-- What was told under the identifier is in order. -/
structure Orderly (id : String) (handles : List (String × Nat)) (h : Hub) : Prop where
  inUse : InUse handles h.devices
  alternates : News.Alternates (newsOf id h.log)
  isUp_iff : News.IsUp (newsOf id h.log) ↔ HasOpenLine id handles h.devices

section

variable {h g : Hub} {f : Device Link → Device Link}

theorem change_of_none (hd : h.devices[i]? = none) : h.change i f = h := by
  rw [change, hd]

theorem change_of_some (hd : h.devices[i]? = some d) :
    h.change i f = { h with devices := h.devices.set i (f d), log := h.log ++ told d (f d) } := by
  rw [change, hd]

theorem clock_change (h : Hub) (i : Nat) (f : Device Link → Device Link) :
    (h.change i f).clock = h.clock := by
  unfold change
  split <;> rfl

theorem newsOf_told (id : String) (d e : Device Link) : newsOf id (told d e) =
    if d.config.id = id then e.worker.log.drop d.worker.log.length else [] :=
  newsOf_map_mk _ _ _

theorem Orderly.change (ho : Orderly id handles h)
    (hf : ∀ d, h.devices[i]? = some d → d.Goes (f d)) : Orderly id handles (h.change i f) := by
  cases hd : h.devices[i]? with
  | none =>
    rw [change_of_none hd]
    exact ho
  | some d =>
    have hg := hf d hd
    have hu := ho.inUse.set hd hg
    obtain ⟨added, hadded⟩ := hg.log
    have hnews : newsOf id (h.log ++ told d (f d)) =
        newsOf id h.log ++ if d.config.id = id then added else [] := by
      rw [newsOf_append, newsOf_told, ← hadded, List.drop_left]
    rw [change_of_some hd]
    by_cases hm : (id, i) ∈ handles
    · -- the log under the identifier goes on as the log of the device does
      have hd' : (h.devices.set i (f d))[i]? = some (f d) :=
        List.getElem?_set_self (List.getElem?_eq_some_iff.mp hd).1
      have hs := (ho.inUse.sound i d hd).worker
      have hs' := (hu.sound i (f d) hd').worker
      have hagree : News.IsUp (newsOf id h.log) ↔ News.IsUp d.worker.log :=
        ho.isUp_iff.trans ((ho.inUse.hasOpenLine_iff hm hd).trans hs.state_iff_isUp)
      rw [if_pos (ho.inUse.id_of_mem hm hd)] at hnews
      refine ⟨hu, ?_, ?_⟩
      · rw [hnews]
        refine ho.alternates.append_congr hagree ?_
        rw [hadded]
        exact hs'.ordered.alternates
      · rw [hnews, News.isUp_append_congr hagree, hadded, hu.hasOpenLine_iff hm hd',
          hs'.state_iff_isUp]
    · have hsilent : (if d.config.id = id then added else []) = [] := by
        split
        case isTrue hx =>
          rw [← hx] at hm
          have hl := (hg.finished (ho.inUse.isFinished_of_notMem hd hm)).2
          rw [← hadded] at hl
          simpa using hl
        case isFalse => rfl
      rw [hsilent, List.append_nil] at hnews
      exact ⟨hu, by rw [hnews]; exact ho.alternates,
        by rw [hnews, ho.isUp_iff, hasOpenLine_set_iff hm]⟩

theorem Orderly.sublist (ho : Orderly id handles h) (hs : handles'.Sublist handles)
    (hf : ∀ p ∈ handles, p ∉ handles' → ∀ d, h.devices[p.2]? = some d → d.isFinished = true) :
    Orderly id handles' h := by
  refine ⟨ho.inUse.sublist hs hf, ho.alternates, ho.isUp_iff.trans ⟨?_, ?_⟩⟩
  · rintro ⟨i, d, hm, hd, hc⟩
    by_cases hm' : (id, i) ∈ handles'
    · exact ⟨i, d, hm', hd, hc⟩
    · cases ((ho.inUse.sound i d hd).stopped (hf _ hm hm' d hd)).symm.trans hc
  · rintro ⟨i, d, hm, hd, hc⟩
    exact ⟨i, d, hs.subset hm, hd, hc⟩

/-- A device is taken in under an identifier that is free. Only the changes that are told matter. -/
theorem Orderly.concat (ho : Orderly id handles h) (hx : e.config.id ∉ handles.map Prod.fst)
    (he : e.Sound) (hd : g.devices = h.devices ++ [e])
    (hn : (newsOf id g.log).filter News.isChange = (newsOf id h.log ++
      if e.config.id = id then e.worker.log else []).filter News.isChange) :
    Orderly id (handles ++ [(e.config.id, h.devices.length)]) g := by
  have hu := ho.inUse.concat hx he
  have hlast : (h.devices ++ [e])[h.devices.length]? = some e :=
    getElem?_concat_iff.mpr (.inr ⟨rfl, rfl⟩)
  rw [← hd] at hu hlast
  by_cases hid : e.config.id = id
  · -- nothing is in use under the identifier, so the log goes on as a fresh one
    subst hid
    have hclosed : ¬ News.IsUp (newsOf e.config.id h.log) := by
      rw [ho.isUp_iff]
      rintro ⟨i, d, hm, -, -⟩
      exact hx (List.mem_map_of_mem hm)
    have hagree : News.IsUp (newsOf e.config.id h.log) ↔ News.IsUp [] :=
      iff_of_false hclosed (by simp [News.IsUp])
    rw [if_pos rfl] at hn
    refine ⟨hu, ?_, ?_⟩
    · rw [News.alternates_congr hn]
      exact ho.alternates.append_congr hagree he.worker.ordered.alternates
    · rw [News.isUp_congr hn, News.isUp_append_congr hagree, List.nil_append,
        hu.hasOpenLine_iff (List.mem_append_right _ (List.mem_singleton_self _)) hlast,
        he.worker.state_iff_isUp]
  · rw [if_neg hid, List.append_nil] at hn
    refine ⟨hu, (News.alternates_congr hn).mpr ho.alternates, ?_⟩
    rw [News.isUp_congr hn, ho.isUp_iff, hd, ho.inUse.hasOpenLine_concat_iff hid]

theorem place?_eq_some_iff (hn : h.ids.Nodup) : h.place? x = some i ↔ (x, i) ∈ h.handles := by
  rw [place?, Option.map_eq_some_iff]
  constructor
  · rintro ⟨p, hp, rfl⟩
    have hx : p.1 = x := by simpa using List.find?_some hp
    rw [← hx]
    exact List.mem_of_find?_eq_some hp
  · intro hm
    cases hf : h.handles.find? fun p ↦ p.1 = x with
    | none => exact absurd (List.find?_eq_none.mp hf _ hm) (by simp)
    | some p =>
      have hx : p.1 = x := by simpa using List.find?_some hf
      have hp : (x, p.2) ∈ h.handles := by
        rw [← hx]
        exact List.mem_of_find?_eq_some hf
      exact ⟨p, rfl, congrArg Prod.snd (List.inj_on_of_nodup_map hn hp hm rfl)⟩

theorem get?_eq_some_iff (hn : h.ids.Nodup) :
    h.get? x = some d ↔ ∃ i, (x, i) ∈ h.handles ∧ h.devices[i]? = some d := by
  rw [get?, Option.bind_eq_some_iff]
  exact exists_congr fun i ↦ and_congr_left' (place?_eq_some_iff hn)

theorem id_of_get? (hu : InUse h.handles h.devices) (hg : h.get? x = some d) : d.config.id = x := by
  obtain ⟨i, hm, hd⟩ := (get?_eq_some_iff hu.unique).mp hg
  exact hu.id_of_mem hm hd

theorem hasOpenLine_iff_get? (hu : InUse h.handles h.devices) : HasOpenLine id h.handles h.devices ↔
    ∃ d, h.get? id = some d ∧ d.worker.connected = true := by
  simp only [get?_eq_some_iff hu.unique, HasOpenLine]
  constructor
  · rintro ⟨i, d, hm, hd, hc⟩
    exact ⟨d, ⟨i, hm, hd⟩, hc⟩
  · rintro ⟨d, ⟨i, hm, hd⟩, hc⟩
    exact ⟨i, d, hm, hd, hc⟩

end

end Hub

end AlarmPanel
