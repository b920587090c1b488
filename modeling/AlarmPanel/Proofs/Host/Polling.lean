import AlarmPanel.Host.Config
import AlarmPanel.Proofs.Device.Directed
import AlarmPanel.Proofs.Hub.Everywhere

namespace AlarmPanel

open Transport

theorem mem_of_mapM_eq_ok {ε α β : Type} {f : α → Except ε β} {l : List α} {l' : List β}
    (h : l.mapM f = .ok l') :
    (∀ b ∈ l', ∃ a ∈ l, f a = .ok b) ∧ ∀ a ∈ l, ∃ b ∈ l', f a = .ok b := by
  induction l generalizing l' with
  | nil =>
    rw [List.mapM_nil] at h
    cases h
    simp
  | cons a l ih =>
    rw [List.mapM_cons] at h
    cases ha : f a with
    | error e =>
      rw [ha] at h
      cases h
    | ok b =>
      cases hl : l.mapM f with
      | error e =>
        rw [ha, hl] at h
        cases h
      | ok l₁ =>
        rw [ha, hl] at h
        cases h
        obtain ⟨hfrom, hto⟩ := ih hl
        simp only [List.forall_mem_cons, List.exists_mem_cons_iff]
        exact ⟨⟨.inl ha, fun b hb ↦ .inr (hfrom b hb)⟩, .inl ha, fun a ha ↦ .inr (hto a ha)⟩

namespace Hub

variable {h : Hub} {a : Deed} {deeds : List Deed} {i : Nat} {d : Device Link}

/-- No device comes under a new configuration or goes, and lines stay as suited as they are. -/
def Deed.Stays : Deed → Prop
  | .add _ | .insert _ | .remove _ | .shutdown => False
  | .happen _ o _ => ∀ b, o.Keeps (Suiting.Suits b)
  | .reconnect _ | .restart | .run | .runUntil _ | .ask .. | .settle _ => True

theorem Deed.Stays.enroll (ha : a.Stays) (r : Roster) : a.enroll r = r := by
  cases a with
  | add c | insert e | remove x | shutdown => cases ha
  | reconnect x | restart | happen i o leaves | run | runUntil t | ask x q | settle i => rfl

theorem config?_history_of_stays (hw : Wired h) (hs : ∀ a ∈ deeds, a.Stays) :
    (h.history deeds).config? = h.config? := by
  rw [config?_history hw]
  generalize h.config? = r
  induction deeds with
  | nil => rfl
  | cons a deeds ih =>
    obtain ⟨ha, hs⟩ := List.forall_mem_cons.mp hs
    rw [List.foldl_cons, ha.enroll]
    exact ih hs

theorem suited_history (hw : Wired h) (hp : Everywhere (fun _ d ↦ d.Suited) h)
    (hs : ∀ a ∈ deeds, a.Stays ∨ ∃ c, a = .add c) :
    Everywhere (fun _ d ↦ d.Suited) (h.history deeds) := by
  refine hp.history (n := 0) (fun _ ↦ Device.lasting_suited.persists) (fun a ha ↦ ?_) hw (Nat.zero_le _)
  refine ⟨fun c script now i _ ↦ Device.suited_start c now (Link.suits_ofConfig c script), ?_, ?_⟩
  · rintro e rfl
    rcases hs _ ha with hs | ⟨c, hc⟩
    · cases hs
    · cases hc
  · rintro i o leaves rfl d hd
    rcases hs _ ha with hs | ⟨c, hc⟩
    · exact hd.happen hs
    · cases hc

theorem isMisdirected_of_request (hd : h.devices[i]? = some d) (hs : d.Suited) {q : Request}
    {e : PanelError} (ha : (h.request i q).1 = some (.error e)) :
    e.isMisdirected d.config.interface.supportsCommands = false := by
  rw [request, hd] at ha
  have hr := (Device.lasting_suited.run (Device.suited_submit hs q)).answerTo? ha
  rwa [((d.goes_submit q).trans (Device.goes_run _)).config] at hr

theorem roster_adds (l : List DeviceConfig) (x : String) :
    roster (l.map .add) x = l.reverse.find? fun c ↦ c.id == x := by
  rw [roster, List.foldl_map, ← List.foldr_reverse]
  induction l.reverse with
  | nil => rfl
  | cons c l ih =>
    rw [List.foldr_cons, List.find?_cons]
    by_cases hx : c.id = x
    · subst hx
      rw [beq_self_eq_true]
      exact Function.update_self ..
    · rw [beq_eq_false_iff_ne.mpr hx]
      exact (Function.update_of_ne (Ne.symm hx) ..).trans ih

end Hub

namespace BindingEntry

variable {e : BindingEntry} {b : Binding} {l : List DeviceConfig}

/-- A binding polls what its entry asks for if the first device of its name takes commands. -/
theorem of_binding_eq_ok (h : e.binding l = .ok b) : b.device = e.device ∧
    ∃ d, (l.find? fun d ↦ d.id == e.device) = some d ∧
      (b.poll.isSome ↔ e.command.isSome ∧ d.interface.supportsCommands = true) := by
  rw [binding, deviceAmong] at h
  cases hd : l.find? fun d ↦ d.id == e.device with
  | none =>
    rw [hd] at h
    cases h
  | some d =>
    rw [hd] at h
    cases hn : e.pollName with
    | error err =>
      rw [hn] at h
      cases h
    | ok named =>
      rw [hn] at h
      cases ht : e.transformed with
      | error err =>
        rw [ht] at h
        cases h
      | ok t =>
        rw [ht] at h
        cases h
        refine ⟨rfl, d, rfl, ?_⟩
        have hi : named.isSome = e.command.isSome := by
          unfold pollName at hn
          split at hn
          case h_1 hc =>
            cases hn
            rw [hc]
            rfl
          case h_2 name hc =>
            split at hn <;> cases hn
            rw [hc]
            rfl
        rw [← hi]
        cases d.interface.supportsCommands <;> simp

end BindingEntry

namespace HostConfig

variable {f : HostFile} {c : HostConfig} {x : String}

/-- The device of a name that a binding is checked against. -/
def firstNamed (c : HostConfig) (x : String) : Option DeviceConfig :=
  c.devices.find? fun d ↦ d.id == x

def lastNamed (c : HostConfig) (x : String) : Option DeviceConfig :=
  c.devices.reverse.find? fun d ↦ d.id == x

/-- The device that polls of the binding reach takes commands. -/
def Reaches (c : HostConfig) (ports : Ports) (b : Binding) : Prop :=
  ∃ d, (c.hub ports).get? b.device = some d ∧ d.config.interface.supportsCommands = true

theorem hub_eq (c : HostConfig) (ports : Ports) :
    c.hub ports = Hub.history { ports } (c.devices.map .add) := by
  rw [hub, Hub.history, List.foldl_map]
  rfl

theorem wired_hub (c : HostConfig) (ports : Ports) : (c.hub ports).Wired := by
  rw [hub_eq]
  exact Hub.wired_history (Hub.wired_empty ports) _

theorem config?_hub (c : HostConfig) (ports : Ports) : (c.hub ports).config? = c.lastNamed := by
  rw [hub_eq, Hub.config?_history_empty]
  exact funext (Hub.roster_adds c.devices)

theorem suited_hub (c : HostConfig) (ports : Ports) :
    Hub.Everywhere (fun _ d ↦ d.Suited) (c.hub ports) := by
  rw [hub_eq]
  refine Hub.suited_history (Hub.wired_empty ports) (fun i d hd ↦ by cases hd) fun a ha ↦ ?_
  obtain ⟨d, -, rfl⟩ := List.mem_map.mp ha
  exact .inr ⟨d, rfl⟩

theorem reaches_iff {ports : Ports} {b : Binding} : c.Reaches ports b ↔
    ∃ d, c.lastNamed b.device = some d ∧ d.interface.supportsCommands = true := by
  rw [← c.config?_hub ports, Hub.config?_eq_get?, Reaches]
  simp

theorem isSome_lastNamed (c : HostConfig) (x : String) :
    (c.lastNamed x).isSome = (c.firstNamed x).isSome := by
  rw [Bool.eq_iff_iff, lastNamed, firstNamed, List.find?_isSome, List.find?_isSome]
  simp only [List.mem_reverse]

theorem find?_eq_some_iff_of_nodup {l : List DeviceConfig} (hn : (l.map DeviceConfig.id).Nodup)
    {x : String} {d : DeviceConfig} : (l.find? fun d ↦ d.id == x) = some d ↔ d ∈ l ∧ d.id = x := by
  refine ⟨fun h ↦ ⟨List.mem_of_find?_eq_some h, by simpa using List.find?_some h⟩, ?_⟩
  rintro ⟨hm, rfl⟩
  have hs : (l.find? fun e ↦ e.id == d.id).isSome :=
    List.find?_isSome.mpr ⟨d, hm, beq_iff_eq.mpr rfl⟩
  obtain ⟨d', hd'⟩ := Option.isSome_iff_exists.mp hs
  have hid : d'.id = d.id := by simpa using List.find?_some hd'
  rw [hd', List.inj_on_of_nodup_map hn (List.mem_of_find?_eq_some hd') hm hid]

theorem lastNamed_eq_firstNamed (hn : (c.devices.map DeviceConfig.id).Nodup) (x : String) :
    c.lastNamed x = c.firstNamed x := by
  have hr : (c.devices.reverse.map DeviceConfig.id).Nodup := by
    rw [List.map_reverse]
    exact List.nodup_reverse.mpr hn
  refine Option.ext fun d ↦ ?_
  rw [lastNamed, firstNamed, find?_eq_some_iff_of_nodup hr, find?_eq_some_iff_of_nodup hn,
    List.mem_reverse]

theorem of_ofFile_eq_ok (h : ofFile f = .ok c) :
    (∀ b ∈ c.bindings, ∃ e ∈ f.bindings, e.binding c.devices = .ok b) ∧
      ∀ e ∈ f.bindings, ∃ b ∈ c.bindings, e.binding c.devices = .ok b := by
  rw [ofFile] at h
  cases hd : f.devices.mapM DeviceEntry.config with
  | error e =>
    rw [hd] at h
    cases h
  | ok devices =>
    cases hb : f.bindings.mapM fun b ↦ b.binding devices with
    | error e =>
      rw [hd] at h
      simp only [bind, Except.bind, hb] at h
      cases h
    | ok bindings =>
      rw [hd] at h
      simp only [bind, Except.bind, hb] at h
      cases h
      exact mem_of_mapM_eq_ok hb

theorem exists_entry (h : ofFile f = .ok c) {b : Binding} (hb : b ∈ c.bindings) :
    ∃ e ∈ f.bindings, b.device = e.device ∧ ∃ d, c.firstNamed e.device = some d ∧
      (b.poll.isSome ↔ e.command.isSome ∧ d.interface.supportsCommands = true) := by
  obtain ⟨e, he, hbe⟩ := (of_ofFile_eq_ok h).1 b hb
  exact ⟨e, he, BindingEntry.of_binding_eq_ok hbe⟩

theorem isSome_firstNamed (h : ofFile f = .ok c) {b : Binding} (hb : b ∈ c.bindings) :
    (c.firstNamed b.device).isSome := by
  obtain ⟨e, -, hd, d, hf, -⟩ := exists_entry h hb
  rw [hd, hf]
  rfl

/-- All polls reach a device that takes commands exactly if, wherever a binding would poll, the last
device of the name takes commands if the first one does. -/
theorem forall_reaches_iff (h : ofFile f = .ok c) (ports : Ports) :
    (∀ b ∈ c.bindings, b.poll.isSome → c.Reaches ports b) ↔
      ∀ e ∈ f.bindings, e.command.isSome →
        ∀ d, c.firstNamed e.device = some d → d.interface.supportsCommands = true →
          ∀ d', c.lastNamed e.device = some d' → d'.interface.supportsCommands = true := by
  constructor
  · intro hr e he hc d hd hs d' hd'
    obtain ⟨b, hb, hbe⟩ := (of_ofFile_eq_ok h).2 e he
    obtain ⟨hdev, d₁, hd₁, hp⟩ := BindingEntry.of_binding_eq_ok hbe
    cases hd.symm.trans hd₁
    obtain ⟨d₂, hd₂, hs₂⟩ := reaches_iff.mp (hr b hb (hp.mpr ⟨hc, hs⟩))
    rw [hdev, hd'] at hd₂
    cases hd₂
    exact hs₂
  · intro hr b hb hp
    obtain ⟨e, he, hdev, d, hd, hiff⟩ := exists_entry h hb
    obtain ⟨hc, hs⟩ := hiff.mp hp
    obtain ⟨d', hd'⟩ := Option.isSome_iff_exists.mp
      ((c.isSome_lastNamed b.device).trans (isSome_firstNamed h hb))
    exact reaches_iff.mpr ⟨d', hd', hr e he hc d hd hs d' (hdev ▸ hd')⟩

/-- What the polls of a host that was set up from a file meet, whatever its serial ports bring. -/
structure Polling (f : HostFile) (c : HostConfig) (ports : Ports) : Prop where
  /-- The device of a binding is there, as the file gives it last. -/
  registered : ∀ b ∈ c.bindings,
    ∃ d, (c.hub ports).get? b.device = some d ∧ c.lastNamed b.device = some d.config
  reaches_iff : (∀ b ∈ c.bindings, b.poll.isSome → c.Reaches ports b) ↔
    ∀ e ∈ f.bindings, e.command.isSome →
      ∀ d, c.firstNamed e.device = some d → d.interface.supportsCommands = true →
        ∀ d', c.lastNamed e.device = some d' → d'.interface.supportsCommands = true
  reaches_of_nodup : (c.devices.map DeviceConfig.id).Nodup →
    ∀ b ∈ c.bindings, b.poll.isSome → c.Reaches ports b
  /-- While no device is taken out, a poll never finds its device missing, nor one that takes no
  commands where the last of its name does. -/
  answered : ∀ b ∈ c.bindings, ∀ p, b.poll = some p → ∀ deeds : List Hub.Deed, (∀ a ∈ deeds, a.Stays) →
    ∀ e, (((c.hub ports).history deeds).ask b.device (.poll p)).1 = some (.error e) →
      (∀ x, e ≠ .unknownDevice x) ∧ (c.Reaches ports b → ∀ o i, e ≠ .notImplemented o i)

theorem exists_place (hd : (c.firstNamed x).isSome) (ports : Ports) (deeds : List Hub.Deed)
    (hs : ∀ a ∈ deeds, a.Stays) : ∃ i d, ((c.hub ports).history deeds).place? x = some i ∧
      ((c.hub ports).history deeds).devices[i]? = some d ∧ c.lastNamed x = some d.config := by
  have hw := Hub.wired_history (c.wired_hub ports) deeds
  have hc := Hub.config?_history_of_stays (c.wired_hub ports) hs
  rw [config?_hub] at hc
  obtain ⟨d', hd'⟩ := Option.isSome_iff_exists.mp ((c.isSome_lastNamed x).trans hd)
  have hx := (congrFun hc x).trans hd'
  rw [Hub.config?_eq_get?] at hx
  obtain ⟨d, hg, rfl⟩ := Option.map_eq_some_iff.mp hx
  obtain ⟨i, hp, hi⟩ := Option.bind_eq_some_iff.mp hg
  exact ⟨i, d, hp, hi, hd'⟩

/-- A poll whose device is there is not turned away for want of it, nor for what the device is. -/
theorem answered_of_stays (hd : (c.firstNamed x).isSome) {ports : Ports} {deeds : List Hub.Deed}
    (hs : ∀ a ∈ deeds, a.Stays) {q : Request} {e : PanelError}
    (ha : (((c.hub ports).history deeds).ask x q).1 = some (.error e)) :
    ∃ d, c.lastNamed x = some d ∧ e.isMisdirected d.interface.supportsCommands = false := by
  obtain ⟨i, d, hp, hi, hl⟩ := exists_place hd ports deeds hs
  have hsuited := Hub.suited_history (c.wired_hub ports) (c.suited_hub ports) fun a ha ↦
    .inl (hs a ha)
  have hplace : ((c.hub ports).history deeds).place x = .ok i := by rw [Hub.place, hp]
  rw [Hub.ask, hplace] at ha
  exact ⟨d.config, hl, Hub.isMisdirected_of_request hi (hsuited i d hi) ha⟩

/-- Polls of a host that was set up from a file go to devices that take commands exactly if, for each
name that a binding would poll, the last device of that name takes commands where the first one does. -/
theorem polling_of_ofFile (h : ofFile f = .ok c) (ports : Ports) : Polling f c ports := by
  have hiff := forall_reaches_iff h ports
  refine ⟨fun b hb ↦ ?_, hiff, fun hn ↦ hiff.mpr fun e _ _ d hd hs d' hd' ↦ ?_, ?_⟩
  · obtain ⟨i, d, hp, hi, hl⟩ := exists_place (isSome_firstNamed h hb) ports [] (by simp)
    exact ⟨d, Option.bind_eq_some_iff.mpr ⟨i, hp, hi⟩, hl⟩
  · rw [lastNamed_eq_firstNamed hn, hd] at hd'
    cases hd'
    exact hs
  · intro b hb p _ deeds hs e ha
    obtain ⟨d, hl, hm⟩ := answered_of_stays (isSome_firstNamed h hb) hs ha
    refine ⟨?_, fun hr o n ↦ ?_⟩
    · rintro x rfl
      cases hm
    · rintro rfl
      obtain ⟨d', hd', hs'⟩ := reaches_iff.mp hr
      cases hl.symm.trans hd'
      exact Bool.noConfusion (hs'.symm.trans hm)

def paired : HostFile where
  devices := [⟨"a", "PTR3", "/dev/ttyS0", 6000, 50000, 5000⟩,
    ⟨"b", "SIMULATE", "/dev/ttyS0", 6000, 50000, 5000⟩]
  bindings := [⟨"zone", "a", "Zone 1", some "RZS 1", none, none⟩,
    ⟨"area", "b", "Partition", some "RAS 1", none, none⟩]
  broker := { url := "tcp://localhost:1883" }

def pairedConfig : HostConfig where
  devices := [{ id := "a", interface := .ptr3 }, { id := "b" }]
  bindings := [⟨"zone", "a", "Zone 1", some (.zoneStatus 1), 6000, none⟩,
    ⟨"area", "b", "Partition", none, 0, none⟩]
  broker := paired.broker

theorem polling_of_ofFile_paired : ofFile paired = .ok pairedConfig ∧
    ∀ ports, Polling paired pairedConfig ports ∧
      ∀ b ∈ pairedConfig.bindings, b.poll.isSome → pairedConfig.Reaches ports b := by
  refine ⟨rfl, fun ports ↦ ?_⟩
  have hp : Polling paired pairedConfig ports := polling_of_ofFile rfl ports
  exact ⟨hp, hp.reaches_of_nodup (by decide)⟩

def doubled : HostFile where
  devices := [⟨"a", "PTR3", "/dev/ttyS0", 6000, 50000, 5000⟩,
    ⟨"a", "SIMULATE", "/dev/ttyS0", 6000, 50000, 5000⟩]
  bindings := [⟨"zone", "a", "Zone 1", some "RZS 1", none, none⟩]
  broker := { url := "tcp://localhost:1883" }

def doubledConfig : HostConfig where
  devices := [{ id := "a", interface := .ptr3 }, { id := "a" }]
  bindings := [⟨"zone", "a", "Zone 1", some (.zoneStatus 1), 6000, none⟩]
  broker := doubled.broker

theorem not_reaches_doubled : ofFile doubled = .ok doubledConfig ∧
    (∃ b ∈ doubledConfig.bindings, b.poll = some (.zoneStatus 1) ∧
      ∀ ports, ¬ doubledConfig.Reaches ports b) ∧
    (doubledConfig.hub.ask "a" (.poll (.zoneStatus 1))).1 =
      some (.error (.notImplemented "send" "SIMULATE")) := by
  refine ⟨rfl, ⟨_, List.mem_singleton_self _, rfl, fun ports hr ↦ ?_⟩, rfl⟩
  obtain ⟨d, hd, hs⟩ := reaches_iff.mp hr
  cases hd
  cases hs

end HostConfig

end AlarmPanel
