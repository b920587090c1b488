import AlarmPanel.Host.Config
import AlarmPanel.Proofs.Device.Canned

namespace AlarmPanel

open Simulator

namespace Simulator

/-- A panel without a delay, whose line is due whenever it is open. -/
structure Flows (now : Nat) (s : Simulator) : Prop where
  delay : s.delay = 0
  cursor : s.cursor < lines.length
  due : ∀ m, s.due = some m → m ≤ now

variable {s : Simulator} {now t : Nat}

theorem Flows.later (h : s.Flows now) (ht : now ≤ t) : s.Flows t :=
  ⟨h.delay, h.cursor, fun m hm ↦ Nat.le_trans (h.due m hm) ht⟩

theorem Flows.mem (h : s.Flows now) : s.nextLine.1 ∈ lines := by
  rw [nextLine, List.getD_eq_getElem?_getD, List.getElem?_eq_getElem h.cursor, Option.getD_some]
  exact List.getElem_mem h.cursor

theorem Flows.attended (h : s.Flows now) : (s.attended now).Flows now := by
  have hnow : now + s.delay = now := by rw [h.delay, Nat.add_zero]
  cases hd : s.due with
  | none =>
    rw [attended_closed hd]
    refine ⟨h.delay, h.cursor, fun m hm ↦ ?_⟩
    cases hm
    exact Nat.le_of_eq hnow
  | some m =>
    rw [attended_due hd (h.due m hd)]
    refine ⟨h.delay, Nat.mod_lt _ (by decide), fun m hm ↦ ?_⟩
    cases hm
    exact Nat.le_of_eq hnow

end Simulator

namespace Line

variable {l : Line Link} {s : Simulator} {m : Nat}

theorem readAll_simulator (hl : l.transport = .simulator s) : readAll l = readAllWithin 2 [] l := by
  have hb : Transport.backlog l.transport = 1 := by
    rw [hl]
    rfl
  rw [readAll, get_bind, hb]

theorem readAllWithin_flows (hl : l.transport = .simulator s) (h : s.Flows l.now)
    (ho : s.due.isSome = true) (n : Nat) (got : List UInt8) :
    ∃ l' s', readAllWithin n got l = .error .endless l' ∧ l'.transport = .simulator s' ∧
      l'.now = l.now ∧ s'.Flows l.now := by
  -- on the reads: each of them finds a line and leaves the next one due
  induction n generalizing l s got with
  | zero => exact ⟨l, s, rfl, hl, rfl, h⟩
  | succ n ih =>
    obtain ⟨m, hd⟩ := Option.isSome_iff_exists.mp ho
    have hm := h.due m hd
    have he : (octets s.nextLine.1).isEmpty = false := by simp [octets_ne_nil]
    have hp : (s.printed l.now).Flows l.now := by
      rw [← attended_due hd hm]
      exact h.attended
    obtain ⟨l', s', hr, ht, hn, hf⟩ :=
      ih (l := { l with transport := .simulator (s.printed l.now) }) rfl hp rfl
        (got ++ octets s.nextLine.1)
    refine ⟨l', s', ?_, ht, hn, hf⟩
    rw [readAllWithin, bind_of_ok (read_due hl hd hm), he, if_neg Bool.false_ne_true]
    exact hr

end Line

namespace Worker

/-- The line is opened if it is closed, and found idle after `n` reads at most. -/
def DrainsWithin (n : Nat) (w : Worker Link) : Prop :=
  ∃ octets w', (do ensureConnected; onLine (Line.readAllWithin n [])) w = .ok octets w'

structure Floods (s : Simulator) (w : Worker Link) : Prop extends Shows s w where
  flows : s.Flows w.now

variable {delay : Nat} {s : Simulator} {w : Worker Link}

theorem Shows.connect {p : Simulator → Worker Link → Prop} (h : w.Shows s) (hp : p s w)
    (ha : p (s.attended w.now) (Worker.attend s w)) :
    ∃ w₁ s₁, ensureConnected w = .ok () w₁ ∧ p s₁ w₁ ∧ s₁.due.isSome = true := by
  cases hd : s.due with
  | none => exact ⟨_, _, ensureConnected_closed h hd, ha, s.isSome_attended _⟩
  | some m => exact ⟨w, s, ensureConnected_shows h hd, hp, by rw [hd]; rfl⟩

theorem Shows.readAll (h : w.Shows s) :
    onLine Line.readAll w = onLine (Line.readAllWithin 2 []) w := by
  have hl : w.receiver.line.transport = .simulator s := h.transport
  simp only [onLine, onReceiver, Receiver.onLine, Line.readAll_simulator hl]

theorem Plays.drainsWithin (h : Plays delay s w) (hp : 0 < delay) : w.DrainsWithin 2 := by
  obtain ⟨w₁, s₁, hc, h₁, ho⟩ := h.toShows.connect h h.attend
  obtain ⟨m, hd⟩ := Option.isSome_iff_exists.mp ho
  rw [DrainsWithin, bind_of_ok hc, ← h₁.toShows.readAll]
  rcases Nat.lt_or_ge w₁.now m with hm | hm
  · exact ⟨_, _, onLine_ok (Line.readAll_early h₁.transport hd hm)⟩
  · exact ⟨_, _, onLine_ok (Line.readAll_due h₁.transport (h₁.delay ▸ hp) hd hm)⟩

theorem Floods.attend (h : Floods s w) : Floods (s.attended w.now) (Worker.attend s w) where
  toShows := h.toShows.attend
  flows := by
    rw [now_attend]
    exact h.flows.attended

theorem Floods.connect (h : Floods s w) : ∃ w₁ s₁, ensureConnected w = .ok () w₁ ∧ Floods s₁ w₁ ∧
    s₁.due.isSome = true :=
  h.toShows.connect h h.attend

theorem Floods.read (h : Floods s w) (ho : s.due.isSome = true) (n : Nat) :
    ∃ w' s', onLine (Line.readAllWithin n []) w = .error .endless w' ∧ Floods s' w' := by
  obtain ⟨l', s', hr, ht, hn, hf⟩ := Line.readAllWithin_flows h.transport h.flows ho n []
  exact ⟨_, s', onLine_error hr, ⟨ht, h.assembler⟩, hf.later (Nat.le_of_eq hn.symm)⟩

theorem Floods.not_drainsWithin (h : Floods s w) (n : Nat) : ¬ w.DrainsWithin n := by
  rintro ⟨octets, w', hr⟩
  obtain ⟨w₁, s₁, hc, h₁, ho⟩ := h.connect
  obtain ⟨w₂, s₂, he, -⟩ := h₁.read ho n
  rw [bind_of_ok hc, he] at hr
  cases hr

theorem Floods.serve (h : Floods s w) (q : Request) :
    ∃ w' s', serve q w = .error .endless w' ∧ Floods s' w' := by
  obtain ⟨w₁, s₁, hc, h₁, ho⟩ := h.connect
  obtain ⟨w₂, s₂, he, h₂⟩ := h₁.read ho 2
  rw [← h₁.toShows.readAll] at he
  have hd : guarded drain w₁ = .error .endless w₂ := guarded_endless (bind_of_error he)
  exact ⟨w₂, s₂, by rw [Worker.serve, bind_of_ok hc, bind_of_error hd], h₂⟩

theorem Floods.listen (h : Floods s w) :
    ∃ text w' s', listen w = .ok (.frame text) w' ∧ Floods s' w' := by
  obtain ⟨w₁, s₁, hc, h₁, ho⟩ := h.connect
  obtain ⟨m, hd⟩ := Option.isSome_iff_exists.mp ho
  have hm := h₁.flows.due m hd
  have ha := h₁.attend
  rw [attend_due hd hm] at ha
  exact ⟨_, _, _, listen_of_look hc (look_due h₁.toShows h₁.flows.mem hd hm), ha⟩

end Worker

namespace Device

/-- What becomes of a request to a simulated panel that prints a line after each `delay`. -/
structure Attends (delay : Nat) (d : Device Link) (q : Request) : Prop where
  drains : (∃ n, d.worker.DrainsWithin n) ↔ 0 < delay
  within_two : 0 < delay → d.worker.DrainsWithin 2
  answer : Worker.answer? q d.worker = if 0 < delay then some (.error q.refusal) else none
  answered : (∃ later : List (Occurrence Link), (∀ o ∈ later, o.IsUse) ∧
    ∃ r, (d.issued, r) ∈ ((d.submit q).course later).answers) ↔ 0 < delay

/-- A device on a panel without a delay. It has answered no request, and may have been lost in one. -/
structure Floods (s : Simulator) (d : Device Link) : Prop where
  worker : Worker.Floods s d.worker
  cancelled : d.cancelled = false
  going : d.isFinished = false
  answers : d.answers = []

variable {s : Simulator} {d : Device Link} {o : Occurrence Link} {os : List (Occurrence Link)}

theorem Floods.turn (h : Floods s d) : ∃ s', Floods s' d.turn := by
  obtain ⟨hc, -⟩ | ⟨t, q, -, -, ht⟩ | ⟨-, -, ht⟩ := d.turn_inv
  · cases h.cancelled.symm.trans hc
  · obtain ⟨w', s', hw, hs⟩ := h.worker.serve t.request
    refine ⟨s', ?_⟩
    rw [ht]
    simp only [Device.serve, hw]
    exact ⟨hs, h.cancelled, rfl, h.answers⟩
  · obtain ⟨text, w', s', hw, hs⟩ := h.worker.listen
    refine ⟨s', ?_⟩
    rw [ht]
    simp only [Device.listen, hw]
    exact ⟨hs, h.cancelled, h.going, h.answers⟩

theorem Floods.happen (h : Floods s d) (ho : o.IsUse) : ∃ s', Floods s' (d.happen o) := by
  cases o with
  | turn =>
    rw [Device.happen]
    split
    case isTrue => exact h.turn
    case isFalse => exact ⟨s, h⟩
  | submit q =>
    rw [Device.happen, submit]
    dsimp only
    rw [if_neg (by simpa [isFinished] using h.going)]
    exact ⟨s, h.worker, h.cancelled, h.going, h.answers⟩
  | wait ms =>
    exact ⟨s, ⟨⟨h.worker.transport, h.worker.assembler⟩, h.worker.flows.later (Nat.le_add_right _ ms)⟩,
      h.cancelled, h.going, h.answers⟩
  | cancel | line f => exact ho.elim

theorem Floods.course (h : Floods s d) (hos : ∀ o ∈ os, o.IsUse) : ∃ s', Floods s' (d.course os) :=
  course_induction (p := fun d ↦ ∃ s', Floods s' d) ⟨s, h⟩ fun o ho _ ⟨_, hd⟩ ↦ hd.happen (hos o ho)

theorem floods_start {c : DeviceConfig} (now : Nat) (hc : c.interface = .simulated)
    (h0 : c.simulatorDelay = 0) :
    Floods { delay := c.simulatorDelay } (start c (Link.ofConfig c) now) := by
  have hp := plays_start now hc
  have hl : 0 < lines.length := by decide
  exact ⟨⟨hp.worker.toShows, h0, hl, by simp⟩, rfl, rfl, rfl⟩

theorem Floods.unanswered (h : Floods s d) (hos : ∀ o ∈ os, o.IsUse) (q : Request) :
    ((d.submit q).course os).answers = [] := by
  have hall : ∀ o ∈ .submit q :: os, Occurrence.IsUse o := by
    simpa [Occurrence.IsUse] using hos
  obtain ⟨s', hs'⟩ := h.course hall
  exact hs'.answers

theorem Floods.attends (h : Floods s d) (q : Request) : Attends 0 d q where
  drains := by
    refine iff_of_false ?_ (Nat.lt_irrefl 0)
    rintro ⟨n, hn⟩
    exact h.worker.not_drainsWithin n hn
  within_two hp := absurd hp (Nat.lt_irrefl 0)
  answer := by
    obtain ⟨w', s', hw, -⟩ := h.worker.serve q
    rw [Worker.answer?, hw, if_neg (Nat.lt_irrefl 0)]
  answered := by
    refine iff_of_false ?_ (Nat.lt_irrefl 0)
    rintro ⟨later, hl, r, hr⟩
    rw [h.unanswered hl q] at hr
    cases hr

theorem mem_answers_of_course {c : DeviceConfig} (now : Nat) (hc : c.interface = .simulated)
    (hp : 0 < c.simulatorDelay) {later : List (Occurrence Link)} (hos : ∀ o ∈ os, o.IsUse)
    (hl : ∀ o ∈ later, o.IsUse) (q : Request) :
    let d := (start c (Link.ofConfig c) now).course os
    ((d.submit q).course later).queue = [] ∧ ((d.submit q).course later).waiting = [] →
      (d.issued, .error q.refusal) ∈ ((d.submit q).course later).answers := by
  rintro d ⟨hq, hw⟩
  have hall : ∀ o ∈ os ++ .submit q :: later, o.IsUse := by
    intro o ho
    rcases List.mem_append.mp ho with ho | ho
    · exact hos o ho
    · rcases List.mem_cons.mp ho with rfl | ho
      · trivial
      · exact hl o ho
  obtain ⟨-, ha⟩ := account_of_course now hc hp hall
  have hcourse : (start c (Link.ofConfig c) now).course (os ++ .submit q :: later) =
      (d.submit q).course later := List.foldl_append
  rw [hcourse, hq, hw, List.append_nil, List.map_nil, List.append_nil] at ha
  have hasked : ⟨d.issued, q⟩ ∈
      along asking (start c (Link.ofConfig c) now) (os ++ .submit q :: later) := by
    rw [along_append, along]
    exact List.mem_append_right _ (List.mem_append_left _ List.mem_cons_self)
  rw [← ha]
  exact List.mem_map_of_mem (f := Ticket.unserved) hasked

theorem isUse_pause (n : Nat) :
    ∀ o ∈ .wait 100 :: List.replicate n .turn, Occurrence.IsUse (σ := Link) o := by
  intro o ho
  rcases List.mem_cons.mp ho with rfl | ho
  · trivial
  · rw [List.eq_of_mem_replicate ho]
    trivial

/-- Whatever a simulated panel was used for, the reads before a request come to an end exactly if lines
are printed with a delay, and else no request is answered any more. No entry is turned away for it. -/
theorem attends_of_course {entry : DeviceEntry} {c : DeviceConfig} (he : entry.config = .ok c)
    (hc : c.interface = .simulated) (now : Nat) (hos : ∀ o ∈ os, o.IsUse) (q : Request) :
    c.simulatorDelay = entry.simulatorDelay ∧
      Attends entry.simulatorDelay ((start c (Link.ofConfig c) now).course os) q := by
  have hdelay : c.simulatorDelay = entry.simulatorDelay := by
    rw [DeviceEntry.config] at he
    split at he <;> cases he
    rfl
  rw [← hdelay]
  refine ⟨rfl, ?_⟩
  rcases Nat.eq_zero_or_pos c.simulatorDelay with h0 | hp
  · obtain ⟨s, hs⟩ := (floods_start now hc h0).course hos
    rw [h0]
    exact hs.attends q
  · obtain ⟨⟨s, hs⟩, -⟩ := (plays_start now hc).course hp hos
    have h₂ := hs.worker.drainsWithin hp
    have hw := Worker.serve_eq hs.worker.toShows hs.worker.mem (hs.worker.delay ▸ hp) q
    refine ⟨iff_of_true ⟨2, h₂⟩ hp, fun _ ↦ h₂, by rw [Worker.answer?, hw, if_pos hp],
      iff_of_true ?_ hp⟩
    obtain ⟨s', hs', -⟩ := hs.happen hp (o := .submit q) trivial
    have hidle := hs'.serves_all_after_wait hp (Nat.le_refl _)
    have hl := isUse_pause (3 * ((((start c (Link.ofConfig c) now).course os).submit q).queue.length +
      (((start c (Link.ofConfig c) now).course os).submit q).waiting.length) + 2)
    exact ⟨_, hl, _, mem_answers_of_course now hc hp hos hl q hidle⟩

def simulatedEntry (delay : Nat) : DeviceEntry where
  id := "panel"
  type := "SIMULATE"
  serialPort := "/dev/ttyS0"
  refresh := 6000
  commandTimeout := 50000
  simulatorDelay := delay

def simulatedPanel (delay : Nat) : DeviceConfig where
  id := "panel"
  simulatorDelay := delay

theorem config_simulatedEntry (delay : Nat) :
    (simulatedEntry delay).config = .ok (simulatedPanel delay) := by
  have hi : Interface.ofName "SIMULATE" = .ok .simulated := rfl
  rw [DeviceEntry.config, simulatedEntry, hi]
  rfl

/-- With a delay of half a second, when a line is due. -/
theorem attends_of_course_halfSecond : (simulatedEntry 500).config = .ok (simulatedPanel 500) ∧
    Attends 500 ((start (simulatedPanel 500) (Link.ofConfig (simulatedPanel 500)) 0).course
      [.turn, .wait 600]) (.query .powerQuery none) := by
  have he := config_simulatedEntry 500
  have hos : ∀ o ∈ [.turn, .wait 600], Occurrence.IsUse (σ := Link) o := by
    simp [Occurrence.IsUse]
  exact ⟨he, (attends_of_course he rfl 0 hos _).2⟩

/-- An entry without a delay is accepted, and not even the first request is ever answered. -/
theorem not_drains_undelayed : (simulatedEntry 0).config = .ok (simulatedPanel 0) ∧
    (∀ n, ¬ (start (simulatedPanel 0) (Link.ofConfig (simulatedPanel 0)) 0).worker.DrainsWithin n) ∧
      ∀ later : List (Occurrence Link), (∀ o ∈ later, o.IsUse) →
        (((start (simulatedPanel 0) (Link.ofConfig (simulatedPanel 0)) 0).submit
          (.query .powerQuery none)).course later).answers = [] := by
  have hs := floods_start (c := simulatedPanel 0) 0 rfl rfl
  exact ⟨config_simulatedEntry 0, hs.worker.not_drainsWithin, fun later hl ↦ hs.unanswered hl _⟩

end Device

end AlarmPanel
