import AlarmPanel.Proofs.Device.Growth
import AlarmPanel.Proofs.Device.Simulated

namespace AlarmPanel

open Simulator

/-- The line was opened, or a line of the panel came. -/
def News.isMark : News → Bool
  | connected | line _ => true
  | disconnected | event _ => false

namespace Worker

/-- A worker that told the first lines of a simulated panel, and opened its line at most once. -/
structure Plays (delay : Nat) (s : Simulator) (w : Worker Link) : Prop extends Shows s w where
  delay : s.delay = delay
  cursor : s.cursor = w.told.length % lines.length
  told : w.told = (List.range w.told.length).map endless
  connected : w.connected = s.due.isSome
  log : s.due = none ∧ w.log = [] ∨
    ∃ m rest, s.due = some m ∧ w.log = .connected :: rest ∧ ∀ n ∈ rest, n.isChange = false

variable {delay : Nat} {s : Simulator} {w : Worker Link}

theorem Plays.nextLine (h : Plays delay s w) : s.nextLine.1 = endless w.told.length := by
  rw [Simulator.nextLine, h.cursor]
  rfl

theorem Plays.mem (h : Plays delay s w) : s.nextLine.1 ∈ lines := by
  rw [h.nextLine]
  exact endless_mem _

def mark? (now : Nat) (s : Simulator) : Option News :=
  match s.due with
  | none => some .connected
  | some m => if m ≤ now then some (.line s.nextLine.1) else none

theorem exists_log_attend (s : Simulator) (w : Worker Link) :
    ∃ news, (attend s w).log = w.log ++ news ∧ news.filter News.isMark = (mark? w.now s).toList ∧
      news.filterMap News.text? = (s.dueLine? w.now).toList := by
  unfold attend mark? dueLine?
  cases s.due with
  | none => exact ⟨[.connected], rfl, rfl, rfl⟩
  | some m =>
    by_cases hm : m ≤ w.now
    · simp only [if_pos hm]
      obtain ⟨events, hl⟩ := exists_log_handle s.nextLine.1
        (w.withTransport (.simulator (s.printed w.now)))
      refine ⟨.line s.nextLine.1 :: events.map .event, hl, ?_, ?_⟩
      · have hnone : (events.map News.event).filter News.isMark = [] := by
          rw [List.filter_eq_nil_iff]
          simp [News.isMark]
        rw [List.filter_cons_of_pos rfl, hnone]
        rfl
      · simp [News.text?]
    · simp only [if_neg hm]
      exact ⟨[], (List.append_nil _).symm, rfl, rfl⟩

theorem told_attend (s : Simulator) (w : Worker Link) :
    (attend s w).told = w.told ++ (s.dueLine? w.now).toList := by
  obtain ⟨news, hl, -, ht⟩ := exists_log_attend s w
  rw [told, hl, List.filterMap_append, ht, told]

theorem Plays.attend (h : Plays delay s w) : Plays delay (s.attended w.now) (attend s w) := by
  have hshows : Shows (s.attended w.now) (Worker.attend s w) := h.toShows.attend
  cases hd : s.due with
  | none =>
    have ht : (Worker.attend s w).told = w.told := by
      rw [told_attend, dueLine?, hd]
      exact List.append_nil _
    rw [attended_closed hd, attend_closed hd] at *
    refine ⟨hshows, h.delay, ?_, ?_, rfl, .inr ?_⟩
    · rw [ht]
      exact h.cursor
    · rw [ht]
      exact h.told
    · rcases h.log with ⟨-, hl⟩ | ⟨m, rest, hm, -⟩
      · exact ⟨_, [], rfl, by simp [report, withTransport, hl], by simp⟩
      · cases hd.symm.trans hm
  | some m =>
    rcases Nat.lt_or_ge w.now m with hm | hm
    · rw [attended_early hd hm, attend_early hd hm]
      exact h
    · have ht : (Worker.attend s w).told = w.told ++ [s.nextLine.1] := by
        rw [told_attend, dueLine?, hd]
        simp only [if_pos hm, Option.toList_some]
      have hlen : (Worker.attend s w).told.length = w.told.length + 1 := by
        rw [ht, List.length_append, List.length_singleton]
      rw [attended_due hd hm]
      rw [attended_due hd hm] at hshows
      refine ⟨hshows, h.delay, ?_, ?_, ?_, .inr ?_⟩
      · rw [hlen]
        have hc : (s.printed w.now).cursor = (s.cursor + 1) % lines.length := rfl
        rw [hc, h.cursor, Nat.mod_add_mod]
      · rw [hlen, List.range_succ, List.map_append, ← h.told, ht, h.nextLine]
        rfl
      · rw [attend_due hd hm, connected_handle]
        exact h.connected.trans (by rw [hd]; rfl)
      · obtain ⟨events, he⟩ := exists_log_handle s.nextLine.1
          (w.withTransport (.simulator (s.printed w.now)))
        rcases h.log with ⟨hn, -⟩ | ⟨m', rest, -, hl, hrest⟩
        · cases hd.symm.trans hn
        · have hlog : (w.withTransport (.simulator (s.printed w.now))).log = .connected :: rest := hl
          rw [attend_due hd hm, he, hlog]
          refine ⟨_, rest ++ .line s.nextLine.1 :: events.map .event, rfl, rfl, ?_⟩
          intro n hn
          rcases List.mem_append.mp hn with hn | hn
          · exact hrest n hn
          · simp only [List.mem_cons, List.mem_map] at hn
            rcases hn with rfl | ⟨e, -, rfl⟩ <;> rfl

theorem mark?_eq_none {now : Nat} (h : mark? now s = none) : s.attended now = s := by
  unfold mark? at h
  cases hd : s.due with
  | none => simp [hd] at h
  | some m =>
    have hm : now < m := by simpa [hd] using h
    exact attended_early hd hm

theorem mark?_eq_some {now : Nat} {n : News} (h : mark? now s = some n) :
    (s.attended now).due = some (now + s.delay) ∧ ∀ m, s.due = some m → m ≤ now := by
  unfold mark? at h
  cases hd : s.due with
  | none =>
    rw [attended_closed hd]
    exact ⟨rfl, by simp⟩
  | some m =>
    rcases Nat.lt_or_ge now m with hm | hm
    · simp [hd, Nat.not_le.mpr hm] at h
    · rw [attended_due hd hm]
      exact ⟨rfl, by simpa using hm⟩

end Worker

/-- A turn of the device, a request, or time that passes. -/
def Occurrence.IsUse {σ : Type} : Occurrence σ → Prop
  | turn | submit _ | wait _ => True
  | cancel | line _ => False

namespace Device

/-- What an occurrence tells, and when. -/
def news {σ : Type} [Transport σ] (d : Device σ) (o : Occurrence σ) : List (News × Nat) :=
  ((d.happen o).worker.log.drop d.worker.log.length).map (·, (d.happen o).now)

def marks (l : List (News × Nat)) : List (News × Nat) :=
  l.filter fun x ↦ x.1.isMark

structure Plays (delay : Nat) (s : Simulator) (d : Device Link) : Prop where
  worker : Worker.Plays delay s d.worker
  running : d.status = .running
  cancelled : d.cancelled = false
  wake : d.wake ≤ d.now + 100

variable {delay : Nat} {s : Simulator} {d : Device Link} {o : Occurrence Link}
  {os : List (Occurrence Link)}

theorem Plays.serve_eq (h : Plays delay s d) (hp : 0 < delay) (t : Ticket) :
    d.serve t = answer { d with worker := Worker.attend s d.worker, wake := d.now } t.number
      (.error t.request.refusal) := by
  have hs := Worker.serve_eq h.worker.toShows h.worker.mem (by rw [h.worker.delay]; exact hp) t.request
  have hn : (Worker.attend s d.worker).now = d.now := Worker.now_attend s d.worker
  unfold serve resume
  rw [hs]
  dsimp only
  rw [hn, if_neg (Nat.lt_irrefl _)]

theorem Plays.listen_eq (h : Plays delay s d) (hp : 0 < delay) :
    d.listen = match s.dueLine? d.now with
      | some _ => { d with worker := Worker.attend s d.worker }
      | none => moveUp { d with worker := Worker.attend s d.worker, wake := d.now + 100 } := by
  have hs := Worker.listen_eq h.worker.toShows h.worker.mem (by rw [h.worker.delay]; exact hp)
  have hn : (Worker.attend s d.worker).now = d.now := Worker.now_attend s d.worker
  have hpoll : Transport.pollInterval (Worker.attend s d.worker).transport = 100 := by
    rw [h.worker.toShows.attend.transport]
    rfl
  unfold listen
  rw [hs]
  unfold Worker.seen
  have hnow : d.worker.now = d.now := rfl
  rw [hnow]
  cases s.dueLine? d.now with
  | some text => rfl
  | none =>
    dsimp only
    rw [hn, hpoll]

theorem Plays.turn (h : Plays delay s d) (hp : 0 < delay) :
    d.turn.worker = Worker.attend s d.worker ∧ Plays delay (s.attended d.now) d.turn := by
  have hw : Worker.Plays delay (s.attended d.now) (Worker.attend s d.worker) := h.worker.attend
  have hn : (Worker.attend s d.worker).now = d.now := Worker.now_attend s d.worker
  obtain ⟨hc, -⟩ | ⟨t, q, -, hq, ht⟩ | ⟨-, -, ht⟩ := d.turn_inv
  · cases h.cancelled.symm.trans hc
  · have hq' : Plays delay s { d with queue := q } := ⟨h.worker, h.running, h.cancelled, h.wake⟩
    rw [ht, hq'.serve_eq hp t]
    refine ⟨rfl, hw, h.running, h.cancelled, ?_⟩
    exact Nat.le_trans (Nat.le_of_eq hn.symm) (Nat.le_add_right _ _)
  · rw [ht, h.listen_eq hp]
    cases s.dueLine? d.now with
    | some text =>
      refine ⟨rfl, hw, h.running, h.cancelled, ?_⟩
      exact Nat.le_trans h.wake (Nat.le_of_eq (congrArg (· + 100) hn.symm))
    | none =>
      refine ⟨rfl, hw, h.running, h.cancelled, ?_⟩
      exact Nat.le_of_eq (congrArg (· + 100) hn.symm)

theorem submit_of_running (q : Request) (h : d.status = .running) :
    (d.submit q).cancelled = d.cancelled ∧ (d.submit q).wake = d.wake := by
  have hf : ¬ d.isFinished = true := by simp [isFinished, h]
  rw [submit]
  dsimp only
  rw [if_neg (by simpa [isFinished] using hf)]
  exact ⟨rfl, rfl⟩

theorem Plays.happen_cases (h : Plays delay s d) (hp : 0 < delay) (ho : o.IsUse) :
    ((d.happen o).worker.log = d.worker.log ∧ Plays delay s (d.happen o)) ∨
      (d.happen o).worker = Worker.attend s d.worker ∧
        Plays delay (s.attended d.now) (d.happen o) := by
  cases o with
  | turn =>
    rw [happen]
    split
    case isTrue => exact .inr (h.turn hp)
    case isFalse => exact .inl ⟨rfl, h⟩
  | submit q =>
    rw [happen]
    refine .inl ⟨by rw [worker_submit], ?_⟩
    obtain ⟨hc, hw⟩ := submit_of_running q h.running
    refine ⟨by rw [worker_submit]; exact h.worker, by rw [status_submit]; exact h.running,
      hc.trans h.cancelled, ?_⟩
    rw [hw, now, worker_submit]
    exact h.wake
  | wait ms =>
    refine .inl ⟨rfl, ?_⟩
    refine ⟨⟨⟨h.worker.transport, h.worker.assembler⟩, h.worker.delay, h.worker.cursor, h.worker.told,
      h.worker.connected, h.worker.log⟩, h.running, h.cancelled, ?_⟩
    exact Nat.le_trans h.wake (Nat.add_le_add_right (Nat.le_add_right _ ms) 100)
  | cancel | line f => exact ho.elim

theorem news_of_log {added : List News} (h : (d.happen o).worker.log = d.worker.log ++ added) :
    d.news o = added.map (·, (d.happen o).now) := by
  rw [news, h, List.drop_left]

theorem marks_map (added : List News) (t : Nat) :
    marks (added.map (·, t)) = (added.filter News.isMark).map (·, t) := by
  rw [marks, List.filter_map]
  rfl

/-- What is told of the line is told one delay after what was told of it before. -/
theorem Plays.happen (h : Plays delay s d) (hp : 0 < delay) (ho : o.IsUse) :
    ∃ s', Plays delay s' (d.happen o) ∧ (marks (d.news o) = [] ∧ s' = s ∨
      ∃ x, marks (d.news o) = [x] ∧ s'.due = some (x.2 + delay) ∧
        ∀ m, s.due = some m → m ≤ x.2) := by
  rcases h.happen_cases hp ho with ⟨hl, hs⟩ | ⟨hw, hs⟩
  · have hn : d.news o = [] := by
      have hl' : (d.happen o).worker.log = d.worker.log ++ [] := by rw [hl, List.append_nil]
      exact news_of_log hl'
    exact ⟨s, hs, .inl ⟨by rw [hn]; rfl, rfl⟩⟩
  · obtain ⟨added, hl, hmark, -⟩ := Worker.exists_log_attend s d.worker
    rw [← hw] at hl
    have hnow : (d.happen o).now = d.now := by
      rw [now, hw]
      exact Worker.now_attend s d.worker
    have hm : marks (d.news o) = (Worker.mark? d.now s).toList.map (·, d.now) := by
      rw [news_of_log hl, marks_map, hmark, hnow]
      rfl
    refine ⟨s.attended d.now, hs, ?_⟩
    cases hc : Worker.mark? d.now s with
    | none =>
      rw [hm, hc]
      exact .inl ⟨rfl, Worker.mark?_eq_none hc⟩
    | some n =>
      obtain ⟨hdue, hle⟩ := Worker.mark?_eq_some hc
      rw [h.worker.delay] at hdue
      rw [hm, hc]
      exact .inr ⟨_, rfl, hdue, hle⟩

theorem Plays.course (h : Plays delay s d) (hp : 0 < delay) (hos : ∀ o ∈ os, o.IsUse) :
    (∃ s', Plays delay s' (d.course os)) ∧
      (marks (along news d os)).Pairwise (fun x y ↦ x.2 + delay ≤ y.2) ∧
      ∀ m, s.due = some m → ∀ x ∈ marks (along news d os), m ≤ x.2 := by
  -- By induction on the run: `due` is one delay after the last mark.
  induction os generalizing d s with
  | nil => exact ⟨⟨s, h⟩, .nil, by simp [along, marks]⟩
  | cons o os ih =>
    obtain ⟨s', hs', hcases⟩ := h.happen hp (hos o List.mem_cons_self)
    obtain ⟨hend, hpair, hlater⟩ := ih hs' fun o' ho ↦ hos o' (List.mem_cons_of_mem _ ho)
    have hm : marks (along news d (o :: os)) =
        marks (d.news o) ++ marks (along news (d.happen o) os) := List.filter_append ..
    refine ⟨hend, ?_⟩
    rcases hcases with ⟨hnone, rfl⟩ | ⟨x, hone, hdue, hle⟩
    · rw [hm, hnone, List.nil_append]
      exact ⟨hpair, hlater⟩
    · rw [hm, hone, List.singleton_append, List.pairwise_cons]
      have hx := hlater _ hdue
      refine ⟨⟨hx, hpair⟩, ?_⟩
      intro m hm y hy
      rcases List.mem_cons.mp hy with rfl | hy
      · exact hle m hm
      · exact Nat.le_trans (hle m hm) (Nat.le_trans (Nat.le_add_right _ _) (hx y hy))

theorem pending_course_turns (hq : d.queue = []) (hw : d.waiting = []) (n : Nat) :
    (d.course (List.replicate n .turn)).queue = [] ∧
      (d.course (List.replicate n .turn)).waiting = [] := by
  refine course_induction (p := fun d ↦ d.queue = [] ∧ d.waiting = []) ⟨hq, hw⟩ ?_
  intro o ho d h
  rw [List.eq_of_mem_replicate ho, Device.happen]
  split
  case isFalse => exact h
  case isTrue =>
    obtain ⟨-, ht⟩ | ⟨t, q, -, hq, -⟩ | ⟨-, -, ht⟩ := d.turn_inv
    · rw [ht]
      exact ⟨rfl, rfl⟩
    · cases h.1.symm.trans hq
    · rw [ht]
      rcases d.listen_inv with he | ⟨hr, -⟩
      · rw [he]
        exact ⟨rfl, rfl⟩
      · have hp := hr.pending
        rw [h.1, h.2] at hp
        exact List.append_eq_nil_iff.mp hp

/-- The looks that a device without a request in its queue takes before those that wait move up. -/
def looks (s : Simulator) (d : Device Link) : Nat :=
  if d.queue = [] then (if (s.dueLine? d.now).isSome then 2 else 1) else 0

theorem looks_le (s : Simulator) (d : Device Link) : looks s d ≤ 2 := by
  unfold looks
  split
  · split <;> decide
  · decide

theorem looks_of_ne_nil (h : d.queue ≠ []) : looks s d = 0 :=
  if_neg h

theorem looks_of_due {text : String} (hq : d.queue = []) (h : s.dueLine? d.now = some text) :
    looks s d = 2 := by
  rw [looks, if_pos hq, h]
  rfl

theorem looks_of_not_due (hq : d.queue = []) (h : s.dueLine? d.now = none) : looks s d = 1 := by
  rw [looks, if_pos hq, h]
  rfl

/-- The turns in which a device that does not pause serves all its requests. -/
def effort (s : Simulator) (d : Device Link) : Nat :=
  3 * (d.queue.length + d.waiting.length) + looks s d

theorem Plays.now_turn (h : Plays delay s d) (hp : 0 < delay) : d.turn.now = d.now := by
  rw [now, (h.turn hp).1]
  exact Worker.now_attend s d.worker

theorem Plays.effort_request (h : Plays delay s d) (hp : 0 < delay) {t : Ticket} {q : List Ticket}
    (hq : d.queue = t :: q) :
    d.turn.wake = d.now ∧ effort (s.attended d.now) d.turn < effort s d := by
  have hq' : Plays delay s { d with queue := q } := ⟨h.worker, h.running, h.cancelled, h.wake⟩
  have ht : d.turn = serve { d with queue := q } t := by
    rw [Device.turn, if_neg (by simp [h.cancelled]), hq]
  rw [hq'.serve_eq hp t] at ht
  have hl : d.turn.queue.length + d.turn.waiting.length + 1 =
      d.queue.length + d.waiting.length := by
    rw [ht, hq]
    simp only [answer, List.length_cons]
    omega
  have hlooks := looks_le (s.attended d.now) d.turn
  refine ⟨by rw [ht]; rfl, ?_⟩
  unfold effort
  omega

theorem Plays.effort_look (h : Plays delay s d) (hp : 0 < delay) (ha : d.wake ≤ d.now)
    (hq : d.queue = []) (hw : d.waiting ≠ []) :
    (d.turn.queue = [] → d.turn.wake ≤ d.now) ∧ effort (s.attended d.now) d.turn < effort s d := by
  have ht : d.turn = d.listen := by
    rw [Device.turn, if_neg (by simp [h.cancelled]), hq]
  rw [h.listen_eq hp] at ht
  cases hd : s.dueLine? d.now with
  | some text =>
    simp only [hd] at ht
    have hnone : (s.attended d.now).dueLine? d.turn.now = none := by
      rw [h.now_turn hp]
      exact dueLine?_attended (by rw [h.worker.delay]; exact hp) d.now
    have hq' : d.turn.queue = [] := by rw [ht]; exact hq
    refine ⟨fun _ ↦ by rw [ht]; exact ha, ?_⟩
    rw [effort, effort, looks_of_due hq hd, looks_of_not_due hq' hnone, ht]
    exact Nat.lt_succ_self _
  | none =>
    simp only [hd] at ht
    have hm : d.turn.queue ++ d.turn.waiting = d.queue ++ d.waiting := by
      rw [ht]
      exact (rests_moveUp _).pending
    have hq' : d.turn.queue ≠ [] := by
      rw [ht, moveUp, hq]
      simp [room, hw]
    have hlen := congrArg List.length hm
    rw [List.length_append, List.length_append] at hlen
    refine ⟨fun hn ↦ absurd hn hq', ?_⟩
    rw [effort, effort, looks_of_ne_nil hq', looks_of_not_due hq hd, hlen]
    exact Nat.lt_succ_self _

theorem Plays.exists_turn (h : Plays delay s d) (hp : 0 < delay)
    (ha : d.queue = [] → d.wake ≤ d.now) (hw : d.queue = [] → d.waiting ≠ []) :
    ∃ s', Plays delay s' (d.happen .turn) ∧
      ((d.happen .turn).queue = [] → (d.happen .turn).wake ≤ (d.happen .turn).now) ∧
      effort s' (d.happen .turn) < effort s d := by
  have hr : d.isReady = true := by
    cases hq : d.queue with
    | nil => simp [isReady, h.running, ha hq]
    | cons t q => simp [isReady, h.running, hq]
  rw [Device.happen, if_pos hr, h.now_turn hp]
  refine ⟨s.attended d.now, (h.turn hp).2, ?_⟩
  cases hq : d.queue with
  | nil => exact h.effort_look hp (ha hq) hq (hw hq)
  | cons t q =>
    obtain ⟨hwake, hlt⟩ := h.effort_request hp hq
    exact ⟨fun _ ↦ Nat.le_of_eq hwake, hlt⟩

theorem Plays.serves_all (h : Plays delay s d) (hp : 0 < delay)
    (ha : d.queue = [] → d.wake ≤ d.now) {n : Nat} (hn : effort s d ≤ n) :
    (d.course (List.replicate n .turn)).queue = [] ∧
      (d.course (List.replicate n .turn)).waiting = [] := by
  -- Induction on the turns.
  induction n generalizing d s with
  | zero =>
    have hl : d.queue.length + d.waiting.length = 0 := by
      unfold effort at hn
      omega
    obtain ⟨hq, hw⟩ := Nat.add_eq_zero_iff.mp hl
    exact ⟨List.eq_nil_of_length_eq_zero hq, List.eq_nil_of_length_eq_zero hw⟩
  | succ n ih =>
    by_cases he : d.queue = [] ∧ d.waiting = []
    · exact pending_course_turns he.1 he.2 _
    · obtain ⟨s', hs', ha', hlt⟩ := h.exists_turn hp ha fun hq hw ↦ he ⟨hq, hw⟩
      exact ih hs' ha' (by omega)

end Device

def Worker.due? (w : Worker Link) : Option String :=
  w.transport.fold (fun _ ↦ none) (Simulator.dueLine? w.now) fun _ ↦ none

/-- A request is refused after the line that was due is told, and the line stays open. -/
structure Exchange.Refused (x : Exchange Link) : Prop where
  outcome : x.outcome? = some (.error x.ticket.request.refusal)
  told : x.after.told = x.worker.told ++ x.worker.due?.toList
  connected : x.after.connected = true
  isOpen : Transport.isOpen x.after.transport = true

def Ticket.unserved (t : Ticket) : Nat × Except PanelError Reading :=
  (t.number, .error t.request.refusal)

namespace Worker

variable {delay : Nat} {s : Simulator} {w : Worker Link}

theorem Shows.due?_eq (h : w.Shows s) : w.due? = s.dueLine? w.now := by
  rw [due?, h.transport]
  rfl

theorem Plays.refused (h : Plays delay s w) (hp : 0 < delay) (t : Ticket) :
    (⟨t, w⟩ : Exchange Link).Refused := by
  have hs := serve_eq h.toShows h.mem (by rw [h.delay]; exact hp) t.request
  have ha : (⟨t, w⟩ : Exchange Link).after = Worker.attend s w := by
    rw [Exchange.after, hs]
    rfl
  refine ⟨?_, ?_, ?_, ?_⟩
  · rw [Exchange.outcome?, answer?, hs]
  · rw [ha, told_attend, h.toShows.due?_eq]
  · rw [ha, h.attend.connected]
    exact s.isSome_attended w.now
  · rw [ha, h.attend.transport]
    exact s.isSome_attended w.now

end Worker

theorem answers_of_refused {xs : List (Exchange Link)} (h : ∀ x ∈ xs, x.Refused) :
    xs.filterMap Exchange.answer? = (xs.map Exchange.ticket).map Ticket.unserved := by
  induction xs with
  | nil => rfl
  | cons x xs ih =>
    have hx : x.answer? = some x.ticket.unserved := by
      rw [Exchange.answer?, (h x List.mem_cons_self).outcome]
      rfl
    rw [List.filterMap_cons_some hx, ih fun y hy ↦ h y (List.mem_cons_of_mem _ hy)]
    rfl

namespace Device

variable {delay : Nat} {s : Simulator} {d : Device Link} {o : Occurrence Link}
  {os : List (Occurrence Link)}

theorem Plays.serving (h : Plays delay s d) (hp : 0 < delay) (o : Occurrence Link) :
    ∀ x ∈ d.serving o, x.Refused := by
  intro x hx
  cases o with
  | turn =>
    rw [Device.serving] at hx
    split at hx
    case isTrue =>
      obtain ⟨t, -, rfl⟩ := List.mem_map.mp hx
      exact h.worker.refused hp t
    case isFalse => cases hx
  | submit q | cancel | wait ms | line f => cases hx

theorem log_along (hos : ∀ o ∈ os, o.IsUse) :
    (d.course os).worker.log = d.worker.log ++ (along news d os).map Prod.fst := by
  induction os generalizing d with
  | nil => exact (List.append_nil _).symm
  | cons o os ih =>
    have ho : o.Leaves Transport.isOpen := by
      have hu := hos o List.mem_cons_self
      cases o with
      | line f => exact hu.elim
      | turn | submit q | cancel | wait ms => trivial
    obtain ⟨added, hl⟩ := (goes_happen ho d).log
    have hn : (d.news o).map Prod.fst = added := by
      rw [news_of_log hl.symm, List.map_map]
      exact List.map_id _
    have hc : d.course (o :: os) = (d.happen o).course os := rfl
    rw [hc, ih fun o' ho ↦ hos o' (List.mem_cons_of_mem _ ho), ← hl, along, List.map_append, hn,
      List.append_assoc]

theorem account (h : d.queue = [] ∧ d.waiting = [] ∧ d.answers = []) (hr : d.isFinished = false)
    (hend : (d.course os).isFinished = false) (hx : ∀ x ∈ along serving d os, x.Refused) :
    (along asking d os).map Ticket.unserved = (d.course os).answers ++
      ((d.course os).queue ++ (d.course os).waiting).map Ticket.unserved := by
  obtain ⟨hq, hw, ha⟩ := h
  obtain ⟨hcl, hrf⟩ := turned_away_course hend
  have hreq := requests_course (.of_running hr) os
  have hans := answers_course (.of_running hr) os
  rw [hq, hw, hcl, hrf] at hreq
  rw [ha, hcl, hrf, answers_of_refused hx] at hans
  have hreq' : along asking d os = (along serving d os).map Exchange.ticket ++
      ((d.course os).queue ++ (d.course os).waiting) := by simpa using hreq
  rw [hreq', List.map_append, hans]
  simp

/-- A run of a device on a simulated panel that prints a line after each `delay`. -/
structure Shown (delay : Nat) (d : Device Link) (os : List (Occurrence Link)) : Prop where
  told : (d.course os).worker.told = (List.range (d.course os).worker.told.length).map endless
  log : (along news d os).map Prod.fst = (d.course os).worker.log
  opened : (d.course os).worker.log = [] ∨
    ∃ rest, (d.course os).worker.log = .connected :: rest ∧ ∀ n ∈ rest, n.isChange = false
  /-- A delay or more passes from the opening to the first line and from each line to the next. -/
  spaced : (marks (along news d os)).Pairwise fun x y ↦ x.2 + delay ≤ y.2
  punctual : (d.course os).isReady = true →
    ((d.course os).happen .turn).worker.told =
      (d.course os).worker.told ++ (d.course os).worker.due?.toList
  refused : ∀ x ∈ along serving d os, x.Refused
  running : (d.course os).status = .running
  requests : (along asking d os).map Ticket.unserved = (d.course os).answers ++
    ((d.course os).queue ++ (d.course os).waiting).map Ticket.unserved
  answered : ∀ n, 3 * ((d.course os).queue.length + (d.course os).waiting.length) + 2 ≤ n →
    (d.course (os ++ .wait 100 :: List.replicate n .turn)).answers =
      (along asking d os).map Ticket.unserved

theorem plays_start {c : DeviceConfig} (now : Nat) (hc : c.interface = .simulated) :
    Plays c.simulatorDelay { delay := c.simulatorDelay } (start c (Link.ofConfig c) now) := by
  refine ⟨⟨⟨?_, rfl⟩, rfl, rfl, rfl, rfl, .inl ⟨rfl, rfl⟩⟩, rfl, rfl, Nat.le_add_right _ _⟩
  simp only [Link.ofConfig, hc, start]
  rfl

theorem account_of_course {c : DeviceConfig} (now : Nat) {os : List (Occurrence Link)}
    (hc : c.interface = .simulated) (hp : 0 < c.simulatorDelay) (hos : ∀ o ∈ os, o.IsUse) :
    let d := start c (Link.ofConfig c) now
    (∀ x ∈ along serving d os, x.Refused) ∧
      (along asking d os).map Ticket.unserved = (d.course os).answers ++
        ((d.course os).queue ++ (d.course os).waiting).map Ticket.unserved := by
  have h0 := plays_start now hc
  have hx : ∀ x ∈ along serving (start c (Link.ofConfig c) now) os, x.Refused := by
    refine forall_along (p := fun d ↦ ∃ s, Plays c.simulatorDelay s d) ⟨_, h0⟩ ?_
    intro o ho d h
    obtain ⟨s, hs⟩ := h
    obtain ⟨s', hs', -⟩ := hs.happen hp (hos o ho)
    exact ⟨⟨s', hs'⟩, hs.serving hp o⟩
  obtain ⟨⟨s, hs⟩, -⟩ := h0.course hp hos
  exact ⟨hx, account ⟨rfl, rfl, rfl⟩ rfl (by simp [isFinished, hs.running]) hx⟩

theorem along_asking_turns (d : Device Link) (n : Nat) :
    along asking d (List.replicate n .turn) = [] := by
  induction n generalizing d with
  | zero => rfl
  | succ n ih => exact ih (d.happen .turn)

/-- After a pause a device does not wait, and so serves all its requests. -/
theorem Plays.serves_all_after_wait (h : Plays delay s d) (hp : 0 < delay) {n : Nat}
    (hn : 3 * (d.queue.length + d.waiting.length) + 2 ≤ n) :
    (d.course (.wait 100 :: List.replicate n .turn)).queue = [] ∧
      (d.course (.wait 100 :: List.replicate n .turn)).waiting = [] := by
  obtain ⟨s', hs', -⟩ := h.happen hp (o := .wait 100) trivial
  have hlooks := looks_le s' (d.happen (.wait 100))
  have hlen : (d.happen (.wait 100)).queue.length + (d.happen (.wait 100)).waiting.length =
      d.queue.length + d.waiting.length := rfl
  refine hs'.serves_all hp (fun _ ↦ h.wake) ?_
  unfold effort
  omega

theorem shown_of_course {c : DeviceConfig} (now : Nat) {os : List (Occurrence Link)}
    (hc : c.interface = .simulated) (hp : 0 < c.simulatorDelay) (hos : ∀ o ∈ os, o.IsUse) :
    Shown c.simulatorDelay (start c (Link.ofConfig c) now) os := by
  obtain ⟨⟨s, hs⟩, hspaced, -⟩ := (plays_start now hc).course hp hos
  obtain ⟨hx, ha⟩ := account_of_course now hc hp hos
  refine ⟨hs.worker.told, ?_, ?_, hspaced, ?_, hx, hs.running, ha, ?_⟩
  · exact (log_along (d := start c (Link.ofConfig c) now) hos).symm
  · rcases hs.worker.log with ⟨-, hl⟩ | ⟨m, rest, -, hl⟩
    · exact .inl hl
    · exact .inr ⟨rest, hl⟩
  · intro hr
    rw [Device.happen, if_pos hr, (hs.turn hp).1, Worker.told_attend, hs.worker.toShows.due?_eq]
  · intro n hn
    have hlater : ∀ o ∈ os ++ .wait 100 :: List.replicate n .turn, o.IsUse := by
      intro o ho
      rcases List.mem_append.mp ho with ho | ho
      · exact hos o ho
      · rcases List.mem_cons.mp ho with rfl | ho
        · trivial
        · rw [List.eq_of_mem_replicate ho]
          trivial
    obtain ⟨-, ha'⟩ := account_of_course now hc hp hlater
    obtain ⟨hq, hw⟩ := hs.serves_all_after_wait hp hn
    have hcourse : (start c (Link.ofConfig c) now).course (os ++ .wait 100 :: List.replicate n .turn) =
        ((start c (Link.ofConfig c) now).course os).course (.wait 100 :: List.replicate n .turn) :=
      List.foldl_append
    have hasked : along asking (start c (Link.ofConfig c) now)
        (os ++ .wait 100 :: List.replicate n .turn) =
          along asking (start c (Link.ofConfig c) now) os := by
      rw [along_append, along, along_asking_turns, asking, List.append_nil, List.append_nil]
    rw [hasked, hcourse, hq, hw] at ha'
    rw [hcourse, ha']
    exact (List.append_nil _).symm

def briskPanel : DeviceConfig where
  simulatorDelay := 500

def mixedRun : List (Occurrence Link) :=
  [.submit (.query .powerQuery none), .turn, .wait 500, .submit (.poll (.user 1)), .turn, .turn,
    .wait 500, .turn]

theorem shown_of_course_mixedRun :
    Shown 500 (start briskPanel (Link.ofConfig briskPanel) 0) mixedRun ∧
      ((start briskPanel (Link.ofConfig briskPanel) 0).course mixedRun).answers =
        [(0, .error (.notImplemented "send" "SIMULATE")), (1, .error (.unsupported "User 1"))] ∧
      marks (along news (start briskPanel (Link.ofConfig briskPanel) 0) mixedRun) =
        [(.connected, 0), (.line (endless 0), 500), (.line (endless 1), 1000)] := by
  have hp : 0 < briskPanel.simulatorDelay := by decide
  have hos : ∀ o ∈ mixedRun, o.IsUse := by
    intro o ho
    simp only [mixedRun, List.mem_cons, List.not_mem_nil, or_false] at ho
    obtain rfl | rfl | rfl | rfl | rfl | rfl | rfl | rfl := ho <;> trivial
  exact ⟨shown_of_course 0 rfl hp hos, rfl, by decide +kernel⟩

end Device

end AlarmPanel
