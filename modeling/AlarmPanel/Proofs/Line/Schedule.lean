import AlarmPanel.Proofs.Line.Watched

namespace AlarmPanel

def ticksFrom (p timeout t : Nat) : List Nat :=
  (List.range' t (timeout - t)).filter (p ∣ ·)

def ticks (p timeout : Nat) : List Nat :=
  (List.range timeout).filter (p ∣ ·)

section

variable {p timeout t : Nat}

theorem ticks_eq (p timeout : Nat) : ticks p timeout = ticksFrom p timeout 0 := by
  rw [ticks, ticksFrom, List.range_eq_range', Nat.sub_zero]

theorem ticksFrom_of_le (h : timeout ≤ t) : ticksFrom p timeout t = [] := by
  rw [ticksFrom, Nat.sub_eq_zero_of_le h]
  rfl

theorem filter_gap {n : Nat} (hd : p ∣ t) (hn : n < p) :
    (List.range' (t + 1) n).filter (p ∣ ·) = [] := by
  rw [List.filter_eq_nil_iff]
  intro x hx
  obtain ⟨i, hi, rfl⟩ := List.mem_range'.mp hx
  have hdvd : ¬ p ∣ 1 + i := Nat.not_dvd_of_pos_of_lt (by omega) (by omega)
  have hsum : t + 1 + 1 * i = t + (1 + i) := by omega
  rw [hsum, decide_eq_true_eq, Nat.dvd_add_right hd]
  exact hdvd

theorem ticksFrom_of_lt (hp : 0 < p) (hd : p ∣ t) (ht : t < timeout) :
    ticksFrom p timeout t = t :: ticksFrom p timeout (t + p) := by
  have hcons : List.range' t (timeout - t) = t :: List.range' (t + 1) (timeout - t - 1) := by
    obtain ⟨n, hn⟩ : ∃ n, timeout - t = n + 1 := ⟨timeout - t - 1, by omega⟩
    rw [hn, Nat.add_sub_cancel]
    rfl
  have hgap : (List.range' (t + 1) (timeout - t - 1)).filter (p ∣ ·) = ticksFrom p timeout (t + p) := by
    rcases Nat.lt_or_ge (t + p) timeout with h | h
    · have hsplit : List.range' (t + 1) (timeout - t - 1) =
          List.range' (t + 1) (p - 1) ++ List.range' (t + p) (timeout - (t + p)) := by
        have hjoin := List.range'_append_1 (s := t + 1) (m := p - 1) (n := timeout - (t + p))
        have hstart : t + 1 + (p - 1) = t + p := by omega
        have hlength : p - 1 + (timeout - (t + p)) = timeout - t - 1 := by omega
        rw [hstart, hlength] at hjoin
        exact hjoin.symm
      rw [hsplit, List.filter_append, filter_gap hd (by omega)]
      rfl
    · rw [ticksFrom_of_le h]
      exact filter_gap hd (by omega)
  rw [ticksFrom, hcons, List.filter_cons_of_pos (by simpa using hd), hgap]

end

theorem LineItem.IsQuiet.ne_failure {i : LineItem} (h : i.IsQuiet) (e : PanelError) :
    i ≠ .failure e := by
  rintro rfl
  exact h

theorem LineItem.IsQuiet.notMem_append {i : LineItem} {got : List UInt8} (h : i.IsQuiet)
    (hg : Reply.terminator ∉ got) : Reply.terminator ∉ got ++ i.octets := by
  cases i with
  | chunk o =>
    have ho : Reply.terminator ∉ o := h
    simp [hg, ho, LineItem.octets]
  | idle | failure e => simpa [LineItem.octets] using hg

namespace ScriptedLine

/-- The reads of one burst, up to the first that brings nothing. A line with nothing left is idle. -/
def reads : List LineItem → List LineItem
  | [] => [.idle]
  | i :: q => if i.octets = [] then [i] else i :: reads q

/-- The reads that an exchange may make, with their times: a burst at each of the times, and one read at
the deadline. -/
def schedule (deadline : Nat) : List Nat → List LineItem → List (Nat × LineItem)
  | [], q => [(deadline, front q)]
  | t :: ts, q => (reads q).map (t, ·) ++ schedule deadline ts (q.drop (reads q).length)

variable {deadline t : Nat} {ts : List Nat} {q : List LineItem}

theorem reads_of_idle (h : (front q).octets = []) : reads q = [front q] := by
  cases q with
  | nil => rfl
  | cons i q => exact if_pos h

theorem reads_of_chunk (h : (front q).octets ≠ []) :
    reads q = front q :: reads q.tail ∧ q = front q :: q.tail := by
  cases q with
  | nil => exact absurd rfl h
  | cons i q => exact ⟨if_neg h, rfl⟩

theorem schedule_of_idle (h : (front q).octets = []) :
    schedule deadline (t :: ts) q = (t, front q) :: schedule deadline ts q.tail := by
  rw [schedule, reads_of_idle h]
  simp

theorem schedule_of_chunk (h : (front q).octets ≠ []) :
    schedule deadline (t :: ts) q = (t, front q) :: schedule deadline (t :: ts) q.tail := by
  obtain ⟨hr, hq⟩ := reads_of_chunk h
  have hlen : q.drop (reads q).length = q.tail.drop (reads q.tail).length := by
    rw [hr, List.length_cons, List.drop_tail]
  rw [schedule, schedule, hlen, hr, List.map_cons, List.cons_append]

/-- The schedule of an exchange that begins at `start`, from the multiple `t` of the poll interval on. -/
def planFrom (p start timeout t : Nat) (q : List LineItem) : List (Nat × LineItem) :=
  schedule (start + timeout) ((ticksFrom p timeout t).map (start + ·)) q

def plan (p start timeout : Nat) (q : List LineItem) : List (Nat × LineItem) :=
  schedule (start + timeout) ((ticks p timeout).map (start + ·)) q

section

variable {p start timeout t : Nat} {q : List LineItem}

theorem plan_eq (p start timeout : Nat) (q : List LineItem) :
    plan p start timeout q = planFrom p start timeout 0 q := by
  rw [plan, planFrom, ticks_eq]

theorem planFrom_of_le (h : timeout ≤ t) :
    planFrom p start timeout t q = [(start + timeout, front q)] := by
  rw [planFrom, ticksFrom_of_le h]
  rfl

theorem planFrom_of_idle (hp : 0 < p) (hd : p ∣ t) (ht : t < timeout) (ho : (front q).octets = []) :
    planFrom p start timeout t q =
      (start + t, front q) :: planFrom p start timeout (t + p) q.tail := by
  rw [planFrom, ticksFrom_of_lt hp hd ht, List.map_cons, schedule_of_idle ho]
  rfl

theorem planFrom_of_chunk (hp : 0 < p) (hd : p ∣ t) (ht : t < timeout) (ho : (front q).octets ≠ []) :
    planFrom p start timeout t q = (start + t, front q) :: planFrom p start timeout t q.tail := by
  rw [planFrom, planFrom, ticksFrom_of_lt hp hd ht, List.map_cons, schedule_of_chunk ho]

theorem exists_planFrom (hp : 0 < p) (hd : p ∣ t) :
    ∃ rest, planFrom p start timeout t q = (start + min t timeout, front q) :: rest := by
  rcases Nat.lt_or_ge t timeout with ht | ht
  · rw [Nat.min_eq_left (Nat.le_of_lt ht)]
    by_cases ho : (front q).octets = []
    · exact ⟨_, planFrom_of_idle hp hd ht ho⟩
    · exact ⟨_, planFrom_of_chunk hp hd ht ho⟩
  · rw [Nat.min_eq_right ht]
    exact ⟨[], planFrom_of_le ht⟩

end

/-- The outcome of an exchange that a read ends. `got` are the octets that came before. -/
def verdict (got : List UInt8) : LineItem → Except PanelError Reply
  | .failure e => .error e
  | i => .ok (Reply.classify (Text.Utf8.decode (got ++ i.octets)))

/-- What a plan of reads comes to: the reads that are made of it, the outcome, and when it is there. The
first read that brings a colon or fails ends it. `got` are the octets that came before. -/
inductive Settles (deadline : Nat) (got : List UInt8) (plan : List (Nat × LineItem)) :
    List (Nat × LineItem) → Except PanelError Reply → Nat → Prop
  | read {before after : List (Nat × LineItem)} {now : Nat} {i : LineItem}
      (hplan : plan = before ++ (now, i) :: after) (hb : ∀ x ∈ before, x.2.IsQuiet)
      (hi : ¬ i.IsQuiet) :
      Settles deadline got plan (before ++ [(now, i)])
        (verdict (got ++ octets (before.map Prod.snd)) i) now
  | timeout (h : ∀ x ∈ plan, x.2.IsQuiet) :
      Settles deadline got plan plan (.ok .timeout) deadline

section

variable {deadline now now' : Nat} {got : List UInt8} {plan made made' : List (Nat × LineItem)}
  {r r' : Except PanelError Reply} {i : LineItem}

theorem Settles.cons {t : Nat} (hi : i.IsQuiet)
    (h : Settles deadline (got ++ i.octets) plan made r now) :
    Settles deadline got ((t, i) :: plan) ((t, i) :: made) r now := by
  have hquiet {l : List (Nat × LineItem)} (hl : ∀ x ∈ l, x.2.IsQuiet) :
      ∀ x ∈ (t, i) :: l, x.2.IsQuiet := by
    intro x hx
    rcases List.mem_cons.mp hx with rfl | hx
    · exact hi
    · exact hl x hx
  cases h with
  | @read before after now j hplan hb hj =>
    have hplan' : (t, i) :: plan = ((t, i) :: before) ++ (now, j) :: after := by simp [hplan]
    have hread : Settles deadline got ((t, i) :: plan) _ _ now := .read hplan' (hquiet hb) hj
    simpa [List.append_assoc] using hread
  | timeout h => exact .timeout (hquiet h)

theorem takeWhile_isQuiet {before after : List (Nat × LineItem)} {x : Nat × LineItem}
    (hb : ∀ y ∈ before, y.2.IsQuiet) (hx : ¬ x.2.IsQuiet) :
    (before ++ x :: after).takeWhile (fun y ↦ decide y.2.IsQuiet) = before := by
  rw [List.takeWhile_append_of_pos (by simpa using hb), List.takeWhile_cons_of_neg (by simpa using hx),
    List.append_nil]

theorem Settles.unique (h : Settles deadline got plan made r now)
    (h' : Settles deadline got plan made' r' now') : made = made' ∧ r = r' ∧ now = now' := by
  cases h with
  | read hplan hb hi =>
    cases h' with
    | read hplan' hb' hi' =>
      have htake := congrArg (List.takeWhile fun y ↦ decide y.2.IsQuiet) (hplan.symm.trans hplan')
      rw [takeWhile_isQuiet hb hi, takeWhile_isQuiet hb' hi'] at htake
      subst htake
      have hrest := List.append_cancel_left (hplan.symm.trans hplan')
      obtain ⟨⟨rfl, rfl⟩, rfl⟩ : (_ ∧ _) ∧ _ := by simpa using hrest
      exact ⟨rfl, rfl, rfl⟩
    | timeout hall => exact absurd (hall (now, _) (by simp [hplan])) hi
  | timeout hall =>
    cases h' with
    | read hplan' hb' hi' => exact absurd (hall (now', _) (by simp [hplan'])) hi'
    | timeout hall' => exact ⟨rfl, rfl, rfl⟩

end

end ScriptedLine

namespace Line

open ScriptedLine

def queue (l : Line WatchedLine) : List LineItem :=
  l.transport.line.queue

def after (l : Line WatchedLine) (made : List (Nat × LineItem)) (now : Nat) : Line WatchedLine where
  transport := {
    line := { l.transport.line with queue := l.queue.drop made.length }
    journal := l.transport.journal ++ made.map fun x ↦ .read x.1 x.2 }
  now := now

def wrote (l : Line WatchedLine) (octets : List UInt8) (items : List LineItem) :
    Line WatchedLine where
  transport := {
    line := {
      l.transport.line with
      queue := l.queue ++ items
      replies := l.transport.line.replies.tail
      sent := l.transport.line.sent ++ [octets] }
    journal := l.transport.journal ++ [.write octets] }
  now := l.now

def purged (l : Line WatchedLine) : Line WatchedLine :=
  l.after ((reads l.queue).map (l.now, ·)) l.now

section

variable {l : Line WatchedLine} {i : LineItem} {e : PanelError} {n now : Nat} {got : List UInt8}

@[simp] theorem queue_after_one (x : Nat × LineItem) : (l.after [x] now).queue = l.queue.tail :=
  List.drop_one

theorem after_after (l : Line WatchedLine) (made made' : List (Nat × LineItem)) (now now' : Nat) :
    (l.after made now).after made' now' = l.after (made ++ made') now' := by
  simp [after, queue, List.drop_drop]

theorem read_ok (h : front l.queue = i) (hi : ∀ e, i ≠ .failure e) :
    read l = .ok i.octets (l.after [(l.now, i)] l.now) := by
  have hr : l.transport.line.read = (.ok i.octets, { l.transport.line with queue := l.queue.tail }) := by
    have hq : front l.transport.line.queue = i := h
    rw [ScriptedLine.read_eq, hq]
    cases i with
    | failure e => exact absurd rfl (hi e)
    | idle | chunk o => rfl
  rw [queue] at h hr
  simp [read, perform, Transport.read, WatchedLine.read, WatchedLine.doing, hr, h, after, queue]

theorem read_failure (h : front l.queue = .failure e) :
    read l = .error (.failed e) (l.after [(l.now, .failure e)] l.now) := by
  have hr : l.transport.line.read = (.error e, { l.transport.line with queue := l.queue.tail }) := by
    have hq : front l.transport.line.queue = .failure e := h
    rw [ScriptedLine.read_eq, hq]
    rfl
  rw [queue] at h hr
  simp [read, perform, Transport.read, WatchedLine.read, WatchedLine.doing, hr, h, after, queue]

theorem readAllWithin_reads (hn : l.queue.length < n) :
    (∀ e, .failure e ∈ reads l.queue → readAllWithin n got l = .error (.failed e) l.purged) ∧
      ((∀ e, .failure e ∉ reads l.queue) →
        readAllWithin n got l = .ok (got ++ octets (reads l.queue)) l.purged) := by
  induction n generalizing got l with
  | zero => omega
  | succ n ih =>
    rw [readAllWithin, purged]
    by_cases ho : (front l.queue).octets = []
    · rw [reads_of_idle ho]
      constructor
      · intro e he
        have hf : front l.queue = .failure e := (List.mem_singleton.mp he).symm
        rw [bind_of_error (read_failure hf), hf]
        rfl
      · intro he
        have hf : ∀ e, front l.queue ≠ .failure e := by
          intro e hq
          exact he e (by simp [hq])
        rw [bind_of_ok (read_ok rfl hf), if_pos (List.isEmpty_iff.mpr ho), octets_cons, ho]
        simp
        rfl
    · obtain ⟨hr, hq⟩ := reads_of_chunk ho
      have hf : ∀ e, front l.queue ≠ .failure e := by
        intro e he
        rw [he] at ho
        exact ho rfl
      have hlen : (l.after [(l.now, front l.queue)] l.now).queue.length < n := by
        rw [hq, List.length_cons] at hn
        rw [queue_after_one]
        omega
      have hp : (l.after [(l.now, front l.queue)] l.now).purged =
          l.after ((l.now, front l.queue) :: (reads l.queue.tail).map (l.now, ·)) l.now := by
        rw [purged, after_after, queue_after_one]
        rfl
      obtain ⟨hfail, hok⟩ := @ih _ (got ++ (front l.queue).octets) hlen
      rw [queue_after_one, hp] at hfail hok
      rw [bind_of_ok (read_ok rfl hf), if_neg (by simpa using ho), hr]
      constructor
      · intro e he
        apply hfail
        rcases List.mem_cons.mp he with he | he
        · exact absurd he.symm (hf e)
        · exact he
      · intro he
        rw [hok fun e hm ↦ he e (List.mem_cons_of_mem _ hm), octets_cons, List.append_assoc]
        rfl

theorem length_queue_lt (l : Line WatchedLine) :
    l.queue.length < Transport.backlog l.transport + 1 := by
  have := length_le_queueWeight l.queue
  simp only [Transport.backlog, backlog, queue] at this ⊢
  omega

theorem discard_watched (l : Line WatchedLine) :
    discard l = (readAllWithin (Transport.backlog l.transport + 1) [] >>= fun _ ↦ pure ()) l := rfl

theorem discard_failed (h : .failure e ∈ reads l.queue) :
    discard l = .error (.failed e) l.purged := by
  rw [discard_watched]
  exact bind_of_error ((readAllWithin_reads (length_queue_lt l)).1 e h)

theorem discard_ok (h : ∀ e, .failure e ∉ reads l.queue) : discard l = .ok () l.purged := by
  rw [discard_watched]
  exact bind_of_ok ((readAllWithin_reads (length_queue_lt l)).2 h)

variable {octets : List UInt8} {items : List LineItem}

/-- What the next write leads to. Without an answer it leads to nothing. -/
def answer (l : Line WatchedLine) : LineReply :=
  l.transport.line.replies.headD (.items [])

theorem write_ok (h : l.answer = .items items) : write octets l = .ok () (l.wrote octets items) := by
  unfold answer at h
  cases hr : l.transport.line.replies with
  | nil =>
    rw [hr] at h
    obtain rfl : [] = items := LineReply.items.inj h
    simp [write, perform, Transport.write, WatchedLine.write, WatchedLine.doing, ScriptedLine.write,
      hr, wrote, queue]
  | cons r rs =>
    rw [hr] at h
    obtain rfl : r = .items items := h
    simp [write, perform, Transport.write, WatchedLine.write, WatchedLine.doing, ScriptedLine.write,
      hr, wrote, queue]

theorem write_failed (h : l.answer = .failure e) :
    write octets l = .error (.failed e) (l.wrote octets []) := by
  unfold answer at h
  cases hr : l.transport.line.replies with
  | nil => rw [hr] at h; cases h
  | cons r rs =>
    rw [hr] at h
    obtain rfl : r = .failure e := h
    simp [write, perform, Transport.write, WatchedLine.write, WatchedLine.doing, ScriptedLine.write,
      hr, wrote, queue]

end

/-- The reply is collected in the way that a plan of reads comes to. -/
def Collects (deadline n : Nat) (got : List UInt8) (l : Line WatchedLine)
    (plan : List (Nat × LineItem)) : Prop :=
  ∃ made r now, Settles deadline got plan made r now ∧
    collect deadline n got l = ofExcept r (l.after made now)

section

variable {l : Line WatchedLine} {got : List UInt8} {rest plan : List (Nat × LineItem)}
  {deadline start timeout p t k n now : Nat}

theorem collects_end (hi : ¬ (front l.queue).IsQuiet) :
    Collects deadline (n + 1) got l ((l.now, front l.queue) :: rest) := by
  refine ⟨[(l.now, front l.queue)], verdict got (front l.queue), l.now, ?_, ?_⟩
  · have hplan : (l.now, front l.queue) :: rest = [] ++ (l.now, front l.queue) :: rest := rfl
    have hread : Settles deadline got ((l.now, front l.queue) :: rest) _ _ l.now :=
      .read hplan (by simp) hi
    simpa using hread
  · cases hq : front l.queue with
    | idle => simp [hq, LineItem.IsQuiet] at hi
    | failure e =>
      rw [collect, bind_of_error (read_failure hq)]
      rfl
    | chunk o =>
      have hc : Reply.terminator ∈ o := by simpa [hq, LineItem.IsQuiet] using hi
      exact collect_end (read_ok hq (by simp)) hc

theorem read_quiet (hq : (front l.queue).IsQuiet) :
    read l = .ok (front l.queue).octets (l.after [(l.now, front l.queue)] l.now) :=
  read_ok rfl hq.ne_failure

theorem collects_late (hq : (front l.queue).IsQuiet) (hg : Reply.terminator ∉ got)
    (hd : l.now = deadline) : Collects deadline (n + 1) got l [(l.now, front l.queue)] := by
  refine ⟨[(l.now, front l.queue)], .ok .timeout, deadline, .timeout (by simpa using hq), ?_⟩
  rw [collect_late (read_quiet hq) (hq.notMem_append hg) (Nat.le_of_eq hd.symm), hd]
  rfl

theorem Collects.cons (hq : (front l.queue).IsQuiet)
    (hs : collect deadline (n + 1) got l =
      collect deadline n (got ++ (front l.queue).octets) (l.after [(l.now, front l.queue)] now))
    (h : Collects deadline n (got ++ (front l.queue).octets)
      (l.after [(l.now, front l.queue)] now) plan) :
    Collects deadline (n + 1) got l ((l.now, front l.queue) :: plan) := by
  obtain ⟨made, r, later, hsettles, hcollect⟩ := h
  rw [after_after] at hcollect
  exact ⟨_, r, later, hsettles.cons hq, hs.trans hcollect⟩

theorem collect_of_idle (hq : (front l.queue).IsQuiet) (ho : (front l.queue).octets = [])
    (hd : l.now < deadline) :
    collect deadline (n + 1) got l = collect deadline n (got ++ (front l.queue).octets)
      (l.after [(l.now, front l.queue)]
        (l.now + min l.transport.line.interval (deadline - l.now))) := by
  have hr := read_quiet hq
  rw [ho] at hr
  rw [collect_idle hr hd, ho, List.append_nil]
  rfl

/-- From the multiple `t` of the poll interval on, or from the deadline where that is sooner, the reply
is collected as planned. `k` pauses are enough to come to the deadline. -/
theorem collects_planFrom (hp : 0 < p) (hl : l.transport.line.interval = p) (hd : p ∣ t)
    (hnow : l.now = start + min t timeout) (hk : timeout ≤ t + k * p)
    (hn : l.queue.length + k < n) (hg : Reply.terminator ∉ got) :
    Collects (start + timeout) n got l (planFrom p start timeout t l.queue) := by
  induction n generalizing l got t k with
  | zero => omega
  | succ n ih =>
    by_cases hq : (front l.queue).IsQuiet
    case neg =>
      obtain ⟨rest, hplan⟩ : ∃ rest, planFrom p start timeout t l.queue = _ := exists_planFrom hp hd
      rw [hplan, ← hnow]
      exact collects_end hq
    have hg' : Reply.terminator ∉ got ++ (front l.queue).octets := hq.notMem_append hg
    rcases Nat.lt_or_ge t timeout with ht | ht
    · have hnow' : l.now = start + t := by omega
      have hlt : l.now < start + timeout := by omega
      by_cases ho : (front l.queue).octets = []
      · -- an idle read is followed by a pause, up to the next multiple or to the deadline
        obtain ⟨k, rfl⟩ : ∃ m, k = m + 1 := by
          cases k with
          | zero => omega
          | succ m => exact ⟨m, rfl⟩
        rw [Nat.succ_mul] at hk
        rw [planFrom_of_idle hp hd ht ho, ← hnow', ← queue_after_one]
        refine .cons hq (collect_of_idle hq ho hlt) ?_
        refine ih (k := k) hl (Nat.dvd_add hd (Nat.dvd_refl p)) ?_ (by omega) ?_ hg'
        · simp only [after, hl]
          omega
        · rw [queue_after_one, List.length_tail]
          omega
      · -- a chunk makes the queue shorter
        rw [planFrom_of_chunk hp hd ht ho, ← hnow', ← queue_after_one]
        refine .cons hq (collect_more (read_quiet hq) ho hg' hlt) ?_
        refine ih hl hd hnow hk ?_ hg'
        obtain ⟨-, htail⟩ := reads_of_chunk ho
        rw [htail, List.length_cons] at hn
        rw [queue_after_one]
        omega
    · have hnow' : l.now = start + timeout := by omega
      rw [planFrom_of_le ht, ← hnow']
      exact collects_late hq hg rfl

end

/-- What an exchange on a watched line comes to. A failure among the stale input or of the write ends
it. Else the input that is not stale, with what the write leads to, is read as planned. -/
inductive Sends (text : String) (timeout : Nat) (l : Line WatchedLine) :
    EStateM.Result Halt (Line WatchedLine) Reply → Prop
  | stale {e : PanelError} (h : .failure e ∈ reads l.queue) :
      Sends text timeout l (.error (.failed e) l.purged)
  | unsent {e : PanelError} (hs : ∀ e, .failure e ∉ reads l.queue) (ha : l.answer = .failure e) :
      Sends text timeout l
        (.error (.failed e) (l.purged.wrote (Text.Utf8.encode text.toList) []))
  | settled {items : List LineItem} {made : List (Nat × LineItem)} {r : Except PanelError Reply}
      {now : Nat} (hs : ∀ e, .failure e ∉ reads l.queue) (ha : l.answer = .items items)
      (h : Settles (l.now + timeout) [] (plan l.transport.line.interval l.now timeout
        (l.queue.drop (reads l.queue).length ++ items)) made r now) :
      Sends text timeout l (ofExcept r
        ((l.purged.wrote (Text.Utf8.encode text.toList) items).after made now))

section

variable {l : Line WatchedLine} {text : String} {timeout : Nat} {items : List LineItem}
  {r r' : EStateM.Result Halt (Line WatchedLine) Reply}

theorem queue_purged (l : Line WatchedLine) :
    l.purged.queue = l.queue.drop (reads l.queue).length := by
  simp [purged, after, queue]

theorem sends_send (hp : 0 < l.transport.line.interval) : Sends text timeout l (send text timeout l) := by
  rw [send_of_supportsCommands rfl]
  by_cases hs : ∃ e, .failure e ∈ reads l.queue
  · obtain ⟨e, he⟩ := hs
    rw [bind_of_error (discard_failed he)]
    exact .stale he
  have hs' : ∀ e, .failure e ∉ reads l.queue := fun e he ↦ hs ⟨e, he⟩
  rw [bind_of_ok (discard_ok hs')]
  cases ha : l.answer with
  | failure e =>
    have hw : l.purged.answer = .failure e := ha
    rw [ask, bind_of_error (write_failed hw)]
    exact .unsent hs' ha
  | items items =>
    have hw : l.purged.answer = .items items := ha
    rw [ask_of_write (write_ok hw)]
    have hq : (l.purged.wrote (Text.Utf8.encode text.toList) items).queue =
        l.queue.drop (reads l.queue).length ++ items := by rw [← queue_purged]; rfl
    have hk : timeout ≤ 0 + (timeout / l.transport.line.interval + 1) * l.transport.line.interval := by
      have := Nat.lt_mul_div_succ timeout hp
      rw [Nat.mul_comm] at this
      omega
    have hn : (l.purged.wrote (Text.Utf8.encode text.toList) items).queue.length +
        (timeout / l.transport.line.interval + 1) <
          collectBound (l.purged.wrote (Text.Utf8.encode text.toList) items) timeout := by
      have := length_queue_lt (l.purged.wrote (Text.Utf8.encode text.toList) items)
      have hpoll : Transport.pollInterval
          (l.purged.wrote (Text.Utf8.encode text.toList) items).transport =
            l.transport.line.interval := rfl
      rw [collectBound, hpoll]
      omega
    have hnow : (l.purged.wrote (Text.Utf8.encode text.toList) items).now = l.now := rfl
    have hstart : (l.purged.wrote (Text.Utf8.encode text.toList) items).now =
        l.now + min 0 timeout := by rw [Nat.zero_min, Nat.add_zero, hnow]
    have hc : Collects (l.now + timeout) _ [] _ (planFrom _ l.now timeout 0 _) :=
      collects_planFrom (l := l.purged.wrote (Text.Utf8.encode text.toList) items) hp rfl
        (Nat.dvd_zero _) hstart hk hn (by simp)
    rw [← plan_eq, hq] at hc
    obtain ⟨made, r, now, hsettles, hcollect⟩ := hc
    rw [hnow, hcollect]
    exact .settled hs' ha hsettles

theorem Sends.unique (h : Sends text timeout l r) (h' : Sends text timeout l r') : r = r' := by
  cases h with
  | stale he =>
    cases h' with
    | stale he' =>
      have heq := (discard_failed he).symm.trans (discard_failed he')
      cases heq
      rfl
    | unsent hs | settled hs => exact absurd he (hs _)
  | unsent hs ha =>
    cases h' with
    | stale he => exact absurd he (hs _)
    | unsent _ ha' =>
      cases ha.symm.trans ha'
      rfl
    | settled _ ha' => cases ha.symm.trans ha'
  | settled hs ha hsettles =>
    cases h' with
    | stale he => exact absurd he (hs _)
    | unsent _ ha' => cases ha.symm.trans ha'
    | settled _ ha' hsettles' =>
      cases ha.symm.trans ha'
      obtain ⟨rfl, rfl, rfl⟩ := hsettles.unique hsettles'
      rfl

/-- One exchange, read by read: its outcome, its time and what is left of the line are those of the plan,
and watching it makes no difference. -/
theorem send_eq_iff_sends {l : Line ScriptedLine} (hp : 0 < l.transport.interval) (text : String)
    (timeout : Nat) :
    send text timeout l = mapResult WatchedLine.line (send text timeout l.watched) ∧
      ∀ r, send text timeout l.watched = r ↔ Sends text timeout l.watched r := by
  refine ⟨send_watched text timeout l, fun r ↦ ⟨?_, ?_⟩⟩
  · rintro rfl
    exact sends_send hp
  · intro hr
    exact (sends_send hp).unique hr

end

def dueReply : Line ScriptedLine where
  transport := {
    queue := [.chunk [0x5A], .idle]
    replies := [.items [.chunk [0x50], .idle, .idle, .idle, .chunk [0x3A], .idle]] }

theorem send_dueReply :
    0 < dueReply.transport.interval ∧
      ∃ l, send "P" 250 dueReply.watched = .ok (Reply.classify (Text.Utf8.decode [0x50, 0x3A])) l ∧
        l.now = 250 ∧ l.queue = [.idle] ∧
        l.transport.journal = [.read 0 (.chunk [0x5A]), .read 0 .idle, .write [0x50],
          .read 0 (.chunk [0x50]), .read 0 .idle, .read 100 .idle, .read 200 .idle,
          .read 250 (.chunk [0x3A])] := by
  have hp : 0 < dueReply.transport.interval := by decide
  have hplan : plan 100 0 250 [.chunk [0x50], .idle, .idle, .idle, .chunk [0x3A], .idle] =
      [(0, .chunk [0x50]), (0, .idle), (100, .idle), (200, .idle)] ++ [(250, .chunk [0x3A])] := by
    decide
  have hb : ∀ x ∈ [(0, LineItem.chunk [0x50]), (0, .idle), (100, .idle), (200, .idle)],
      x.2.IsQuiet := by decide
  have hi : ¬ (LineItem.chunk [0x3A]).IsQuiet := by decide
  have hs : ∀ e, LineItem.failure e ∉ reads dueReply.watched.queue := by
    simp [dueReply, watched, queue, reads, LineItem.octets]
  exact ⟨hp, _, ((send_eq_iff_sends hp "P" 250).2 _).mpr (.settled hs rfl (.read hplan hb hi)), rfl,
    rfl, by decide⟩

end Line

end AlarmPanel
