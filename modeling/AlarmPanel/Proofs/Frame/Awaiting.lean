import AlarmPanel.Proofs.Device.Rest
import AlarmPanel.Proofs.Frame.Overflow

namespace AlarmPanel

open AlarmPanel.Frame

namespace Hearing

variable {h : Hearing} {before : List String} {stream : List UInt8}

/-- The next look reads octets that empty the buffer. -/
def Spills (h : Hearing) : Prop :=
  h.assembler.take? = none ∧
    ∃ i q, h.queue = i :: q ∧ i.octets ≠ [] ∧ h.assembler.Overflows i.octets

theorem Follows.look_of_not_spills (hf : h.Follows before stream) (hs : ¬ h.Spills) :
    h.look.Follows before stream := by
  unfold Hearing.look
  split
  case h_1 => exact hf.tell
  case h_2 => exact hf
  case h_3 i q hn hq =>
    split
    case isTrue ho =>
      obtain ⟨done, he, hd, ht⟩ := hf
      refine ⟨done, ?_, hd, ht⟩
      rw [he, pending, hq, ScriptedLine.octets_cons, ho]
      rfl
    case isFalse ho =>
      have hp : ¬ h.assembler.Overflows i.octets := fun hp ↦ hs ⟨hn, i, q, hq, ho, hp⟩
      refine Follows.tell ?_
      obtain ⟨done, he, hd, ht⟩ := hf
      refine ⟨done, ?_, hd, ht⟩
      rw [he, pending, pending, hq, Assembler.push_of_not_overflows hp, ScriptedLine.octets_cons,
        List.append_assoc]

theorem Follows.looks_of_not_spills (hf : h.Follows before stream) (n : Nat)
    (hs : ∀ k < n, ¬ (Hearing.looks k h).Spills) : (Hearing.looks n h).Follows before stream := by
  induction n generalizing h with
  | zero => exact hf
  | succ n ih =>
    refine ih (hf.look_of_not_spills (hs 0 (Nat.zero_lt_succ n))) fun k hk ↦ ?_
    exact hs (k + 1) (Nat.succ_lt_succ hk)

theorem told_prefix_tell (h : Hearing) : h.told <+: h.tell.told := by
  unfold tell
  split
  · exact List.prefix_append _ _
  · exact List.prefix_refl _

theorem told_prefix_look (h : Hearing) : h.told <+: h.look.told := by
  unfold look
  split
  case h_1 => exact h.told_prefix_tell
  case h_2 => exact List.prefix_refl _
  case h_3 i q _ _ =>
    split
    case isTrue => exact List.prefix_refl _
    case isFalse => exact told_prefix_tell ⟨h.told, h.assembler.push i.octets, q⟩

theorem told_prefix_looks (n : Nat) (h : Hearing) : h.told <+: (looks n h).told := by
  induction n generalizing h with
  | zero => exact List.prefix_refl _
  | succ n ih => exact h.told_prefix_look.trans (ih h.look)

theorem queue_look_suffix (h : Hearing) : h.look.queue <:+ h.queue := by
  unfold look
  split
  case h_1 => rw [queue_tell]
  case h_2 => exact List.suffix_refl _
  case h_3 i q _ hq =>
    rw [hq]
    split
    case isTrue => exact List.suffix_cons i q
    case isFalse =>
      rw [queue_tell]
      exact List.suffix_cons i q

theorem queue_looks_suffix (n : Nat) (h : Hearing) : (looks n h).queue <:+ h.queue := by
  induction n generalizing h with
  | zero => exact List.suffix_refl _
  | succ n ih => exact (ih h.look).trans h.queue_look_suffix

/-- No number of looks tells more than the looks up to the rest. -/
theorem told_prefix_of_atRest {n : Nat} (hr : (looks n h).AtRest) (m : Nat) :
    (looks m h).told <+: (looks n h).told := by
  have he : looks n (looks m h) = looks n h := by
    rw [← looks_add, Nat.add_comm, looks_add, looks_of_atRest hr]
  rw [← he]
  exact told_prefix_looks n (looks m h)

end Hearing

namespace Receiver

section

variable {σ : Type} [Transport σ]

/-- Calls one after the other, each stopped its own time after it begins, with what they return. A call
that never returns is the last one. -/
def waits : List Nat → Receiver σ → List (Option String) × Receiver σ
  | [], r => ([], r)
  | t :: times, r =>
    match await (r.line.now + t) r with
    | .ok x r' => (x :: (waits times r').1, (waits times r').2)
    | .error _ r' => ([], r')

/-- A call that is never stopped polls until a line is complete. -/
inductive Returns : Receiver σ → String → Receiver σ → Prop
  | now {r r' : Receiver σ} {text : String} (h : poll r = .ok (some text) r') : Returns r text r'
  | later {r r₁ r' : Receiver σ} {text : String} (h : poll r = .ok none r₁) (ht : Returns r₁ text r') :
    Returns r text r'

/-- What calls that are never stopped return one after the other. -/
inductive ReturnsAll : Receiver σ → List String → Receiver σ → Prop
  | nil (r : Receiver σ) : ReturnsAll r [] r
  | cons {r r₁ r' : Receiver σ} {text : String} {texts : List String} (h : Returns r text r₁)
      (ht : ReturnsAll r₁ texts r') : ReturnsAll r (text :: texts) r'

theorem await_of_le {r : Receiver σ} {stop : Nat} (h : stop ≤ r.line.now) :
    await stop r = .ok none r := by
  have hb : Line.collectBound r.line (stop - r.line.now) =
      Transport.backlog r.line.transport +
        (stop - r.line.now) / Transport.pollInterval r.line.transport + 2 + 1 := rfl
  rw [await, get_bind, hb, awaitWithin, get_bind, if_pos h]
  rfl

end

def IsSafe (r : Receiver ScriptedLine) : Prop :=
  ∀ e, .failure e ∉ r.line.transport.queue

def hearing (told : List String) (r : Receiver ScriptedLine) : Hearing where
  told := told
  assembler := r.assembler
  queue := r.line.transport.queue

/-- What `n` looks make of a receiver, and the lines that they tell. -/
structure Looks (n : Nat) (new : List String) (r r' : Receiver ScriptedLine) : Prop where
  hearing_eq : ∀ told, r'.hearing (told ++ new) = (r.hearing told).looks n
  interval_eq : r'.line.transport.interval = r.line.transport.interval

variable {r r' r'' : Receiver ScriptedLine} {n m : Nat} {new more : List String}

theorem Looks.refl (r : Receiver ScriptedLine) : Looks 0 [] r r :=
  ⟨fun told ↦ by rw [List.append_nil]; rfl, rfl⟩

theorem Looks.trans (h : Looks n new r r') (h' : Looks m more r' r'') :
    Looks (n + m) (new ++ more) r r'' := by
  refine ⟨fun told ↦ ?_, h'.interval_eq.trans h.interval_eq⟩
  rw [Hearing.looks_add, ← h.hearing_eq, ← h'.hearing_eq, List.append_assoc]

theorem Looks.isSafe (h : Looks n new r r') (hr : r.IsSafe) : r'.IsSafe := by
  intro e he
  have hs := Hearing.queue_looks_suffix n (r.hearing [])
  rw [← h.hearing_eq] at hs
  exact hr e (hs.subset he)

structure Sees (r : Receiver ScriptedLine) (seen : Look) (r' : Receiver ScriptedLine) : Prop where
  look_eq : look r = .ok seen r'
  looks : Looks 1 seen.frame?.toList r r'
  now_eq : r'.line.now = r.line.now
  length_le : r'.line.transport.queue.length ≤ r.line.transport.queue.length
  length_lt : seen = .unfinished →
    r'.line.transport.queue.length < r.line.transport.queue.length

theorem sees_of_take {text : String} {a : Assembler} (ht : r.assembler.take? = some (text, a)) :
    Sees r (.frame text) { r with assembler := a } where
  look_eq := look_complete ht
  looks := ⟨fun told ↦ by simp [Hearing.looks, Hearing.look, Hearing.tell, hearing, ht, Look.frame?], rfl⟩
  now_eq := rfl
  length_le := Nat.le_refl _
  length_lt := fun h ↦ by cases h

theorem sees_of_nil (ht : r.assembler.take? = none) (hq : r.line.transport.queue = []) :
    Sees r .idle r where
  look_eq := look_idle ht (Line.read_nil hq)
  looks := ⟨fun told ↦ by simp [Hearing.looks, Hearing.look, hearing, ht, hq, Look.frame?], rfl⟩
  now_eq := rfl
  length_le := Nat.le_refl _
  length_lt := fun h ↦ by cases h

theorem sees_of_idle {i : LineItem} {q : List LineItem} (ht : r.assembler.take? = none)
    (hq : r.line.transport.queue = i :: q) (hi : i.octets = [])
    (hr : Line.read r.line = .ok [] (r.line.withQueue q)) :
    Sees r .idle { r with line := r.line.withQueue q } where
  look_eq := look_idle ht hr
  looks := ⟨fun told ↦ by
    simp [Hearing.looks, Hearing.look, hearing, ht, hq, hi, Look.frame?, Line.withQueue], rfl⟩
  now_eq := rfl
  length_le := by simp [hq, Line.withQueue]
  length_lt := fun h ↦ by cases h

theorem exists_sees (hr : r.IsSafe) : ∃ seen r', Sees r seen r' := by
  cases ht : r.assembler.take? with
  | some p => exact ⟨_, _, sees_of_take ht⟩
  | none =>
    cases hq : r.line.transport.queue with
    | nil => exact ⟨_, _, sees_of_nil ht hq⟩
    | cons i q =>
      cases i with
      | failure e => exact absurd (hq ▸ List.mem_cons_self) (hr e)
      | idle => exact ⟨_, _, sees_of_idle ht hq rfl (Line.read_cons_idle hq)⟩
      | chunk o =>
        by_cases ho : o = []
        · subst ho
          exact ⟨_, _, sees_of_idle ht hq rfl (Line.read_cons_chunk hq)⟩
        · have hlook (told : List String) : (r.hearing told).looks 1 =
              Hearing.tell ⟨told, r.assembler.push o, q⟩ := by
            simp [Hearing.looks, Hearing.look, hearing, ht, hq, LineItem.octets, ho]
          have hlen : q.length < r.line.transport.queue.length := by simp [hq]
          cases hp : (r.assembler.push o).take? with
          | none =>
            refine ⟨_, _, look_unfinished ht (Line.read_cons_chunk hq) ho hp, ⟨fun told ↦ ?_, rfl⟩, rfl,
              Nat.le_of_lt hlen, fun _ ↦ hlen⟩
            rw [hlook, Hearing.tell, hp]
            simp [hearing, Look.frame?, Line.withQueue]
          | some p =>
            refine ⟨_, _, look_frame ht (Line.read_cons_chunk hq) ho hp, ⟨fun told ↦ ?_, rfl⟩, rfl,
              Nat.le_of_lt hlen, fun h ↦ by cases h⟩
            rw [hlook, Hearing.tell, hp]
            rfl

def later (ms : Nat) (r : Receiver ScriptedLine) : Receiver ScriptedLine :=
  { r with line := { r.line with now := r.line.now + ms } }

theorem transport_later (ms : Nat) (r : Receiver ScriptedLine) :
    (r.later ms).line.transport = r.line.transport := rfl

theorem Looks.later (h : Looks n new r r') (ms : Nat) : Looks n new r (r'.later ms) :=
  ⟨h.hearing_eq, h.interval_eq⟩

theorem awaitWithin_sees {stop fuel : Nat} {seen : Look} (h : Sees r seen r') (hn : r.line.now < stop) :
    awaitWithin stop (fuel + 1) r =
      match seen with
      | .frame text => .ok (some text) r'
      | .unfinished => awaitWithin stop fuel r'
      | .idle => awaitWithin stop fuel
          (r'.later (min r.line.transport.interval (stop - r.line.now))) := by
  rw [awaitWithin, get_bind, if_neg (Nat.not_le.mpr hn), bind_of_ok h.look_eq, ← h.looks.interval_eq]
  cases seen <;> rfl

/-- What a wait returns, if it returns and was not stopped. -/
def told? (result : EStateM.Result Halt (Receiver ScriptedLine) (Option String)) : Option String :=
  match result with
  | .ok x _ => x
  | .error .. => none

theorem looks_awaitWithin (stop fuel : Nat) (hr : r.IsSafe) :
    ∃ n, Looks n (told? (awaitWithin stop fuel r)).toList r (stateOf (awaitWithin stop fuel r)) := by
  -- By induction on the looks that are left: a wait only looks, and no look but its last tells a
  -- line.
  induction fuel generalizing r with
  | zero => exact ⟨0, .refl r⟩
  | succ fuel ih =>
    rcases Nat.lt_or_ge r.line.now stop with hn | hn
    · obtain ⟨seen, r', hs⟩ := exists_sees hr
      rw [awaitWithin_sees hs hn]
      cases seen with
      | frame text => exact ⟨1, hs.looks⟩
      | unfinished =>
        obtain ⟨n, hl⟩ := ih (hs.looks.isSafe hr)
        exact ⟨1 + n, hs.looks.trans hl⟩
      | idle =>
        have hi := hs.looks.later (min r.line.transport.interval (stop - r.line.now))
        obtain ⟨n, hl⟩ := ih (hi.isSafe hr)
        exact ⟨1 + n, hi.trans hl⟩
    · rw [awaitWithin, get_bind, if_pos hn]
      exact ⟨0, .refl r⟩

theorem awaitWithin_returns {stop fuel k : Nat} (hr : r.IsSafe)
    (ht : stop - r.line.now ≤ k * r.line.transport.interval)
    (hf : r.line.transport.queue.length + k < fuel) :
    ∃ x r', awaitWithin stop fuel r = .ok x r' := by
  induction fuel generalizing r k with
  | zero => exact absurd hf (Nat.not_lt_zero _)
  | succ fuel ih =>
    rcases Nat.lt_or_ge r.line.now stop with hn | hn
    · obtain ⟨seen, r', hs⟩ := exists_sees hr
      rw [awaitWithin_sees hs hn]
      cases seen with
      | frame text => exact ⟨_, _, rfl⟩
      | unfinished =>
        have hlt := hs.length_lt rfl
        refine ih (k := k) (hs.looks.isSafe hr) ?_ ?_
        · rwa [hs.now_eq, hs.looks.interval_eq]
        · omega
      | idle =>
        obtain ⟨k, rfl⟩ : ∃ m, k = m + 1 := by
          refine Nat.exists_eq_add_one_of_ne_zero ?_
          rintro rfl
          omega
        have hle := hs.length_le
        have hi := hs.looks.later (min r.line.transport.interval (stop - r.line.now))
        refine ih (k := k) (hi.isSafe hr) ?_ ?_
        · rw [hi.interval_eq, later, hs.now_eq]
          rw [Nat.add_mul, Nat.one_mul] at ht
          dsimp only
          omega
        · rw [transport_later]
          omega
    · rw [awaitWithin, get_bind, if_pos hn]
      exact ⟨_, _, rfl⟩

theorem await_returns (hr : r.IsSafe) (hp : 0 < r.line.transport.interval) (stop : Nat) :
    ∃ x r', await stop r = .ok x r' := by
  rw [await, get_bind]
  have hm := Nat.lt_mul_div_succ (stop - r.line.now) hp
  have hl := ScriptedLine.length_le_queueWeight r.line.transport.queue
  refine awaitWithin_returns (k := (stop - r.line.now) / r.line.transport.interval + 1) hr ?_ ?_
  · rw [Nat.mul_comm]
    exact Nat.le_of_lt hm
  · have hb : Line.collectBound r.line (stop - r.line.now) =
        ScriptedLine.queueWeight r.line.transport.queue +
          ScriptedLine.repliesWeight r.line.transport.replies +
          (stop - r.line.now) / r.line.transport.interval + 3 := rfl
    omega

theorem looks_await (stop : Nat) (hr : r.IsSafe) :
    ∃ n, Looks n (told? (await stop r)).toList r (stateOf (await stop r)) :=
  looks_awaitWithin stop _ hr

theorem looks_waits (times : List Nat) (hr : r.IsSafe) :
    ∃ n, Looks n ((waits times r).1.filterMap id) r (waits times r).2 := by
  -- By induction on the calls: together they only look, and return the lines that these looks tell.
  induction times generalizing r with
  | nil => exact ⟨0, .refl r⟩
  | cons t times ih =>
    obtain ⟨n, hl⟩ := looks_await (r.line.now + t) hr
    rw [waits]
    cases ha : await (r.line.now + t) r with
    | error e r' =>
      rw [ha] at hl
      exact ⟨n, hl⟩
    | ok x r' =>
      rw [ha] at hl
      obtain ⟨m, hm⟩ := ih (hl.isSafe hr)
      refine ⟨n + m, ?_⟩
      have he : (x :: (waits times r').1).filterMap id =
          x.toList ++ (waits times r').1.filterMap id := by
        cases x <;> rfl
      rw [he]
      exact hl.trans hm

theorem length_waits (times : List Nat) (hr : r.IsSafe) (hp : 0 < r.line.transport.interval) :
    (waits times r).1.length = times.length := by
  induction times generalizing r with
  | nil => rfl
  | cons t times ih =>
    obtain ⟨x, r', ha⟩ := await_returns hr hp (r.line.now + t)
    obtain ⟨n, hl⟩ := looks_await (r.line.now + t) hr
    rw [ha] at hl
    have hp' : 0 < r'.line.transport.interval := hl.interval_eq ▸ hp
    have hlen : (waits times r').1.length = times.length := ih (hl.isSafe hr) hp'
    rw [waits, ha, List.length_cons, List.length_cons, hlen]

theorem exists_poll (hr : r.IsSafe) : ∃ x r', poll r = .ok x r' ∧ Looks 1 x.toList r r' := by
  obtain ⟨seen, r', hs⟩ := exists_sees hr
  rw [poll, bind_of_ok hs.look_eq]
  cases seen with
  | frame text => exact ⟨_, _, rfl, hs.looks⟩
  | unfinished => exact ⟨_, _, rfl, hs.looks⟩
  | idle => exact ⟨_, _, rfl, hs.looks.later _⟩

theorem hearing_of_looks_one {x : Option String} (h : Looks 1 x.toList r r') (told : List String) :
    r'.hearing (told ++ x.toList) = (r.hearing told).look :=
  h.hearing_eq told

theorem not_returns_of_atRest (hr : r.IsSafe) (ha : (r.hearing []).AtRest) {text : String} :
    ¬ Returns r text r' := by
  intro h
  induction h with
  | @now r r' text hp =>
    obtain ⟨x, r₁, hp', hl⟩ := exists_poll hr
    rw [hp] at hp'
    cases hp'
    have ht := congrArg Hearing.told (hearing_of_looks_one hl [])
    rw [Hearing.look_of_atRest ha] at ht
    cases ht
  | @later r r₁ r' text hp _ ih =>
    obtain ⟨x, r₂, hp', hl⟩ := exists_poll hr
    rw [hp] at hp'
    cases hp'
    have he : r₁.hearing [] = (r.hearing []).look := hearing_of_looks_one hl []
    refine ih (hl.isSafe hr) ?_
    rw [he, Hearing.look_of_atRest ha]
    exact ha

/-- What calls that are never stopped return before they wait for ever. -/
def ReturnsInAll (all : List String) (r : Receiver ScriptedLine) : Prop :=
  ∃ r', ReturnsAll r all r' ∧ ∀ text r'', ¬ Returns r' text r''

theorem ReturnsInAll.frame {text : String} {all : List String} (h : ReturnsInAll all r')
    (hp : poll r = .ok (some text) r') : ReturnsInAll (text :: all) r := by
  obtain ⟨r₁, ht, hn⟩ := h
  exact ⟨r₁, .cons (.now hp) ht, hn⟩

theorem ReturnsInAll.silent {all : List String} (h : ReturnsInAll all r') (hp : poll r = .ok none r') :
    ReturnsInAll all r := by
  obtain ⟨r₁, ht, hn⟩ := h
  cases ht with
  | nil =>
    refine ⟨r, .nil r, fun text r'' h ↦ ?_⟩
    cases h with
    | now hp' => rw [hp] at hp'; cases hp'
    | later hp' h =>
      rw [hp] at hp'
      cases hp'
      exact hn text r'' h
  | cons h ht => exact ⟨r₁, .cons (.later hp h) ht, hn⟩

theorem returnsInAll_of_atRest (hr : r.IsSafe) (told : List String)
    (ha : ((r.hearing told).looks n).AtRest) :
    ∃ all, ((r.hearing told).looks n).told = told ++ all ∧ ReturnsInAll all r := by
  -- By induction on the looks up to the rest: calls that are never stopped return all lines that
  -- these looks tell, and then none.
  induction n generalizing r told with
  | zero => exact ⟨[], (List.append_nil told).symm, r, .nil r, fun _ _ ↦ not_returns_of_atRest hr ha⟩
  | succ n ih =>
    obtain ⟨x, r₁, hp, hl⟩ := exists_poll hr
    rw [Hearing.looks, ← hearing_of_looks_one hl] at ha ⊢
    obtain ⟨all, ht, hall⟩ := ih (hl.isSafe hr) (told ++ x.toList) ha
    refine ⟨x.toList ++ all, by rw [ht, List.append_assoc], ?_⟩
    cases x with
    | none => exact hall.silent hp
    | some text => exact hall.frame hp

/-- Calls that may be stopped lose nothing. Without the calls that were stopped they return what calls
that are never stopped return first; after any of the looks that they take, what was returned, what is
held and what is unread make up the stream, as long as nothing overflows; and a call whose time is over
does nothing. A call can fail to return only where idle lines are looked at without a pause. -/
theorem waits_lose_nothing (r : Receiver ScriptedLine) (hr : r.IsSafe) (times : List Nat) :
    (∃ all, ReturnsInAll all r ∧ (waits times r).1.filterMap id <+: all) ∧
      (∃ n, (waits times r).2.hearing ((waits times r).1.filterMap id) = (r.hearing []).looks n ∧
        ∀ k ≤ n, (∀ j < k, ¬ ((r.hearing []).looks j).Spills) →
          ((r.hearing []).looks k).Follows [] (r.hearing []).pending) ∧
      (∀ stop ≤ (waits times r).2.line.now, await stop (waits times r).2 = .ok none (waits times r).2) ∧
      ((waits times r).1.length = times.length ∨ r.line.transport.interval = 0) := by
  obtain ⟨n, hl⟩ := looks_waits times hr
  have hh : (waits times r).2.hearing ((waits times r).1.filterMap id) = (r.hearing []).looks n :=
    hl.hearing_eq []
  refine ⟨?_, ⟨n, hh, fun k _ hs ↦ ?_⟩, fun stop hs ↦ await_of_le hs, ?_⟩
  · obtain ⟨m, hm⟩ := (r.hearing []).exists_rest
    obtain ⟨all, ht, hall⟩ := returnsInAll_of_atRest hr [] hm
    refine ⟨all, hall, ?_⟩
    have hp := Hearing.told_prefix_of_atRest hm n
    rwa [ht, ← hh] at hp
  · exact (r.hearing []).follows_pending.looks_of_not_spills k hs
  · rcases Nat.eq_zero_or_pos r.line.transport.interval with h0 | hp
    · exact .inr h0
    · exact .inl (length_waits times hr hp)

def cutLine : Receiver ScriptedLine where
  line := { transport := { queue :=
    [.chunk [0x5A], .idle, .chunk [0x31, 0x0D, 0x0A, 0x5A, 0x32, 0x0D, 0x0A]] } }

/-- One call is stopped between the reads, and two before they begin. -/
theorem waits_lose_nothing_cutLine : cutLine.IsSafe ∧
    (waits [0, 50, 100, 0, 10] cutLine).1 = [none, none, some "Z1", none, some "Z2"] ∧
    ∃ all, ReturnsInAll all cutLine ∧ ["Z1", "Z2"] <+: all := by
  have hr : cutLine.IsSafe := by simp [IsSafe, cutLine]
  have hw : (waits [0, 50, 100, 0, 10] cutLine).1 = [none, none, some "Z1", none, some "Z2"] := by
    decide
  obtain ⟨all, hall, hp⟩ := (waits_lose_nothing cutLine hr [0, 50, 100, 0, 10]).1
  rw [hw] at hp
  exact ⟨hr, hw, all, hall, hp⟩

end Receiver

end AlarmPanel
