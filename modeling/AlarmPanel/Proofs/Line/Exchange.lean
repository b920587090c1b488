import AlarmPanel.Proofs.Line.Script

namespace AlarmPanel

theorem eq_nil_of_mem {x y r : List UInt8} {e : UInt8} (h : x ++ y = r ++ [e]) (hx : e ∈ x)
    (hr : e ∉ r) : y = [] := by
  rcases List.append_eq_append_iff.mp h with ⟨z, rfl, -⟩ | ⟨z, rfl, hy⟩
  · exact absurd (List.mem_append_left z hx) hr
  · rcases z with _ | ⟨d, z⟩
    · exact absurd (by simpa using hx) hr
    · obtain ⟨-, -, rfl⟩ : e = d ∧ z = [] ∧ y = [] := by simpa using hy
      rfl

/-- A read that ends no reply. -/
def LineItem.IsQuiet : LineItem → Prop
  | chunk o => Reply.terminator ∉ o
  | idle => True
  | failure _ => False

instance : DecidablePred LineItem.IsQuiet := fun i ↦
  match i with
  | .chunk o => inferInstanceAs (Decidable (Reply.terminator ∉ o))
  | .idle => inferInstanceAs (Decidable True)
  | .failure _ => inferInstanceAs (Decidable False)

namespace ScriptedLine

def idleReads (q : List LineItem) : Nat :=
  q.countP fun i ↦ i.octets = []

/-- A reply with its colon in the last read, which comes before the deadline. -/
def AnswersWithin (interval timeout : Nat) (l : List LineItem) : Prop :=
  ∃ early last, l = early ++ [.chunk last] ∧ (∀ i ∈ early, i.IsQuiet) ∧
    Reply.terminator ∈ last ∧ idleReads early * interval < timeout

end ScriptedLine

namespace Line

open ScriptedLine

section

variable {σ : Type} [Transport σ] {l l' : Line σ} {deadline n : Nat} {got chunk : List UInt8}

theorem backlog_lt_collectBound (l : Line σ) (timeout : Nat) :
    Transport.backlog l.transport < collectBound l timeout := by
  rw [collectBound, Nat.add_assoc]
  exact Nat.lt_add_of_pos_right (Nat.succ_pos _)

theorem collect_end (h : read l = .ok chunk l') (hc : Reply.terminator ∈ chunk) :
    collect deadline (n + 1) got l = .ok (Reply.classify (Text.Utf8.decode (got ++ chunk))) l' := by
  have hb : (!chunk.isEmpty && (got ++ chunk).contains Reply.terminator) = true := by
    have hne : chunk ≠ [] := List.ne_nil_of_mem hc
    simp [hne, hc]
  rw [collect, bind_of_ok h, if_pos hb]
  rfl

theorem collect_late (h : read l = .ok chunk l') (hc : Reply.terminator ∉ got ++ chunk)
    (hd : deadline ≤ l'.now) : collect deadline (n + 1) got l = .ok .timeout l' := by
  have hb : ¬ (!chunk.isEmpty && (got ++ chunk).contains Reply.terminator) = true := by
    simpa using fun _ ↦ by simpa using hc
  rw [collect, bind_of_ok h, if_neg hb, get_bind, if_pos hd]
  rfl

theorem collect_idle (h : read l = .ok [] l') (hd : l'.now < deadline) :
    collect deadline (n + 1) got l = collect deadline n got
      { l' with now := l'.now + min (Transport.pollInterval l'.transport) (deadline - l'.now) } := by
  rw [collect, bind_of_ok h, if_neg (by simp), get_bind, if_neg (Nat.not_le.mpr hd), List.append_nil]
  rfl

theorem collect_more (h : read l = .ok chunk l') (hne : chunk ≠ [])
    (hc : Reply.terminator ∉ got ++ chunk) (hd : l'.now < deadline) :
    collect deadline (n + 1) got l = collect deadline n (got ++ chunk) l' := by
  have hb : ¬ (!chunk.isEmpty && (got ++ chunk).contains Reply.terminator) = true := by
    simpa using fun _ ↦ by simpa using hc
  rw [collect, bind_of_ok h, if_neg hb, get_bind, if_neg (Nat.not_le.mpr hd),
    if_neg (by simpa using hne)]

end

variable {l : Line ScriptedLine} {early rest : List LineItem} {last got : List UInt8}
  {deadline n : Nat}

theorem collect_answered (hq : l.transport.queue = early ++ .chunk last :: rest)
    (he : ∀ i ∈ early, i.IsQuiet) (hl : Reply.terminator ∈ last) (hg : Reply.terminator ∉ got)
    (ht : l.now + idleReads early * l.transport.interval < deadline) (hn : early.length < n) :
    collect deadline n got l =
      .ok (Reply.classify (Text.Utf8.decode (got ++ octets early ++ last)))
        { l.withQueue rest with now := l.now + idleReads early * l.transport.interval } := by
  induction early generalizing n got l with
  | nil =>
    obtain ⟨n, rfl⟩ : ∃ m, n = m + 1 := ⟨n - 1, by simp at hn; omega⟩
    rw [collect_end (read_cons_chunk hq) hl]
    simp [idleReads, withQueue]
  | cons i early ih =>
    obtain ⟨n, rfl⟩ : ∃ m, n = m + 1 := ⟨n - 1, by simp at hn; omega⟩
    have hi := he i List.mem_cons_self
    have he' : ∀ j ∈ early, j.IsQuiet := fun j hj ↦ he j (List.mem_cons_of_mem _ hj)
    have hn' : early.length < n := by simpa using hn
    have hd : l.now < deadline := by omega
    -- an idle read costs one poll interval, which ends before the deadline
    have pause (hi : i.octets = [])
        (hr : read l = .ok [] (l.withQueue (early ++ .chunk last :: rest))) :
        collect deadline (n + 1) got l =
          .ok (Reply.classify (Text.Utf8.decode (got ++ octets (i :: early) ++ last)))
            { l.withQueue rest with
              now := l.now + idleReads (i :: early) * l.transport.interval } := by
      have hc : idleReads (i :: early) = idleReads early + 1 := by simp [idleReads, hi]
      rw [hc, Nat.add_mul, Nat.one_mul] at ht ⊢
      have hm : min l.transport.interval (deadline - l.now) = l.transport.interval := by omega
      rw [collect_idle hr hd, ih _ he' hg _ hn']
      · simp [withQueue, Transport.pollInterval, hi, hm, Nat.add_assoc,
          Nat.add_comm l.transport.interval]
      · rfl
      · simp only [withQueue, Transport.pollInterval, hm]
        omega
    cases i with
    | idle => exact pause rfl (read_cons_idle hq)
    | failure e => exact hi.elim
    | chunk o =>
      by_cases ho : o = []
      · subst ho
        exact pause rfl (read_cons_chunk hq)
      · have ho' : Reply.terminator ∉ o := hi
        have hg' : Reply.terminator ∉ got ++ o := by simp [hg, ho']
        have hc : idleReads (.chunk o :: early) = idleReads early := by
          simp [idleReads, LineItem.octets, ho]
        rw [hc] at ht ⊢
        have hr : read l = .ok o (l.withQueue (early ++ .chunk last :: rest)) := read_cons_chunk hq
        rw [collect_more hr ho hg' hd, ih (l := l.withQueue _) rfl he' hg' ht hn']
        simp [LineItem.octets]

theorem collect_silent (hq : l.transport.queue = []) (hg : Reply.terminator ∉ got)
    (deadline n : Nat) :
    ∃ ms, collect deadline n got l = .ok .timeout { l with now := l.now + ms } ∨
      collect deadline n got l = .error .endless { l with now := l.now + ms } := by
  induction n generalizing l with
  | zero => exact ⟨0, .inr rfl⟩
  | succ n ih =>
    rcases Nat.lt_or_ge l.now deadline with hd | hd
    · rw [collect_idle (read_nil hq) hd]
      obtain ⟨ms, h⟩ := ih (l := { l with now := l.now + _ }) hq
      simp only [Nat.add_assoc] at h
      exact ⟨_, h⟩
    · rw [collect_late (read_nil hq) (by simpa using hg) hd]
      exact ⟨0, .inl rfl⟩

/-- Where time passes between idle reads, silence lasts until the deadline. -/
theorem collect_timeout (hq : l.transport.queue = []) (hg : Reply.terminator ∉ got)
    (hn : deadline ≤ l.now + n * l.transport.interval) :
    ∃ ms, collect deadline (n + 1) got l = .ok .timeout { l with now := l.now + ms } := by
  induction n generalizing l with
  | zero =>
    rw [collect_late (read_nil hq) (by simpa using hg) (by omega)]
    exact ⟨0, rfl⟩
  | succ n ih =>
    rcases Nat.lt_or_ge l.now deadline with hd | hd
    · rw [collect_idle (read_nil hq) hd]
      obtain ⟨ms, h⟩ := ih (l := { l with
        now := l.now + min (Transport.pollInterval l.transport) (deadline - l.now) }) hq (by
          simp only [Transport.pollInterval]
          rw [Nat.succ_mul] at hn
          omega)
      simp only [Nat.add_assoc] at h
      exact ⟨_, h⟩
    · rw [collect_late (read_nil hq) (by simpa using hg) hd]
      exact ⟨0, rfl⟩

variable {text : String} {timeout : Nat} {items : List LineItem}

/-- The line after an exchange that took `ms` and left `rest` unread. -/
def afterExchange (text : String) (rest : List LineItem) (ms : Nat) (l : Line ScriptedLine) :
    Line ScriptedLine where
  transport := {
    l.transport with
    queue := rest
    replies := l.transport.replies.tail
    sent := l.transport.sent ++ [Text.Utf8.encode text.toList] }
  now := l.now + ms

def ask {σ : Type} [Transport σ] (text : String) (timeout : Nat) : LineM σ Reply := do
  write (Text.Utf8.encode text.toList)
  let l ← get
  collect (l.now + timeout) (collectBound l timeout) []

theorem send_of_supportsCommands {σ : Type} [Transport σ] {l : Line σ}
    (hs : (Transport.interface l.transport).supportsCommands = true) :
    send text timeout l = (discard >>= fun _ ↦ ask text timeout) l := by
  rw [send, get_bind]
  simp only [hs, if_true]
  rfl

theorem send_eq (text : String) (timeout : Nat) :
    (send text timeout : LineM ScriptedLine Reply) = discard >>= fun _ ↦ ask text timeout := by
  funext l
  exact send_of_supportsCommands rfl

theorem write_items (hq : l.transport.queue = []) (octets : List UInt8)
    (hr : l.transport.replies = .items items :: l.transport.replies.tail) :
    write octets l = .ok () { l with transport := {
      l.transport with
      queue := items
      replies := l.transport.replies.tail
      sent := l.transport.sent ++ [octets] } } := by
  simp only [write, perform, Transport.write, ScriptedLine.write]
  rw [hr, hq]
  rfl

theorem write_unanswered (octets : List UInt8) (hr : l.transport.replies = []) :
    write octets l = .ok () { l with transport := {
      l.transport with sent := l.transport.sent ++ [octets] } } := by
  simp only [write, perform, Transport.write, ScriptedLine.write, hr]

theorem ask_of_write {σ : Type} [Transport σ] {l l' : Line σ}
    (hw : write (Text.Utf8.encode text.toList) l = .ok () l') :
    ask text timeout l = collect (l'.now + timeout) (collectBound l' timeout) [] l' := by
  rw [ask, bind_of_ok hw, get_bind]

theorem ask_answered (text : String) (hq : l.transport.queue = [])
    (hr : l.transport.replies = .items (early ++ .chunk last :: rest) :: l.transport.replies.tail)
    (he : ∀ i ∈ early, i.IsQuiet) (hl : Reply.terminator ∈ last)
    (ht : idleReads early * l.transport.interval < timeout) :
    ask text timeout l = .ok (Reply.classify (Text.Utf8.decode (octets early ++ last)))
      (afterExchange text rest (idleReads early * l.transport.interval) l) := by
  rw [ask_of_write (write_items hq _ hr)]
  have hb := length_le_queueWeight (early ++ .chunk last :: rest)
  rw [List.length_append, List.length_cons] at hb
  rw [collect_answered rfl he hl (by simp) (by simp only; omega)]
  · rfl
  · refine Nat.lt_of_le_of_lt ?_ (backlog_lt_collectBound _ _)
    simp only [Transport.backlog, backlog]
    omega

def IsSilent (replies : List LineReply) : Prop :=
  replies = [] ∨ ∃ r, replies = .items [] :: r

theorem write_silent (hq : l.transport.queue = []) (hr : IsSilent l.transport.replies) :
    write (Text.Utf8.encode text.toList) l = .ok () (afterExchange text [] 0 l) := by
  rcases hr with hr | ⟨r, hr⟩
  · rw [write_unanswered _ hr]
    simp [afterExchange, hr, hq]
  · have hr' : l.transport.replies = .items [] :: l.transport.replies.tail := by rw [hr]; rfl
    rw [write_items hq _ hr']
    rfl

theorem ask_silent (text : String) (timeout : Nat) (hq : l.transport.queue = [])
    (hr : IsSilent l.transport.replies) :
    ∃ ms, ask text timeout l = .ok .timeout (afterExchange text [] ms l) ∨
      ask text timeout l = .error .endless (afterExchange text [] ms l) := by
  rw [ask_of_write (write_silent hq hr)]
  exact collect_silent rfl (by simp) _ _

theorem ask_timeout (text : String) (timeout : Nat) (hq : l.transport.queue = [])
    (hr : IsSilent l.transport.replies) (hp : 0 < l.transport.interval) :
    ∃ ms, ask text timeout l = .ok .timeout (afterExchange text [] ms l) := by
  rw [ask_of_write (write_silent hq hr)]
  refine collect_timeout rfl (by simp) ?_
  have hlt : timeout < l.transport.interval * (timeout / l.transport.interval + 1) :=
    Nat.lt_mul_div_succ timeout hp
  rw [Nat.mul_comm] at hlt
  refine Nat.add_le_add_left (Nat.le_trans (Nat.le_of_lt hlt) (Nat.mul_le_mul_right _ ?_)) _
  simp only [Transport.pollInterval, afterExchange]
  omega

end Line

end AlarmPanel
