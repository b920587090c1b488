import AlarmPanel.Proofs.Device.Listening
import AlarmPanel.Proofs.Line.Exchange

namespace AlarmPanel

/-- The line is open and its stale input is gone. -/
def Line.clear {σ : Type} [Transport σ] : LineM σ Unit := do
  ensureOpen
  discard

def Request.converse {σ : Type} [Transport σ] (c : Command) (timeout : Nat) (q : Request) :
    LineM σ Reading := do
  let reply ← Line.ask c.text (q.patience timeout)
  Line.ofExcept (q.answer c reply)

theorem Request.exchange_eq (c : Command) (timeout : Nat) (q : Request) :
    (q.exchange c timeout : LineM ScriptedLine Reading) =
      Line.clear >>= fun _ ↦ q.converse c timeout := by
  rw [exchange, Line.send_eq, Line.clear]
  simp only [bind_assoc]
  rfl

namespace Worker

/-- What a request does before its command is written. -/
def approach {σ : Type} [Transport σ] (q : Request) : WorkerM σ Unit := do
  ensureConnected
  guarded drain
  if q.command?.isSome then guarded (onLine Line.clear) else pure ()

variable {w w₁ w' : Worker ScriptedLine} {q : Request} {c : Command}

theorem serve_eq_approach (hc : q.command? = some c) (w : Worker ScriptedLine) :
    serve q w = (do approach q; let w ← get; guarded (onLine (q.converse c w.timeout))) w := by
  cases h₁ : ensureConnected w with
  | error e w₁ => rw [serve, approach, bind_of_error h₁, bind_of_error (bind_of_error h₁)]
  | ok u w₁ =>
    rw [serve, approach, bind_assoc, bind_of_ok h₁, bind_of_ok h₁, bind_assoc]
    cases h₂ : guarded drain w₁ with
    | error e w₂ => rw [bind_of_error h₂, bind_of_error h₂]
    | ok u w₂ =>
      rw [bind_of_ok h₂, bind_of_ok h₂, get_bind, Request.perform_eq hc,
        Request.exchange_eq, onLine_bind, guarded_bind]
      simp only [hc, Option.isSome_some, if_true]
      cases h₃ : (Line.clear : LineM ScriptedLine Unit) w₂.receiver.line with
      | ok u l =>
        have h := guarded_ok (onLine_ok h₃)
        rw [bind_of_ok h, bind_of_ok h, get_bind]
      | error e l =>
        cases e with
        | failed e =>
          have h := guarded_failed (onLine_error h₃)
          rw [bind_of_error h, bind_of_error h]
        | endless =>
          have h := guarded_endless (onLine_error h₃)
          rw [bind_of_error h, bind_of_error h]

theorem clear_open (ho : w.transport.isOpen = true) :
    Line.clear w.receiver.line = Line.discard w.receiver.line := by
  have he : Line.ensureOpen w.receiver.line = .ok () w.receiver.line := by
    rw [Line.ensureOpen, get_bind, if_pos]
    · rfl
    · exact ho
  rw [Line.clear, bind_of_ok he]

theorem onLine_clear (ho : w.transport.isOpen = true) :
    onLine Line.clear w = match (ScriptedLine.burst w.transport.queue).failure with
      | none => .ok () (w.withQueue (ScriptedLine.burst w.transport.queue).rest)
      | some e => .error (.failed e) (w.withQueue (ScriptedLine.burst w.transport.queue).rest) := by
  have hd := (clear_open ho).trans (Line.discard_eq w.receiver.line)
  rw [transport]
  cases hf : (ScriptedLine.burst w.receiver.line.transport.queue).failure with
  | none =>
    rw [hf] at hd
    rw [onLine_ok hd]
    rfl
  | some e =>
    rw [hf] at hd
    rw [onLine_error hd]
    rfl

theorem approach_ok (hs : q.command?.isSome = true) (h₁ : ensureConnected w = .ok () w₁)
    (ho : w₁.transport.isOpen = true) {o : List UInt8} {r : List LineItem}
    (hb : ScriptedLine.burst w₁.transport.queue = ⟨o, none, r⟩)
    (hf : (ScriptedLine.burst r).failure = none) :
    approach q w = .ok () (((w₁.withQueue r).absorb o).withQueue (ScriptedLine.burst r).rest) := by
  have hd : drain w₁ = .ok () ((w₁.withQueue r).absorb o) := by
    rw [drain_of_idle (by rw [hb]), hb]
  have hq : ((w₁.withQueue r).absorb o).transport.queue = r := by
    rw [transport_absorb]; rfl
  have hp : onLine Line.clear ((w₁.withQueue r).absorb o) =
      .ok () (((w₁.withQueue r).absorb o).withQueue (ScriptedLine.burst r).rest) := by
    rw [onLine_clear (by rw [transport_absorb]; exact ho), hq, hf]
  rw [approach, bind_of_ok h₁, bind_of_ok (guarded_ok hd), if_pos hs, guarded_ok hp]

theorem hearing_clear (ho : w.transport.isOpen = true) :
    (stateOf (guarded (onLine Line.clear) w)).hearing =
      { w.hearing with queue := (ScriptedLine.burst w.hearing.queue).rest } := by
  have hc : (stateOf (onLine Line.clear w)).hearing =
      { w.hearing with queue := (ScriptedLine.burst w.hearing.queue).rest } := by
    rw [onLine_clear ho]
    split <;> rfl
  rcases stateOf_guarded (onLine Line.clear) w with h | h
  · rw [h, hc]
  · rw [h, hearing_close, hc]

theorem hearing_approach (h₁ : ensureConnected w = .ok () w₁) (ho : w₁.transport.isOpen = true) :
    (stateOf (approach q w)).hearing = w₁.hearing.approach q.command?.isSome := by
  have hd := hearing_drain w₁
  have hq : w₁.hearing.queue = w₁.transport.queue := rfl
  rw [approach, bind_of_ok h₁, Hearing.approach, hq]
  cases hf : (ScriptedLine.burst w₁.transport.queue).failure with
  | some e =>
    have hdr := drain_of_failure hf
    have hn : ¬ (some e = none ∧ q.command?.isSome = true) := by simp
    rw [hdr] at hd
    rw [if_neg hn, bind_of_error (guarded_failed hdr)]
    simp only [stateOf]
    split
    · exact (hearing_close _).trans hd
    · exact hd
  | none =>
    have hdr := drain_of_idle hf
    rw [hdr] at hd
    rw [bind_of_ok (guarded_ok hdr)]
    cases q.command?.isSome with
    | false =>
      rw [if_neg (by simp), if_neg (by simp)]
      exact hd
    | true =>
      rw [if_pos rfl, if_pos ⟨rfl, rfl⟩, hearing_clear (by rw [transport_absorb]; exact ho)]
      exact congrArg (fun h : Hearing ↦ { h with queue := (ScriptedLine.burst h.queue).rest }) hd

/-- Input that no request takes for its own: none, or some that an idle read sets apart. -/
def IsStale (q : List LineItem) : Prop :=
  q = [] ∨ ∃ late, q = .idle :: late ∧ ∀ i ∈ late, i.IsChunk

theorem burst_append_stale {early stale : List LineItem} (he : ∀ i ∈ early, i.IsChunk)
    (hs : IsStale stale) : ∃ late, (∀ i ∈ late, i.IsChunk) ∧
      ScriptedLine.burst (early ++ stale) = ⟨ScriptedLine.octets early, none, late⟩ := by
  rw [ScriptedLine.burst_chunks_append he]
  obtain rfl | ⟨late, rfl, hl⟩ := hs
  · exact ⟨[], by simp, by simp [ScriptedLine.burst]⟩
  · exact ⟨late, hl, by simp [ScriptedLine.burst]⟩

/-- What a request makes of a line that opens: it takes the input before the first idle read and
drops the stale input; then the line is clear for its command. -/
theorem serve_clear (hc : q.command? = some c) (ho : Opens w w₁) {early stale : List LineItem}
    (hq : w.transport.queue = early ++ stale) (he : ∀ i ∈ early, i.IsChunk) (hs : IsStale stale) :
    ∃ w', Steady w w' ∧ w'.hearing = Hearing.drain { w.hearing with queue := early } ∧
      w'.transport.isOpen = true ∧ w'.transport.replies = w.transport.replies ∧
      serve q w = guarded (onLine (q.converse c w.timeout)) w' := by
  obtain ⟨late, hl, hb⟩ := burst_append_stale he hs
  rw [← hq, ← ho.queue] at hb
  have ha := approach_ok (by rw [hc]; rfl) ho.ensureConnected ho.isOpen hb
    (by rw [ScriptedLine.burst_chunks hl])
  rw [ScriptedLine.burst_chunks hl] at ha
  refine ⟨((w₁.withQueue late).absorb (ScriptedLine.octets early)).withQueue [],
    ho.steady.trans ?_, ?_, ?_, ?_, ?_⟩
  · exact ⟨by simp, by simp, by simp⟩
  · rw [hearing_withQueue, hearing_absorb, hearing_withQueue, ho.hearing, Hearing.drain_chunks he]
    rfl
  · simpa using ho.isOpen
  · simpa using ho.replies
  · rw [serve_eq_approach hc, bind_of_ok ha, get_bind, timeout_withQueue, timeout_absorb,
      timeout_withQueue, ho.steady.timeout]

def ofAnswer (r : Except PanelError Reading) (w : Worker ScriptedLine) :
    EStateM.Result Halt (Worker ScriptedLine) Reading :=
  match r with
  | .ok a => .ok a w
  | .error e => .error (.failed e) w

theorem stateOf_ofAnswer (r : Except PanelError Reading) (w : Worker ScriptedLine) :
    stateOf (ofAnswer r w) = w := by
  cases r <;> rfl

def withLine (l : Line ScriptedLine) (w : Worker ScriptedLine) : Worker ScriptedLine :=
  { w with receiver := { w.receiver with line := l } }

theorem converse_ok {timeout : Nat} {reply : Reply} {l : Line ScriptedLine}
    (h : Line.ask c.text (q.patience timeout) w.receiver.line = .ok reply l) :
    guarded (onLine (q.converse c timeout)) w = ofAnswer (q.answer c reply) (w.withLine l) := by
  have hx := bind_of_ok (f := fun reply ↦ Line.ofExcept (q.answer c reply)) h
  cases ha : q.answer c reply with
  | ok a =>
    rw [ha] at hx
    exact guarded_ok (onLine_ok hx)
  | error e =>
    rw [ha] at hx
    have hg := guarded_failed (onLine_error hx)
    rw [Request.leavesLine_of_answer ha] at hg
    exact hg

theorem converse_endless {timeout : Nat} {l : Line ScriptedLine}
    (h : Line.ask c.text (q.patience timeout) w.receiver.line = .error .endless l) :
    guarded (onLine (q.converse c timeout)) w = .error .endless (w.withLine l) :=
  guarded_endless (onLine_error (bind_of_error h))

def afterExchange (text : String) (rest : List LineItem) (ms : Nat) (w : Worker ScriptedLine) :
    Worker ScriptedLine :=
  w.withLine (Line.afterExchange text rest ms w.receiver.line)

theorem steady_afterExchange (text : String) (rest : List LineItem) (ms : Nat)
    (w : Worker ScriptedLine) : Steady w (w.afterExchange text rest ms) :=
  ⟨rfl, rfl, fun _ hr ↦ hr⟩

/-- A reply in time is the answer, and what comes after its colon stays unread. -/
theorem serve_answered (hc : q.command? = some c) (ho : Opens w w₁) {early stale : List LineItem}
    (hq : w.transport.queue = early ++ stale) (he : ∀ i ∈ early, i.IsChunk) (hs : IsStale stale)
    {quiet rest : List LineItem} {last : List UInt8}
    (hr : w.transport.replies = .items (quiet ++ .chunk last :: rest) :: w.transport.replies.tail)
    (hi : ∀ i ∈ quiet, i.IsQuiet) (hl : Reply.terminator ∈ last)
    (ht : ScriptedLine.idleReads quiet * w.transport.interval < q.patience w.timeout) :
    ∃ w', Steady w w' ∧ w'.transport.isOpen = true ∧
      w'.hearing = { Hearing.drain { w.hearing with queue := early } with queue := rest } ∧
      serve q w = ofAnswer (q.answer c (Reply.classify (Text.Utf8.decode
        (ScriptedLine.octets quiet ++ last)))) w' := by
  obtain ⟨w', hst, hh, hop, hre, hsv⟩ := serve_clear hc ho hq he hs
  have hq' : w'.receiver.line.transport.queue = [] :=
    (congrArg Hearing.queue hh).trans (Hearing.queue_drain he)
  have hr' : w'.receiver.line.transport.replies =
      .items (quiet ++ .chunk last :: rest) :: w'.receiver.line.transport.replies.tail := by
    rw [transport, transport] at hre
    rw [hre]
    exact hr
  have ha := Line.ask_answered c.text hq' hr' hi hl (hst.interval ▸ ht)
  refine ⟨w'.afterExchange c.text rest (ScriptedLine.idleReads quiet * w'.transport.interval),
    hst.trans (steady_afterExchange _ _ _ _), hop, ?_, ?_⟩
  · rw [← hh]
    rfl
  · rw [hsv, converse_ok ha]
    rfl

/-- Silence is answered by a timeout, as long as time passes. -/
theorem serve_silent (hc : q.command? = some c) (ho : Opens w w₁) {early stale : List LineItem}
    (hq : w.transport.queue = early ++ stale) (he : ∀ i ∈ early, i.IsChunk) (hs : IsStale stale)
    (hr : Line.IsSilent w.transport.replies) :
    ∃ w', Steady w w' ∧ w'.transport.isOpen = true ∧
      w'.hearing = Hearing.drain { w.hearing with queue := early } ∧
      (serve q w = .error (.failed (.timeout c.text)) w' ∨
        w.transport.interval = 0 ∧ serve q w = .error .endless w') := by
  obtain ⟨w', hst, hh, hop, hre, hsv⟩ := serve_clear hc ho hq he hs
  have hq' : w'.receiver.line.transport.queue = [] :=
    (congrArg Hearing.queue hh).trans (Hearing.queue_drain he)
  have hr' : Line.IsSilent w'.receiver.line.transport.replies := by
    rw [transport] at hre
    rw [hre]
    exact hr
  have hq'' (ms : Nat) : (w'.afterExchange c.text [] ms).hearing = w'.hearing := by
    simp only [hearing, transport, hq']
    rfl
  have hs' (ms : Nat) := hst.trans (steady_afterExchange c.text [] ms w')
  rcases Nat.eq_zero_or_pos w.transport.interval with h0 | hp
  · obtain ⟨ms, ha | ha⟩ := Line.ask_silent c.text (q.patience w.timeout) hq' hr'
    · exact ⟨_, hs' ms, hop, (hq'' ms).trans hh, .inl (by rw [hsv, converse_ok ha]; rfl)⟩
    · exact ⟨_, hs' ms, hop, (hq'' ms).trans hh, .inr ⟨h0, by rw [hsv, converse_endless ha]; rfl⟩⟩
  · obtain ⟨ms, ha⟩ := Line.ask_timeout c.text (q.patience w.timeout) hq' hr'
      (hst.interval ▸ hp)
    exact ⟨_, hs' ms, hop, (hq'' ms).trans hh, .inl (by rw [hsv, converse_ok ha]; rfl)⟩

theorem serve_of_openFails {e : PanelError} (hf : OpenFails e w w') :
    serve q w = .error (.failed e) w' := by
  rw [serve, bind_of_error hf.ensureConnected]

theorem serve_without_command (hc : q.command? = none) (ho : Opens w w₁)
    (hq : ∀ i ∈ w.transport.queue, i.IsChunk) :
    Steady w (stateOf (serve q w)) ∧ (stateOf (serve q w)).hearing = w.hearing.drain := by
  have hb : ScriptedLine.burst w₁.transport.queue =
      ⟨ScriptedLine.octets w₁.transport.queue, none, []⟩ :=
    ScriptedLine.burst_chunks (ho.queue ▸ hq)
  have hd := drain_of_idle (w := w₁) (by rw [hb])
  have hh := hearing_drain w₁
  rw [hd, stateOf, ho.hearing] at hh
  rw [hb] at hd hh
  generalize hw₂ : (w₁.withQueue []).absorb (ScriptedLine.octets w₁.transport.queue) = w₂ at hd hh
  have hs : Steady w w₂ := by
    rw [← hw₂]
    exact ho.steady.trans ⟨by simp, by simp, by simp⟩
  obtain ⟨e, hp⟩ := Request.perform_of_command?_eq_none (σ := ScriptedLine) hc w₂.timeout
  rw [serve, bind_of_ok ho.ensureConnected, bind_of_ok (guarded_ok hd), get_bind, hp]
  rcases stateOf_guarded (onLine (Line.fail e : LineM ScriptedLine Reading)) w₂ with h | h
  · rw [h]
    exact ⟨hs, hh⟩
  · rw [h, hearing_close]
    exact ⟨hs.trans (steady_close w₂), hh⟩

/-- The next command is answered in time or not at all. -/
def IsMet (w : Worker ScriptedLine) (timeout : Nat) : Prop :=
  Line.IsSilent w.transport.replies ∨ ∃ items,
    w.transport.replies = .items items :: w.transport.replies.tail ∧
      ScriptedLine.AnswersWithin w.transport.interval timeout items

theorem hearing_serve (hq : ∀ i ∈ w.transport.queue, i.IsChunk)
    (hm : q.command? ≠ none → IsMet w (q.patience w.timeout)) :
    Steady w (stateOf (serve q w)) ∧ ((stateOf (serve q w)).hearing = w.hearing ∨
      (stateOf (serve q w)).hearing = w.hearing.drain) := by
  obtain ⟨w', ho | ⟨e, hf⟩⟩ := opens_or_fails w
  · cases hc : q.command? with
    | none =>
      obtain ⟨hs, hh⟩ := serve_without_command hc ho hq
      exact ⟨hs, .inr hh⟩
    | some c =>
      have hn : w.transport.queue = w.transport.queue ++ [] := (List.append_nil _).symm
      rcases hm (by simp [hc]) with hr | ⟨items, hr, early, last, rfl, hi, hl, ht⟩
      · obtain ⟨w'', hs, -, hh, hsv | ⟨-, hsv⟩⟩ := serve_silent hc ho hn hq (.inl rfl) hr
        · rw [hsv]
          exact ⟨hs, .inr hh⟩
        · rw [hsv]
          exact ⟨hs, .inr hh⟩
      · obtain ⟨w'', hs, -, hh, hsv⟩ := serve_answered hc ho hn hq (.inl rfl) hr hi hl ht
        rw [hsv, stateOf_ofAnswer]
        refine ⟨hs, .inr (hh.trans ?_)⟩
        have hd : w.hearing.drain.queue = [] := Hearing.queue_drain hq
        exact congrArg (fun q ↦ { w.hearing.drain with queue := q }) hd.symm
  · rw [serve_of_openFails hf]
    exact ⟨hf.steady, .inl hf.hearing⟩

end Worker

end AlarmPanel
