import AlarmPanel.Proofs.Device.Moves

namespace AlarmPanel

open AlarmPanel.Frame

namespace Device

variable {d : Device ScriptedLine} {moves : List Move} {t : Ticket} {c : Command}

/-- The line opens when it is asked to, and time passes between idle reads. -/
def Reliable (d : Device ScriptedLine) : Prop :=
  (∀ r ∈ d.worker.transport.connects, r = .ok ()) ∧ 0 < d.worker.transport.interval

theorem Reliable.of_steady {d' : Device ScriptedLine} (h : d.Reliable)
    (hs : Worker.Steady d.worker d'.worker) : d'.Reliable :=
  ⟨fun r hr ↦ h.1 r (hs.connects r hr), hs.interval ▸ h.2⟩

theorem reliable_play (h : d.Reliable) (hc : Calm d moves) : (d.play moves).Reliable := by
  induction moves generalizing d with
  | nil => exact h
  | cons m moves ih => exact ih (h.of_steady (steady_move hc.1)) hc.2

/-- The request that a turn serves is answered by a timeout or by what `own` says. -/
def AnsweredBy (own : List LineItem) (d d' : Device ScriptedLine) : Prop :=
  ∀ t ∈ d.next?, ∀ c ∈ t.request.command?, ∃ a, d'.answers = d.answers ++ [(t.number, a)] ∧
    (a = .error (.timeout c.text) ∨ own ≠ [] ∧
      a = t.request.answer c (Reply.classify (Text.Utf8.decode (ScriptedLine.octets own))))

theorem answeredBy {own : List LineItem} {d' : Device ScriptedLine} (hn : d.next? = some t)
    (hc : t.request.command? = some c) {a : Except PanelError Reading}
    (ha : d'.answers = d.answers ++ [(t.number, a)])
    (ho : a = .error (.timeout c.text) ∨ own ≠ [] ∧
      a = t.request.answer c (Reply.classify (Text.Utf8.decode (ScriptedLine.octets own)))) :
    AnsweredBy own d d' := by
  intro t' ht' c' hc'
  obtain rfl : t = t' := Option.some.inj (hn.symm.trans ht')
  obtain rfl : c = c' := Option.some.inj (hc.symm.trans hc')
  exact ⟨a, ha, ho⟩

/-- Every request is answered by a timeout or by the reply that is met by its own command. -/
def OwnAnswers : Device ScriptedLine → List Move → Prop
  | _, [] => True
  | d, .turn (.items own) :: moves =>
    AnsweredBy own d (d.move (.turn (.items own))) ∧ OwnAnswers (d.move (.turn (.items own))) moves
  | d, m :: moves => OwnAnswers (d.move m) moves

theorem serve_ofAnswer {a : Except PanelError Reading} {w : Worker ScriptedLine}
    (h : Worker.serve t.request d.worker = Worker.ofAnswer a w) :
    (d.serve t).worker = w ∧ (d.serve t).answers = d.answers ++ [(t.number, a)] := by
  refine ⟨by rw [worker_serve, h, Worker.stateOf_ofAnswer], ?_⟩
  unfold serve
  rw [h]
  cases a with
  | ok a => simp only [Worker.ofAnswer, answer, (rests_resume w d).answers]
  | error e => simp only [Worker.ofAnswer, answer, (rests_resume w d).answers]

theorem move_turn (hn : d.next? = some t) (reply : LineReply) :
    ∃ q, d.move (.turn reply) = serve { d.expect reply with queue := q } t := by
  unfold next? at hn
  split at hn
  case isTrue h =>
    obtain ⟨q, hq⟩ : ∃ q, d.queue = t :: q := List.head?_eq_some_iff.mp hn
    obtain ⟨hr, hs⟩ : d.isReady = true ∧ d.cancelled = false := by simpa using h
    have hq' : (d.expect reply).queue = t :: q := hq
    have hs' : ¬ (d.expect reply).cancelled = true := by simpa [expect] using hs
    refine ⟨q, ?_⟩
    rw [move, if_pos hr, turn, if_neg hs', hq']
  case isFalse => cases hn

section

variable (hn : d.next? = some t) (hc : t.request.command? = some c) (hr : d.Reliable)
  {early stale : List LineItem} (hq : d.hearing.queue = early ++ stale)
  (he : ∀ i ∈ early, i.IsChunk) (hs : Worker.IsStale stale)

include hn hc hr hq he hs

theorem turn_answered (rest : List LineItem) {quiet : List LineItem} {last : List UInt8}
    (hi : ∀ i ∈ quiet, i.IsQuiet) (hl : Reply.terminator ∈ last)
    (ht : ScriptedLine.idleReads quiet * d.worker.transport.interval <
      t.request.patience d.worker.timeout) :
    ∃ d', d.move (.turn (.items (quiet ++ .chunk last :: rest))) = d' ∧
      Worker.Steady d.worker d'.worker ∧
      d'.hearing = { Hearing.drain { d.hearing with queue := early } with queue := rest } ∧
      d'.answers = d.answers ++ [(t.number, t.request.answer c (Reply.classify
        (Text.Utf8.decode (ScriptedLine.octets quiet ++ last))))] := by
  obtain ⟨q, hm⟩ := move_turn hn (.items (quiet ++ .chunk last :: rest))
  obtain ⟨w₁, ho⟩ := Worker.exists_opens
    (w := (d.expect (.items (quiet ++ .chunk last :: rest))).worker) hr.1
  obtain ⟨w', hst, -, hh, hsv⟩ := Worker.serve_answered hc ho hq he hs rfl hi hl ht
  obtain ⟨hw, ha⟩ := serve_ofAnswer
    (d := { d.expect (.items (quiet ++ .chunk last :: rest)) with queue := q }) hsv
  refine ⟨_, hm, ?_, ?_, ha⟩
  · rw [hw]
    exact (steady_expect _ d).trans hst
  · rw [hearing, hw, hh]
    rfl

theorem turn_silent :
    ∃ d', d.move (.turn (.items [])) = d' ∧ Worker.Steady d.worker d'.worker ∧
      d'.hearing = Hearing.drain { d.hearing with queue := early } ∧
      d'.answers = d.answers ++ [(t.number, .error (.timeout c.text))] := by
  obtain ⟨q, hm⟩ := move_turn hn (.items [])
  obtain ⟨w₁, ho⟩ := Worker.exists_opens (w := (d.expect (.items [])).worker) hr.1
  obtain ⟨w', hst, -, hh, hsv | ⟨h0, -⟩⟩ :=
    Worker.serve_silent hc ho hq he hs (.inr ⟨[], rfl⟩)
  · obtain ⟨hw, ha⟩ := serve_ofAnswer (d := { d.expect (.items []) with queue := q })
      (a := .error (.timeout c.text)) hsv
    refine ⟨_, hm, ?_, ?_, ha⟩
    · rw [hw]
      exact (steady_expect _ d).trans hst
    · rw [hearing, hw, hh]
      rfl
  · exact absurd h0 (Nat.pos_iff_ne_zero.mp hr.2)

theorem turn_met {own : List LineItem}
    (hm : (LineReply.items own).Meets d.worker.transport.interval
      (t.request.patience d.worker.timeout)) :
    ∃ d', d.move (.turn (.items own)) = d' ∧ Worker.Steady d.worker d'.worker ∧
      d'.hearing = Hearing.drain { d.hearing with queue := early } ∧ AnsweredBy own d d' := by
  obtain rfl | ⟨quiet, last, rfl, hi, hl, ht⟩ := hm
  · obtain ⟨d', hd, hst, hh, ha⟩ := turn_silent hn hc hr hq he hs
    exact ⟨d', hd, hst, hh, answeredBy hn hc ha (.inl rfl)⟩
  · obtain ⟨d', hd, hst, hh, ha⟩ := turn_answered hn hc hr hq he hs [] hi hl ht
    have hdq : (Hearing.drain { d.hearing with queue := early }).queue = [] :=
      Hearing.queue_drain he
    have ho : ScriptedLine.octets (quiet ++ [.chunk last]) = ScriptedLine.octets quiet ++ last := by
      simp [LineItem.octets]
    refine ⟨d', hd, hst, hh.trans ?_, answeredBy hn hc ha (.inr ⟨by simp, by rw [ho]⟩)⟩
    exact congrArg
      (fun q ↦ { Hearing.drain { d.hearing with queue := early } with queue := q }) hdq.symm

end

theorem ownAnswers_of_calm (hr : d.Reliable) (hc : Calm d moves) : OwnAnswers d moves := by
  induction moves generalizing d with
  | nil => trivial
  | cons m moves ih =>
    have ih' := ih (hr.of_steady (steady_move hc.1)) hc.2
    cases m with
    | submit q | cancel | feed items | wait ms => exact ih'
    | turn reply =>
      cases reply with
      | failure e => exact ih'
      | items own =>
        refine ⟨fun t ht ↦ ?_, ih'⟩
        intro c hc'
        obtain ⟨hch, hm⟩ := hc.1 t ht
        have hcm : t.request.command? ≠ none := by rw [hc']; exact Option.some_ne_none c
        have hn : d.hearing.queue = d.hearing.queue ++ [] := (List.append_nil _).symm
        obtain ⟨d', hd, -, -, ha⟩ := turn_met ht hc' hr hn hch (.inl rfl) (hm hcm)
        rw [hd]
        exact ha t ht c hc'

end Device

end AlarmPanel
