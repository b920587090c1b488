import AlarmPanel.Proofs.Device.Answers
import AlarmPanel.Proofs.Frame.Trace

namespace AlarmPanel

open AlarmPanel.Frame

/-- When a late reply comes: while the device listens, in a turn that serves a request between the idle
read and the command, or in such a turn between the command and its own reply. -/
inductive Arrival where
  | listening (late : List LineItem)
  | clearing (late own : List LineItem)
  | exchange (late own : List LineItem)

namespace Arrival

open Device

variable {d : Device ScriptedLine} {stream : List UInt8}

def moves : Arrival → List Move
  | listening late => [.feed late]
  | clearing late own => [.feed (.idle :: late), .turn (.items own)]
  | exchange late own => [.turn (.items (late ++ own))]

/-- The octets that go astray, into the stream of lines. -/
def stray : Arrival → List UInt8
  | listening late => ScriptedLine.octets late
  | clearing _ _ => []
  | exchange _ own => ScriptedLine.octets own

/-- The next turn serves a request with a command and finds its own reply or none. -/
def Serves (own : List LineItem) (d : Device ScriptedLine) : Prop :=
  (∀ i ∈ d.hearing.queue, i.IsChunk) ∧ ∃ t c, d.next? = some t ∧ t.request.command? = some c ∧
    (LineReply.items own).Meets d.worker.transport.interval (t.request.patience d.worker.timeout)

/-- A late reply that is listened to has its colon, one that is dropped comes back to back, and one that
is taken for another comes before the deadline. -/
def Occurs (d : Device ScriptedLine) : Arrival → Prop
  | listening late => Reply.terminator ∈ ScriptedLine.octets late
  | clearing late own => (∀ i ∈ late, i.IsChunk) ∧ Serves own d
  | exchange late own => Serves own d ∧ ∀ t ∈ d.next?, ScriptedLine.AnswersWithin
      d.worker.transport.interval (t.request.patience d.worker.timeout) late

def Answered (d : Device ScriptedLine) (a : Arrival) : Prop :=
  match a with
  | listening _ => True
  | clearing _ own | exchange _ own => AnsweredBy own d (d.play a.moves)

/-- Stale input is dropped, and the request that it precedes is answered as if it had not come. -/
theorem play_clearing {late own : List LineItem} (hr : d.Reliable)
    (ho : (clearing late own).Occurs d) :
    ∃ d', d.play (clearing late own).moves = d' ∧ Worker.Steady d.worker d'.worker ∧
      d'.hearing = d.hearing.drain ∧ AnsweredBy own d d' := by
  obtain ⟨hl, hq, t, c, hn, hc, hm⟩ := ho
  have hs : Worker.Steady d.worker (d.feed (.idle :: late)).worker := ⟨rfl, rfl, fun _ h ↦ h⟩
  obtain ⟨d', hd, hst, hh, ha⟩ := turn_met (d := d.feed (.idle :: late)) hn hc (hr.of_steady hs) rfl
    hq (.inr ⟨late, rfl, hl⟩) hm
  exact ⟨d', hd, hs.trans hst, hh, ha⟩

/-- A late reply after the command is taken for the reply to it, which itself stays unread. -/
theorem play_exchange {late own : List LineItem} (hr : d.Reliable)
    (ho : (exchange late own).Occurs d) :
    ∃ d' t c, d.play (exchange late own).moves = d' ∧ Worker.Steady d.worker d'.worker ∧
      d'.hearing = d.hearing.drain.feed own ∧ d.next? = some t ∧ t.request.command? = some c ∧
      d'.answers = d.answers ++ [(t.number, t.request.answer c (Reply.classify
        (Text.Utf8.decode (ScriptedLine.octets late))))] := by
  obtain ⟨⟨hq, t, c, hn, hc, -⟩, hp⟩ := ho
  obtain ⟨early, last, rfl, hi, hl, ht⟩ := hp t hn
  obtain ⟨d', hd, hst, hh, ha⟩ := turn_answered hn hc hr (List.append_nil _).symm hq
    (.inl rfl) own hi hl ht
  refine ⟨d', t, c, ?_, hst, hh.trans ?_, hn, hc, ?_⟩
  · rw [← hd, moves, List.append_assoc]
    rfl
  · have hdq : d.hearing.drain.queue = [] := Hearing.queue_drain hq
    rw [Hearing.feed, hdq]
    rfl
  · simpa [LineItem.octets] using ha

theorem follows_play_moves {a : Arrival} {before : List String} (hr : d.Reliable) (ho : a.Occurs d)
    (hf : d.hearing.Follows before stream)
    (hfit : Fits d.hearing.assembler.capacity (stream ++ a.stray)) :
    Worker.Steady d.worker (d.play a.moves).worker ∧
      (d.play a.moves).hearing.Follows before (stream ++ a.stray) ∧
      (d.play a.moves).hearing.assembler.capacity = d.hearing.assembler.capacity := by
  cases a with
  | listening late => exact ⟨⟨rfl, rfl, fun _ h ↦ h⟩, hf.feed late, rfl⟩
  | clearing late own =>
    obtain ⟨d', hd, hst, hh, -⟩ := play_clearing hr ho
    rw [stray, List.append_nil] at hfit ⊢
    rw [hd, hh]
    exact ⟨hst, hf.drain hfit ho.2.1, d.hearing.capacity_drain⟩
  | exchange late own =>
    obtain ⟨d', t, c, hd, hst, hh, -⟩ := play_exchange hr ho
    rw [hd, hh]
    exact ⟨hst, (hf.drain hfit.of_append ho.1.1).feed own, d.hearing.capacity_drain⟩

/-- Nothing is heard of the late reply: the lines of the panel are told as they are, and every request
is answered by its own reply or by a timeout. -/
def Isolated (a : Arrival) (d : Device ScriptedLine) (stream : List UInt8) (after : List Move) :
    Prop :=
  ((d.play a.moves).play after).hearing.told ++
      texts ((d.play a.moves).play after).hearing.assembler.buffer =
    texts (stream ++ printed after) ∧ a.Answered d ∧ OwnAnswers (d.play a.moves) after

theorem not_answered_exchange {late : List LineItem} (hr : d.Reliable)
    (ho : (exchange late []).Occurs d) : ¬ (exchange late []).Answered d := by
  intro ha
  obtain ⟨d', t, c, hd, -, -, hn, hc, ha'⟩ := play_exchange hr ho
  obtain ⟨a, hans, h | ⟨h, -⟩⟩ := ha t hn c hc
  · rw [hd, ha'] at hans
    have he : t.request.answer c _ = a :=
      congrArg Prod.snd (List.singleton_inj.mp (List.append_cancel_left hans))
    exact Request.answer_ne_timeout (Request.classify_ne_timeout _) t.request c.text (he.trans h)
  · exact h rfl

section

variable (c : DeviceConfig) (s : ScriptedLine) (now : Nat) (before after : List Move)

/-- A late reply is isolated exactly if it comes between the idle read that ends the draining of the
line and the next command, provided that a line is completed afterwards and all input read. -/
theorem isolated_iff (a : Arrival) (hs : s.queue = [])
    (hr : (∀ r ∈ s.connects, r = .ok ()) ∧ 0 < s.interval) (hb : Calm (start c s now) before)
    (ho : a.Occurs ((start c s now).play before))
    (ha : Calm (((start c s now).play before).play a.moves) after)
    (hfit : Fits 8192 (printed before ++ (a.stray ++ printed after)))
    (hend : ∃ y, printed after = y ++ lineEnd)
    (hread : ScriptedLine.octets
      ((((start c s now).play before).play a.moves).play after).hearing.queue = []) :
    a.Isolated ((start c s now).play before) (printed before) after ↔
      ∃ late own, a = .clearing late own := by
  obtain ⟨y, hy⟩ := hend
  have hr₁ : ((start c s now).play before).Reliable := reliable_play hr hb
  obtain ⟨hf₁, hc₁⟩ := follows_play (follows_start c now hs) hb hfit.of_append
  rw [List.nil_append] at hf₁
  rw [← List.append_assoc] at hfit
  have hfit₁ : Fits ((start c s now).play before).hearing.assembler.capacity
      (printed before ++ a.stray) := by
    rw [hc₁]
    exact hfit.of_append
  obtain ⟨hst, hf₂, hc₂⟩ := follows_play_moves hr₁ ho hf₁ hfit₁
  have hr₂ := hr₁.of_steady hst
  have hf₃ := (follows_play hf₂ ha (by rw [hc₂, hc₁]; exact hfit)).1
  obtain ⟨read, hp, ht⟩ := hf₃.read
  rw [hread, List.append_nil] at hp
  rw [← hp, List.nil_append, List.append_assoc] at ht
  rw [Isolated, ht, hy]
  constructor
  · rintro ⟨hlines, hans, -⟩
    cases a with
    | listening late => exact absurd hlines (texts_insert_ne ho)
    | clearing late own => exact ⟨late, own, rfl⟩
    | exchange late own =>
      obtain ⟨⟨-, t, cmd, -, -, hm⟩, -⟩ := id ho
      obtain rfl | ⟨early, last, rfl, -, hl, -⟩ := hm
      · exact absurd hans (not_answered_exchange hr₁ ho)
      · refine absurd hlines (texts_insert_ne ?_)
        simp [stray, LineItem.octets, hl]
  · rintro ⟨late, own, rfl⟩
    obtain ⟨d', hd, -, -, hans⟩ := play_clearing hr₁ ho
    refine ⟨rfl, ?_, ownAnswers_of_calm hr₂ ha⟩
    rw [Answered, hd]
    exact hans

end

def afterTimeout : List Move :=
  [.submit (.query .powerQuery none), .turn (.items []), .submit (.query .errorQuery none)]

def oneLine : List Move :=
  [.feed [.chunk [0x5A, 0x31, 0x0D, 0x0A]], .turn (.items [])]

def impatient : Device ScriptedLine :=
  (start { commandTimeout := 100 } {} 0).play afterTimeout

theorem isolated_clearing :
    (clearing [.chunk [0x31, 0x3A]] [.chunk [0x30, 0x3A]]).Isolated impatient (printed afterTimeout)
      oneLine := by
  refine (isolated_iff { commandTimeout := 100 } {} 0 afterTimeout oneLine _ rfl
    ⟨by simp, by decide⟩ ⟨trivial, ?_, trivial, trivial⟩ ?_ ⟨trivial, ?_, trivial⟩
    (by decide) ⟨[0x5A, 0x31], rfl⟩ (by decide +kernel)).mpr ⟨_, _, rfl⟩
  · intro t ht
    exact ⟨by decide, fun _ ↦ .inl rfl⟩
  · refine ⟨by decide, by decide +kernel, ⟨1, .query .errorQuery none⟩,
      .errorQuery, by decide +kernel, rfl, .inr ⟨[], _, rfl, by simp, by decide, by decide +kernel⟩⟩
  · intro t ht
    have hn : (Device.feed [.chunk [0x5A, 0x31, 0x0D, 0x0A]] (impatient.play
        (clearing [.chunk [0x31, 0x3A]] [.chunk [0x30, 0x3A]]).moves)).next? = none := by
      decide +kernel
    cases hn.symm.trans ht

theorem not_isolated_listening : ¬ (listening [.chunk [0x31, 0x3A]]).Isolated impatient
    (printed afterTimeout) oneLine := by
  rintro ⟨h, -⟩
  revert h
  decide +kernel

end Arrival

end AlarmPanel
