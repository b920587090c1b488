import AlarmPanel.Proofs.Device.Course
import AlarmPanel.Proofs.Device.Serving

namespace AlarmPanel

open AlarmPanel.Frame

inductive Move where
  /-- The device takes a turn if it can. The panel meets a command written in it with `reply`. -/
  | turn (reply : LineReply)
  | submit (q : Request)
  | cancel
  | feed (items : List LineItem)
  | wait (ms : Nat)
  deriving DecidableEq

/-- What the panel prints outside replies. -/
def Move.printed : Move → List UInt8
  | feed items => ScriptedLine.octets items
  | turn _ | submit _ | cancel | wait _ => []

/-- The reply comes before the deadline, with its colon in its last read, or it never comes. -/
def LineReply.Meets (interval timeout : Nat) : LineReply → Prop
  | items l => l = [] ∨ ScriptedLine.AnswersWithin interval timeout l
  | failure _ => False

namespace Device

variable {d : Device ScriptedLine} {moves : List Move} {before : List String} {stream : List UInt8}

def printed (moves : List Move) : List UInt8 :=
  moves.flatMap Move.printed

@[simp] theorem printed_nil : printed [] = [] := rfl

@[simp] theorem printed_cons (m : Move) (moves : List Move) :
    printed (m :: moves) = m.printed ++ printed moves := rfl

/-- The panel will meet the next command with `reply`. -/
def expect (reply : LineReply) (d : Device ScriptedLine) : Device ScriptedLine :=
  { d with worker := d.worker.withTransport { d.worker.transport with replies := [reply] } }

def feed (items : List LineItem) (d : Device ScriptedLine) : Device ScriptedLine :=
  { d with worker := d.worker.withTransport (d.worker.transport.feed items) }

def wait (ms : Nat) (d : Device ScriptedLine) : Device ScriptedLine :=
  { d with worker := d.worker.withNow (d.worker.now + ms) }

def move (d : Device ScriptedLine) : Move → Device ScriptedLine
  | .turn reply => if d.isReady then (d.expect reply).turn else d
  | .submit q => d.submit q
  | .cancel => d.cancel
  | .feed items => d.feed items
  | .wait ms => d.wait ms

def play (d : Device ScriptedLine) (moves : List Move) : Device ScriptedLine :=
  moves.foldl move d

def hearing (d : Device ScriptedLine) : Hearing :=
  d.worker.hearing

def next? (d : Device ScriptedLine) : Option Ticket :=
  if d.isReady && !d.cancelled then d.queue.head? else none

/-- A turn that serves a request finds its input back to back and its reply in time. -/
def CalmMove (d : Device ScriptedLine) : Move → Prop
  | .turn reply => ∀ t ∈ d.next?, (∀ i ∈ d.hearing.queue, i.IsChunk) ∧
      (t.request.command? ≠ none →
        reply.Meets d.worker.transport.interval (t.request.patience d.worker.timeout))
  | _ => True

def Calm : Device ScriptedLine → List Move → Prop
  | _, [] => True
  | d, m :: moves => d.CalmMove m ∧ Calm (d.move m) moves

theorem isMet_expect {reply : LineReply} {timeout : Nat}
    (h : reply.Meets d.worker.transport.interval timeout) :
    Worker.IsMet (d.expect reply).worker timeout := by
  cases reply with
  | failure e => exact h.elim
  | items l =>
    obtain rfl | ha := h
    · exact .inl (.inr ⟨[], rfl⟩)
    · exact .inr ⟨l, rfl, ha⟩

theorem steady_expect (reply : LineReply) (d : Device ScriptedLine) :
    Worker.Steady d.worker (d.expect reply).worker := ⟨rfl, rfl, fun _ hr ↦ hr⟩

theorem listen_cases (d : Device ScriptedLine) : Worker.Steady d.worker d.listen.worker ∧
    (d.listen.hearing = d.hearing ∨ d.listen.hearing = d.hearing.look) := by
  have hs := Worker.steady_listen d.worker
  have hh := Worker.hearing_listen d.worker
  rcases d.worker_listen with h | h
  · rw [hearing, h]
    exact ⟨hs, hh⟩
  · rw [hearing, h, Worker.hearing_close]
    exact ⟨hs.trans (Worker.steady_close _), hh⟩

theorem turn_cases {reply : LineReply} (hr : d.isReady = true) (hc : d.CalmMove (.turn reply)) :
    Worker.Steady d.worker (d.expect reply).turn.worker ∧
      ((d.expect reply).turn.hearing = d.hearing ∨ (d.expect reply).turn.hearing = d.hearing.look ∨
        (∀ i ∈ d.hearing.queue, i.IsChunk) ∧ (d.expect reply).turn.hearing = d.hearing.drain) := by
  unfold turn
  split
  case isTrue hs =>
    exact ⟨(steady_expect reply d).trans (Worker.steady_close _), .inl (Worker.hearing_close _)⟩
  case isFalse hs =>
    have hn : d.cancelled = false := by simpa [expect] using hs
    split
    case h_1 t q hq =>
      have hd : d.queue = t :: q := hq
      obtain ⟨hch, hm⟩ := hc t (by simp [next?, hr, hn, hd])
      obtain ⟨hst, hh⟩ := Worker.hearing_serve (q := t.request) (w := (d.expect reply).worker) hch
        (fun hc ↦ isMet_expect (hm hc))
      rw [hearing, worker_serve]
      refine ⟨(steady_expect reply d).trans hst, ?_⟩
      rcases hh with h | h
      · exact .inl h
      · exact .inr (.inr ⟨hch, h⟩)
    case h_2 hq =>
      obtain ⟨hst, h⟩ := listen_cases (d.expect reply)
      refine ⟨(steady_expect reply d).trans hst, ?_⟩
      rcases h with h | h
      · exact .inl h
      · exact .inr (.inl h)

theorem follows_move {m : Move} (hf : d.hearing.Follows before stream) (hc : d.CalmMove m)
    (hfit : Fits d.hearing.assembler.capacity (stream ++ m.printed)) :
    (d.move m).hearing.Follows before (stream ++ m.printed) ∧
      (d.move m).hearing.assembler.capacity = d.hearing.assembler.capacity := by
  cases m with
  | feed items => exact ⟨hf.feed items, rfl⟩
  | submit q =>
    rw [move, Move.printed, List.append_nil, hearing, worker_submit]
    exact ⟨hf, rfl⟩
  | cancel | wait ms =>
    rw [Move.printed, List.append_nil]
    exact ⟨hf, rfl⟩
  | turn reply =>
    rw [Move.printed, List.append_nil] at hfit ⊢
    rw [move]
    split
    case isFalse => exact ⟨hf, rfl⟩
    case isTrue hr =>
      rcases (turn_cases hr hc).2 with h | h | ⟨hch, h⟩
      · rw [h]
        exact ⟨hf, rfl⟩
      · rw [h]
        exact ⟨hf.look hfit, d.hearing.capacity_look⟩
      · rw [h]
        exact ⟨hf.drain hfit hch, d.hearing.capacity_drain⟩

theorem steady_move {m : Move} (hc : d.CalmMove m) : Worker.Steady d.worker (d.move m).worker := by
  cases m with
  | feed items | wait ms => exact ⟨rfl, rfl, fun _ hr ↦ hr⟩
  | cancel => exact .refl _
  | submit q =>
    rw [move, worker_submit]
    exact .refl _
  | turn reply =>
    rw [move]
    split
    case isTrue hr => exact (turn_cases hr hc).1
    case isFalse => exact .refl _

theorem follows_play (hf : d.hearing.Follows before stream) (hc : Calm d moves)
    (hfit : Fits d.hearing.assembler.capacity (stream ++ printed moves)) :
    (d.play moves).hearing.Follows before (stream ++ printed moves) ∧
      (d.play moves).hearing.assembler.capacity = d.hearing.assembler.capacity := by
  induction moves generalizing d stream with
  | nil => simpa [play] using hf
  | cons m moves ih =>
    rw [printed_cons, ← List.append_assoc] at hfit ⊢
    obtain ⟨hm, hcap⟩ := follows_move hf hc.1 hfit.of_append
    rw [← hcap] at hfit ⊢
    exact ih hm hc.2 hfit

theorem follows_start (c : DeviceConfig) {s : ScriptedLine} (now : Nat) (hs : s.queue = []) :
    (start c s now).hearing.Follows [] [] :=
  ⟨[], by simp [Hearing.pending, hearing, Worker.hearing, start, Worker.transport, hs], rfl, rfl⟩

/-- Commands do not disturb the lines: at every point of a calm run the lines told, and those still in
the assembler, are the lines of what was read, whatever requests were served meanwhile. -/
theorem lines_of_calm_run (c : DeviceConfig) (s : ScriptedLine) (now : Nat) (moves : List Move)
    (hs : s.queue = []) (hc : Calm (start c s now) moves) (hfit : Fits 8192 (printed moves)) :
    ∃ read, printed moves = read ++ ScriptedLine.octets ((start c s now).play moves).hearing.queue ∧
      ((start c s now).play moves).hearing.told ++
          texts ((start c s now).play moves).hearing.assembler.buffer = texts read := by
  obtain ⟨read, hp, ht⟩ := (follows_play (follows_start c now hs) hc hfit).1.read
  exact ⟨read, hp, by simpa using ht⟩

def halfLineRun : List Move :=
  [.feed [.chunk [0x5A, 0x31, 0x0D]], .turn (.items []), .feed [.chunk [0x0A], .chunk [0x5A]],
    .submit (.query .powerQuery none),
    .turn (.items [.chunk [0x50], .idle, .chunk [0x3D, 0x31, 0x3A]])]

theorem lines_of_calm_run_halfLine :
    ∃ read, printed halfLineRun = read ++
        ScriptedLine.octets ((start {} ({} : ScriptedLine) 0).play halfLineRun).hearing.queue ∧
      ((start {} ({} : ScriptedLine) 0).play halfLineRun).hearing.told ++
          texts ((start {} ({} : ScriptedLine) 0).play halfLineRun).hearing.assembler.buffer =
        texts read := by
  refine lines_of_calm_run {} {} 0 halfLineRun rfl ⟨trivial, ?_, trivial, trivial, ?_, trivial⟩
    (by decide)
  · intro t ht
    cases ht
  · intro t ht
    obtain rfl : (⟨0, .query .powerQuery none⟩ : Ticket) = t := Option.some.inj ht
    refine ⟨by decide, fun _ ↦ .inr ⟨[.chunk [0x50], .idle], [0x3D, 0x31, 0x3A], rfl, ?_⟩⟩
    decide

end Device

end AlarmPanel
