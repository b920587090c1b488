import AlarmPanel.Proofs.Line.Exchange

namespace AlarmPanel

section

variable {σ τ α : Type}

namespace Line

def map (φ : σ → τ) (l : Line σ) : Line τ where
  transport := φ l.transport
  now := l.now

def mapResult (φ : σ → τ) : EStateM.Result Halt (Line σ) α → EStateM.Result Halt (Line τ) α
  | .ok a l => .ok a (l.map φ)
  | .error e l => .error e (l.map φ)

variable {φ : σ → τ}

theorem perform_map {f : Nat → σ → Except PanelError α × σ} {g : Nat → τ → Except PanelError α × τ}
    (h : ∀ now s, g now (φ s) = ((f now s).1, φ (f now s).2)) (l : Line σ) :
    perform g (l.map φ) = mapResult φ (perform f l) := by
  have hl : g (l.map φ).now (l.map φ).transport =
      ((f l.now l.transport).1, φ (f l.now l.transport).2) := h l.now l.transport
  simp only [perform, hl]
  rcases f l.now l.transport with ⟨_ | _, t⟩ <;> rfl

theorem bind_map {β : Type} {x : LineM σ α} {x' : LineM τ α} {f : α → LineM σ β} {f' : α → LineM τ β}
    {l : Line σ} (hx : x' (l.map φ) = mapResult φ (x l))
    (hf : ∀ a l', f' a (l'.map φ) = mapResult φ (f a l')) :
    (x' >>= f') (l.map φ) = mapResult φ ((x >>= f) l) := by
  cases hr : x l with
  | ok a l' =>
    rw [hr] at hx
    rw [bind_of_ok hr, bind_of_ok hx]
    exact hf a l'
  | error e l' =>
    rw [hr] at hx
    rw [bind_of_error hr, bind_of_error hx]
    rfl

end Line

variable [Transport σ] [Transport τ]

/-- One transport stands for another: both look alike and react alike. -/
structure Transport.Reflects (φ : σ → τ) : Prop where
  interface (s : σ) : Transport.interface (φ s) = Transport.interface s
  pollInterval (s : σ) : Transport.pollInterval (φ s) = Transport.pollInterval s
  backlog (s : σ) : Transport.backlog (φ s) = Transport.backlog s
  read (now : Nat) (s : σ) :
    Transport.read now (φ s) = ((Transport.read now s).1, φ (Transport.read now s).2)
  write (octets : List UInt8) (s : σ) :
    Transport.write octets (φ s) = ((Transport.write octets s).1, φ (Transport.write octets s).2)
  purges (s : σ) : Transport.purges (φ s) = Transport.purges s
  purge (now : Nat) (s : σ) :
    Transport.purge now (φ s) = ((Transport.purge now s).1, φ (Transport.purge now s).2)

namespace Line

variable {φ : σ → τ}

theorem readAllWithin_map (h : Transport.Reflects φ) (n : Nat) (got : List UInt8) (l : Line σ) :
    readAllWithin n got (l.map φ) = mapResult φ (readAllWithin n got l) := by
  induction n generalizing got l with
  | zero => rfl
  | succ n ih =>
    apply bind_map (perform_map h.read l)
    intro chunk l'
    cases chunk with
    | nil => rfl
    | cons o chunk => exact ih (got ++ o :: chunk) l'

theorem discard_map (h : Transport.Reflects φ) (l : Line σ) :
    discard (l.map φ) = mapResult φ (discard l) := by
  have hp : Transport.purges (l.map φ).transport = Transport.purges l.transport :=
    h.purges l.transport
  have hb : Transport.backlog (l.map φ).transport = Transport.backlog l.transport :=
    h.backlog l.transport
  rw [discard, discard, get_bind, get_bind, hp]
  by_cases hs : Transport.purges l.transport = true
  · rw [if_pos hs, if_pos hs]
    exact perform_map h.purge l
  · rw [if_neg hs, if_neg hs]
    refine bind_map ?_ fun _ _ ↦ rfl
    rw [readAll, readAll, get_bind, get_bind, hb]
    exact readAllWithin_map h _ [] l

theorem collect_map (h : Transport.Reflects φ) (deadline n : Nat) (got : List UInt8) (l : Line σ) :
    collect deadline n got (l.map φ) = mapResult φ (collect deadline n got l) := by
  induction n generalizing got l with
  | zero => rfl
  | succ n ih =>
    rw [collect, collect]
    apply bind_map (perform_map h.read l)
    intro chunk l'
    have hp : Transport.pollInterval (l'.map φ).transport = Transport.pollInterval l'.transport :=
      h.pollInterval l'.transport
    have hn : (l'.map φ).now = l'.now := rfl
    by_cases hc : (!chunk.isEmpty && (got ++ chunk).contains Reply.terminator) = true
    · rw [if_pos hc, if_pos hc]
      rfl
    rw [if_neg hc, if_neg hc, get_bind, get_bind, hp, hn]
    by_cases hd : deadline ≤ l'.now
    · rw [if_pos hd, if_pos hd]
      rfl
    rw [if_neg hd, if_neg hd]
    by_cases he : chunk.isEmpty = true
    · rw [if_pos he, if_pos he]
      exact ih (got ++ chunk) { l' with now := l'.now + _ }
    · rw [if_neg he, if_neg he]
      exact ih (got ++ chunk) l'

theorem send_map (h : Transport.Reflects φ) (text : String) (timeout : Nat) (l : Line σ) :
    send text timeout (l.map φ) = mapResult φ (send text timeout l) := by
  have hi : Transport.interface (l.map φ).transport = Transport.interface l.transport :=
    h.interface l.transport
  rw [send, send, get_bind, get_bind, hi]
  by_cases hs : (Transport.interface l.transport).supportsCommands = true
  · simp only [hs, if_true]
    apply bind_map (discard_map h l)
    intro _ l'
    apply bind_map (perform_map (fun _ ↦ h.write (Text.Utf8.encode text.toList)) l')
    intro _ l''
    have hb : collectBound (l''.map φ) timeout = collectBound l'' timeout := by
      have hback : Transport.backlog (l''.map φ).transport = Transport.backlog l''.transport :=
        h.backlog l''.transport
      have hpoll : Transport.pollInterval (l''.map φ).transport =
          Transport.pollInterval l''.transport := h.pollInterval l''.transport
      rw [collectBound, collectBound, hback, hpoll]
    rw [get_bind, get_bind, hb]
    exact collect_map h _ _ [] l''
  · simp only [hs]
    rfl

end Line

end

inductive Access where
  | read (time : Nat) (i : LineItem)
  | write (octets : List UInt8)
  deriving DecidableEq, Repr

namespace ScriptedLine

/-- What the next read meets. A line with nothing left is idle. -/
def front : List LineItem → LineItem
  | [] => .idle
  | i :: _ => i

theorem read_eq (s : ScriptedLine) :
    s.read = (match front s.queue with
      | .failure e => .error e
      | i => .ok i.octets, { s with queue := s.queue.tail }) := by
  obtain ⟨queue⟩ := s
  rcases queue with _ | ⟨_ | _ | _, q⟩ <;> rfl

end ScriptedLine

structure WatchedLine where
  line : ScriptedLine
  journal : List Access := []

namespace WatchedLine

variable (w : WatchedLine)

def doing {ε : Type} (r : ε × ScriptedLine) (done : List Access) : ε × WatchedLine :=
  (r.1, ⟨r.2, w.journal ++ done⟩)

def read (now : Nat) : Except PanelError (List UInt8) × WatchedLine :=
  w.doing w.line.read [.read now (ScriptedLine.front w.line.queue)]

def write (octets : List UInt8) : Except PanelError Unit × WatchedLine :=
  w.doing (w.line.write octets) [.write octets]

end WatchedLine

instance : Transport WatchedLine where
  interface _ := .ptr3
  isOpen w := w.line.isOpen
  pollInterval w := w.line.interval
  connect _ w := w.doing w.line.connect []
  disconnect w := w.doing w.line.disconnect []
  write octets w := w.write octets
  read now w := w.read now
  isQuiet w := w.line.queue.isEmpty
  backlog w := w.line.backlog

theorem reflects_line : Transport.Reflects WatchedLine.line where
  interface _ := rfl
  pollInterval _ := rfl
  backlog _ := rfl
  read _ _ := rfl
  write _ _ := rfl
  purges _ := rfl
  purge _ _ := rfl

namespace Line

def watched (l : Line ScriptedLine) : Line WatchedLine where
  transport := { line := l.transport }
  now := l.now

/-- The journal changes nothing about an exchange. -/
theorem send_watched (text : String) (timeout : Nat) (l : Line ScriptedLine) :
    send text timeout l = mapResult WatchedLine.line (send text timeout l.watched) :=
  send_map reflects_line text timeout l.watched

end Line

end AlarmPanel
