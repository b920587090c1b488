import AlarmPanel.Line.Basic
import AlarmPanel.Line.Scripted

namespace AlarmPanel

section

variable {ε σ α β : Type} {x : EStateM ε σ α} {f : α → EStateM ε σ β} {s s' : σ}

theorem bind_of_ok {a : α} (h : x s = .ok a s') : (x >>= f) s = f a s' := by
  simp only [bind, EStateM.bind, h]

theorem bind_of_error {e : ε} (h : x s = .error e s') : (x >>= f) s = .error e s' := by
  simp only [bind, EStateM.bind, h]

theorem get_bind (f : σ → EStateM ε σ β) (s : σ) : (get >>= f) s = f s s := rfl

theorem tryCatch_of_ok {g : ε → EStateM ε σ α} {a : α} (h : x s = .ok a s') :
    tryCatch x g s = .ok a s' := by
  change EStateM.tryCatch x g s = _
  delta EStateM.tryCatch
  dsimp only
  rw [h]

theorem tryCatch_of_error {g : ε → EStateM ε σ α} {e : ε} (h : x s = .error e s') :
    tryCatch x g s = g e s' := by
  change EStateM.tryCatch x g s = _
  delta EStateM.tryCatch
  dsimp only
  rw [h]
  rfl

def stateOf : EStateM.Result ε σ α → σ
  | .ok _ s => s
  | .error _ s => s

end

namespace LineItem

def octets : LineItem → List UInt8
  | chunk o => o
  | _ => []

def IsChunk (i : LineItem) : Prop :=
  ∃ o, o ≠ [] ∧ i = chunk o

instance : DecidablePred IsChunk := fun i ↦
  match i with
  | chunk o => decidable_of_iff (o ≠ []) (by simp [IsChunk])
  | idle | failure _ => isFalse (by simp [IsChunk])

end LineItem

namespace ScriptedLine

def octets (q : List LineItem) : List UInt8 :=
  q.flatMap LineItem.octets

@[simp] theorem octets_nil : octets [] = [] := rfl

@[simp] theorem octets_cons (i : LineItem) (q : List LineItem) :
    octets (i :: q) = i.octets ++ octets q := rfl

@[simp] theorem octets_append (q r : List LineItem) : octets (q ++ r) = octets q ++ octets r :=
  List.flatMap_append

structure Burst where
  octets : List UInt8
  failure : Option PanelError
  rest : List LineItem
  deriving DecidableEq

def burst : List LineItem → Burst
  | [] => ⟨[], none, []⟩
  | .idle :: q => ⟨[], none, q⟩
  | .failure e :: q => ⟨[], some e, q⟩
  | .chunk o :: q => if o = [] then ⟨[], none, q⟩ else { burst q with octets := o ++ (burst q).octets }

theorem burst_nil : burst [] = ⟨[], none, []⟩ := rfl

theorem burst_chunks_append {q : List LineItem} (h : ∀ i ∈ q, i.IsChunk) (r : List LineItem) :
    burst (q ++ r) = { burst r with octets := octets q ++ (burst r).octets } := by
  induction q with
  | nil => rfl
  | cons i q ih =>
    obtain ⟨o, ho, rfl⟩ := h i List.mem_cons_self
    rw [List.cons_append, burst, if_neg ho, ih fun j hj ↦ h j (List.mem_cons_of_mem _ hj)]
    simp [LineItem.octets]

theorem burst_chunks {q : List LineItem} (h : ∀ i ∈ q, i.IsChunk) :
    burst q = ⟨octets q, none, []⟩ := by
  simpa [burst_nil] using burst_chunks_append h []

theorem octets_burst (q : List LineItem) : octets q = (burst q).octets ++ octets (burst q).rest := by
  induction q with
  | nil => rfl
  | cons i q ih =>
    cases i with
    | chunk o =>
      rw [burst]
      split
      case isTrue h => simp [LineItem.octets, h]
      case isFalse h => simp [LineItem.octets, ih]
    | idle | failure e => rfl

theorem length_le_queueWeight (q : List LineItem) : q.length ≤ queueWeight q := by
  induction q with
  | nil => exact Nat.le_refl _
  | cons i q ih => cases i <;> simp only [queueWeight, weight, List.length_cons] <;> omega

end ScriptedLine

namespace Line

open ScriptedLine

variable {l : Line ScriptedLine} {q : List LineItem}

def withQueue (l : Line ScriptedLine) (q : List LineItem) : Line ScriptedLine :=
  { l with transport := { l.transport with queue := q } }

@[simp] theorem withQueue_interval (l : Line ScriptedLine) (q : List LineItem) :
    (l.withQueue q).transport.interval = l.transport.interval := rfl

@[simp] theorem withQueue_now (l : Line ScriptedLine) (q : List LineItem) :
    (l.withQueue q).now = l.now := rfl

@[simp] theorem withQueue_withQueue (l : Line ScriptedLine) (q r : List LineItem) :
    (l.withQueue q).withQueue r = l.withQueue r := rfl

theorem connect_nil (h : l.transport.connects = []) :
    connect l = .ok () { l with transport := { l.transport with isOpen := true } } := by
  simp only [connect, perform, Transport.connect, ScriptedLine.connect, next, h]

theorem connect_ok {r : List (Except PanelError Unit)} (h : l.transport.connects = .ok () :: r) :
    connect l =
      .ok () { l with transport := { l.transport with connects := r, isOpen := true } } := by
  simp only [connect, perform, Transport.connect, ScriptedLine.connect, next, h]

theorem connect_error {e : PanelError} {r : List (Except PanelError Unit)}
    (h : l.transport.connects = .error e :: r) :
    connect l = .error (.failed e) { l with transport := { l.transport with connects := r } } := by
  simp only [connect, perform, Transport.connect, ScriptedLine.connect, next, h]

theorem read_nil (h : l.transport.queue = []) : read l = .ok [] l := by
  simp [read, perform, Transport.read, ScriptedLine.read, h]

theorem read_cons_idle (h : l.transport.queue = .idle :: q) : read l = .ok [] (l.withQueue q) := by
  simp [read, perform, Transport.read, ScriptedLine.read, h, withQueue]

theorem read_cons_chunk {o : List UInt8} (h : l.transport.queue = .chunk o :: q) :
    read l = .ok o (l.withQueue q) := by
  simp [read, perform, Transport.read, ScriptedLine.read, h, withQueue]

theorem read_cons_failure {e : PanelError} (h : l.transport.queue = .failure e :: q) :
    read l = .error (.failed e) (l.withQueue q) := by
  simp [read, perform, Transport.read, ScriptedLine.read, h, withQueue]

/-- The outcome of a burst: its octets after those that came before, or its failure. -/
def ofBurst (got : List UInt8) (b : Burst) (l : Line ScriptedLine) :
    EStateM.Result Halt (Line ScriptedLine) (List UInt8) :=
  match b.failure with
  | none => .ok (got ++ b.octets) (l.withQueue b.rest)
  | some e => .error (.failed e) (l.withQueue b.rest)

theorem readAllWithin_eq (n : Nat) (got : List UInt8) (l : Line ScriptedLine)
    (h : l.transport.queue.length < n) :
    readAllWithin n got l = ofBurst got (burst l.transport.queue) l := by
  induction n generalizing got l with
  | zero => omega
  | succ n ih =>
    rw [readAllWithin]
    cases hq : l.transport.queue with
    | nil =>
      rw [bind_of_ok (read_nil hq)]
      simp [ofBurst, burst, withQueue, ← hq]
      rfl
    | cons i q =>
      rw [hq, List.length_cons] at h
      cases i with
      | idle =>
        rw [bind_of_ok (read_cons_idle hq)]
        simp [ofBurst, burst]
        rfl
      | failure e =>
        rw [bind_of_error (read_cons_failure hq)]
        rfl
      | chunk o =>
        rw [bind_of_ok (read_cons_chunk hq), burst]
        split
        case isTrue ho =>
          obtain rfl := List.isEmpty_iff.mp ho
          simp [ofBurst]
          rfl
        case isFalse ho =>
          have ho' : o ≠ [] := by simpa using ho
          rw [ih _ _ (by simpa [withQueue] using h), if_neg ho']
          simp [ofBurst, withQueue, List.append_assoc]

theorem readAll_eq (l : Line ScriptedLine) :
    readAll l = ofBurst [] (burst l.transport.queue) l := by
  have h : l.transport.queue.length < backlog l.transport + 1 := by
    have := length_le_queueWeight l.transport.queue
    simp only [backlog]
    omega
  exact readAllWithin_eq _ [] l h

theorem discard_eq (l : Line ScriptedLine) :
    discard l = match (burst l.transport.queue).failure with
      | none => .ok () (l.withQueue (burst l.transport.queue).rest)
      | some e => .error (.failed e) (l.withQueue (burst l.transport.queue).rest) := by
  have hr := readAll_eq l
  have hd : discard l = (readAll >>= fun _ ↦ pure ()) l := rfl
  rw [hd]
  unfold ofBurst at hr
  split at hr
  · rw [bind_of_ok hr]; rfl
  · rw [bind_of_error hr]

end Line

end AlarmPanel
