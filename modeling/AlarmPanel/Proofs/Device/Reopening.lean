import AlarmPanel.Proofs.Device.Ledger
import AlarmPanel.Proofs.Frame.Parting

namespace AlarmPanel

open AlarmPanel.Frame AlarmPanel.Assembler

variable {σ α : Type}

namespace Assembler

def pushes (octets : List UInt8) : List Step :=
  if octets = [] then [] else [.push octets]

def drains (octets : List UInt8) (a : Assembler) : List Step :=
  pushes octets ++ takes (texts (run (pushes octets) a).2.buffer).length

theorem run_pushes_nil (a : Assembler) : run (pushes []) a = ([], a) := rfl

theorem run_pushes {octets : List UInt8} (h : octets ≠ []) (a : Assembler) :
    run (pushes octets) a = ([], a.push octets) := by
  rw [pushes, if_neg h]
  rfl

theorem run_take_of_some {a b : Assembler} {text : String} (h : a.take? = some (text, b)) :
    run [.take] a = ([text], b) := by
  simp only [run, step, h, List.append_nil]

theorem run_take_of_none {a : Assembler} (h : a.take? = none) : run [.take] a = ([], a) := by
  simp only [run, step, h, List.append_nil]

theorem run_drains (octets : List UInt8) (a : Assembler) :
    run (drains octets a) a = (run (pushes octets) a).2.takeAll := by
  have hn : (run (pushes octets) a).1 = [] := by
    by_cases h : octets = []
    · rw [h, run_pushes_nil]
    · rw [run_pushes h]
  rw [drains, run_append, run_takes_length, hn, List.nil_append]

end Assembler

namespace Worker

structure Hears (steps : List Step) (w w' : Worker σ) : Prop where
  assembler : w'.receiver.assembler = (run steps w.receiver.assembler).2
  told : w'.told = w.told ++ (run steps w.receiver.assembler).1

variable {steps more : List Step} {w w' w'' : Worker σ}

theorem Hears.of_same (ha : w'.receiver.assembler = w.receiver.assembler) (hl : w'.log = w.log) :
    Hears [] w w' :=
  ⟨ha, by rw [Worker.told, hl]; exact (List.append_nil _).symm⟩

theorem Hears.refl (w : Worker σ) : Hears [] w w :=
  .of_same rfl rfl

theorem Hears.trans (h : Hears steps w w') (h' : Hears more w' w'') : Hears (steps ++ more) w w'' := by
  refine ⟨?_, ?_⟩
  · rw [run_append, h'.assembler, h.assembler]
  · rw [run_append, h'.told, h.told, h.assembler, List.append_assoc]

theorem Hears.silent (h : Hears steps w w') (h' : Hears [] w' w'') : Hears steps w w'' := by
  rw [← List.append_nil steps]
  exact h.trans h'

theorem hears_onLine (h : Hears steps w w') (x : LineM σ α) : Hears steps w (stateOf (onLine x w')) := by
  have hs : stateOf (onLine x w') =
      { w' with receiver := { w'.receiver with line := stateOf (x w'.receiver.line) } } := by
    unfold onLine
    rw [stateOf_onReceiver, Receiver.stateOf_onLine]
  rw [hs]
  exact h.silent (.of_same rfl rfl)

theorem hears_handleAll {lines : List String} {r : Receiver σ}
    (h : run steps w.receiver.assembler = (lines, r.assembler)) :
    Hears steps w (handleAll lines { w with receiver := r }) := by
  refine ⟨?_, ?_⟩
  · rw [receiver_handleAll, h]
  · rw [told_handleAll, h]
    rfl

variable [Transport σ]

theorem hears_close (w : Worker σ) : Hears [] w w.close := by
  unfold close
  dsimp only
  split
  · refine ⟨rfl, ?_⟩
    simp [told, report, withTransport, run, News.text?]
  · exact .of_same rfl rfl

theorem hears_guarded {x : WorkerM σ α} (h : Hears steps w (stateOf (x w'))) :
    Hears steps w (stateOf (guarded x w')) := by
  rcases stateOf_guarded x w' with hg | hg
  · rwa [hg]
  · rw [hg]
    exact h.silent (hears_close _)

theorem hears_ensureConnected (w : Worker σ) : Hears [] w (stateOf (ensureConnected w)) := by
  have hp : Preserves (fun v ↦ Hears [] w v) (ensureConnected : WorkerM σ Unit) := by
    refine preserves_get.bind fun _ ↦ .ite (preserves_pure _) (Preserves.bind ?_ fun _ ↦ ?_)
    · exact fun v hv ↦ hears_onLine hv _
    · refine preserves_modify fun v hv ↦ hv.silent ⟨rfl, ?_⟩
      simp [told, report, run, News.text?]
  exact hp w (.refl w)

/-- What the assembler does as the input at hand is passed on. -/
def drainSteps (w : Worker σ) : List Step :=
  match Line.readAll w.receiver.line with
  | .ok octets _ => drains octets w.receiver.assembler
  | .error _ _ => []

/-- What the assembler does in a look: the line is read unless a line is complete. -/
def lookSteps (w : Worker σ) : List Step :=
  match w.receiver.assembler.take?, Line.read w.receiver.line with
  | some _, _ => [.take]
  | none, .ok octets _ => pushes octets ++ [.take]
  | none, .error _ _ => []

theorem hears_drain (w : Worker σ) : Hears w.drainSteps w (stateOf (drain w)) := by
  unfold drainSteps
  cases hr : Line.readAll w.receiver.line with
  | error e l =>
    rw [drain, bind_of_error (onLine_error hr)]
    exact .of_same rfl rfl
  | ok octets l =>
    rw [drain, bind_of_ok (onLine_ok hr)]
    have hrun := run_drains octets w.receiver.assembler
    by_cases ho : octets = []
    · subst ho
      exact hears_handleAll (r := ⟨l, w.receiver.assembler.takeAll.2⟩) hrun
    · rw [run_pushes ho] at hrun
      have he : octets.isEmpty = false := by simpa using ho
      simp only [he, Bool.false_eq_true, if_false]
      exact hears_handleAll (r := ⟨l, (w.receiver.assembler.push octets).takeAll.2⟩) hrun

theorem hears_listen_of_ok {w₁ : Worker σ} (h₁ : ensureConnected w = .ok () w₁) :
    Hears w₁.lookSteps w₁ (stateOf (listen w)) := by
  unfold lookSteps
  cases ht : w₁.receiver.assembler.take? with
  | some p =>
    rw [listen_of_look h₁ (Receiver.look_complete ht)]
    exact hears_handleAll (run_take_of_some ht)
  | none =>
    cases hr : Line.read w₁.receiver.line with
    | error e l =>
      have hl := Receiver.look_failed ht hr
      cases e with
      | endless => exact absurd hl (Receiver.look_ne_endless _ _)
      | failed e =>
        rw [listen_of_failure h₁ hl]
        cases e.isConnectionLevel <;> exact .of_same rfl rfl
    | ok octets l =>
      by_cases ho : octets = []
      · subst ho
        rw [listen_of_look h₁ (Receiver.look_idle ht hr)]
        exact hears_handleAll (run_take_of_none ht)
      · have hp := run_pushes ho w₁.receiver.assembler
        cases hn : (w₁.receiver.assembler.push octets).take? with
        | some p =>
          rw [listen_of_look h₁ (Receiver.look_frame ht hr ho hn)]
          refine hears_handleAll ?_
          rw [run_append, hp, run_take_of_some hn]
          rfl
        | none =>
          rw [listen_of_look h₁ (Receiver.look_unfinished ht hr ho hn)]
          refine hears_handleAll ?_
          rw [run_append, hp, run_take_of_none hn]
          rfl

def serveSteps (w : Worker σ) : List Step :=
  match ensureConnected w with
  | .ok _ w => w.drainSteps
  | .error _ _ => []

def listenSteps (w : Worker σ) : List Step :=
  match ensureConnected w with
  | .ok _ w => w.lookSteps
  | .error _ _ => []

theorem hears_serve (q : Request) (w : Worker σ) : Hears w.serveSteps w (stateOf (serve q w)) := by
  have ho := hears_ensureConnected w
  unfold serveSteps
  cases hc : ensureConnected w with
  | error e w₁ =>
    rw [hc] at ho
    rw [serve, bind_of_error hc]
    exact ho
  | ok u w₁ =>
    rw [hc] at ho
    have hd : Hears w₁.drainSteps w (stateOf (guarded drain w₁)) :=
      hears_guarded (ho.trans (hears_drain w₁))
    rw [serve, bind_of_ok hc]
    have hp : Preserves (fun v ↦ Hears w₁.drainSteps w v) (do
        let w ← get
        guarded (onLine (q.perform w.timeout)) : WorkerM σ Reading) :=
      preserves_get.bind fun _ v hv ↦ hears_guarded (hears_onLine hv _)
    cases hg : guarded drain w₁ with
    | error e w₂ =>
      rw [hg] at hd
      rw [bind_of_error hg]
      exact hd
    | ok u w₂ =>
      rw [hg] at hd
      rw [bind_of_ok hg]
      exact hp w₂ hd

theorem hears_listen (w : Worker σ) : Hears w.listenSteps w (stateOf (listen w)) := by
  have ho := hears_ensureConnected w
  unfold listenSteps
  cases hc : ensureConnected w with
  | error e w₁ =>
    rw [hc] at ho
    rw [listen, bind_of_error hc]
    exact ho
  | ok u w₁ =>
    rw [hc] at ho
    exact ho.trans (hears_listen_of_ok hc)

end Worker

namespace Device

variable [Transport σ] {d : Device σ} {o : Occurrence σ} {os : List (Occurrence σ)}

def assemblerSteps (d : Device σ) : Occurrence σ → List Step
  | .turn =>
    if d.isReady ∧ d.cancelled = false then
      if d.queue = [] then d.worker.listenSteps else d.worker.serveSteps
    else []
  | .submit _ | .cancel | .wait _ | .line _ => []

theorem hears_turn (hr : d.isReady = true) :
    Worker.Hears (d.assemblerSteps .turn) d.worker d.turn.worker := by
  obtain ⟨hc, ht⟩ | ⟨t, q, hc, hq, ht⟩ | ⟨hc, hq, ht⟩ := d.turn_inv
  · rw [assemblerSteps, if_neg (by simp [hc]), ht]
    exact Worker.hears_close d.worker
  · rw [assemblerSteps, if_pos ⟨hr, hc⟩, if_neg (by simp [hq]), ht, worker_serve]
    exact Worker.hears_serve t.request d.worker
  · rw [assemblerSteps, if_pos ⟨hr, hc⟩, if_pos hq, ht]
    have hl := Worker.hears_listen d.worker
    rcases d.worker_listen with hw | hw
    · rwa [hw]
    · rw [hw]
      exact hl.silent (Worker.hears_close _)

theorem hears_happen (d : Device σ) (o : Occurrence σ) :
    Worker.Hears (d.assemblerSteps o) d.worker (d.happen o).worker := by
  cases o with
  | turn =>
    rw [happen]
    split
    case isTrue hr => exact hears_turn hr
    case isFalse hr =>
      rw [assemblerSteps, if_neg (fun h ↦ hr h.1)]
      exact .refl d.worker
  | submit q =>
    rw [happen, worker_submit]
    exact .refl d.worker
  | cancel | wait ms | line f => exact .of_same rfl rfl

theorem hears_course (d : Device σ) (os : List (Occurrence σ)) :
    Worker.Hears (along assemblerSteps d os) d.worker (d.course os).worker := by
  induction os generalizing d with
  | nil => exact .refl d.worker
  | cons o os ih => exact (d.hears_happen o).trans (ih (d.happen o))

/-- The lines that are told in a run. Their older octets are those that the assembler held before. -/
def heard (d : Device σ) (os : List (Occurrence σ)) : List Stretch :=
  (PartedAssembler.run (along assemblerSteps d os) (.ofAssembler d.worker.receiver.assembler)).1

/-- A run tells the lines of one stream, whether the line is closed and opened again or not. -/
structure OneStream (d : Device σ) (os : List (Occurrence σ)) : Prop where
  told : (d.course os).worker.told = d.worker.told ++ (d.heard os).map Stretch.text
  /-- What the assembler holds stands in front of all that is read, as long as it does not overflow. -/
  lines : Fits d.worker.receiver.assembler.capacity
      (d.worker.receiver.assembler.buffer ++ pushed (along assemblerSteps d os)) →
    (d.course os).worker.told ++ texts (d.course os).worker.receiver.assembler.buffer =
      d.worker.told ++ texts (d.worker.receiver.assembler.buffer ++ pushed (along assemblerSteps d os))
  /-- No line has older octets exactly if these go before the first line. -/
  apart : (∀ l ∈ d.heard os, l.older = []) ↔
    Sheds (along assemblerSteps d os) d.worker.receiver.assembler
  /-- A line that was begun keeps its beginning, or loses it to an overflow. -/
  begun : split? d.worker.receiver.assembler.buffer = none → ∀ l rest, d.heard os = l :: rest →
    l.older = [] ∨ l.older = d.worker.receiver.assembler.buffer

theorem oneStream_of_course (d : Device σ) (os : List (Occurrence σ)) : OneStream d os := by
  have hh := d.hears_course os
  refine ⟨?_, fun hf ↦ ?_, PartedAssembler.forall_older_iff _ _, fun hn l rest hl ↦ ?_⟩
  · obtain ⟨ht, -⟩ := PartedAssembler.whole_run (along assemblerSteps d os)
      (.ofAssembler d.worker.receiver.assembler)
    rw [PartedAssembler.whole_ofAssembler] at ht
    rw [hh.told, heard, ht]
  · have hstart : Hearing.Follows d.worker.told d.worker.receiver.assembler.buffer
        ⟨d.worker.told, d.worker.receiver.assembler, []⟩ :=
      ⟨[], by simp [Hearing.pending], rfl, (List.append_nil _).symm⟩
    obtain ⟨read, hs, ht⟩ := (follows_run hstart hf).1.read
    rw [ScriptedLine.octets_nil, List.append_nil] at hs
    rw [hh.told, hh.assembler, hs]
    exact ht
  · exact PartedAssembler.older_of_first
      (p := .ofAssembler d.worker.receiver.assembler) hn hl

def cutOff : Device ScriptedLine :=
  (start {} { queue := [.chunk [0x5A, 0x33]], replies := [.failure (.io "broken")] } 0).course
    [.turn, .submit (.query .powerQuery none), .turn]

def nextLine : List (Occurrence ScriptedLine) :=
  [.line (ScriptedLine.feed · [.chunk [0x5A, 0x34, 0x0D, 0x0A]]), .turn]

/-- The first line after the line was opened again is told with what was read before it was closed. -/
theorem not_apart_cutOff :
    (cutOff.worker.transport.isOpen = false ∧ cutOff.status = .running ∧
      cutOff.answers = [(0, .error (.io "broken"))]) ∧
    (cutOff.course nextLine).worker.log = [.connected, .disconnected, .connected, .line "Z3Z4"] ∧
    cutOff.heard nextLine = [⟨[0x5A, 0x33], [0x5A, 0x34, 0x0D, 0x0A]⟩] ∧
    ¬ ∀ l ∈ cutOff.heard nextLine, l.older = [] := by
  have hh : cutOff.heard nextLine = [⟨[0x5A, 0x33], [0x5A, 0x34, 0x0D, 0x0A]⟩] := by decide
  refine ⟨⟨rfl, rfl, rfl⟩, by decide, hh, ?_⟩
  intro h
  cases h _ (by rw [hh]; exact List.mem_cons_self)

end Device

end AlarmPanel
