import AlarmPanel.Proofs.Device.Lasting
import AlarmPanel.Proofs.Device.LifeCycle

namespace AlarmPanel

namespace Worker

variable {σ α : Type}

theorem log_handle (text : String) (w : Worker σ) : w.log <+: (handle text w).log := by
  unfold handle
  split
  · exact (List.prefix_append _ _).trans (List.prefix_append _ _)
  · exact List.prefix_append _ _

abbrev Grows (x : WorkerM σ α) : Prop :=
  ∀ told, Preserves (fun w : Worker σ ↦ told <+: w.log) x

theorem grows_onReceiver (x : ReceiverM σ α) : Grows (onReceiver x) := by
  intro told w hw
  rw [stateOf_onReceiver]
  exact hw

variable [Transport σ]

theorem log_close (w : Worker σ) :
    w.close.log = w.log ++ if w.connected then [.disconnected] else [] := by
  unfold close
  cases hc : w.connected <;> simp [withTransport, report, hc]

theorem grows_guarded {x : WorkerM σ α} (hx : Grows x) : Grows (guarded x) := by
  intro told w hw
  have h := hx told w hw
  rcases stateOf_guarded x w with hg | hg
  · rwa [hg]
  · rw [hg, log_close]
    exact h.trans (List.prefix_append _ _)

theorem grows_ensureConnected : Grows (ensureConnected : WorkerM σ Unit) := by
  intro told
  refine preserves_get.bind fun w ↦ .ite (preserves_pure _) ?_
  exact (grows_onReceiver _ told).bind fun _ ↦
    preserves_modify fun _ h ↦ h.trans (List.prefix_append _ _)

theorem grows_drain : Grows (drain : WorkerM σ Unit) := fun told ↦
  preserves_drain (grows_onReceiver _ told) (fun _ _ h ↦ h) fun text w h ↦
    h.trans (log_handle text w)

theorem grows_serve (q : Request) : Grows (serve q : WorkerM σ Reading) := fun told ↦
  preserves_serve (grows_ensureConnected told) (grows_guarded grows_drain told) fun _ ↦
    grows_guarded (grows_onReceiver _) told

theorem grows_listen : Grows (listen : WorkerM σ Look) := by
  intro told
  have hl : Preserves (fun w : Worker σ ↦ told <+: w.log) lookOver :=
    preserves_lookOver (grows_onReceiver _ told)
  exact (grows_ensureConnected told).bind fun _ ↦
    preserves_tell hl fun text w h ↦ h.trans (log_handle text w)

end Worker

namespace Device

open Transport

variable {σ : Type} [Transport σ] {d d' e : Device σ}

structure Grows (d e : Device σ) : Prop where
  config : e.config = d.config
  log : d.worker.log <+: e.worker.log
  sound : Sound d → Sound e

/-- One device later on. Once it has stopped it tells nothing more. -/
structure Goes (d e : Device σ) : Prop extends Grows d e where
  finished : d.isFinished = true → e.isFinished = true ∧ e.worker.log = d.worker.log

theorem Grows.refl (d : Device σ) : Grows d d :=
  ⟨rfl, List.prefix_rfl, id⟩

theorem Grows.trans (h : Grows d d') (h' : Grows d' e) : Grows d e :=
  ⟨h'.config.trans h.config, h.log.trans h'.log, h'.sound ∘ h.sound⟩

theorem Goes.refl (d : Device σ) : Goes d d :=
  ⟨.refl d, fun hf ↦ ⟨hf, rfl⟩⟩

theorem Goes.trans (h : Goes d d') (h' : Goes d' e) : Goes d e where
  toGrows := h.toGrows.trans h'.toGrows
  finished hf := by
    obtain ⟨hf', hl⟩ := h.finished hf
    obtain ⟨hf'', hl'⟩ := h'.finished hf'
    exact ⟨hf'', hl'.trans hl⟩

theorem grows_spinning (d : Device σ) : Grows d { d with status := .spinning } :=
  ⟨rfl, List.prefix_rfl, fun h ↦ .of_running h.worker (by simp)⟩

theorem goes_cancel (d : Device σ) : Goes d d.cancel :=
  ⟨⟨rfl, List.prefix_rfl, fun h ↦ ⟨h.worker, h.stopped⟩⟩, fun hf ↦ ⟨hf, rfl⟩⟩

theorem goes_withNow (d : Device σ) (ms : Nat) :
    Goes d { d with worker := d.worker.withNow ms } :=
  ⟨⟨rfl, List.prefix_rfl, fun h ↦ ⟨h.worker.of_receiver rfl, h.stopped⟩⟩, fun hf ↦ ⟨hf, rfl⟩⟩

theorem config_serve (t : Ticket) (d : Device σ) : (d.serve t).config = d.config := by
  have hr (w : Worker σ) : (d.resume w).config = d.config := by
    unfold resume
    dsimp only
    split <;> rfl
  unfold serve
  split
  · exact hr _
  · exact hr _
  · rfl

theorem config_listen (d : Device σ) : d.listen.config = d.config := by
  unfold listen
  split <;> rfl

theorem config_turn (d : Device σ) : d.turn.config = d.config := by
  obtain ⟨-, ht⟩ | ⟨t, q, -, -, ht⟩ | ⟨-, -, ht⟩ := d.turn_inv
  · rw [ht]
    rfl
  · rw [ht, config_serve]
  · rw [ht, config_listen]

theorem log_turn (d : Device σ) : d.worker.log <+: d.turn.worker.log := by
  have hclose (w : Worker σ) : w.log <+: w.close.log := by
    rw [Worker.log_close]
    exact List.prefix_append _ _
  obtain ⟨-, ht⟩ | ⟨t, q, -, -, ht⟩ | ⟨-, -, ht⟩ := d.turn_inv
  · rw [ht]
    exact hclose d.worker
  · rw [ht, worker_serve]
    exact Worker.grows_serve t.request _ d.worker List.prefix_rfl
  · have hl := Worker.grows_listen _ d.worker List.prefix_rfl
    rw [ht]
    rcases d.worker_listen with hw | hw
    · rwa [hw]
    · rw [hw]
      exact hl.trans (hclose _)

theorem run_of_not_isReady (h : ¬ d.isReady = true) : d.run = d := by
  rw [run, load, runWithin, if_neg h]

theorem run_cancel (h : d.status = .running) : d.cancel.run = d.cancel.stop := by
  have hr : d.cancel.isReady = true := by simp [isReady, cancel, h]
  have ht : d.cancel.turn = d.cancel.stop := if_pos rfl
  rw [run, load, runWithin, if_pos hr, ht, runWithin, if_neg (by simp [isReady, stop])]

variable [Opening σ]

theorem grows_turn (h : d.isReady = true) : Grows d d.turn :=
  ⟨d.config_turn, d.log_turn, fun hs ↦ hs.turn h⟩

theorem goes_happen {o : Occurrence σ} (ho : o.Leaves isOpen) (d : Device σ) :
    Goes d (d.happen o) := by
  refine ⟨?_, fun hf ↦ log_happen_of_isFinished hf o⟩
  cases o with
  | turn =>
    rw [happen]
    split
    case isTrue hr => exact grows_turn hr
    case isFalse => exact .refl d
  | submit q => exact ⟨config_submit q d, by simp [happen, worker_submit], fun h ↦ h.happen ho⟩
  | cancel => exact (goes_cancel d).toGrows
  | wait ms => exact (goes_withNow d _).toGrows
  | line f => exact ⟨rfl, List.prefix_rfl, fun h ↦ h.happen ho⟩

theorem goes_submit (q : Request) (d : Device σ) : Goes d (d.submit q) :=
  goes_happen (o := .submit q) trivial d

theorem lasting_grows (d : Device σ) : Lasting d.Grows where
  turn _ hr h := h.trans (grows_turn hr)
  submit e q h := h.trans (e.goes_submit q).toGrows
  cancel e h := h.trans e.goes_cancel.toGrows
  pause e ms h := h.trans (e.goes_withNow ms).toGrows
  spin e h := h.trans e.grows_spinning

theorem goes_run (d : Device σ) : Goes d d.run := by
  refine ⟨d.lasting_grows.run (.refl d), fun hf ↦ ?_⟩
  rw [run_of_not_isReady (not_isReady_of_isFinished hf)]
  exact ⟨hf, rfl⟩

theorem goes_runUntil (t : Nat) (d : Device σ) : Goes d (d.runUntil t) := by
  refine ⟨d.lasting_grows.runUntil t (.refl d), fun hf ↦ ?_⟩
  have hs := status_of_isFinished hf
  obtain ⟨n, hn⟩ : ∃ n, d.load + 4 * (t - d.now + 1) = n + 1 := ⟨_, rfl⟩
  rw [runUntil, hn, runUntilWithin, if_neg (not_isReady_of_isFinished hf),
    if_neg (by rw [hs]; simp)]
  exact (goes_withNow d _).finished hf

theorem goes_settle (d : Device σ) : Goes d d.settle := by
  refine ⟨d.lasting_grows.settle (.refl d), fun hf ↦ ?_⟩
  have hs := status_of_isFinished hf
  obtain ⟨n, hn⟩ : ∃ n, 2 * d.load = n + 1 := ⟨_, rfl⟩
  rw [settle, hn, settleWithin, if_pos (by rw [hs]; simp)]
  exact ⟨hf, rfl⟩

theorem goes_run_cancel (d : Device σ) : Goes d d.cancel.run :=
  (goes_cancel d).trans (goes_run d.cancel)

theorem stopped_run_cancel (h : Sound d) (hs : d.status ≠ .spinning) :
    d.cancel.run.isFinished = true ∧
      d.cancel.run.worker.log = d.worker.log ++ if d.worker.connected then [.disconnected] else [] := by
  cases hst : d.status with
  | spinning => exact absurd hst hs
  | finished =>
    have hf : d.isFinished = true := by simp [isFinished, hst]
    rw [h.stopped hf]
    simpa using (goes_run_cancel d).finished hf
  | running =>
    rw [run_cancel hst]
    exact ⟨rfl, Worker.log_close d.worker⟩

end Device

end AlarmPanel
