import AlarmPanel.Proofs.Device.Listening
import AlarmPanel.Proofs.Line.Keeping

namespace AlarmPanel

variable {σ α : Type}

namespace Receiver

variable {p : σ → Prop}

abbrev Keeps (p : σ → Prop) (x : ReceiverM σ α) : Prop :=
  Preserves (fun r : Receiver σ ↦ p r.line.transport) x

theorem stateOf_onLine (x : LineM σ α) (r : Receiver σ) :
    stateOf (onLine x r) = { r with line := stateOf (x r.line) } := by
  unfold onLine
  split
  case h_1 a l h => rw [h]; rfl
  case h_2 e l h => rw [h]; rfl

theorem keeps_onLine {x : LineM σ α} (hx : Line.Keeps p x) : Keeps p (onLine x) := by
  intro r hr
  rw [stateOf_onLine]
  exact hx r.line hr

theorem keeps_take? : Keeps p (take? : ReceiverM σ (Option String)) := by
  intro r hr
  unfold take?
  split <;> exact hr

theorem keeps_push (octets : List UInt8) : Keeps p (push octets : ReceiverM σ Unit) := fun _ h ↦ h

variable [Transport σ]

theorem keeps_look (hr : ∀ now t, p t → p (Transport.read now t).2) :
    Keeps p (look : ReceiverM σ Look) := by
  refine keeps_take?.bind fun seen ↦ ?_
  cases seen with
  | some text => exact preserves_pure _
  | none =>
    refine (keeps_onLine (Line.keeps_perform hr)).bind fun chunk ↦ .ite (preserves_pure _) ?_
    refine (keeps_push chunk).bind fun _ ↦ keeps_take?.bind fun seen ↦ ?_
    cases seen with
    | some text => exact preserves_pure _
    | none => exact preserves_pure _

theorem look_ne_endless (r r' : Receiver σ) : look r ≠ .error .endless r' := by
  intro h
  cases ht : r.assembler.take? with
  | some p => cases (look_complete ht).symm.trans h
  | none =>
    rcases hr : Transport.read r.line.now r.line.transport with ⟨x, t⟩
    cases x with
    | error e =>
      have hl := Line.perform_of_error hr
      cases (look_failed ht hl).symm.trans h
    | ok chunk =>
      have hl := Line.perform_of_eq hr
      by_cases hc : chunk = []
      · subst hc
        cases (look_idle ht hl).symm.trans h
      · cases hp : (r.assembler.push chunk).take? with
        | none => cases (look_unfinished ht hl hc hp).symm.trans h
        | some p => cases (look_frame ht hl hc hp).symm.trans h

end Receiver

namespace Worker

variable {p : σ → Prop}

abbrev Keeps (p : σ → Prop) (x : WorkerM σ α) : Prop :=
  Preserves (fun w : Worker σ ↦ p w.transport) x

theorem stateOf_onReceiver (x : ReceiverM σ α) (w : Worker σ) :
    stateOf (onReceiver x w) = { w with receiver := stateOf (x w.receiver) } := by
  unfold onReceiver
  split
  case h_1 a r h => rw [h]; rfl
  case h_2 e r h => rw [h]; rfl

theorem keeps_onReceiver {x : ReceiverM σ α} (hx : Receiver.Keeps p x) :
    Keeps p (onReceiver x) := by
  intro w hw
  rw [stateOf_onReceiver]
  exact hx w.receiver hw

theorem keeps_onLine {x : LineM σ α} (hx : Line.Keeps p x) : Keeps p (onLine x) :=
  keeps_onReceiver (Receiver.keeps_onLine hx)

theorem finishes_onLine {I : Worker σ → Prop} {J : Line σ → Prop} {x : LineM σ α}
    (hx : Finishes J x) (h : ∀ w, I w → J w.receiver.line) : Finishes I (onLine x) := by
  intro w hw w' hr
  cases hx' : x w.receiver.line with
  | ok a l => cases (onLine_ok hx').symm.trans hr
  | error e l =>
    cases (onLine_error hx').symm.trans hr
    exact hx _ (h w hw) l hx'

theorem preserves_tell {I : Worker σ → Prop} {x : WorkerM σ Look} (hx : Preserves I x)
    (hh : ∀ text w, I w → I (handle text w)) : Preserves I (do
      let seen ← x
      match seen.frame? with
      | some text => modify (handle text)
      | none => pure ()
      pure seen : WorkerM σ Look) := by
  refine hx.bind fun seen ↦ ?_
  dsimp only
  split
  case h_1 text _ => exact (preserves_modify (hh text)).bind fun _ ↦ preserves_pure _
  case h_2 => exact preserves_pure _

theorem keeps_handle (text : String) (w : Worker σ) (hw : p w.transport) :
    p (handle text w).transport := by
  rwa [transport, receiver_handle]

variable [Transport σ]

theorem transport_close (w : Worker σ) :
    w.close.transport = (Transport.disconnect w.transport).2 := by
  unfold close
  dsimp only
  split <;> rfl

theorem keeps_guarded {x : WorkerM σ α} (hd : ∀ t, p t → p (Transport.disconnect t).2)
    (hx : Keeps p x) : Keeps p (guarded x) := by
  intro w hw
  have h := hx w hw
  rcases stateOf_guarded x w with hg | hg
  · rwa [hg]
  · rw [hg, transport_close]
    exact hd _ h

theorem keeps_ensureConnected (hc : ∀ now t, p t → p (Transport.connect now t).2) :
    Keeps p (ensureConnected : WorkerM σ Unit) := by
  refine preserves_get.bind fun w ↦ .ite (preserves_pure _) ?_
  exact (keeps_onLine (Line.keeps_perform hc)).bind fun _ ↦ preserves_modify fun _ h ↦ h

theorem preserves_drain {I : Worker σ → Prop} (hr : Preserves I (onLine Line.readAll))
    (ha : ∀ (w : Worker σ) a, I w → I { w with receiver := { w.receiver with assembler := a } })
    (hh : ∀ text w, I w → I (handle text w)) : Preserves I (drain : WorkerM σ Unit) := by
  refine hr.bind fun octets ↦ ?_
  have hl : Preserves I (do
      let lines ← onReceiver Receiver.takeAll
      modify fun w ↦ lines.foldl (fun w text ↦ handle text w) w : WorkerM σ Unit) := by
    have ht : Preserves I (onReceiver Receiver.takeAll : WorkerM σ (List String)) :=
      fun w hw ↦ ha w _ hw
    refine ht.bind fun lines ↦ preserves_modify fun w hw ↦ ?_
    induction lines generalizing w with
    | nil => exact hw
    | cons text lines ih => exact ih _ (hh text w hw)
  have hp : Preserves I (onReceiver (Receiver.push octets) : WorkerM σ Unit) :=
    fun w hw ↦ ha w _ hw
  dsimp only
  split
  · exact hl
  · exact hp.bind fun _ ↦ hl

theorem keeps_drain (hr : ∀ now t, p t → p (Transport.read now t).2) :
    Keeps p (drain : WorkerM σ Unit) :=
  preserves_drain (keeps_onLine (Line.keeps_readAll hr)) (fun _ _ h ↦ h) keeps_handle

theorem preserves_lookOver {I : Worker σ → Prop} (hl : Preserves I (onReceiver Receiver.look)) :
    Preserves I (lookOver : WorkerM σ Look) := by
  refine hl.tryCatch fun e ↦ ?_
  cases e with
  | failed e => exact .ite (preserves_throw _) (preserves_pure _)
  | endless => exact preserves_throw _

theorem keeps_lookOver (hr : ∀ now t, p t → p (Transport.read now t).2) :
    Keeps p (lookOver : WorkerM σ Look) :=
  preserves_lookOver (keeps_onReceiver (Receiver.keeps_look hr))

theorem keeps_listen (hc : ∀ now t, p t → p (Transport.connect now t).2)
    (hr : ∀ now t, p t → p (Transport.read now t).2) : Keeps p (listen : WorkerM σ Look) :=
  (keeps_ensureConnected hc).bind fun _ ↦ preserves_tell (keeps_lookOver hr) keeps_handle

theorem of_guarded_ok {x : WorkerM σ α} {w w' : Worker σ} {a : α} (h : guarded x w = .ok a w') :
    x w = .ok a w' := by
  cases hx : x w with
  | ok b v => rwa [guarded_ok hx] at h
  | error e v =>
    cases e with
    | failed e => cases (guarded_failed hx).symm.trans h
    | endless => cases (guarded_endless hx).symm.trans h

theorem finishes_guarded {I : Worker σ → Prop} {x : WorkerM σ α} (hx : Finishes I x) :
    Finishes I (guarded x) := by
  intro w hw w' h
  cases hx' : x w with
  | ok a v => cases (guarded_ok hx').symm.trans h
  | error e v =>
    cases e with
    | failed e => cases (guarded_failed hx').symm.trans h
    | endless => exact hx w hw v hx'

theorem finishes_ensureConnected {I : Worker σ → Prop} :
    Finishes I (ensureConnected : WorkerM σ Unit) := by
  intro w _ w' h
  rw [ensureConnected, get_bind] at h
  split at h
  case isTrue => cases h
  case isFalse =>
    rcases hc : Transport.connect w.receiver.line.now w.receiver.line.transport with ⟨r, t⟩
    cases r with
    | ok u => cases (bind_of_ok (onLine_ok (Line.perform_of_eq hc))).symm.trans h
    | error e => cases (bind_of_error (onLine_error (Line.perform_of_error hc))).symm.trans h

theorem listen_ne_endless (w w' : Worker σ) : listen w ≠ .error .endless w' := by
  have hl : Finishes (fun _ ↦ True) (lookOver : WorkerM σ Look) := by
    intro v _ v' h
    cases hr : Receiver.look v.receiver with
    | ok seen r => cases (tryCatch_of_ok (onReceiver_ok hr)).symm.trans h
    | error e r =>
      rw [lookOver, tryCatch_of_error (onReceiver_error hr)] at h
      cases e with
      | failed e =>
        dsimp only at h
        split at h <;> cases h
      | endless => exact Receiver.look_ne_endless _ _ hr
  have hf : Finishes (fun _ ↦ True) (listen : WorkerM σ Look) := by
    refine finishes_ensureConnected.bind (fun _ _ ↦ trivial) fun _ ↦ hl.bind (fun _ _ ↦ trivial) ?_
    intro seen
    dsimp only
    split
    · intro v _ v' h
      cases h
    · exact finishes_pure _
  exact hf w trivial w'

end Worker

section

variable [Transport σ] {p : σ → Prop} {q : Request} {c : Command}

theorem Request.keeps_perform (hc : ∀ now t, p t → p (Transport.connect now t).2)
    (hr : ∀ now t, p t → p (Transport.read now t).2)
    (hp : ∀ now t, p t → p (Transport.purge now t).2)
    (hw : ∀ octets t, p t → p (Transport.write octets t).2) (q : Request) (timeout : Nat) :
    Line.Keeps p (q.perform timeout) := by
  cases hq : q.command? with
  | none =>
    obtain ⟨e, he⟩ : ∃ e, (q.perform timeout : LineM σ Reading) = Line.fail e :=
      perform_of_command?_eq_none hq timeout
    rw [he]
    exact preserves_throw _
  | some c =>
    rw [perform_eq hq]
    refine Preserves.bind ?_ fun _ ↦
      (Line.keeps_send hr hp hw _ _).bind fun _ ↦ Line.keeps_ofExcept _
    exact preserves_get.bind fun _ ↦ .ite (preserves_pure _) (Line.keeps_perform hc)

theorem Worker.preserves_serve {I : Worker σ → Prop} (hc : Preserves I ensureConnected)
    (hd : Preserves I (guarded drain))
    (hp : ∀ timeout, Preserves I (guarded (onLine (q.perform timeout)))) :
    Preserves I (serve q) :=
  hc.bind fun _ ↦ hd.bind fun _ ↦ preserves_get.bind fun w ↦ hp w.timeout

theorem Worker.command?_of_serve_ok {w w' : Worker σ} {a : Reading}
    (h : serve q w = .ok a w') : ∃ c, q.command? = some c := by
  obtain ⟨-, w₁, -, h₁⟩ := of_bind_ok h
  obtain ⟨-, w₂, -, h₂⟩ := of_bind_ok h₁
  cases hq : q.command? with
  | some c => exact ⟨c, rfl⟩
  | none =>
    obtain ⟨e, he⟩ : ∃ e, (q.perform w₂.timeout : LineM σ Reading) = Line.fail e :=
      Request.perform_of_command?_eq_none hq w₂.timeout
    rw [get_bind, he] at h₂
    cases of_guarded_ok h₂

section

open Transport

variable [Recording σ]

theorem Request.appends_perform (hq : q.command? = some c) (timeout : Nat) :
    Appends Line.sent (Text.Utf8.encode c.text.toList) (q.perform timeout : LineM σ Reading) := by
  rw [perform_eq hq]
  refine Preserves.bind_appends (fun l ↦ preserves_get.bind fun _ ↦ ?_) fun _ ↦
    (Line.appends_send _ _).bind fun reply l ↦
      Line.keeps_ofExcept (p := fun t ↦ Recording.sent t = l) _
  exact .ite (preserves_pure _) (Line.keeps_perform fun now t h ↦
    (Recording.sent_connect now t).trans h)

def Worker.sent (w : Worker σ) : List (List UInt8) :=
  Recording.sent w.transport

namespace Worker

theorem sent_close (w : Worker σ) : w.close.sent = w.sent := by
  rw [sent, transport_close, Recording.sent_disconnect, sent]

theorem appends_onLine {x : LineM σ α} {a : List UInt8} (hx : Appends Line.sent a x) :
    Appends sent a (onLine x) := by
  intro w
  have h := hx w.receiver.line
  cases hr : x w.receiver.line with
  | ok b l =>
    rw [hr] at h
    rw [onLine_ok hr]
    exact h
  | error e l =>
    rw [hr] at h
    rw [onLine_error hr]
    exact h

theorem appends_guarded {x : WorkerM σ α} {a : List UInt8} (hx : Appends sent a x) :
    Appends sent a (guarded x) := by
  intro w
  have h := hx w
  cases hr : x w with
  | ok b v => rwa [hr, ← guarded_ok hr] at h
  | error e v =>
    rw [hr] at h
    cases e with
    | endless =>
      rw [guarded_endless hr]
      exact h
    | failed e =>
      rw [guarded_failed hr]
      dsimp only
      split
      · rwa [sent_close]
      · exact h

theorem leaves_ensureConnected (l : List (List UInt8)) :
    Preserves (fun w : Worker σ ↦ w.sent = l) ensureConnected :=
  keeps_ensureConnected (p := fun t ↦ Recording.sent t = l)
    fun now t h ↦ (Recording.sent_connect now t).trans h

theorem leaves_guarded {l : List (List UInt8)} {x : WorkerM σ α}
    (hx : Preserves (fun w : Worker σ ↦ w.sent = l) x) :
    Preserves (fun w : Worker σ ↦ w.sent = l) (guarded x) :=
  keeps_guarded (p := fun t ↦ Recording.sent t = l)
    (fun t h ↦ (Recording.sent_disconnect t).trans h) hx

theorem leaves_drain (l : List (List UInt8)) :
    Preserves (fun w : Worker σ ↦ w.sent = l) drain :=
  keeps_drain (p := fun t ↦ Recording.sent t = l) (Line.sent_read l)

theorem appends_serve (hq : q.command? = some c) :
    Appends sent (Text.Utf8.encode c.text.toList) (serve q : WorkerM σ Reading) :=
  Preserves.bind_appends leaves_ensureConnected fun _ ↦
    Preserves.bind_appends (fun l ↦ leaves_guarded (leaves_drain l)) fun _ ↦
      Preserves.bind_appends (fun _ ↦ preserves_get) fun w ↦
        appends_guarded (appends_onLine (Request.appends_perform hq w.timeout))

theorem leaves_serve (hq : q.command? = none) (l : List (List UInt8)) :
    Preserves (fun w : Worker σ ↦ w.sent = l) (serve q) := by
  refine preserves_serve (leaves_ensureConnected l) (leaves_guarded (leaves_drain l)) ?_
  intro timeout
  obtain ⟨e, he⟩ : ∃ e, (q.perform timeout : LineM σ Reading) = Line.fail e :=
    Request.perform_of_command?_eq_none hq timeout
  rw [he]
  exact leaves_guarded (keeps_onLine (p := fun t ↦ Recording.sent t = l) (preserves_throw _))

theorem leaves_listen (l : List (List UInt8)) :
    Preserves (fun w : Worker σ ↦ w.sent = l) listen :=
  keeps_listen (p := fun t ↦ Recording.sent t = l)
    (fun now t h ↦ (Recording.sent_connect now t).trans h) (Line.sent_read l)

end Worker

end

section

open Transport

variable [Ending σ]

theorem Request.finishes_perform (q : Request) (timeout : Nat) :
    Finishes (fun l : Line σ ↦ Ending.Ends l.transport) (q.perform timeout) := by
  cases hq : q.command? with
  | none =>
    obtain ⟨e, he⟩ : ∃ e, (q.perform timeout : LineM σ Reading) = Line.fail e :=
      perform_of_command?_eq_none hq timeout
    rw [he]
    exact finishes_failed _
  | some c =>
    rw [perform_eq hq]
    have ho : Finishes (fun l : Line σ ↦ Ending.Ends l.transport) Line.ensureOpen :=
      finishes_get.bind preserves_get fun _ ↦ .ite (finishes_pure _) (Line.finishes_perform _)
    have hk : Line.Keeps Ending.Ends (Line.ensureOpen : LineM σ Unit) :=
      preserves_get.bind fun _ ↦ .ite (preserves_pure _)
        (Line.keeps_perform fun now _ ↦ Ending.ends_connect now)
    refine ho.bind hk fun _ ↦ (Line.finishes_send _ _).bind ?_ fun _ ↦ Line.finishes_ofExcept _
    exact Line.keeps_send (fun now _ ↦ Ending.ends_read now) (fun now _ ↦ Ending.ends_purge now)
      (fun octets _ ↦ Ending.ends_write octets) _ _

namespace Worker

theorem ends_guarded {x : WorkerM σ α} (hx : Keeps Ending.Ends x) :
    Keeps Ending.Ends (guarded x) :=
  keeps_guarded (fun _ ↦ Ending.ends_disconnect) hx

theorem ends_drain : Keeps Ending.Ends (drain : WorkerM σ Unit) :=
  keeps_drain fun now _ ↦ Ending.ends_read now

theorem ends_ensureConnected : Keeps Ending.Ends (ensureConnected : WorkerM σ Unit) :=
  keeps_ensureConnected fun now _ ↦ Ending.ends_connect now

theorem ends_serve (q : Request) : Keeps Ending.Ends (serve q : WorkerM σ Reading) := by
  refine preserves_serve ends_ensureConnected (ends_guarded ends_drain) fun timeout ↦ ?_
  exact ends_guarded (keeps_onLine (q.keeps_perform (fun now _ ↦ Ending.ends_connect now)
    (fun now _ ↦ Ending.ends_read now) (fun now _ ↦ Ending.ends_purge now)
    (fun octets _ ↦ Ending.ends_write octets) timeout))

theorem finishes_drain :
    Finishes (fun w : Worker σ ↦ Ending.Ends w.transport) (drain : WorkerM σ Unit) := by
  refine (finishes_onLine Line.finishes_readAll fun _ h ↦ h).bind
    (keeps_onLine (Line.keeps_readAll fun now _ ↦ Ending.ends_read now)) fun octets ↦ ?_
  intro w _ w' h
  dsimp only at h
  split at h <;> cases h

theorem finishes_serve (q : Request) :
    Finishes (fun w : Worker σ ↦ Ending.Ends w.transport) (serve q : WorkerM σ Reading) := by
  refine finishes_ensureConnected.bind ends_ensureConnected fun _ ↦ ?_
  refine (finishes_guarded finishes_drain).bind (ends_guarded ends_drain) fun _ ↦ ?_
  refine finishes_get.bind preserves_get fun w ↦ finishes_guarded ?_
  exact finishes_onLine (q.finishes_perform w.timeout) fun _ h ↦ h

end Worker

end

end

end AlarmPanel
