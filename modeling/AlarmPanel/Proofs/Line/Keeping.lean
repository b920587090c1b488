import AlarmPanel.Proofs.Line.Laws
import AlarmPanel.Proofs.Line.Script

namespace AlarmPanel

section

variable {ε σ α β γ : Type} {I : σ → Prop} {x : EStateM ε σ α} {f : α → EStateM ε σ β}

def Preserves (I : σ → Prop) (x : EStateM ε σ α) : Prop :=
  ∀ s, I s → I (stateOf (x s))

theorem preserves_pure (a : α) : Preserves I (pure a : EStateM ε σ α) := fun _ h ↦ h

theorem preserves_throw (e : ε) : Preserves I (throw e : EStateM ε σ α) := fun _ h ↦ h

theorem preserves_get : Preserves I (get : EStateM ε σ σ) := fun _ h ↦ h

theorem preserves_modify {g : σ → σ} (h : ∀ s, I s → I (g s)) :
    Preserves I (modify g : EStateM ε σ PUnit) := h

theorem Preserves.bind (hx : Preserves I x) (hf : ∀ a, Preserves I (f a)) :
    Preserves I (x >>= f) := by
  intro s hs
  have h := hx s hs
  cases hr : x s with
  | ok a s' =>
    rw [hr] at h
    rw [bind_of_ok hr]
    exact hf a s' h
  | error e s' =>
    rw [hr] at h
    rw [bind_of_error hr]
    exact h

theorem Preserves.tryCatch {g : ε → EStateM ε σ α} (hx : Preserves I x)
    (hg : ∀ e, Preserves I (g e)) : Preserves I (tryCatch x g) := by
  intro s hs
  have h := hx s hs
  cases hr : x s with
  | ok a s' =>
    rw [hr] at h
    rw [tryCatch_of_ok hr]
    exact h
  | error e s' =>
    rw [hr] at h
    rw [tryCatch_of_error hr]
    exact hg e s' h

theorem Preserves.ite {c : Prop} [Decidable c] {y : EStateM ε σ α} (hx : Preserves I x)
    (hy : Preserves I y) : Preserves I (if c then x else y) := by
  split
  · exact hx
  · exact hy

theorem of_bind_ok {s s' : σ} {b : β} (h : (x >>= f) s = .ok b s') :
    ∃ a t, x s = .ok a t ∧ f a t = .ok b s' := by
  cases hr : x s with
  | ok a t => exact ⟨a, t, rfl, (bind_of_ok hr).symm.trans h⟩
  | error e t => cases (bind_of_error hr).symm.trans h

/-- The operation puts `a` at the end of the record `v`; where it fails it may have left `v` alone. -/
def Appends (v : σ → List γ) (a : γ) (x : EStateM ε σ α) : Prop :=
  ∀ s, match x s with
    | .ok _ s' => v s' = v s ++ [a]
    | .error _ s' => v s' = v s ∨ v s' = v s ++ [a]

variable {v : σ → List γ} {a : γ}

theorem appends_throw (e : ε) : Appends v a (throw e : EStateM ε σ α) := fun _ ↦ .inl rfl

theorem Appends.bind (hx : Appends v a x) (hf : ∀ b l, Preserves (fun s ↦ v s = l) (f b)) :
    Appends v a (x >>= f) := by
  intro s
  have h := hx s
  cases hr : x s with
  | ok b s' =>
    rw [hr] at h
    rw [bind_of_ok hr]
    have hs := hf b (v s ++ [a]) s' h
    cases hb : f b s' with
    | ok c s'' => rwa [hb] at hs
    | error e s'' =>
      rw [hb] at hs
      exact .inr hs
  | error e s' =>
    rw [hr] at h
    rw [bind_of_error hr]
    exact h

theorem Preserves.bind_appends (hx : ∀ l, Preserves (fun s ↦ v s = l) x)
    (hf : ∀ b, Appends v a (f b)) : Appends v a (x >>= f) := by
  intro s
  have h := hx (v s) s rfl
  cases hr : x s with
  | ok b s' =>
    rw [hr, stateOf] at h
    have hb := hf b s'
    rw [h] at hb
    rwa [bind_of_ok hr]
  | error e s' =>
    rw [hr] at h
    rw [bind_of_error hr]
    exact .inl h

end

section

variable {σ α β : Type} {I : σ → Prop} {x : EStateM Halt σ α} {f : α → EStateM Halt σ β}

def Finishes (I : σ → Prop) (x : EStateM Halt σ α) : Prop :=
  ∀ s, I s → ∀ s', x s ≠ .error .endless s'

theorem finishes_pure (a : α) : Finishes I (pure a : EStateM Halt σ α) := by
  intro s _ s' h
  cases h

theorem finishes_failed (e : PanelError) : Finishes I (throw (.failed e) : EStateM Halt σ α) := by
  intro s _ s' h
  cases h

theorem finishes_get : Finishes I (get : EStateM Halt σ σ) := by
  intro s _ s' h
  cases h

theorem Finishes.bind (hx : Finishes I x) (hp : Preserves I x) (hf : ∀ a, Finishes I (f a)) :
    Finishes I (x >>= f) := by
  intro s hs s' h
  cases hr : x s with
  | ok a t =>
    have ht := hp s hs
    rw [hr] at ht
    rw [bind_of_ok hr] at h
    exact hf a t ht s' h
  | error e t =>
    rw [bind_of_error hr] at h
    cases h
    exact hx s hs s' hr

theorem Finishes.ite {c : Prop} [Decidable c] {y : EStateM Halt σ α} (hx : Finishes I x)
    (hy : Finishes I y) : Finishes I (if c then x else y) := by
  split
  · exact hx
  · exact hy

end

namespace Line

variable {σ α : Type} {p : σ → Prop}

abbrev Keeps (p : σ → Prop) (x : LineM σ α) : Prop :=
  Preserves (fun l : Line σ ↦ p l.transport) x

theorem perform_of_eq {f : Nat → σ → Except PanelError α × σ} {l : Line σ} {t : σ} {a : α}
    (h : f l.now l.transport = (.ok a, t)) : perform f l = .ok a { l with transport := t } := by
  simp only [perform, h]

theorem perform_of_error {f : Nat → σ → Except PanelError α × σ} {l : Line σ} {t : σ}
    {e : PanelError} (h : f l.now l.transport = (.error e, t)) :
    perform f l = .error (.failed e) { l with transport := t } := by
  simp only [perform, h]

theorem stateOf_perform (f : Nat → σ → Except PanelError α × σ) (l : Line σ) :
    stateOf (perform f l) = { l with transport := (f l.now l.transport).2 } := by
  rcases hf : f l.now l.transport with ⟨r, t⟩
  cases r with
  | ok a => rw [perform_of_eq hf]; rfl
  | error e => rw [perform_of_error hf]; rfl

theorem keeps_perform {f : Nat → σ → Except PanelError α × σ}
    (h : ∀ now t, p t → p (f now t).2) : Keeps p (perform f) := by
  intro l hl
  rw [stateOf_perform]
  exact h l.now l.transport hl

theorem finishes_perform {I : Line σ → Prop} (f : Nat → σ → Except PanelError α × σ) :
    Finishes I (perform f) := by
  intro l _ l' h
  rcases hf : f l.now l.transport with ⟨r, t⟩
  cases r with
  | ok a => cases (perform_of_eq hf).symm.trans h
  | error e => cases (perform_of_error hf).symm.trans h

theorem keeps_ofExcept (r : Except PanelError α) : Keeps p (ofExcept r : LineM σ α) := by
  cases r with
  | ok a => exact preserves_pure a
  | error e => exact preserves_throw _

theorem finishes_ofExcept {I : Line σ → Prop} (r : Except PanelError α) :
    Finishes I (ofExcept r : LineM σ α) := by
  cases r with
  | ok a => exact finishes_pure a
  | error e => exact finishes_failed e

variable [Transport σ]

section

variable (hr : ∀ now t, p t → p (Transport.read now t).2)

include hr

theorem keeps_readAllWithin (n : Nat) (got : List UInt8) : Keeps p (readAllWithin n got) := by
  induction n generalizing got with
  | zero => exact preserves_throw _
  | succ n ih =>
    rw [readAllWithin]
    exact (keeps_perform hr).bind fun chunk ↦ .ite (preserves_pure _) (ih _)

theorem keeps_readAll : Keeps p (readAll : LineM σ (List UInt8)) :=
  preserves_get.bind fun _ ↦ keeps_readAllWithin hr _ _

theorem keeps_discard (hp : ∀ now t, p t → p (Transport.purge now t).2) :
    Keeps p (discard : LineM σ Unit) :=
  preserves_get.bind fun _ ↦
    .ite (keeps_perform hp) ((keeps_readAll hr).bind fun _ ↦ preserves_pure _)

theorem keeps_collect (deadline n : Nat) (got : List UInt8) :
    Keeps p (collect deadline n got) := by
  induction n generalizing got with
  | zero => exact preserves_throw _
  | succ n ih =>
    have hs (ms : Nat) : Keeps p (sleep ms) := preserves_modify fun _ h ↦ h
    rw [collect]
    refine (keeps_perform hr).bind fun chunk ↦ .ite (preserves_pure _) ?_
    refine preserves_get.bind fun l ↦ .ite (preserves_pure _) ?_
    exact .ite ((hs _).bind fun _ ↦ ih _) (ih _)

theorem keeps_send (hp : ∀ now t, p t → p (Transport.purge now t).2)
    (hw : ∀ octets t, p t → p (Transport.write octets t).2) (text : String) (timeout : Nat) :
    Keeps p (send text timeout) := by
  refine preserves_get.bind fun l ↦ .ite ?_ (preserves_throw _)
  refine (keeps_discard hr hp).bind fun _ ↦ (keeps_perform fun _ ↦ hw _).bind fun _ ↦ ?_
  exact preserves_get.bind fun _ ↦ keeps_collect hr _ _ _

end

section

open Transport

variable [Recording σ]

def sent (l : Line σ) : List (List UInt8) :=
  Recording.sent l.transport

theorem appends_write (octets : List UInt8) : Appends sent octets (write octets : LineM σ Unit) := by
  intro l
  rcases hw : Transport.write octets l.transport with ⟨r, t⟩
  cases r with
  | ok u =>
    rw [write, perform_of_eq hw]
    exact Recording.sent_write_ok hw
  | error e =>
    rw [write, perform_of_error hw]
    exact Recording.sent_write_error hw

theorem sent_read (l : List (List UInt8)) (now : Nat) (t : σ) (h : Recording.sent t = l) :
    Recording.sent (Transport.read now t).2 = l :=
  (Recording.sent_read now t).trans h

theorem sent_purge (l : List (List UInt8)) (now : Nat) (t : σ) (h : Recording.sent t = l) :
    Recording.sent (Transport.purge now t).2 = l :=
  (Recording.sent_purge now t).trans h

theorem appends_send (text : String) (timeout : Nat) :
    Appends sent (Text.Utf8.encode text.toList) (send text timeout : LineM σ Reply) := by
  refine Preserves.bind_appends (fun _ ↦ preserves_get) fun l ↦ ?_
  dsimp only
  split
  case isFalse => exact appends_throw _
  case isTrue =>
    refine Preserves.bind_appends (fun k ↦ keeps_discard (sent_read k) (sent_purge k)) fun _ ↦ ?_
    refine (appends_write _).bind fun _ k ↦ ?_
    exact preserves_get.bind fun _ ↦ keeps_collect (sent_read k) _ _ _

end

section

open Transport

/-- The reads that a reply can take: all that bring something, one idle read for each poll interval
that is left, and the last ones around the deadline. -/
def readsLeft (deadline : Nat) (l : Line σ) : Nat :=
  backlog l.transport + (deadline - l.now) / pollInterval l.transport +
    if deadline ≤ l.now then 1 else 2

theorem readsLeft_pos (deadline : Nat) (l : Line σ) : 0 < readsLeft deadline l := by
  unfold readsLeft
  split <;> exact Nat.succ_pos _

theorem readsLeft_read (deadline : Nat) {l : Line σ} {t : σ}
    (hi : pollInterval t = pollInterval l.transport) (hb : backlog t < backlog l.transport) :
    readsLeft deadline { l with transport := t } < readsLeft deadline l := by
  simp only [readsLeft, hi]
  omega

theorem readsLeft_sleep {deadline : Nat} {l : Line σ} {t : σ} (hl : l.now < deadline)
    (hi : pollInterval t = pollInterval l.transport) (hp : 0 < pollInterval t)
    (hb : backlog t ≤ backlog l.transport) :
    readsLeft deadline ⟨t, l.now + min (pollInterval t) (deadline - l.now)⟩ <
      readsLeft deadline l := by
  simp only [readsLeft, hi] at *
  generalize pollInterval l.transport = i at *
  rw [if_neg (by omega : ¬ deadline ≤ l.now)]
  by_cases h : i ≤ deadline - l.now
  · rw [Nat.min_eq_left h, ← Nat.sub_sub, Nat.div_eq_sub_div hp h]
    generalize (deadline - l.now - i) / i = q
    split <;> omega
  · have hm : min i (deadline - l.now) = deadline - l.now := Nat.min_eq_right (by omega)
    have h0 : deadline - (l.now + (deadline - l.now)) = 0 := by omega
    rw [hm, h0, Nat.zero_div, if_pos (by omega)]
    generalize (deadline - l.now) / i = q
    omega

variable [Ending σ]

theorem finishes_readAllWithin (n : Nat) (got : List UInt8) :
    Finishes (fun l : Line σ ↦ Ending.Ends l.transport ∧ Ending.due l.now l.transport < n)
      (readAllWithin n got) := by
  induction n generalizing got with
  | zero =>
    rintro l ⟨-, hd⟩
    exact absurd hd (Nat.not_lt_zero _)
  | succ n ih =>
    rintro l ⟨he, hd⟩ l' h
    rcases hr : Transport.read l.now l.transport with ⟨r, t⟩
    rw [readAllWithin] at h
    cases r with
    | error e => cases (bind_of_error (perform_of_error hr)).symm.trans h
    | ok chunk =>
      rw [read, bind_of_ok (perform_of_eq hr)] at h
      split at h
      case isTrue => cases h
      case isFalse hc =>
        have hc' : chunk ≠ [] := by simpa using hc
        have hlt := Ending.due_read he hr hc'
        have ht : Ending.Ends t := by
          have := Ending.ends_read l.now he
          rwa [hr] at this
        exact ih _ _ ⟨ht, by simp only; omega⟩ l' h

theorem finishes_readAll :
    Finishes (fun l : Line σ ↦ Ending.Ends l.transport) (readAll : LineM σ (List UInt8)) := by
  intro l he
  exact finishes_readAllWithin _ _ l ⟨he, Nat.lt_succ_of_le (Ending.due_le_backlog _ _)⟩

theorem finishes_discard :
    Finishes (fun l : Line σ ↦ Ending.Ends l.transport) (discard : LineM σ Unit) := by
  refine finishes_get.bind preserves_get fun l ↦ .ite (finishes_perform _) ?_
  exact finishes_readAll.bind (keeps_readAll fun now _ ↦ Ending.ends_read now) fun _ ↦
    finishes_pure _

theorem finishes_collect (deadline n : Nat) (got : List UInt8) :
    Finishes (fun l : Line σ ↦ Ending.Ends l.transport ∧
      (interface l.transport).supportsCommands = true ∧ readsLeft deadline l ≤ n)
      (collect deadline n got) := by
  induction n generalizing got with
  | zero =>
    rintro l ⟨-, -, hn⟩
    exact absurd hn (Nat.not_le_of_lt (readsLeft_pos deadline l))
  | succ n ih =>
    rintro l ⟨he, hs, hn⟩ l' h
    rcases hr : Transport.read l.now l.transport with ⟨r, t⟩
    rw [collect] at h
    cases r with
    | error e => cases (bind_of_error (perform_of_error hr)).symm.trans h
    | ok chunk =>
      have hl : (Transport.read l.now l.transport).2 = t := by rw [hr]
      have ht : Ending.Ends t := hl ▸ Ending.ends_read l.now he
      have hi : pollInterval t = pollInterval l.transport :=
        hl ▸ Ending.pollInterval_read l.now l.transport
      have hf : interface t = interface l.transport :=
        hl ▸ Ending.interface_read l.now l.transport
      obtain ⟨hb, hlt⟩ := Ending.backlog_read hs hr
      rw [read, bind_of_ok (perform_of_eq hr)] at h
      split at h
      case isTrue => cases h
      case isFalse =>
        rw [get_bind] at h
        dsimp only at h
        split at h
        case isTrue => cases h
        case isFalse hd =>
          split at h
          case isTrue =>
            have hlt' := readsLeft_sleep (l := l) (Nat.lt_of_not_le hd) hi
              (Ending.pollInterval_pos ht (hf ▸ hs)) hb
            exact ih _ _ ⟨ht, hf ▸ hs, Nat.le_of_lt_succ (Nat.lt_of_lt_of_le hlt' hn)⟩ l' h
          case isFalse hc =>
            have hlt' := readsLeft_read deadline hi (hlt (by simpa using hc))
            exact ih _ _ ⟨ht, hf ▸ hs, Nat.le_of_lt_succ (Nat.lt_of_lt_of_le hlt' hn)⟩ l' h

theorem finishes_send (text : String) (timeout : Nat) :
    Finishes (fun l : Line σ ↦ Ending.Ends l.transport) (send text timeout) := by
  intro l he l' h
  rw [send, get_bind] at h
  split at h
  case isFalse => cases h
  case isTrue hs =>
    have hr (now : Nat) (t : σ) (ht : Ending.Ends t ∧ (interface t).supportsCommands = true) :
        Ending.Ends (Transport.read now t).2 ∧
          (interface (Transport.read now t).2).supportsCommands = true :=
      ⟨Ending.ends_read now ht.1, by rw [Ending.interface_read]; exact ht.2⟩
    have hp (now : Nat) (t : σ) (ht : Ending.Ends t ∧ (interface t).supportsCommands = true) :
        Ending.Ends (Transport.purge now t).2 ∧
          (interface (Transport.purge now t).2).supportsCommands = true :=
      ⟨Ending.ends_purge now ht.1, by rw [Ending.interface_purge]; exact ht.2⟩
    have hw (octets : List UInt8) (t : σ)
        (ht : Ending.Ends t ∧ (interface t).supportsCommands = true) :
        Ending.Ends (Transport.write octets t).2 ∧
          (interface (Transport.write octets t).2).supportsCommands = true :=
      ⟨Ending.ends_write octets ht.1, by rw [Ending.interface_write]; exact ht.2⟩
    have hd : Finishes (fun l : Line σ ↦ Ending.Ends l.transport ∧
        (interface l.transport).supportsCommands = true) discard :=
      fun k hk ↦ finishes_discard k hk.1
    refine (hd.bind (keeps_discard hr hp) fun _ ↦ (finishes_perform _).bind
      (keeps_perform fun _ ↦ hw _) fun _ ↦ ?_) l ⟨he, hs⟩ l' h
    intro k hk k'
    refine finishes_collect _ _ [] k ⟨hk.1, hk.2, ?_⟩ k'
    simp only [readsLeft, collectBound, Nat.add_sub_cancel_left]
    split <;> omega

end

end Line

end AlarmPanel
