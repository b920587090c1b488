import AlarmPanel.Proofs.Line.Keeping

namespace AlarmPanel

/-- The error says that the wrong device was asked: one that does not exist or, of those that should
take `commands`, one that takes none. -/
def PanelError.isMisdirected (commands : Bool) : PanelError → Bool
  | unknownDevice _ => true
  | notImplemented .. => commands
  | _ => false

section

variable {σ α β : Type} {I : σ → Prop} {ok : PanelError → Prop} {x : EStateM Halt σ α}
  {f : α → EStateM Halt σ β}

/-- From a state with the invariant the operation fails only in ways that are in order. -/
def Fails (I : σ → Prop) (ok : PanelError → Prop) (x : EStateM Halt σ α) : Prop :=
  ∀ s, I s → ∀ e s', x s = .error (.failed e) s' → ok e

theorem fails_pure (a : α) : Fails I ok (pure a : EStateM Halt σ α) := by
  intro s _ e s' h
  cases h

theorem fails_get : Fails I ok (get : EStateM Halt σ σ) := by
  intro s _ e s' h
  cases h

theorem fails_modify (g : σ → σ) : Fails I ok (modify g : EStateM Halt σ PUnit) := by
  intro s _ e s' h
  cases h

theorem fails_failed {e : PanelError} (he : ok e) :
    Fails I ok (throw (.failed e) : EStateM Halt σ α) := by
  intro s _ e' s' h
  cases h
  exact he

theorem fails_endless : Fails I ok (throw .endless : EStateM Halt σ α) := by
  intro s _ e s' h
  cases h

theorem Fails.bind (hx : Fails I ok x) (hp : Preserves I x) (hf : ∀ a, Fails I ok (f a)) :
    Fails I ok (x >>= f) := by
  intro s hs e s' h
  cases hr : x s with
  | ok a t =>
    have ht := hp s hs
    rw [hr] at ht
    rw [bind_of_ok hr] at h
    exact hf a t ht e s' h
  | error e' t =>
    rw [bind_of_error hr] at h
    cases h
    exact hx s hs e s' hr

theorem Fails.ite {c : Prop} [Decidable c] {y : EStateM Halt σ α} (hx : Fails I ok x)
    (hy : Fails I ok y) : Fails I ok (if c then x else y) := by
  split
  · exact hx
  · exact hy

end

namespace Line

variable {σ α : Type} {p : σ → Prop} {ok : PanelError → Prop}

theorem fails_perform {f : Nat → σ → Except PanelError α × σ}
    (h : ∀ now t, p t → ∀ e t', f now t = (.error e, t') → ok e) :
    Fails (fun l : Line σ ↦ p l.transport) ok (perform f) := by
  intro l hl e l' hr
  rcases hf : f l.now l.transport with ⟨r, t⟩
  cases r with
  | ok a => cases (perform_of_eq hf).symm.trans hr
  | error e' =>
    cases (perform_of_error hf).symm.trans hr
    exact h _ _ hl e t hf

theorem fails_ofExcept {I : Line σ → Prop} {r : Except PanelError α}
    (h : ∀ e, r = .error e → ok e) : Fails I ok (ofExcept r : LineM σ α) := by
  cases r with
  | ok a => exact fails_pure a
  | error e => exact fails_failed (h e rfl)

end Line

namespace Transport

/-- A line suits devices that take commands, or ones that do not. Then none of its operations fails
because the wrong device was asked. -/
class Suiting (σ : Type) [Transport σ] where
  Suits : Bool → σ → Prop
  suits_connect {b : Bool} (now : Nat) {t : σ} : Suits b t → Suits b (connect now t).2
  suits_disconnect {b : Bool} {t : σ} : Suits b t → Suits b (disconnect t).2
  suits_write {b : Bool} (octets : List UInt8) {t : σ} : Suits b t → Suits b (write octets t).2
  suits_read {b : Bool} (now : Nat) {t : σ} : Suits b t → Suits b (read now t).2
  suits_purge {b : Bool} (now : Nat) {t : σ} : Suits b t → Suits b (purge now t).2
  connect_error {b : Bool} {now : Nat} {t t' : σ} {e : PanelError} : Suits b t →
    connect now t = (.error e, t') → e.isMisdirected b = false
  write_error {b : Bool} {octets : List UInt8} {t t' : σ} {e : PanelError} : Suits b t →
    write octets t = (.error e, t') → e.isMisdirected b = false
  read_error {b : Bool} {now : Nat} {t t' : σ} {e : PanelError} : Suits b t →
    read now t = (.error e, t') → e.isMisdirected b = false
  purge_error {b : Bool} {now : Nat} {t t' : σ} {e : PanelError} : Suits b t →
    purge now t = (.error e, t') → e.isMisdirected b = false
  supportsCommands {t : σ} : Suits true t → (interface t).supportsCommands = true

instance : Suiting Simulator where
  Suits b _ := b = false
  suits_connect _ _ := id
  suits_disconnect := id
  suits_write _ _ := id
  suits_read _ _ := id
  suits_purge _ _ := id
  connect_error _ h := by cases h
  write_error hb h := by cases h; exact hb
  read_error {_ now s _ _} _ h := by
    obtain ⟨-, hr⟩ | ⟨m, -, hr⟩ | ⟨m, o, -, -, hr⟩ := s.read_cases now <;> cases hr.symm.trans h
    rfl
  purge_error _ h := by cases h
  supportsCommands h := by cases h

end Transport

namespace LineItem

def Suits (b : Bool) : LineItem → Prop
  | chunk _ | idle => True
  | failure e => e.isMisdirected b = false

end LineItem

namespace LineReply

def Suits (b : Bool) : LineReply → Prop
  | items l => ∀ i ∈ l, i.Suits b
  | failure e => e.isMisdirected b = false

end LineReply

namespace ScriptedLine

structure Suits (b : Bool) (s : ScriptedLine) : Prop where
  queue : ∀ i ∈ s.queue, i.Suits b
  replies : ∀ r ∈ s.replies, r.Suits b
  connects : ∀ e, .error e ∈ s.connects → e.isMisdirected b = false

variable {b : Bool} {s : ScriptedLine}

theorem mem_of_next {l l' : List (Except PanelError Unit)} {r : Except PanelError Unit}
    (h : next l = (r, l')) : (r = .ok () ∨ r ∈ l) ∧ ∀ r' ∈ l', r' ∈ l := by
  cases l with
  | nil =>
    cases h
    exact ⟨.inl rfl, fun _ hr ↦ hr⟩
  | cons a l =>
    cases h
    exact ⟨.inr List.mem_cons_self, fun _ hr ↦ List.mem_cons_of_mem _ hr⟩

theorem Suits.connect (h : s.Suits b) : s.connect.2.Suits b ∧
    ∀ e, s.connect.1 = .error e → e.isMisdirected b = false := by
  rcases hn : next s.connects with ⟨r, l⟩
  obtain ⟨hr, hl⟩ := mem_of_next hn
  have hc (e : PanelError) (he : .error e ∈ l) := h.connects e (hl _ he)
  unfold ScriptedLine.connect
  rw [hn]
  cases r with
  | ok u => exact ⟨⟨h.queue, h.replies, hc⟩, fun e he ↦ by cases he⟩
  | error e =>
    refine ⟨⟨h.queue, h.replies, hc⟩, fun e' he ↦ ?_⟩
    cases he
    rcases hr with hr | hr
    · cases hr
    · exact h.connects e hr

theorem Suits.write (h : s.Suits b) (octets : List UInt8) : (s.write octets).2.Suits b ∧
    ∀ e, (s.write octets).1 = .error e → e.isMisdirected b = false := by
  unfold ScriptedLine.write
  dsimp only
  split
  case h_1 => exact ⟨⟨h.queue, h.replies, h.connects⟩, fun e he ↦ by cases he⟩
  case h_2 l r hr =>
    obtain ⟨hi, hr⟩ := List.forall_mem_cons.mp (hr ▸ h.replies)
    exact ⟨⟨List.forall_mem_append.mpr ⟨h.queue, hi⟩, hr, h.connects⟩, fun e he ↦ by cases he⟩
  case h_3 e r hr =>
    obtain ⟨hi, hr⟩ := List.forall_mem_cons.mp (hr ▸ h.replies)
    refine ⟨⟨h.queue, hr, h.connects⟩, fun e' he ↦ ?_⟩
    cases he
    exact hi

theorem Suits.read (h : s.Suits b) : s.read.2.Suits b ∧
    ∀ e, s.read.1 = .error e → e.isMisdirected b = false := by
  unfold ScriptedLine.read
  split
  case h_1 => exact ⟨h, fun e he ↦ by cases he⟩
  case h_2 o q hq | h_3 q hq =>
    obtain ⟨-, hq⟩ := List.forall_mem_cons.mp (hq ▸ h.queue)
    exact ⟨⟨hq, h.replies, h.connects⟩, fun e he ↦ by cases he⟩
  case h_4 e q hq =>
    obtain ⟨hi, hq⟩ := List.forall_mem_cons.mp (hq ▸ h.queue)
    refine ⟨⟨hq, h.replies, h.connects⟩, fun e' he ↦ ?_⟩
    cases he
    exact hi

instance : Transport.Suiting ScriptedLine where
  Suits := ScriptedLine.Suits
  suits_connect _ _ h := h.connect.1
  suits_disconnect h := ⟨h.queue, h.replies, h.connects⟩
  suits_write octets _ h := (h.write octets).1
  suits_read _ _ h := h.read.1
  suits_purge _ _ h := h
  connect_error h hc := h.connect.2 _ (congrArg Prod.fst hc)
  write_error h hw := (h.write _).2 _ (congrArg Prod.fst hw)
  read_error h hr := h.read.2 _ (congrArg Prod.fst hr)
  purge_error _ h := by cases h
  supportsCommands _ := rfl

end ScriptedLine

namespace SerialPort

variable {p : SerialPort} {e : PanelError} {b : Bool}

theorem reach_error {α : Type} {f : ScriptedLine → Except PanelError α × ScriptedLine}
    (h : (p.reach f).1 = .error e) : e.isMisdirected b = false := by
  obtain hr | ⟨s, -, -, hr⟩ := p.reach_cases f <;> rw [hr] at h
  · cases h
    rfl
  · rcases hf : (f s).1 with e' | a <;> rw [hf] at h <;> cases h
    rfl

theorem purge_error (h : p.purge.1 = .error e) : e.isMisdirected b = false := by
  obtain ⟨e', hr, hp⟩ | hp := p.purge_cases <;> rw [hp] at h
  · cases h
    exact reach_error hr
  · rcases hr : p.read.2.read.1 with e' | octets <;> rw [hr] at h <;> cases h
    exact reach_error hr

instance : Transport.Suiting SerialPort where
  Suits b p := b = true → p.interactive = true
  suits_connect _ p h := p.settings_connect.2 ▸ h
  suits_disconnect := id
  suits_write octets p h := (p.settings_write octets).2 ▸ h
  suits_read _ p h := p.settings_read.2 ▸ h
  suits_purge {b} _ _ := keeps_purge (q := fun p ↦ b = true → p.interactive = true)
    fun p h ↦ p.settings_read.2 ▸ h
  connect_error {b _ p p' e} _ h := by
    obtain ⟨-, hc⟩ | hc | ⟨s, -, -, hc⟩ := p.connect_cases
    · cases hc.symm.trans h
    · cases hc.symm.trans h
      rfl
    · have he := congrArg Prod.fst (hc.symm.trans h)
      rcases hs : s.connect.1 with e' | u <;> rw [hs] at he <;> cases he
      rfl
  write_error {b octets p p' e} hp h := by
    have he : (p.write octets).1 = .error e := congrArg Prod.fst h
    unfold write at he
    split at he
    case isTrue => exact reach_error he
    case isFalse hi =>
      cases he
      cases b with
      | false => rfl
      | true => exact absurd (hp rfl) hi
  read_error _ h := reach_error (congrArg Prod.fst h)
  purge_error _ h := purge_error (congrArg Prod.fst h)
  supportsCommands {p} h := by
    have hi := h rfl
    simp [Transport.interface, interface, hi, Interface.supportsCommands]

end SerialPort

open Transport

instance : Suiting Link where
  Suits b := Link.fold (Suiting.Suits b) (Suiting.Suits b) (Suiting.Suits b)
  suits_connect now _ := Link.fold_lift_of_fold (fun _ ↦ Suiting.suits_connect now)
    (fun _ ↦ Suiting.suits_connect now) fun _ ↦ Suiting.suits_connect now
  suits_disconnect := Link.fold_lift_of_fold (fun _ ↦ Suiting.suits_disconnect)
    (fun _ ↦ Suiting.suits_disconnect) fun _ ↦ Suiting.suits_disconnect
  suits_write octets _ := Link.fold_lift_of_fold (fun _ ↦ Suiting.suits_write octets)
    (fun _ ↦ Suiting.suits_write octets) fun _ ↦ Suiting.suits_write octets
  suits_read now _ := Link.fold_lift_of_fold (fun _ ↦ Suiting.suits_read now)
    (fun _ ↦ Suiting.suits_read now) fun _ ↦ Suiting.suits_read now
  suits_purge now _ := Link.fold_lift_of_fold (fun _ ↦ Suiting.suits_purge now)
    (fun _ ↦ Suiting.suits_purge now) fun _ ↦ Suiting.suits_purge now
  connect_error hl h := by
    obtain ⟨p, p', rfl, -, hp⟩ | ⟨s, s', rfl, -, hs⟩ | ⟨s, s', rfl, -, hs⟩ := Link.lift_eq h
    · exact Suiting.connect_error (t := p) hl hp
    · exact Suiting.connect_error (t := s) hl hs
    · exact Suiting.connect_error (t := s) hl hs
  write_error hl h := by
    obtain ⟨p, p', rfl, -, hp⟩ | ⟨s, s', rfl, -, hs⟩ | ⟨s, s', rfl, -, hs⟩ := Link.lift_eq h
    · exact Suiting.write_error (t := p) hl hp
    · exact Suiting.write_error (t := s) hl hs
    · exact Suiting.write_error (t := s) hl hs
  read_error hl h := by
    obtain ⟨p, p', rfl, -, hp⟩ | ⟨s, s', rfl, -, hs⟩ | ⟨s, s', rfl, -, hs⟩ := Link.lift_eq h
    · exact Suiting.read_error (t := p) hl hp
    · exact Suiting.read_error (t := s) hl hs
    · exact Suiting.read_error (t := s) hl hs
  purge_error hl h := by
    obtain ⟨p, p', rfl, -, hp⟩ | ⟨s, s', rfl, -, hs⟩ | ⟨s, s', rfl, -, hs⟩ := Link.lift_eq h
    · exact Suiting.purge_error (t := p) hl hp
    · exact Suiting.purge_error (t := s) hl hs
    · exact Suiting.purge_error (t := s) hl hs
  supportsCommands {l} hl := by
    cases l with
    | serial p => exact Suiting.supportsCommands (t := p) hl
    | simulator s => exact Suiting.supportsCommands (t := s) hl
    | scripted s => exact Suiting.supportsCommands (t := s) hl

theorem Link.suits_ofConfig (c : DeviceConfig) (script : Option ScriptedLine) :
    Suiting.Suits c.interface.supportsCommands (ofConfig c script) := by
  unfold ofConfig
  cases c.interface with
  | ptr1 | ptr3 => exact fun h ↦ h
  | simulated => exact (rfl : false = false)

namespace Line

variable {σ : Type} [Transport σ] [Suiting σ] (b : Bool)

abbrev Directed (x : LineM σ α) : Prop :=
  Fails (fun l : Line σ ↦ Suiting.Suits b l.transport) (fun e ↦ e.isMisdirected b = false) x

variable {b}

theorem suits_read (now : Nat) (t : σ) : Suiting.Suits b t → Suiting.Suits b (Transport.read now t).2 :=
  Suiting.suits_read now

theorem suits_write (octets : List UInt8) (t : σ) :
    Suiting.Suits b t → Suiting.Suits b (Transport.write octets t).2 :=
  Suiting.suits_write octets

theorem suits_purge (now : Nat) (t : σ) :
    Suiting.Suits b t → Suiting.Suits b (Transport.purge now t).2 :=
  Suiting.suits_purge now

theorem directed_read : Directed b (read : LineM σ (List UInt8)) :=
  fails_perform fun _ _ ht _ _ ↦ Suiting.read_error ht

theorem directed_readAllWithin (n : Nat) (got : List UInt8) :
    Directed b (readAllWithin n got : LineM σ (List UInt8)) := by
  induction n generalizing got with
  | zero => exact fails_endless
  | succ n ih =>
    exact directed_read.bind (keeps_perform suits_read) fun chunk ↦ .ite (fails_pure _) (ih _)

theorem directed_readAll : Directed b (readAll : LineM σ (List UInt8)) :=
  fails_get.bind preserves_get fun _ ↦ directed_readAllWithin _ _

theorem directed_discard : Directed b (discard : LineM σ Unit) := by
  have hp : Directed b (perform Transport.purge : LineM σ Unit) :=
    fails_perform fun _ _ ht _ _ ↦ Suiting.purge_error ht
  refine fails_get.bind preserves_get fun _ ↦ .ite hp ?_
  exact directed_readAll.bind (keeps_readAll suits_read) fun _ ↦ fails_pure _

theorem directed_collect (deadline n : Nat) (got : List UInt8) :
    Directed b (collect deadline n got : LineM σ Reply) := by
  induction n generalizing got with
  | zero => exact fails_endless
  | succ n ih =>
    rw [collect]
    refine directed_read.bind (keeps_perform suits_read) fun chunk ↦ .ite (fails_pure _) ?_
    refine fails_get.bind preserves_get fun l ↦ .ite (fails_pure _) (.ite ?_ (ih _))
    exact (fails_modify _).bind (preserves_modify fun _ h ↦ h) fun _ ↦ ih _

theorem directed_send (text : String) (timeout : Nat) :
    Directed b (send text timeout : LineM σ Reply) := by
  intro l hl e l' h
  rw [send, get_bind] at h
  split at h
  case isTrue =>
    have hw : Directed b (write (Text.Utf8.encode text.toList) : LineM σ Unit) :=
      fails_perform fun _ _ ht _ _ ↦ Suiting.write_error ht
    refine (directed_discard.bind (keeps_discard suits_read suits_purge) fun _ ↦ hw.bind
      (keeps_perform fun _ ↦ suits_write _) fun _ ↦ ?_) l hl e l' h
    exact fails_get.bind preserves_get fun _ ↦ directed_collect _ _ _
  case isFalse hs =>
    cases h
    cases b with
    | false => rfl
    | true => exact absurd (Suiting.supportsCommands hl) hs

theorem directed_connect : Directed b (connect : LineM σ Unit) :=
  fails_perform fun _ _ ht _ _ ↦ Suiting.connect_error ht

theorem directed_ensureOpen : Directed b (ensureOpen : LineM σ Unit) :=
  fails_get.bind preserves_get fun _ ↦ .ite (fails_pure _) directed_connect

end Line

end AlarmPanel
