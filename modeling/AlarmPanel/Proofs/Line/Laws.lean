import AlarmPanel.Line.Link

namespace AlarmPanel.Transport

class Opening (σ : Type) [Transport σ] : Prop where
  isOpen_connect_ok {now : Nat} {t t' : σ} : connect now t = (.ok (), t') → isOpen t' = true
  isOpen_connect_error {now : Nat} {t t' : σ} {e : PanelError} :
    connect now t = (.error e, t') → isOpen t' = isOpen t
  /-- Also where it fails. -/
  isOpen_disconnect (t : σ) : isOpen (disconnect t).2 = false
  isOpen_write (octets : List UInt8) (t : σ) : isOpen (write octets t).2 = isOpen t
  isOpen_read (now : Nat) (t : σ) : isOpen (read now t).2 = isOpen t
  isOpen_purge (now : Nat) (t : σ) : isOpen (purge now t).2 = isOpen t

class Recording (σ : Type) [Transport σ] where
  sent : σ → List (List UInt8)
  sent_connect (now : Nat) (t : σ) : sent (connect now t).2 = sent t
  sent_disconnect (t : σ) : sent (disconnect t).2 = sent t
  sent_read (now : Nat) (t : σ) : sent (read now t).2 = sent t
  sent_purge (now : Nat) (t : σ) : sent (purge now t).2 = sent t
  sent_write_ok {octets : List UInt8} {t t' : σ} :
    write octets t = (.ok (), t') → sent t' = sent t ++ [octets]
  sent_write_error {octets : List UInt8} {t t' : σ} {e : PanelError} :
    write octets t = (.error e, t') → sent t' = sent t ∨ sent t' = sent t ++ [octets]

/-- `due now t` bounds the reads at one moment that bring something. On a line that takes commands
the backlog bounds all such reads, and time passes between idle ones. -/
class Ending (σ : Type) [Transport σ] where
  Ends : σ → Prop
  due : Nat → σ → Nat
  ends_connect (now : Nat) {t : σ} : Ends t → Ends (connect now t).2
  ends_disconnect {t : σ} : Ends t → Ends (disconnect t).2
  ends_write (octets : List UInt8) {t : σ} : Ends t → Ends (write octets t).2
  ends_read (now : Nat) {t : σ} : Ends t → Ends (read now t).2
  ends_purge (now : Nat) {t : σ} : Ends t → Ends (purge now t).2
  due_le_backlog (now : Nat) (t : σ) : due now t ≤ backlog t
  due_read {now : Nat} {t t' : σ} {octets : List UInt8} : Ends t →
    read now t = (.ok octets, t') → octets ≠ [] → due now t' < due now t
  interface_write (octets : List UInt8) (t : σ) : interface (write octets t).2 = interface t
  interface_read (now : Nat) (t : σ) : interface (read now t).2 = interface t
  interface_purge (now : Nat) (t : σ) : interface (purge now t).2 = interface t
  pollInterval_read (now : Nat) (t : σ) : pollInterval (read now t).2 = pollInterval t
  pollInterval_pos {t : σ} : Ends t → (interface t).supportsCommands = true → 0 < pollInterval t
  backlog_read {now : Nat} {t t' : σ} {octets : List UInt8} :
    (interface t).supportsCommands = true → read now t = (.ok octets, t') →
      backlog t' ≤ backlog t ∧ (octets ≠ [] → backlog t' < backlog t)

end Transport

namespace Simulator

theorem read_cases (now : Nat) (s : Simulator) :
    (s.due = none ∧ s.read now = (.error .disconnected, s)) ∨
      (∃ m, s.due = some m ∧ s.read now = (.ok [], s)) ∨
      ∃ m octets, s.due = some m ∧ m ≤ now ∧
        s.read now = (.ok octets, { s.nextLine.2 with due := some (now + s.delay) }) := by
  unfold read
  split
  case h_1 h => exact .inl ⟨h, rfl⟩
  case h_2 m h =>
    split
    case isTrue hm => exact .inr (.inl ⟨m, h, rfl⟩)
    case isFalse hm => exact .inr (.inr ⟨m, _, h, Nat.le_of_not_lt hm, rfl⟩)

def dueLines (now : Nat) (s : Simulator) : Nat :=
  if ∃ m ∈ s.due, m ≤ now then 1 else 0

theorem dueLines_le_one (now : Nat) (s : Simulator) : s.dueLines now ≤ 1 := by
  unfold dueLines
  split <;> omega

theorem dueLines_read {now : Nat} {s s' : Simulator} {octets : List UInt8} (hd : 0 < s.delay)
    (h : s.read now = (.ok octets, s')) (ho : octets ≠ []) : s'.dueLines now < s.dueLines now := by
  obtain ⟨-, hr⟩ | ⟨m, -, hr⟩ | ⟨m, o, hm, hn, hr⟩ := s.read_cases now
  · cases hr.symm.trans h
  · cases hr.symm.trans h
    exact absurd rfl ho
  · cases hr.symm.trans h
    have hdue : ∃ m ∈ s.due, m ≤ now := ⟨m, hm, hn⟩
    have hnext : ¬ ∃ m ∈ some (now + s.delay), m ≤ now := by
      rintro ⟨m', hm', hle⟩
      cases hm'
      omega
    unfold dueLines
    rw [if_pos hdue, if_neg hnext]
    exact Nat.one_pos

instance : Transport.Opening Simulator where
  isOpen_connect_ok h := by cases h; rfl
  isOpen_connect_error h := by cases h
  isOpen_disconnect _ := rfl
  isOpen_write _ _ := rfl
  isOpen_read now s := by
    obtain ⟨-, hr⟩ | ⟨m, -, hr⟩ | ⟨m, o, hm, -, hr⟩ := s.read_cases now
    · exact congrArg (fun r ↦ r.2.due.isSome) hr
    · exact congrArg (fun r ↦ r.2.due.isSome) hr
    · simp only [Transport.isOpen, Transport.read, hr, hm, Option.isSome]
  isOpen_purge _ _ := rfl

instance : Transport.Recording Simulator where
  sent _ := []
  sent_connect _ _ := rfl
  sent_disconnect _ := rfl
  sent_read _ _ := rfl
  sent_purge _ _ := rfl
  sent_write_ok h := by cases h
  sent_write_error _ := .inl rfl

instance : Transport.Ending Simulator where
  Ends s := 0 < s.delay
  due := dueLines
  ends_connect _ _ := id
  ends_disconnect := id
  ends_write _ _ := id
  ends_read now s h := by
    obtain ⟨-, hr⟩ | ⟨m, -, hr⟩ | ⟨m, o, -, -, hr⟩ := s.read_cases now <;>
      simpa only [Transport.read, hr, nextLine] using h
  ends_purge _ _ := id
  due_le_backlog := dueLines_le_one
  due_read hd h ho := dueLines_read hd h ho
  interface_write _ _ := rfl
  interface_read _ _ := rfl
  interface_purge _ _ := rfl
  pollInterval_read _ _ := rfl
  pollInterval_pos _ h := by cases h
  backlog_read h := by cases h

end Simulator

namespace ScriptedLine

theorem connect_cases (s : ScriptedLine) :
    (∃ l, s.connect = (.ok (), { s with connects := l, isOpen := true })) ∨
      ∃ e l, s.connect = (.error e, { s with connects := l }) := by
  unfold connect
  rcases next s.connects with ⟨r, l⟩
  cases r with
  | ok u => exact .inl ⟨l, rfl⟩
  | error e => exact .inr ⟨e, l, rfl⟩

theorem write_cases (octets : List UInt8) (s : ScriptedLine) :
    ∃ r q l, s.write octets =
      (r, { s with sent := s.sent ++ [octets], queue := q, replies := l }) := by
  unfold write
  dsimp only
  split <;> exact ⟨_, _, _, rfl⟩

theorem read_cases (s : ScriptedLine) :
    s.read = (.ok [], s) ∨
      ∃ i q r, s.queue = i :: q ∧ s.read = (r, { s with queue := q }) ∧
        ∀ octets, r = .ok octets → octets.length < weight i := by
  unfold read
  split
  case h_1 h => exact .inl rfl
  case h_2 o q h =>
    refine .inr ⟨_, q, .ok o, h, rfl, fun o' ho ↦ ?_⟩
    cases ho
    exact Nat.lt_succ_self _
  case h_3 q h =>
    refine .inr ⟨_, q, .ok [], h, rfl, fun o' ho ↦ ?_⟩
    cases ho
    exact Nat.one_pos
  case h_4 e q h => exact .inr ⟨_, q, .error e, h, rfl, fun o' ho ↦ by cases ho⟩

theorem backlog_read {s s' : ScriptedLine} {octets : List UInt8} (h : s.read = (.ok octets, s')) :
    s'.backlog ≤ s.backlog ∧ (octets ≠ [] → s'.backlog < s.backlog) := by
  obtain hr | ⟨i, q, r, hq, hr, hw⟩ := s.read_cases
  · cases hr.symm.trans h
    exact ⟨Nat.le_refl _, fun ho ↦ absurd rfl ho⟩
  · cases hr.symm.trans h
    have hlt := hw octets rfl
    simp only [backlog, hq, queueWeight]
    exact ⟨by omega, fun _ ↦ by omega⟩

instance : Transport.Opening ScriptedLine where
  isOpen_connect_ok {_ s s'} h := by
    obtain ⟨l, hc⟩ | ⟨e, l, hc⟩ := s.connect_cases
    · cases hc.symm.trans h
      rfl
    · cases hc.symm.trans h
  isOpen_connect_error {_ s s' e} h := by
    obtain ⟨l, hc⟩ | ⟨e, l, hc⟩ := s.connect_cases <;> cases hc.symm.trans h
    rfl
  isOpen_disconnect _ := rfl
  isOpen_write octets s := by
    obtain ⟨r, q, l, hw⟩ := s.write_cases octets
    exact congrArg (fun r ↦ r.2.isOpen) hw
  isOpen_read _ s := by
    obtain hr | ⟨i, q, r, -, hr, -⟩ := s.read_cases <;> exact congrArg (fun r ↦ r.2.isOpen) hr
  isOpen_purge _ _ := rfl

instance : Transport.Recording ScriptedLine where
  sent := ScriptedLine.sent
  sent_connect _ s := by
    obtain ⟨l, hc⟩ | ⟨e, l, hc⟩ := s.connect_cases <;> exact congrArg (fun r ↦ r.2.sent) hc
  sent_disconnect _ := rfl
  sent_read _ s := by
    obtain hr | ⟨i, q, r, -, hr, -⟩ := s.read_cases <;> exact congrArg (fun r ↦ r.2.sent) hr
  sent_purge _ _ := rfl
  sent_write_ok {octets s s'} h := by
    obtain ⟨r, q, l, hw⟩ := s.write_cases octets
    cases hw.symm.trans h
    rfl
  sent_write_error {octets s s' e} h := by
    obtain ⟨r, q, l, hw⟩ := s.write_cases octets
    cases hw.symm.trans h
    exact .inr rfl

instance : Transport.Ending ScriptedLine where
  Ends s := 0 < s.interval
  due _ := backlog
  ends_connect _ s h := by
    obtain ⟨l, hc⟩ | ⟨e, l, hc⟩ := s.connect_cases <;> simpa only [Transport.connect, hc] using h
  ends_disconnect := id
  ends_write octets s h := by
    obtain ⟨r, q, l, hw⟩ := s.write_cases octets
    simpa only [Transport.write, hw] using h
  ends_read _ s h := by
    obtain hr | ⟨i, q, r, -, hr, -⟩ := s.read_cases <;> simpa only [Transport.read, hr] using h
  ends_purge _ _ := id
  due_le_backlog _ _ := Nat.le_refl _
  due_read _ h := (backlog_read h).2
  interface_write _ _ := rfl
  interface_read _ _ := rfl
  interface_purge _ _ := rfl
  pollInterval_read _ s := by
    obtain hr | ⟨i, q, r, -, hr, -⟩ := s.read_cases <;> exact congrArg (fun r ↦ r.2.interval) hr
  pollInterval_pos h _ := h
  backlog_read _ h := backlog_read h

end ScriptedLine

namespace SerialPort

variable {p p' : SerialPort} {α : Type} {f : ScriptedLine → Except PanelError α × ScriptedLine}

theorem reach_cases (p : SerialPort) (f : ScriptedLine → Except PanelError α × ScriptedLine) :
    p.reach f = (.error .disconnected, p) ∨ ∃ s, p.script = some s ∧ s.isOpen = true ∧
      p.reach f = ((f s).1.mapError p.failure, { p with script := some (f s).2 }) := by
  unfold reach
  split
  case h_1 s hs =>
    split
    case isTrue ho => exact .inr ⟨s, hs, ho, rfl⟩
    case isFalse => exact .inl rfl
  case h_2 => exact .inl rfl

theorem connect_cases (p : SerialPort) :
    (p.isOpen = true ∧ p.connect = (.ok (), p)) ∨
      p.connect = (.error (.connection p.name "No such file or directory"), p) ∨
      ∃ s, p.script = some s ∧ s.isOpen = false ∧
        p.connect = (s.connect.1.mapError p.failure, { p with script := some s.connect.2 }) := by
  unfold connect
  split
  case h_1 s hs =>
    split
    case isTrue ho => exact .inl ⟨by rw [isOpen, hs, Option.any_some, ho], rfl⟩
    case isFalse ho => exact .inr (.inr ⟨s, hs, Bool.eq_false_iff.mpr ho, rfl⟩)
  case h_2 => exact .inr (.inl rfl)

theorem of_reach_ok {a : α} (h : p.reach f = (.ok a, p')) :
    ∃ s s', p.script = some s ∧ f s = (.ok a, s') ∧ p' = { p with script := some s' } := by
  obtain hr | ⟨s, hs, -, hr⟩ := p.reach_cases f
  · cases hr.symm.trans h
  · rcases hf : f s with ⟨a', s'⟩
    rw [hf] at hr
    cases a' with
    | ok a' =>
      cases hr.symm.trans h
      exact ⟨s, s', hs, hf, rfl⟩
    | error e => cases hr.symm.trans h

theorem purge_cases (p : SerialPort) :
    (∃ e, p.read.1 = .error e ∧ p.purge = (.error e, p.read.2)) ∨
      p.purge = (p.read.2.read.1.map fun _ ↦ (), p.read.2.read.2) := by
  unfold purge
  rcases p.read with ⟨r, p'⟩
  cases r with
  | ok octets => exact .inr rfl
  | error e => exact .inl ⟨e, rfl, rfl⟩

theorem keeps_purge {q : SerialPort → Prop} (h : ∀ p, q p → q p.read.2) (hp : q p) :
    q p.purge.2 := by
  obtain ⟨e, -, he⟩ | he := p.purge_cases
  · exact he ▸ h p hp
  · exact he ▸ h _ (h p hp)

def sent (p : SerialPort) : List (List UInt8) :=
  p.script.elim [] ScriptedLine.sent

theorem isOpen_read (p : SerialPort) : p.read.2.isOpen = p.isOpen := by
  unfold read
  obtain hr | ⟨s, hs, -, hr⟩ := p.reach_cases ScriptedLine.read
  · rw [hr]
  · rw [hr, isOpen, isOpen, hs]
    exact Transport.Opening.isOpen_read 0 s

theorem sent_read (p : SerialPort) : p.read.2.sent = p.sent := by
  unfold read
  obtain hr | ⟨s, hs, -, hr⟩ := p.reach_cases ScriptedLine.read
  · rw [hr]
  · rw [hr, sent, sent, hs]
    exact Transport.Recording.sent_read 0 s

theorem settings_read (p : SerialPort) :
    p.read.2.interval = p.interval ∧ p.read.2.interactive = p.interactive := by
  unfold read
  obtain hr | ⟨s, -, -, hr⟩ := p.reach_cases ScriptedLine.read <;> rw [hr] <;> exact ⟨rfl, rfl⟩

theorem settings_connect (p : SerialPort) :
    p.connect.2.interval = p.interval ∧ p.connect.2.interactive = p.interactive := by
  obtain ⟨-, hc⟩ | hc | ⟨s, -, -, hc⟩ := p.connect_cases <;> rw [hc] <;> exact ⟨rfl, rfl⟩

theorem settings_write (p : SerialPort) (octets : List UInt8) :
    (p.write octets).2.interval = p.interval ∧ (p.write octets).2.interactive = p.interactive := by
  unfold write
  split
  · obtain hr | ⟨s, -, -, hr⟩ := p.reach_cases (·.write octets) <;> rw [hr] <;> exact ⟨rfl, rfl⟩
  · exact ⟨rfl, rfl⟩

theorem backlog_read {octets : List UInt8} (h : p.read = (.ok octets, p')) :
    Transport.backlog p' ≤ Transport.backlog p ∧
      (octets ≠ [] → Transport.backlog p' < Transport.backlog p) := by
  obtain ⟨s, s', hs, hr, rfl⟩ := of_reach_ok h
  simp only [Transport.backlog, hs, Option.elim_some]
  exact ScriptedLine.backlog_read hr

instance : Transport.Opening SerialPort where
  isOpen_connect_ok {_ p p'} h := by
    obtain ⟨ho, hc⟩ | hc | ⟨s, hs, -, hc⟩ := p.connect_cases
    · cases hc.symm.trans h
      exact ho
    · cases hc.symm.trans h
    · obtain ⟨l, hl⟩ | ⟨e, l, hl⟩ := s.connect_cases <;> rw [hl] at hc <;> cases hc.symm.trans h
      rfl
  isOpen_connect_error {_ p p' e} h := by
    obtain ⟨-, hc⟩ | hc | ⟨s, hs, -, hc⟩ := p.connect_cases
    · cases hc.symm.trans h
    · cases hc.symm.trans h
      rfl
    · obtain ⟨l, hl⟩ | ⟨e', l, hl⟩ := s.connect_cases <;> rw [hl] at hc <;> cases hc.symm.trans h
      simp only [Transport.isOpen, isOpen, hs, Option.any_some]
  isOpen_disconnect p := by
    show (p.script.map ScriptedLine.closed).any ScriptedLine.isOpen = false
    cases p.script <;> rfl
  isOpen_write octets p := by
    show (p.write octets).2.isOpen = p.isOpen
    unfold write
    split
    · obtain hr | ⟨s, hs, -, hr⟩ := p.reach_cases (·.write octets)
      · rw [hr]
      · rw [hr, isOpen, isOpen, hs]
        exact Transport.Opening.isOpen_write octets s
    · rfl
  isOpen_read _ := isOpen_read
  isOpen_purge _ p :=
    keeps_purge (q := fun p' ↦ p'.isOpen = p.isOpen) (fun p' h ↦ (isOpen_read p').trans h) rfl

instance : Transport.Recording SerialPort where
  sent := SerialPort.sent
  sent_connect _ p := by
    obtain ⟨-, hc⟩ | hc | ⟨s, hs, -, hc⟩ := p.connect_cases
    · exact congrArg (fun r ↦ r.2.sent) hc
    · exact congrArg (fun r ↦ r.2.sent) hc
    · refine (congrArg (fun r ↦ r.2.sent) hc).trans ?_
      rw [sent, sent, hs]
      exact Transport.Recording.sent_connect 0 s
  sent_disconnect p := by
    show (p.script.map ScriptedLine.closed).elim [] ScriptedLine.sent = p.sent
    rw [sent]
    cases p.script <;> rfl
  sent_read _ := sent_read
  sent_purge _ p := keeps_purge (q := fun p' ↦ p'.sent = p.sent) (fun p' h ↦ (sent_read p').trans h) rfl
  sent_write_ok {octets p p'} h := by
    change p.write octets = (.ok (), p') at h
    unfold write at h
    split at h
    · obtain ⟨s, s', hs, hw, rfl⟩ := of_reach_ok h
      rw [sent, sent, hs]
      exact Transport.Recording.sent_write_ok (t := s) hw
    · cases h
  sent_write_error {octets p p' e} h := by
    change p.write octets = (.error e, p') at h
    unfold write at h
    split at h
    · obtain hr | ⟨s, hs, -, hr⟩ := p.reach_cases (·.write octets)
      · cases hr.symm.trans h
        exact .inl rfl
      · obtain ⟨r, q, l, hw⟩ := s.write_cases octets
        rw [hw] at hr
        cases congrArg Prod.snd (hr.symm.trans h)
        rw [sent, sent, hs]
        exact .inr rfl
    · cases h
      exact .inl rfl

instance : Transport.Ending SerialPort where
  Ends p := 0 < p.interval
  due _ := Transport.backlog
  ends_connect _ p h := p.settings_connect.1 ▸ h
  ends_disconnect := id
  ends_write octets p h := (p.settings_write octets).1 ▸ h
  ends_read _ p h := p.settings_read.1 ▸ h
  ends_purge _ _ := keeps_purge (q := fun p ↦ 0 < p.interval) fun p h ↦ p.settings_read.1 ▸ h
  due_le_backlog _ _ := Nat.le_refl _
  due_read _ h := (backlog_read h).2
  interface_write octets p := by
    show (p.write octets).2.interface = p.interface
    rw [interface, interface, (p.settings_write octets).2]
  interface_read _ p := by
    show p.read.2.interface = p.interface
    rw [interface, interface, p.settings_read.2]
  interface_purge _ p := by
    show p.purge.2.interface = p.interface
    rw [interface, interface, keeps_purge (q := fun p' ↦ p'.interactive = p.interactive)
      (fun p' h ↦ p'.settings_read.2.trans h) rfl]
  pollInterval_read _ p := p.settings_read.1
  pollInterval_pos h _ := h
  backlog_read _ h := backlog_read h

end SerialPort

namespace Link

variable {α β : Type} {onSerial : SerialPort → α × SerialPort}
  {onSimulator : Simulator → α × Simulator} {onScripted : ScriptedLine → α × ScriptedLine}
  {f : SerialPort → β} {g : Simulator → β} {h : ScriptedLine → β}

theorem lift_eq {l l' : Link} {a : α} (hl : lift onSerial onSimulator onScripted l = (a, l')) :
    (∃ p p', l = serial p ∧ l' = serial p' ∧ onSerial p = (a, p')) ∨
      (∃ s s', l = simulator s ∧ l' = simulator s' ∧ onSimulator s = (a, s')) ∨
      ∃ s s', l = scripted s ∧ l' = scripted s' ∧ onScripted s = (a, s') := by
  cases l with
  | serial p => cases hl; exact .inl ⟨p, _, rfl, rfl, rfl⟩
  | simulator s => cases hl; exact .inr (.inl ⟨s, _, rfl, rfl, rfl⟩)
  | scripted s => cases hl; exact .inr (.inr ⟨s, _, rfl, rfl, rfl⟩)

theorem fold_lift_eq (hp : ∀ p, f (onSerial p).2 = f p) (hs : ∀ s, g (onSimulator s).2 = g s)
    (hc : ∀ s, h (onScripted s).2 = h s) (l : Link) :
    fold f g h (lift onSerial onSimulator onScripted l).2 = fold f g h l := by
  cases l with
  | serial p => exact hp p
  | simulator s => exact hs s
  | scripted s => exact hc s

theorem fold_lift_of_fold {f : SerialPort → Prop} {g : Simulator → Prop} {h : ScriptedLine → Prop}
    (hp : ∀ p, f p → f (onSerial p).2) (hs : ∀ s, g s → g (onSimulator s).2)
    (hc : ∀ s, h s → h (onScripted s).2) {l : Link} (hl : fold f g h l) :
    fold f g h (lift onSerial onSimulator onScripted l).2 := by
  cases l with
  | serial p => exact hp p hl
  | simulator s => exact hs s hl
  | scripted s => exact hc s hl

open Transport

instance : Opening Link where
  isOpen_connect_ok h := by
    obtain ⟨p, p', rfl, rfl, hp⟩ | ⟨s, s', rfl, rfl, hs⟩ | ⟨s, s', rfl, rfl, hs⟩ := lift_eq h
    · exact (Opening.isOpen_connect_ok hp :)
    · exact (Opening.isOpen_connect_ok hs :)
    · exact (Opening.isOpen_connect_ok hs :)
  isOpen_connect_error h := by
    obtain ⟨p, p', rfl, rfl, hp⟩ | ⟨s, s', rfl, rfl, hs⟩ | ⟨s, s', rfl, rfl, hs⟩ := lift_eq h
    · exact (Opening.isOpen_connect_error hp :)
    · exact (Opening.isOpen_connect_error hs :)
    · exact (Opening.isOpen_connect_error hs :)
  isOpen_disconnect l := by
    cases l with
    | serial p => exact (Opening.isOpen_disconnect p :)
    | simulator s => exact (Opening.isOpen_disconnect s :)
    | scripted s => exact (Opening.isOpen_disconnect s :)
  isOpen_write octets := fold_lift_eq (Opening.isOpen_write octets) (Opening.isOpen_write octets)
    (Opening.isOpen_write octets)
  isOpen_read now := fold_lift_eq (Opening.isOpen_read now) (Opening.isOpen_read now)
    (Opening.isOpen_read now)
  isOpen_purge now := fold_lift_eq (Opening.isOpen_purge now) (Opening.isOpen_purge now)
    (Opening.isOpen_purge now)

instance : Recording Link where
  sent := fold Recording.sent Recording.sent Recording.sent
  sent_connect now := fold_lift_eq (Recording.sent_connect now) (Recording.sent_connect now)
    (Recording.sent_connect now)
  sent_disconnect :=
    fold_lift_eq Recording.sent_disconnect Recording.sent_disconnect Recording.sent_disconnect
  sent_read now := fold_lift_eq (Recording.sent_read now) (Recording.sent_read now)
    (Recording.sent_read now)
  sent_purge now := fold_lift_eq (Recording.sent_purge now) (Recording.sent_purge now)
    (Recording.sent_purge now)
  sent_write_ok h := by
    obtain ⟨p, p', rfl, rfl, hp⟩ | ⟨s, s', rfl, rfl, hs⟩ | ⟨s, s', rfl, rfl, hs⟩ := lift_eq h
    · exact (Recording.sent_write_ok hp :)
    · exact (Recording.sent_write_ok hs :)
    · exact (Recording.sent_write_ok hs :)
  sent_write_error h := by
    obtain ⟨p, p', rfl, rfl, hp⟩ | ⟨s, s', rfl, rfl, hs⟩ | ⟨s, s', rfl, rfl, hs⟩ := lift_eq h
    · exact (Recording.sent_write_error hp :)
    · exact (Recording.sent_write_error hs :)
    · exact (Recording.sent_write_error hs :)

instance : Ending Link where
  Ends := fold Ending.Ends Ending.Ends Ending.Ends
  due now := fold (Ending.due now) (Ending.due now) (Ending.due now)
  ends_connect now _ := fold_lift_of_fold (fun _ ↦ Ending.ends_connect now)
    (fun _ ↦ Ending.ends_connect now) fun _ ↦ Ending.ends_connect now
  ends_disconnect := fold_lift_of_fold (fun _ ↦ Ending.ends_disconnect)
    (fun _ ↦ Ending.ends_disconnect) fun _ ↦ Ending.ends_disconnect
  ends_write octets _ := fold_lift_of_fold (fun _ ↦ Ending.ends_write octets)
    (fun _ ↦ Ending.ends_write octets) fun _ ↦ Ending.ends_write octets
  ends_read now _ := fold_lift_of_fold (fun _ ↦ Ending.ends_read now)
    (fun _ ↦ Ending.ends_read now) fun _ ↦ Ending.ends_read now
  ends_purge now _ := fold_lift_of_fold (fun _ ↦ Ending.ends_purge now)
    (fun _ ↦ Ending.ends_purge now) fun _ ↦ Ending.ends_purge now
  due_le_backlog now l := by
    cases l with
    | serial p => exact (Ending.due_le_backlog now p :)
    | simulator s => exact (Ending.due_le_backlog now s :)
    | scripted s => exact (Ending.due_le_backlog now s :)
  due_read hl h := by
    obtain ⟨p, p', rfl, rfl, hp⟩ | ⟨s, s', rfl, rfl, hs⟩ | ⟨s, s', rfl, rfl, hs⟩ := lift_eq h
    · exact (Ending.due_read hl hp :)
    · exact (Ending.due_read hl hs :)
    · exact (Ending.due_read hl hs :)
  interface_write octets := fold_lift_eq (Ending.interface_write octets)
    (Ending.interface_write octets) (Ending.interface_write octets)
  interface_read now := fold_lift_eq (Ending.interface_read now) (Ending.interface_read now)
    (Ending.interface_read now)
  interface_purge now := fold_lift_eq (Ending.interface_purge now) (Ending.interface_purge now)
    (Ending.interface_purge now)
  pollInterval_read now := fold_lift_eq (Ending.pollInterval_read now)
    (Ending.pollInterval_read now) (Ending.pollInterval_read now)
  pollInterval_pos {l} hl hi := by
    cases l with
    | serial p => exact Ending.pollInterval_pos (t := p) hl hi
    | simulator s => exact Ending.pollInterval_pos (t := s) hl hi
    | scripted s => exact Ending.pollInterval_pos (t := s) hl hi
  backlog_read hl h := by
    obtain ⟨p, p', rfl, rfl, hp⟩ | ⟨s, s', rfl, rfl, hs⟩ | ⟨s, s', rfl, rfl, hs⟩ := lift_eq h
    · exact Ending.backlog_read (t := p) hl hp
    · exact Ending.backlog_read (t := s) hl hs
    · exact Ending.backlog_read (t := s) hl hs

end Link

end AlarmPanel
