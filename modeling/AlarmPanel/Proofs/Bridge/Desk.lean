import AlarmPanel.Bridge
import AlarmPanel.Proofs.Device.Lasting
import AlarmPanel.Proofs.Hub.Upkeep

namespace AlarmPanel

open Transport

inductive Stage where
  | ended
  /-- The request has this number among those of the device at this place. -/
  | asked (place number : Nat)
  | answered (place number : Nat) (a : Except PanelError Reading)

def Stage.slip? : Stage → Option (Nat × Nat)
  | ended => none
  | asked i n | answered i n _ => some (i, n)

structure Task where
  errand : Errand
  stage : Stage

namespace Task

def slip? (t : Task) : Option (Nat × Nat) :=
  t.stage.slip?

def isPoll : Task → Bool
  | ⟨.poll .., .asked ..⟩ => true
  | _ => false

end Task

/-- The request that an errand can put to a device. -/
def Errand.Asks : Errand → Request → Prop
  | .order _ i, q => ∃ c, i.build = .ok c ∧ q = .query c none
  | .poll _ p, q => q = .poll p

/-- The two tasks of the bridge that publish updates, each of them one after the other. -/
inductive Clerk where
  | events
  | polls
  deriving DecidableEq, Repr

/-- The bridge, all errands in the order in which they began, and what it has yet to do. -/
structure Desk where
  bridge : Bridge
  tasks : List Task := []
  agenda : List (Binding × Poll) := []
  /-- The poll that was found due and has yet to be put to its device. -/
  chosen : Option (Binding × Poll) := none
  /-- The updates of the event passed on last that are yet to be published. -/
  outbox : List Update := []
  /-- The item whose update a clerk has published and has yet to note. -/
  unnoted : Clerk → Option String := fun _ ↦ none

/-- One step of the bridge or of what is around it. -/
inductive Desk.Move where
  | receive (text : String)
  | tick
  | consider
  | put
  | conclude (k : Nat)
  | relay (n : Notice)
  | deliver
  | note (c : Clerk)
  | happen (i : Nat) (o : Occurrence Link) (leaves : o.Leaves Recording.sent)
  | enter (c : DeviceConfig) (t : Link)
  | assign (handles : List (String × Nat))
  | pass (ms : Nat)

/-- The payload that comes in, if it reads as an instruction. -/
def Desk.Move.order? : Desk.Move → Option (String × Instruction)
  | receive text => (Instruction.ofText? text).map (text, ·)
  | _ => none

namespace Hub

def issued (h : Hub) (i : Nat) : Nat :=
  (h.devices[i]?.map Device.issued).getD 0

def answerTo? (h : Hub) (i number : Nat) : Option (Except PanelError Reading) :=
  h.devices[i]?.bind fun d ↦ d.answerTo? number

end Hub

namespace Desk

variable (s : Desk)

def start (d : Dispatcher) (c : Client) : Desk where
  bridge := { dispatcher := d, client := c }

def onHub (f : Hub → Hub) : Desk :=
  { s with bridge := { s.bridge with hub := f s.bridge.hub } }

def owe (c : Clerk) (item : Option String) : Desk :=
  { s with unnoted := Function.update s.unnoted c item }

/-- A clerk publishes a message, which it has yet to note if it is an update. -/
def issue (c : Clerk) (m : Option Message) : Desk :=
  let s := { s with bridge := s.bridge.publishAny m }
  match m.bind Message.update? with
  | some u => s.owe c (some u.item)
  | none => s

def put (e : Errand) (id : String) (q : Request) : Desk :=
  match s.bridge.hub.place id with
  | .error r =>
    { s with
      bridge := s.bridge.publishAny (s.bridge.outcome (.error r) e)
      tasks := s.tasks ++ [⟨e, .ended⟩] }
  | .ok i =>
    { s.onHub (·.change i (·.happen (.submit q))) with
      tasks := s.tasks ++ [⟨e, .asked i (s.bridge.hub.issued i)⟩] }

def begin (e : Errand) : Desk :=
  match s.bridge.onset e with
  | .ended m => { s with bridge := s.bridge.publishAny m, tasks := s.tasks ++ [⟨e, .ended⟩] }
  | .request id q => s.put e id q

def weigh (b : Binding) (p : Poll) : Desk :=
  match s.bridge.onset (.poll b p) with
  | .ended _ => { s with tasks := s.tasks ++ [⟨.poll b p, .ended⟩] }
  | .request .. => { s with chosen := some (b, p) }

def conclude (k : Nat) : Desk :=
  match s.tasks[k]? with
  | some ⟨e, .asked i n⟩ =>
    match s.bridge.hub.answerTo? i n with
    | some a =>
      { s.issue .polls (s.bridge.outcome a e) with tasks := s.tasks.set k ⟨e, .answered i n a⟩ }
    | none => s
  | _ => s

/-- A poll is under way until its update has been noted. -/
def isPolling : Bool :=
  s.chosen.isSome || s.tasks.any Task.isPoll || (s.unnoted .polls).isSome

/-- Polls wait for one another, and so do events. Identifiers name devices that are there. -/
def step : Move → Desk
  | .receive text =>
    match Instruction.ofText? text with
    | some i => s.begin (.order text i)
    | none => s
  | .tick => if s.agenda.isEmpty then { s with agenda := s.bridge.dispatcher.polled } else s
  | .consider =>
    match s.agenda with
    | [] => s
    | (b, p) :: l => if s.isPolling then s else { s with agenda := l }.weigh b p
  | .put =>
    match s.chosen with
    | some (b, p) => { s with chosen := none }.put (.poll b p) b.device (.poll p)
    | none => s
  | .conclude k => s.conclude k
  | .relay n =>
    if s.outbox.isEmpty && (s.unnoted .events).isNone then
      { s with bridge := s.bridge.announce n, outbox := s.bridge.updatesBy n }
    else s
  | .deliver =>
    match s.outbox, s.unnoted .events with
    | u :: l, none => { s.issue .events (some (.update u)) with outbox := l }
    | _, _ => s
  | .note c =>
    match s.unnoted c with
    | some item => { s with bridge := s.bridge.note item }.owe c none
    | none => s
  | .happen i o _ => s.onHub (·.change i (·.happen o))
  | .enter c t => s.onHub fun h ↦ { h with devices := h.devices ++ [Device.start c t h.clock] }
  | .assign handles =>
    if ∀ p ∈ handles, p.2 < s.bridge.hub.devices.length then
      s.onHub fun h ↦ { h with handles }
    else s
  | .pass ms => s.onHub fun h ↦ { h with clock := h.clock + ms }

def run (moves : List Move) : Desk :=
  moves.foldl step s

inductive Does : Move → Desk → Prop where
  | nothing {m : Move} : m.order? = none → Does m s
  | order {text : String} {i : Instruction} : Instruction.ofText? text = some i →
      Does (.receive text) (s.begin (.order text i))
  | tick : s.agenda = [] → Does .tick { s with agenda := s.bridge.dispatcher.polled }
  | consider {b : Binding} {p : Poll} {l : List (Binding × Poll)} : s.agenda = (b, p) :: l →
      s.isPolling = false → Does .consider ({ s with agenda := l }.weigh b p)
  | put {b : Binding} {p : Poll} : s.chosen = some (b, p) →
      Does .put ({ s with chosen := none }.put (.poll b p) b.device (.poll p))
  | conclude {k i n : Nat} {e : Errand} {a : Except PanelError Reading} :
      s.tasks[k]? = some ⟨e, .asked i n⟩ → s.bridge.hub.answerTo? i n = some a →
      Does (.conclude k)
        { s.issue .polls (s.bridge.outcome a e) with tasks := s.tasks.set k ⟨e, .answered i n a⟩ }
  | relay (n : Notice) : s.outbox = [] → s.unnoted .events = none →
      Does (.relay n) { s with bridge := s.bridge.announce n, outbox := s.bridge.updatesBy n }
  | deliver {u : Update} {l : List Update} : s.outbox = u :: l → s.unnoted .events = none →
      Does .deliver { s.issue .events (some (.update u)) with outbox := l }
  | note {c : Clerk} {item : String} : s.unnoted c = some item →
      Does (.note c) ({ s with bridge := s.bridge.note item }.owe c none)
  | happen (i : Nat) (o : Occurrence Link) (leaves : o.Leaves Recording.sent) :
      Does (.happen i o leaves) (s.onHub (·.change i (·.happen o)))
  | enter (c : DeviceConfig) (t : Link) : Does (.enter c t)
      (s.onHub fun h ↦ { h with devices := h.devices ++ [Device.start c t h.clock] })
  | assign {handles : List (String × Nat)} :
      (∀ p ∈ handles, p.2 < s.bridge.hub.devices.length) →
      Does (.assign handles) (s.onHub fun h ↦ { h with handles })
  | pass (ms : Nat) : Does (.pass ms) (s.onHub fun h ↦ { h with clock := h.clock + ms })

theorem does_step (m : Move) : s.Does m (s.step m) := by
  cases m with
  | receive text =>
    rw [step]
    split
    case h_1 i hi => exact .order hi
    case h_2 hi => exact .nothing (Option.map_eq_none_iff.mpr hi)
  | tick =>
    rw [step]
    split
    case isTrue ha => exact .tick (List.isEmpty_iff.mp ha)
    case isFalse => exact .nothing rfl
  | consider =>
    rw [step]
    split
    case h_1 => exact .nothing rfl
    case h_2 b p l ha =>
      split
      case isTrue => exact .nothing rfl
      case isFalse hp => exact .consider ha (Bool.eq_false_iff.mpr hp)
  | put =>
    rw [step]
    split
    case h_1 b p hc => exact .put hc
    case h_2 => exact .nothing rfl
  | conclude k =>
    rw [step, Desk.conclude]
    split
    case h_1 e i n hk =>
      split
      case h_1 a ha => exact .conclude hk ha
      case h_2 => exact .nothing rfl
    case h_2 => exact .nothing rfl
  | relay n =>
    rw [step]
    split
    case isTrue h =>
      obtain ⟨ho, hu⟩ := Bool.and_eq_true_iff.mp h
      exact .relay n (List.isEmpty_iff.mp ho) (Option.isNone_iff_eq_none.mp hu)
    case isFalse => exact .nothing rfl
  | deliver =>
    rw [step]
    split
    case h_1 u l ho hu => exact .deliver ho hu
    case h_2 => exact .nothing rfl
  | note c =>
    rw [step]
    split
    case h_1 item hc => exact .note hc
    case h_2 => exact .nothing rfl
  | happen i o leaves => exact .happen i o leaves
  | enter c t => exact .enter c t
  | assign handles =>
    rw [step]
    split
    case isTrue hh => exact .assign hh
    case isFalse => exact .nothing rfl
  | pass ms => exact .pass ms

/-- What every move keeps holds at the end of a run. -/
theorem run_induction {p : Desk → Prop} {s : Desk} (hs : p s)
    (h : ∀ (s s' : Desk) (m : Move), s.Does m s' → p s → p s') (moves : List Move) :
    p (s.run moves) := by
  induction moves generalizing s with
  | nil => exact hs
  | cons m moves ih => exact ih (h s _ m (s.does_step m) hs)

variable {s} {c : Clerk} {m : Option Message} {item : String}

theorem unnoted_owe (s : Desk) (c : Clerk) (item : Option String) :
    (s.owe c item).unnoted c = item := by
  simp [owe]

theorem unnoted_issue (s : Desk) (c : Clerk) (u : Update) :
    (s.issue c (some (.update u))).unnoted c = some u.item :=
  unnoted_owe ..

theorem issue_of_update?_eq_none (hm : m.bind Message.update? = none) :
    s.issue c m = { s with bridge := s.bridge.publishAny m } := by
  rw [issue, hm]

@[simp] theorem bridge_issue : (s.issue c m).bridge = s.bridge.publishAny m := by
  unfold issue
  split <;> rfl

@[simp] theorem tasks_issue : (s.issue c m).tasks = s.tasks := by
  unfold issue
  split <;> rfl

@[simp] theorem agenda_issue : (s.issue c m).agenda = s.agenda := by
  unfold issue
  split <;> rfl

@[simp] theorem outbox_issue : (s.issue c m).outbox = s.outbox := by
  unfold issue
  split <;> rfl

@[simp] theorem chosen_issue : (s.issue c m).chosen = s.chosen := by
  unfold issue
  split <;> rfl

theorem step_deliver {u : Update} {l : List Update} (ho : s.outbox = u :: l)
    (hu : s.unnoted .events = none) :
    s.step .deliver = { s.issue .events (some (.update u)) with outbox := l } := by
  simp only [step, ho, hu]

theorem step_note (hc : s.unnoted c = some item) :
    s.step (.note c) = { s with bridge := s.bridge.note item }.owe c none := by
  simp only [step, hc]

theorem step_conclude {k i n : Nat} {e : Errand} {a : Except PanelError Reading}
    (hk : s.tasks[k]? = some ⟨e, .asked i n⟩) (ha : s.bridge.hub.answerTo? i n = some a) :
    s.step (.conclude k) =
      { s.issue .polls (s.bridge.outcome a e) with tasks := s.tasks.set k ⟨e, .answered i n a⟩ } := by
  simp only [step, conclude, hk, ha]

/-- The updates of an event, each noted before anything else is done. -/
theorem run_deliver (hu : s.unnoted .events = none) :
    (s.run (List.replicate s.outbox.length [.deliver, .note .events]).flatten).bridge =
      s.outbox.foldl Bridge.update s.bridge := by
  generalize hl : s.outbox = l
  induction l generalizing s with
  | nil => rfl
  | cons u l ih =>
    have hi := s.unnoted_issue .events u
    have hn := step_note (s := { s.issue .events (some (.update u)) with outbox := l })
      (c := .events) hi
    rw [List.length_cons, List.replicate_succ, List.flatten_cons, run, List.foldl_append,
      List.foldl_cons, List.foldl_cons, List.foldl_nil, step_deliver hl hu, hn]
    exact ih (unnoted_owe _ _ _) rfl

/-- An event that nothing comes in between of is passed on as a whole. -/
theorem run_relay (hs : s.outbox = []) (hu : s.unnoted .events = none) (n : Notice) :
    (s.run (.relay n ::
      (List.replicate (s.bridge.updatesBy n).length [.deliver, .note .events]).flatten)).bridge =
      s.bridge.relay n := by
  have hr : s.step (.relay n) =
      { s with bridge := s.bridge.announce n, outbox := s.bridge.updatesBy n } := by
    simp only [step, hs, hu]
    rfl
  rw [run, List.foldl_cons, hr]
  exact run_deliver hu

theorem run_conclude {k i n : Nat} {e : Errand} {a : Except PanelError Reading}
    (hk : s.tasks[k]? = some ⟨e, .asked i n⟩) (ha : s.bridge.hub.answerTo? i n = some a)
    (hu : s.unnoted .polls = none) :
    (s.run [.conclude k, .note .polls]).bridge = s.bridge.finish a e := by
  rw [run, List.foldl_cons, List.foldl_cons, List.foldl_nil, step_conclude hk ha, Bridge.finish]
  split
  case h_1 u ho =>
    have hi := s.unnoted_issue .polls u
    have hn := step_note (s := { s.issue .polls (some (.update u)) with
      tasks := s.tasks.set k ⟨e, .answered i n a⟩ }) (c := .polls) hi
    rw [ho, hn]
    rfl
  case h_2 hn =>
    have hm : (s.bridge.outcome a e).bind Message.update? = none := by
      cases ho : s.bridge.outcome a e with
      | none => rfl
      | some m =>
        cases m with
        | update u => exact absurd ho (hn u)
        | connected | disconnected | event | acknowledged => rfl
    rw [issue_of_update?_eq_none hm]
    simp only [step, hu]

end Desk

structure Life where
  config : DeviceConfig
  link : Link
  now : Nat
  past : List (Occurrence Link) := []
  leaves : ∀ o ∈ past, o.Leaves Recording.sent

namespace Life

open Device

variable {l : Life} {o : Occurrence Link} {n : Nat} {a : Except PanelError Reading} {q : Request}

def first (l : Life) : Device Link :=
  start l.config l.link l.now

def device (l : Life) : Device Link :=
  l.first.course l.past

def asked (l : Life) : List Ticket :=
  along asking l.first l.past

def served (l : Life) : List (Exchange Link) :=
  along serving l.first l.past

def next (l : Life) (o : Occurrence Link) (ho : o.Leaves Recording.sent) : Life where
  config := l.config
  link := l.link
  now := l.now
  past := l.past ++ [o]
  leaves := List.forall_mem_append.mpr ⟨l.leaves, List.forall_mem_singleton.mpr ho⟩

theorem accounted (l : Life) : Accounted l.first l.past :=
  accounted_start l.config l.link l.now l.leaves

theorem device_next (ho : o.Leaves Recording.sent) : (l.next o ho).device = l.device.happen o := by
  rw [device, course]
  exact List.foldl_concat ..

theorem asked_next (ho : o.Leaves Recording.sent) :
    (l.next o ho).asked = l.asked ++ l.device.asking o := by
  rw [asked, asked]
  refine (along_append asking l.first l.past [o]).trans ?_
  rw [along, along, List.append_nil]
  rfl

theorem answers_next (ho : o.Leaves Recording.sent) :
    l.device.answers <+: (l.next o ho).device.answers := by
  have hb : Balances l.device o := balances (cleared_course (.of_running rfl) l.past) o
  rw [device_next, hb.answers, List.append_assoc, List.append_assoc]
  exact List.prefix_append _ _

theorem numbers_lt (ht : ⟨n, q⟩ ∈ l.asked) : n < l.device.issued := by
  have hn : n ∈ l.asked.map Ticket.number := List.mem_map_of_mem ht
  rw [asked, l.accounted.numbers] at hn
  exact List.mem_range.mp hn

/-- An answer to a request is the outcome of its own exchange, or it was turned away. -/
theorem outcome_of_mem (ha : (n, a) ∈ l.device.answers) (ht : ⟨n, q⟩ ∈ l.asked) :
    (∃ x ∈ l.served, x.ticket = ⟨n, q⟩ ∧ x.outcome? = some a) ∨
      a = .error .channelClosed ∨ a = .error .disconnected := by
  have hacc := l.accounted
  rw [device, hacc.answers] at ha
  simp only [List.mem_append, List.mem_filterMap, List.mem_map] at ha
  rcases ha with (⟨x, hx, ha⟩ | ⟨t, -, ht⟩) | ⟨t, -, ht⟩
  · obtain ⟨r, hr, he⟩ := Option.map_eq_some_iff.mp ha
    cases he
    refine .inl ⟨x, hx, ?_, hr⟩
    -- each number was given out once
    have hn : (l.asked.map Ticket.number).Nodup := by
      rw [asked, hacc.numbers]
      exact List.nodup_range
    have hm : x.ticket ∈ l.asked := by
      rw [asked, hacc.requests]
      simp only [List.mem_append]
      exact .inl (.inl (.inl (List.mem_map_of_mem hx)))
    exact List.inj_on_of_nodup_map hn hm ht rfl
  · cases ht
    exact .inr (.inl rfl)
  · cases ht
    exact .inr (.inr rfl)

end Life

end AlarmPanel
