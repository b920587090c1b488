import AlarmPanel.Proofs.Bridge.Books

namespace AlarmPanel

open Transport

theorem perm_filterMap_set {α β : Type} {f : α → Option β} {l : List α} {k : Nat} {x y : α} {b : β}
    (hk : l[k]? = some x) (hx : f x = none) (hy : f y = some b) :
    ((l.set k y).filterMap f).Perm (l.filterMap f ++ [b]) := by
  induction l generalizing k with
  | nil => cases hk
  | cons a l ih =>
    cases k with
    | zero =>
      cases hk
      rw [List.set_cons_zero, List.filterMap_cons_some hy, List.filterMap_cons_none hx]
      exact (List.perm_append_singleton b _).symm
    | succ k =>
      rw [List.set_cons_succ]
      cases ha : f a with
      | none =>
        rw [List.filterMap_cons_none ha, List.filterMap_cons_none ha]
        exact ih hk
      | some c =>
        rw [List.filterMap_cons_some ha, List.filterMap_cons_some ha]
        exact (ih hk).cons c

section

variable {σ : Type} [Transport σ]

theorem Reply.eq_of_classify_ok {raw : List Char} {payload : String}
    (h : classify raw = .ok payload) : payload = String.ofList (clean raw) := by
  unfold classify at h
  split at h
  case h_1 => cases h
  case h_2 c s hc =>
    split at h <;> cases h
    rw [hc]

theorem Line.reply_of_collect {deadline n : Nat} {got : List UInt8} {l l' : Line σ} {reply : Reply}
    (h : collect deadline n got l = .ok reply l') : reply = .timeout ∨
      ∃ octets, Reply.terminator ∈ octets ∧ reply = .classify (Text.Utf8.decode octets) := by
  induction n generalizing got l with
  | zero => cases h
  | succ n ih =>
    rw [collect] at h
    obtain ⟨chunk, l₁, -, h⟩ := of_bind_ok h
    split at h
    case isTrue hc =>
      cases h
      simp only [Bool.and_eq_true, List.contains_iff_mem] at hc
      exact .inr ⟨_, hc.2, rfl⟩
    case isFalse =>
      rw [get_bind] at h
      split at h
      case isTrue =>
        cases h
        exact .inl rfl
      case isFalse =>
        split at h
        case isTrue =>
          obtain ⟨-, l₂, -, h⟩ := of_bind_ok h
          exact ih h
        case isFalse => exact ih h

theorem Line.reply_of_send {text : String} {timeout : Nat} {l l' : Line σ} {reply : Reply}
    (h : send text timeout l = .ok reply l') : reply = .timeout ∨
      ∃ octets, Reply.terminator ∈ octets ∧ reply = .classify (Text.Utf8.decode octets) := by
  rw [send, get_bind] at h
  split at h
  case isTrue =>
    obtain ⟨-, l₁, -, h⟩ := of_bind_ok h
    obtain ⟨-, l₂, -, h⟩ := of_bind_ok h
    rw [get_bind] at h
    exact reply_of_collect h
  case isFalse => cases h

namespace Worker

variable {w w' : Worker σ} {q : Request} {r : Reading}

theorem perform_of_serve (h : serve q w = .ok r w') :
    ∃ timeout, ∃ l l' : Line σ, q.perform timeout l = .ok r l' := by
  obtain ⟨-, w₁, -, h⟩ := of_bind_ok h
  obtain ⟨-, w₂, -, h⟩ := of_bind_ok h
  rw [get_bind] at h
  have hx := of_guarded_ok h
  cases hr : q.perform w₂.timeout w₂.receiver.line with
  | error e l => cases (onLine_error hr).symm.trans hx
  | ok r' l =>
    cases (onLine_ok hr).symm.trans hx
    exact ⟨_, _, _, hr⟩

/-- What a query fetches is the payload of a reply to it, cleaned. -/
theorem payload_of_serve {c : Command} {own : Option Nat} (h : serve (.query c own) w = .ok r w') :
    ∃ octets, Reply.terminator ∈ octets ∧
      r = .text (String.ofList (Reply.clean (Text.Utf8.decode octets))) := by
  obtain ⟨timeout, l, l', hr⟩ := perform_of_serve h
  obtain ⟨payload, l₁, hq, hp⟩ := of_bind_ok hr
  cases hp
  obtain ⟨-, l₂, -, hq⟩ := of_bind_ok hq
  obtain ⟨reply, l₃, hs, hq⟩ := of_bind_ok hq
  cases reply with
  | failure token | timeout | empty => cases hq
  | ok text =>
    cases hq
    rcases Line.reply_of_send hs with ht | ⟨octets, hm, hc⟩
    · cases ht
    · exact ⟨octets, hm, congrArg Reading.text (Reply.eq_of_classify_ok hc.symm)⟩

end Worker

end

def Message.isAcknowledgement : Message → Bool
  | acknowledged .. => true
  | connected _ | disconnected _ | event .. | update _ => false

def Errand.order? : Errand → Option (String × Instruction)
  | order text i => some (text, i)
  | poll .. => none

/-- The acknowledgement that an order is owed which has come to an end. Without a request it stands for
a success only if nothing but a sign of life was asked for. -/
def Task.owed? : Task → Option Message
  | ⟨.order text i, .ended⟩ => some (.acknowledged (i.op = "PING") (Json.ofText? text) none)
  | ⟨.order text _, .answered _ _ (.ok r)⟩ =>
    some (.acknowledged true (Json.ofText? text) (some r.display))
  | ⟨.order text _, .answered _ _ (.error _)⟩ =>
    some (.acknowledged false (Json.ofText? text) none)
  | ⟨.order .., .asked ..⟩ | ⟨.poll .., _⟩ => none

namespace Bridge

variable {b : Bridge} {e : Errand} {a : Except PanelError Reading}

/-- The acknowledgements that the client was handed. -/
def acknowledgements (b : Bridge) : List Message :=
  b.posted.filter Message.isAcknowledgement

/-- The instruction is answered without any device: it asks for a sign of life, for no command, or for a
device that is not there. -/
def Refuses (b : Bridge) (i : Instruction) : Prop :=
  i.op = "PING" ∨ (∃ e, i.build = .error e) ∨ ∀ id, b.target? i = some id → b.hub.place? id = none

theorem acknowledgements_publishAny (m : Option Message) : (b.publishAny m).acknowledgements =
    b.acknowledgements ++ m.toList.filter Message.isAcknowledgement := by
  rw [acknowledgements, posted_publishAny, List.filter_append, acknowledgements]

theorem acknowledgement_of_outcome (i n : Nat) (a : Except PanelError Reading) (e : Errand) :
    (b.outcome a e).toList.filter Message.isAcknowledgement =
      (Task.owed? ⟨e, .answered i n a⟩).toList := by
  cases e with
  | order text j => cases a <;> rfl
  | poll binding p =>
    rw [outcome]
    split <;> rfl

theorem acknowledgement_of_onset_ended {m : Option Message} (h : b.onset e = .ended m) :
    m.toList.filter Message.isAcknowledgement = (Task.owed? ⟨e, .ended⟩).toList := by
  cases e with
  | order text i =>
    rw [onset] at h
    split at h
    case isTrue hp =>
      cases h
      simp [Task.owed?, hp, Message.isAcknowledgement]
    case isFalse hp =>
      split at h
      case h_1 => cases h
      case h_2 =>
        cases h
        simp [Task.owed?, hp, Message.isAcknowledgement]
  | poll binding p =>
    rw [onset] at h
    split at h <;> cases h
    rfl

theorem owed?_ended_of_onset {id : String} {q : Request} (h : b.onset e = .request id q) (i n : Nat)
    (r : PanelError) : Task.owed? ⟨e, .ended⟩ = Task.owed? ⟨e, .answered i n (.error r)⟩ := by
  cases e with
  | order text j =>
    rw [onset] at h
    split at h
    case isTrue => cases h
    case isFalse hp => simp [Task.owed?, hp]
  | poll binding p => rfl

theorem no_acknowledgement_of_notice (n : Notice) :
    (Message.ofNotice? n).toList.filter Message.isAcknowledgement = [] := by
  rw [Message.ofNotice?]
  split <;> rfl

end Bridge

namespace Desk

variable {s s' : Desk} {e : Errand} {m : Move} {lives : List Life}

/-- Each errand that came to an end was acknowledged once if it was an order. -/
def Settled (s : Desk) : Prop :=
  s.bridge.acknowledgements.Perm (s.tasks.filterMap Task.owed?)

theorem Settled.concat {t : Task} (hs : Settled s) (h : s'.bridge.acknowledgements =
    s.bridge.acknowledgements ++ t.owed?.toList) (ht : s'.tasks = s.tasks ++ [t]) : Settled s' := by
  have hl : (s.tasks ++ [t]).filterMap Task.owed? =
      s.tasks.filterMap Task.owed? ++ t.owed?.toList := by
    rw [List.filterMap_append]
    cases ht : t.owed? <;> simp [ht]
  rw [Settled, h, ht, hl]
  exact hs.append_right _

theorem Settled.concat_poll {t : Task} (hs : Settled s)
    (hb : s'.bridge.acknowledgements = s.bridge.acknowledgements) (ht : s'.tasks = s.tasks ++ [t])
    (ho : t.owed? = none) : Settled s' :=
  hs.concat (by rw [hb, ho, Option.toList_none, List.append_nil]) ht

theorem Settled.put {id : String} {q : Request} (hs : Settled s)
    (he : ∀ i n r, Task.owed? ⟨e, .ended⟩ = Task.owed? ⟨e, .answered i n (.error r)⟩) :
    Settled (s.put e id q) := by
  unfold Desk.put
  split
  case h_1 r _ =>
    refine hs.concat ?_ rfl
    rw [Bridge.acknowledgements_publishAny, Bridge.acknowledgement_of_outcome 0 0, he 0 0 r]
  case h_2 i _ =>
    have hn : Task.owed? ⟨e, .asked i (s.bridge.hub.issued i)⟩ = none := by cases e <;> rfl
    exact hs.concat_poll rfl rfl hn

theorem Settled.begin (hs : Settled s) (e : Errand) : Settled (s.begin e) := by
  unfold Desk.begin
  split
  case h_1 m ho =>
    refine hs.concat ?_ rfl
    rw [Bridge.acknowledgements_publishAny, Bridge.acknowledgement_of_onset_ended ho]
  case h_2 id q ho => exact hs.put fun i n r ↦ Bridge.owed?_ended_of_onset ho i n r

theorem Settled.weigh (hs : Settled s) (b : Binding) (p : Poll) : Settled (s.weigh b p) := by
  unfold Desk.weigh
  split
  case h_1 => exact hs.concat_poll rfl rfl rfl
  case h_2 => exact hs

theorem Settled.conclude {k i n : Nat} {a : Except PanelError Reading} (hs : Settled s)
    (hk : s.tasks[k]? = some ⟨e, .asked i n⟩) :
    Settled { s.issue .polls (s.bridge.outcome a e) with
      tasks := s.tasks.set k ⟨e, .answered i n a⟩ } := by
  have hn : Task.owed? ⟨e, .asked i n⟩ = none := by cases e <;> rfl
  rw [Settled, bridge_issue, Bridge.acknowledgements_publishAny, Bridge.acknowledgement_of_outcome i n]
  cases ho : Task.owed? ⟨e, .answered i n a⟩ with
  | none =>
    rw [Option.toList_none, List.append_nil, filterMap_set_of_eq hk (ho.trans hn.symm)]
    exact hs
  | some m => exact (hs.append_right [m]).trans (perm_filterMap_set hk hn ho).symm

theorem Settled.congr (hs : Settled s)
    (hb : s'.bridge.acknowledgements = s.bridge.acknowledgements) (ht : s'.tasks = s.tasks) :
    Settled s' := by
  rw [Settled, hb, ht]
  exact hs

theorem Settled.does (hs : Settled s) (hd : s.Does m s') : Settled s' := by
  cases hd with
  | order => exact hs.begin _
  | @consider b p l =>
    have hs' : Settled { s with agenda := l } := hs
    exact hs'.weigh b p
  | put =>
    have hs' : Settled { s with chosen := none } := hs
    exact hs'.put fun _ _ _ ↦ rfl
  | conclude hk _ => exact hs.conclude hk
  | relay n _ _ =>
    refine hs.congr ?_ rfl
    rw [Bridge.announce, Bridge.acknowledgements_publishAny, Bridge.no_acknowledgement_of_notice,
      List.append_nil]
  | deliver =>
    refine hs.congr ?_ (tasks_issue ..)
    rw [bridge_issue, Bridge.acknowledgements_publishAny]
    exact List.append_nil _
  | nothing | tick | note | happen | enter | assign | pass => exact hs

theorem errands_put (s : Desk) (e : Errand) (id : String) (q : Request) :
    (s.put e id q).tasks.map Task.errand = s.tasks.map Task.errand ++ [e] := by
  unfold put
  split <;> exact List.map_append ..

theorem errands_begin (s : Desk) (e : Errand) :
    (s.begin e).tasks.map Task.errand = s.tasks.map Task.errand ++ [e] := by
  unfold begin
  split
  · exact List.map_append ..
  · exact errands_put s e _ _

def orders (s : Desk) : List (String × Instruction) :=
  (s.tasks.map Task.errand).filterMap Errand.order?

theorem orders_concat (h : s'.tasks.map Task.errand = s.tasks.map Task.errand ++ [e]) :
    s'.orders = s.orders ++ e.order?.toList := by
  rw [orders, h, List.filterMap_append]
  cases he : e.order? <;> simp [orders, he]

theorem orders_weigh (s : Desk) (b : Binding) (p : Poll) : (s.weigh b p).orders = s.orders := by
  unfold weigh
  split
  · exact (orders_concat (List.map_append ..)).trans (List.append_nil _)
  · rfl

theorem orders_of_does (hd : s.Does m s') : s'.orders = s.orders ++ m.order?.toList := by
  cases hd with
  | nothing hm =>
    rw [hm]
    exact (List.append_nil _).symm
  | order hi =>
    rw [Move.order?, hi]
    exact orders_concat (errands_begin s _)
  | consider => exact (orders_weigh _ _ _).trans (List.append_nil _).symm
  | put => exact orders_concat (errands_put _ _ _ _)
  | conclude hk =>
    refine Eq.trans ?_ (List.append_nil _).symm
    exact congrArg (List.filterMap Errand.order?) (map_set_of_eq hk rfl)
  | deliver => exact (congrArg _ (congrArg _ (tasks_issue ..))).trans (List.append_nil _).symm
  | tick | relay | note | happen | enter | assign | pass => exact (List.append_nil _).symm

theorem begin_of_refuses {text : String} {i : Instruction} (hr : s.bridge.Refuses i) :
    (s.begin (.order text i)).bridge.hub = s.bridge.hub ∧
      (s.begin (.order text i)).tasks = s.tasks ++ [⟨.order text i, .ended⟩] := by
  unfold begin
  split
  case h_1 => exact ⟨Bridge.hub_publishAny _, rfl⟩
  case h_2 id q ho =>
    unfold put
    split
    case h_1 r _ => exact ⟨Bridge.hub_publishAny _, rfl⟩
    case h_2 p hp =>
      rw [Bridge.onset] at ho
      split at ho
      case isTrue => cases ho
      case isFalse hping =>
        split at ho
        case h_2 => cases ho
        case h_1 c x hc hx =>
          cases ho
          rcases hr with h | ⟨e, h⟩ | h
          · exact absurd h hping
          · cases hc.symm.trans h
          · rw [Hub.place, h id hx] at hp
            cases hp

/-- An order that is not refused puts one request to the device that it is for. -/
theorem begin_of_not_refuses {text : String} {i : Instruction} (hr : ¬ s.bridge.Refuses i) :
    ∃ c id p, i.build = .ok c ∧ s.bridge.target? i = some id ∧ s.bridge.hub.place? id = some p ∧
      (s.begin (.order text i)).bridge.hub = s.bridge.hub.change p (·.submit (.query c none)) ∧
      (s.begin (.order text i)).tasks =
        s.tasks ++ [⟨.order text i, .asked p (s.bridge.hub.issued p)⟩] := by
  obtain ⟨hping, hr⟩ := not_or.mp hr
  obtain ⟨hbuild, hdev⟩ := not_or.mp hr
  cases hc : i.build with
  | error e => exact absurd ⟨e, hc⟩ hbuild
  | ok c =>
    obtain ⟨id, hdev⟩ := not_forall.mp hdev
    obtain ⟨hid, hp⟩ := Classical.not_imp.mp hdev
    obtain ⟨p, hp⟩ := Option.ne_none_iff_exists'.mp hp
    have ho : s.bridge.onset (.order text i) = .request id (.query c none) := by
      simp only [Bridge.onset, if_neg hping, hc, hid]
    have hplace : s.bridge.hub.place id = .ok p := by rw [Hub.place, hp]
    refine ⟨c, id, p, rfl, hid, hp, ?_, ?_⟩
    · simp only [begin, ho, put, hplace]
      rfl
    · simp only [begin, ho, put, hplace]

/-- How acknowledgements, orders, requests and answers belong together after some moves. -/
structure Acknowledges (moves : List Move) (s : Desk) (lives : List Life) : Prop where
  devices : s.bridge.hub.devices = lives.map Life.device
  /-- What is written on a line are the commands of requests that its device serves. -/
  accounted : ∀ l ∈ lives, Device.Accounted l.first l.past
  orders : s.orders = moves.filterMap Move.order?
  /-- Each order that has come to an end was acknowledged once as it is owed, and no other was. -/
  acknowledged : s.bridge.acknowledgements.Perm (s.tasks.filterMap Task.owed?)
  distinct : (s.tasks.filterMap Task.slip?).Nodup
  asked : ∀ t ∈ s.tasks, ∀ i n, t.slip? = some (i, n) →
    ∃ l q, lives[i]? = some l ∧ t.errand.Asks q ∧ ⟨n, q⟩ ∈ l.asked
  answered : ∀ text j i n a, ⟨.order text j, .answered i n a⟩ ∈ s.tasks →
    ∃ l c, lives[i]? = some l ∧ j.build = .ok c ∧
      ((∃ x ∈ l.served, x.ticket = ⟨n, .query c none⟩ ∧ x.outcome? = some a) ∨
        a = .error .channelClosed ∨ a = .error .disconnected)
  fetched : ∀ text j i n r, ⟨.order text j, .answered i n (.ok r)⟩ ∈ s.tasks →
    ∃ octets, Reply.terminator ∈ octets ∧
      r = .text (String.ofList (Reply.clean (Text.Utf8.decode octets)))
  refused : ∀ text i, Instruction.ofText? text = some i → s.bridge.Refuses i →
    (s.step (.receive text)).bridge.hub = s.bridge.hub ∧
      (s.step (.receive text)).tasks = s.tasks ++ [⟨.order text i, .ended⟩]
  put : ∀ text i, Instruction.ofText? text = some i → ¬ s.bridge.Refuses i →
    ∃ c id p, i.build = .ok c ∧ s.bridge.target? i = some id ∧ s.bridge.hub.place? id = some p ∧
      (s.step (.receive text)).bridge.hub = s.bridge.hub.change p (·.submit (.query c none)) ∧
      (s.step (.receive text)).tasks =
        s.tasks ++ [⟨.order text i, .asked p (s.bridge.hub.issued p)⟩]

theorem orders_run (s : Desk) (moves : List Move) :
    (s.run moves).orders = s.orders ++ moves.filterMap Move.order? := by
  induction moves generalizing s with
  | nil => exact (List.append_nil _).symm
  | cons m moves ih =>
    refine (ih (s.step m)).trans ?_
    rw [orders_of_does (s.does_step m), List.append_assoc]
    cases hm : m.order? <;> simp [hm]

theorem answered_order (hb : Books s lives) {text : String} {j : Instruction} {i n : Nat}
    {a : Except PanelError Reading} (ht : ⟨.order text j, .answered i n a⟩ ∈ s.tasks) :
    ∃ l c, lives[i]? = some l ∧ j.build = .ok c ∧
      ((∃ x ∈ l.served, x.ticket = ⟨n, .query c none⟩ ∧ x.outcome? = some a) ∨
        a = .error .channelClosed ∨ a = .error .disconnected) := by
  obtain ⟨l, hl, ha⟩ := hb.answered _ ht i n a rfl
  obtain ⟨l', q, hl', ⟨c, hc, rfl⟩, hq⟩ := hb.asked _ ht i n rfl
  cases hl.symm.trans hl'
  exact ⟨l, c, hl, hc, Life.outcome_of_mem ha hq⟩

/-- However many instructions are under way at once, whatever devices there are and do, and whatever the
client makes of the messages: each has its own request, and each that comes to an end is acknowledged
once, as its own request turned out. -/
theorem acknowledges_run (d : Dispatcher) (c : Client) (moves : List Move) :
    ∃ lives, Acknowledges moves ((start d c).run moves) lives := by
  obtain ⟨lives, hb⟩ := (Books.start d c).run moves
  have hsettled : Settled ((start d c).run moves) :=
    run_induction .nil (fun _ _ _ hd hs ↦ hs.does hd) moves
  refine ⟨lives, hb.devices, fun l _ ↦ l.accounted, orders_run _ moves, hsettled,
    hb.distinct, hb.asked, fun text j i n a ↦ answered_order hb, fun text j i n r ht ↦ ?_,
    fun text i hi hr ↦ ?_, fun text i hi hr ↦ ?_⟩
  · obtain ⟨l, c, -, -, ⟨x, -, hx, ho⟩ | h | h⟩ := answered_order hb ht
    · have hw : Worker.answer? (.query c none) x.worker = some (.ok r) := by
        rw [← ho, Exchange.outcome?, hx]
      exact Worker.payload_of_serve (Worker.serve_of_answer?_ok hw)
    · cases h
    · cases h
  · rw [step, hi]
    exact begin_of_refuses hr
  · rw [step, hi]
    exact begin_of_not_refuses hr

/-- A payload that reads as an instruction, though one of its fields is no JSON text. -/
def halfPair : String :=
  "\x7b\"op\":\"PING\",\"s\":\"\\ud800\"\x7d"

theorem acknowledged_halfPair : Instruction.ofText? halfPair = some { op := "PING" } ∧
    Json.ofText? halfPair = none ∧
    ((start { bindings := [] } {}).run [.receive halfPair]).bridge.published =
      [.acknowledged true none none] := by
  have hi : Instruction.ofText? halfPair = some { op := "PING" } := by decide +kernel
  have hj : Json.ofText? halfPair = none := Option.isNone_iff_eq_none.mp (by decide +kernel)
  refine ⟨hi, hj, ?_⟩
  simp only [run, List.foldl_cons, List.foldl_nil, step, hi, begin, Bridge.onset, if_pos, hj]
  rfl

end Desk

end AlarmPanel
