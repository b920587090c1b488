import AlarmPanel.Hub
import AlarmPanel.Instruction
import AlarmPanel.Refresh

namespace AlarmPanel

structure Bridge where
  hub : Hub := {}
  dispatcher : Dispatcher
  client : Client := {}
  tracker : Tracker := {}
  posts : List Post := []
  /-- How many notices of the hub have been passed on. -/
  relayed : Nat := 0

inductive Errand where
  | order (text : String) (i : Instruction)
  | poll (binding : Binding) (p : Poll)

inductive Onset where
  | ended (m : Option Message)
  | request (id : String) (q : Request)

namespace Bridge

variable (b : Bridge)

/-- All messages for the broker, those that the client refused among them. -/
def posted : List Message :=
  b.posts.map Post.message

def published : List Message :=
  (b.posts.filter Post.taken).map Post.message

/-- Hands a message to the client. What becomes of it only the log tells. -/
def publish (m : Message) : Bridge :=
  let taken := b.client.accepts b.posts.length (m.topic b.client.topic)
  { b with posts := b.posts ++ [⟨b.hub.clock, m, taken⟩] }

def publishAny (m : Option Message) : Bridge :=
  m.elim b b.publish

def note (item : String) : Bridge :=
  { b with tracker := b.tracker.mark item b.hub.clock }

/-- An update is noted once it has been handed to the client, even if the client refused it. -/
def update (u : Update) : Bridge :=
  (b.publish (.update u)).note u.item

def announce (n : Notice) : Bridge :=
  b.publishAny (Message.ofNotice? n)

def updatesBy (n : Notice) : List Update :=
  match n.news with
  | .event e => b.dispatcher.dispatch n.device e
  | .connected | .disconnected | .line _ => []

def relay (n : Notice) : Bridge :=
  (b.updatesBy n).foldl update (b.announce n)

def catchUp : Bridge :=
  { (b.hub.log.drop b.relayed).foldl relay b with relayed := b.hub.log.length }

/-- The device that an instruction is for: the first one unless it says so. -/
def target? (i : Instruction) : Option String :=
  i.device.or b.hub.ids.head?

/-- An instruction without a command or a device ends at once, and so does a poll for an item that was
updated within its interval. -/
def onset : Errand → Onset
  | .order text i =>
    if i.op = "PING" then .ended (some (.acknowledged true (Json.ofText? text) none))
    else
      match i.build, b.target? i with
      | .ok c, some id => .request id (.query c none)
      | _, _ => .ended (some (.acknowledged false (Json.ofText? text) none))
  | .poll binding p =>
    if b.tracker.isDue binding.item binding.refresh b.hub.clock then
      .request binding.device (.poll p)
    else .ended none

/-- The message that the answer to the request of an errand makes. A poll makes none if it fails or if
its value cannot be transformed. -/
def outcome (a : Except PanelError Reading) : Errand → Option Message
  | .order text _ =>
    match a with
    | .ok r => some (.acknowledged true (Json.ofText? text) (some r.display))
    | .error _ => some (.acknowledged false (Json.ofText? text) none)
  | .poll binding _ =>
    match a.bind (b.dispatcher.transform binding) with
    | .ok v => some (.update ⟨binding.item, v⟩)
    | .error _ => none

def finish (a : Except PanelError Reading) (e : Errand) : Bridge :=
  match b.outcome a e with
  | some (.update u) => b.update u
  | m => b.publishAny m

/-- Carries an errand out while nothing else is done. It has no end if its device never answers. -/
def carryOut (e : Errand) : Bridge :=
  match b.onset e with
  | .ended m => b.publishAny m
  | .request id q =>
    let r := b.hub.ask id q
    let b := { b with hub := r.2 }
    match r.1 with
    | some a => b.finish a e
    | none => b

/-- Takes a message of the broker in. One that is no instruction has no effect. -/
def receive (text : String) : Bridge :=
  match Instruction.ofText? text with
  | some i => b.carryOut (.order text i)
  | none => b

def pollAll : Bridge :=
  b.dispatcher.polled.foldl (fun b p ↦ b.carryOut (.poll p.1 p.2)) b

def restart : Bridge :=
  { b with hub := b.hub.restart }

/-- Lets the devices run until time `t` and passes on what they tell. -/
def runUntil (t : Nat) : Bridge :=
  { b with hub := b.hub.runUntil t }.catchUp

def tick : Bridge :=
  b.restart.pollAll

end Bridge

end AlarmPanel
