import AlarmPanel.Dispatch
import AlarmPanel.Json.Printer
import AlarmPanel.Event

namespace AlarmPanel

inductive Message where
  | connected (device : String)
  | disconnected (device : String)
  | event (device : String) (e : Event)
  | update (u : Update)
  /-- The outcome of an instruction, with the instruction itself and what it fetched. -/
  | acknowledged (success : Bool) (source : Option Json) (data : Option String)

namespace Message

def op : Message → String
  | connected _ => "CONNECTED"
  | disconnected _ => "DISCONNECTED"
  | event .. => "EVENT"
  | update _ => "UPDATE"
  | acknowledged .. => "CMD_ACK"

def reading : Reading → Json
  | .number x => .ofFloat x
  | .text s => .text s

def index (n : UInt32) : Json :=
  .int n.toNat

def subject : Option Subject → List (String × Json)
  | some (.zone n) => [("zone", index n)]
  | some (.user n) => [("user", index n)]
  | none => []

def chars (s : List Char) : Json :=
  .text (String.ofList s)

def fields : Message → List (String × Json)
  | connected device => [("device", .text device)]
  | disconnected device => [("device", .text device)]
  | event device e =>
    [("device", .text device), ("date", chars (e.date.render '-')), ("time", chars e.clock.render),
      ("partition", index e.partition), ("action", .text e.action.key)] ++ subject e.subject
  | update u => [("item", .text u.item), ("value", reading u.value)]
  | acknowledged success source data =>
    ("success", .bool success) :: (source.map fun j ↦ ("src", j)).toList ++
      (data.map fun s ↦ ("data", .text s)).toList

def toJson (now : Nat) (m : Message) : Json :=
  .object (("now", .int now) :: ("op", .text m.op) :: m.fields)

def topic (base : String) : Message → String
  | update u => base ++ "/" ++ u.item
  | _ => base

def isRetained : Message → Bool
  | update _ => true
  | _ => false

def ofNotice? (n : Notice) : Option Message :=
  match n.news with
  | .connected => some (.connected n.device)
  | .disconnected => some (.disconnected n.device)
  | .line _ => none
  | .event e => some (.event n.device e)

def update? : Message → Option Update
  | update u => some u
  | connected _ | disconnected _ | event .. | acknowledged .. => none

end Message

end AlarmPanel
