import AlarmPanel.Command
import AlarmPanel.Json.Basic
import AlarmPanel.Text.Quoted

namespace AlarmPanel

structure Instruction where
  op : String
  device : Option String := none
  zone : Option UInt32 := none
  area : Option UInt32 := none
  input : Option UInt32 := none
  opened : Option Bool := none
  state : Option Int64 := none
  code : Option String := none
  mode : Option String := none
  command : Option String := none
  deriving DecidableEq

inductive InstructionError where
  | missing (field : String)
  | badMode (mode : String)
  | unknown (op : String)
  deriving DecidableEq, Repr

namespace InstructionError

def message : InstructionError → String
  | missing field => "missing " ++ field
  | badMode mode => "invalid arm mode Some(" ++ String.ofList (Text.quote mode.toList) ++ ")"
  | unknown op => "unknown command " ++ op

end InstructionError

namespace Instruction

open Json

def fieldNames : List String :=
  ["op", "device", "zone", "area", "input", "open", "state", "code", "mode", "command"]

/-- The members of an object that are fields, each with its name; `none` where one is repeated. -/
def fieldsOfMembers? : List (List Mark × Raw) → Option (List (String × Raw))
  | [] => some []
  | (k, v) :: l =>
    (Mark.text? k).bind fun k ↦ (fieldsOfMembers? l).bind fun r ↦
      if fieldNames.contains k then
        if r.any fun f ↦ f.1 == k then none else some ((k, v) :: r)
      else some r

def fields? : Raw → Option (List (String × Raw))
  | .object l => fieldsOfMembers? l
  | .array l => if fieldNames.length < l.length then none else some (fieldNames.zip l)
  | _ => none

def readText? : Raw → Option String
  | .text l => Mark.text? l
  | _ => none

def readBool? : Raw → Option Bool
  | .bool b => some b
  | _ => none

def readInt? (b : Bounds) : Raw → Option Int
  | .number f => f.integer?.filter fun n ↦ b.lo ≤ n && n ≤ b.hi
  | _ => none

def readIndex? (r : Raw) : Option UInt32 :=
  (readInt? .u32 r).map fun n ↦ .ofNat n.toNat

def readState? (r : Raw) : Option Int64 :=
  (readInt? .i64 r).map .ofInt

variable {α : Type}

def optional? (fields : List (String × Raw)) (name : String) (read : Raw → Option α) :
    Option (Option α) :=
  match (fields.find? fun f ↦ f.1 == name).map Prod.snd with
  | none | some .null => some none
  | some r => (read r).map some

def ofFields? (l : List (String × Raw)) : Option Instruction := do
  let some op ← optional? l "op" readText? | none
  return {
    op
    device := ← optional? l "device" readText?
    zone := ← optional? l "zone" readIndex?
    area := ← optional? l "area" readIndex?
    input := ← optional? l "input" readIndex?
    opened := ← optional? l "open" readBool?
    state := ← optional? l "state" readState?
    code := ← optional? l "code" readText?
    mode := ← optional? l "mode" readText?
    command := ← optional? l "command" readText? }

def ofText? (s : String) : Option Instruction :=
  (Raw.ofText? s.toList).bind fun r ↦ (fields? r).bind ofFields?

variable (i : Instruction)

def modeNamed? (name : String) : Option ArmMode :=
  if name = "A" ∨ name = "away" then some .away
  else if name = "F" ∨ name = "force" then some .force
  else if name = "S" ∨ name = "stay" then some .stay
  else if name = "I" ∨ name = "instant" then some .instant
  else none

def armMode : Except InstructionError ArmMode :=
  match i.mode with
  | none => .ok .away
  | some name =>
    match modeNamed? name with
    | some m => .ok m
    | none => .error (.badMode name)

def required (name : String) : Option α → Except InstructionError α
  | some a => .ok a
  | none => .error (.missing name)

def areaOrFirst : UInt32 :=
  i.area.getD 1

/-- An instruction without a mode arms as on leaving; one without a state opens an input. -/
def build : Except InstructionError Command :=
  match i.op with
  | "ZONE_STATUS" => (required "zone" i.zone).map (.indexed .zoneStatus)
  | "AREA_STATUS" => .ok (.indexed .areaStatus i.areaOrFirst)
  | "ARM" => do
    let mode ← i.armMode
    let code ← required "code" i.code
    return .arm i.areaOrFirst mode code
  | "DISARM" => (required "code" i.code).map (.disarm i.areaOrFirst)
  | "PANIC_EMERGENCY" => .ok (.indexed .emergencyPanic i.areaOrFirst)
  | "PANIC_MEDICAL" => .ok (.indexed .medicalPanic i.areaOrFirst)
  | "PANIC_FIRE" => .ok (.indexed .firePanic i.areaOrFirst)
  | "SMOKE_RESET" => .ok (.indexed .smokeReset i.areaOrFirst)
  | "VIRTUAL_INPUT" =>
    (required "input" i.input).map
      (.indexed (if i.opened.getD true then .openInput else .closeInput))
  | "POWER" => (required "state" i.state).map .setPower
  | "POWER_STATE" => .ok .powerQuery
  | "ERROR" => .ok .errorQuery
  | "RESET_ALL" => .ok .resetAll
  | "RAW" => (required "command" i.command).map .ofText
  | op => .error (.unknown op)

end Instruction

end AlarmPanel
