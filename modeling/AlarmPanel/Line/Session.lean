import AlarmPanel.Command
import AlarmPanel.Line.Basic
import AlarmPanel.Poll
import AlarmPanel.Status

namespace AlarmPanel.Session

open Line

variable {σ : Type} [Transport σ] (timeout : Nat)

def query (c : Command) (own : Option Nat) : LineM σ String := do
  ensureOpen
  let reply ← send c.text (own.getD timeout)
  ofExcept (reply.payload c.text)

def run (c : Command) : LineM σ Unit := do
  let _ ← query timeout c none
  pure ()

def queryInt (c : Command) (own : Option Nat) (radix : Nat) : LineM σ Int := do
  let payload ← query timeout c own
  ofExcept (Payload.readInt radix payload.toList)

def queryCode (c : Command) (kind : String) : LineM σ UInt32 := do
  let n ← queryInt timeout c none 16
  ofExcept (Payload.wireCode kind n)

def zoneStatus (zone : UInt32) : LineM σ ZoneStatus := do
  let code ← queryCode timeout (.indexed .zoneStatus zone) "ZoneStatus"
  ofExcept (ZoneStatus.ofCode code)

def areaStatus (area : UInt32) : LineM σ AreaStatus := do
  let code ← queryCode timeout (.indexed .areaStatus area) "AreaStatus"
  ofExcept (AreaStatus.ofCode code)

def powerState : LineM σ Int :=
  queryInt timeout .powerQuery none 10

def errorCode : LineM σ Int :=
  queryInt timeout .errorQuery none 16

def errorText : LineM σ String := do
  let code ← queryInt timeout .errorQuery none 10
  pure (moduleErrorText code)

def setPower (state : Int64) : LineM σ Unit :=
  run timeout (.setPower state)

def resetAll : LineM σ Unit :=
  run timeout .resetAll

def virtualInput (input : UInt32) (opened : Bool) : LineM σ Unit :=
  run timeout (.indexed (if opened then .openInput else .closeInput) input)

def codeReading (code : UInt8) : Reading :=
  .number (Decimal.ofInt code.toNat)

def poll : Poll → LineM σ Reading
  | .areaStatus n => do
    let s ← areaStatus timeout n
    pure (codeReading s.code)
  | .zoneStatus n | .zone n => do
    let s ← zoneStatus timeout n
    pure (codeReading s.code)
  | .powerState => do
    let n ← powerState timeout
    pure (.number (Decimal.ofInt n))
  | .errorCode => do
    let n ← errorCode timeout
    pure (.number (Decimal.ofInt n))
  | .errorMessage => do
    let s ← errorText timeout
    pure (.text s)
  | .user n => fail (.unsupported (Poll.user n).name)

end AlarmPanel.Session
