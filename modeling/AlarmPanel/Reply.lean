import AlarmPanel.Error
import AlarmPanel.Text.Blank

namespace AlarmPanel

inductive Reply where
  | ok (payload : String)
  | failure (token : ReplyToken)
  | timeout
  | empty
  deriving DecidableEq, Repr

namespace Reply

def terminator : UInt8 := 0x3A

/-- Leaves out every return that a colon follows, with the colon, in one pass. -/
def dropNoise : List Char → List Char
  | [] => []
  | '\r' :: ':' :: s => dropNoise s
  | c :: s => c :: dropNoise s

def isLineEnd (c : Char) : Bool :=
  c == '\r' || c == '\n'

def clean (raw : List Char) : List Char :=
  Text.dropEndWhile isLineEnd
    (Text.dropEndWhile (· == ':') (Text.trimBy isLineEnd (dropNoise raw)))

def classify (raw : List Char) : Reply :=
  match clean raw with
  | [] => empty
  | c :: s =>
    match ReplyToken.ofText? (c :: s) with
    | some token => failure token
    | none => ok (String.ofList (c :: s))

/-- The payload of a reply to `command`, or the failure that the reply stands for. -/
def payload (command : String) : Reply → Except PanelError String
  | ok text => .ok text
  | failure token => .error (.errorResponse command token)
  | timeout => .error (.timeout command)
  | empty => .error (.noResponse command)

end Reply

namespace Payload

/-- The text between the first equals sign and the next one. -/
def value? (s : List Char) : Option (List Char) :=
  (Text.splitFirst? (· == '=') s).map fun r ↦ r.2.takeWhile (· != '=')

def noValue (s : List Char) : PanelError :=
  .malformedResponse ("no '=' in reply '" ++ String.ofList s ++ "'")

def badNumber (value : List Char) (radix : Nat) (e : IntegerError) : PanelError :=
  .malformedResponse ("cannot parse '" ++ String.ofList value ++ "' in base " ++
    String.ofList (Numeral.decimal radix) ++ ": " ++ e.message)

def readInt (radix : Nat) (s : List Char) : Except PanelError Int :=
  match value? s with
  | none => .error (noValue s)
  | some v => (Numeral.read .i64 radix (Text.trim v)).mapError (badNumber (Text.trim v) radix)

def wireCode (kind : String) (n : Int) : Except PanelError UInt32 :=
  if 0 ≤ n ∧ n ≤ Bounds.u32.hi then .ok (.ofNat n.toNat)
  else .error (.malformedResponse
    (kind ++ " code " ++ String.ofList (Numeral.signed n) ++ " out of range"))

end Payload

end AlarmPanel
