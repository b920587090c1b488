import AlarmPanel.Binding
import AlarmPanel.Text.Blank

namespace AlarmPanel

/-- How the bridge reaches the broker and which topics it uses. -/
structure Broker where
  url : String
  client : String := "paradox-bridge"
  subscribed : String := "paradox/cmd"
  published : String := "paradox"
  deriving DecidableEq, Repr

structure Address where
  host : String
  port : Nat
  deriving DecidableEq, Repr

inductive AddressError where
  | noPort
  | badPort (e : IntegerError)
  deriving DecidableEq, Repr

namespace AddressError

def message : AddressError → String
  | noPort => "MQTT URL must be in format mqtt://host:port"
  | badPort e => "Invalid MQTT port number: " ++ e.message

end AddressError

namespace Address

def withoutScheme (s : List Char) : List Char :=
  ((Text.afterHead? "mqtt://".toList s).or (Text.afterHead? "tcp://".toList s)).getD s

def ofText (s : List Char) : Except AddressError Address :=
  match Text.splitLast? (· = ':') (withoutScheme s) with
  | none => .error .noPort
  | some (host, port) =>
    match Numeral.read .u16 10 port with
    | .ok n => .ok ⟨String.ofList host, n.toNat⟩
    | .error e => .error (.badPort e)

end Address

inductive TransformationError where
  | noOpening (text : String)
  | noClosing (text : String)
  deriving DecidableEq, Repr

namespace TransformationError

def message : TransformationError → String
  | noOpening text => "transformation '" ++ text ++ "' must look like KIND(function)"
  | noClosing text => "transformation '" ++ text ++ "' is missing ')'"

end TransformationError

/-- A kind and, in brackets, a function. The function may hold brackets itself. -/
def Transformation.ofText (text : String) : Except TransformationError Transformation :=
  match Text.splitFirst? (· = '(') text.toList with
  | none => .error (.noOpening text)
  | some (kind, rest) =>
    match Text.beforeLast? ')' rest with
    | none => .error (.noClosing text)
    | some function =>
      .ok ⟨String.ofList (Text.trim kind), String.ofList (Text.trim function)⟩

end AlarmPanel
