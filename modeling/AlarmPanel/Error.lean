import AlarmPanel.Numeral

namespace AlarmPanel

inductive ReplyToken where
  | fail
  | err
  deriving DecidableEq, Repr

namespace ReplyToken

def text : ReplyToken → String
  | fail => "&FAIL"
  | err => "ERR"

def description : ReplyToken → String
  | fail => "Command rejected"
  | err => "Module error"

def display (t : ReplyToken) : String :=
  t.text ++ ": " ++ t.description

def ofText? (s : List Char) : Option ReplyToken :=
  [fail, err].find? fun t ↦ t.text.toList == s

end ReplyToken

inductive PanelError where
  | io (reason : String)
  | connection (port reason : String)
  | noResponse (command : String)
  | timeout (command : String)
  | errorResponse (command : String) (token : ReplyToken)
  | malformedResponse (details : String)
  | decode (kind : String) (code : UInt32)
  | unknownAction (action line : String)
  | notImplemented (operation interface : String)
  | unsupported (what : String)
  | disconnected
  | channelClosed
  | unknownDevice (id : String)
  | expression (expression reason : String)
  | transformation (kind function reason : String)
  | config (details : String)
  deriving DecidableEq, Repr

namespace PanelError

def message : PanelError → String
  | io reason => "I/O error: " ++ reason
  | connection port reason => "Connection error on " ++ port ++ ": " ++ reason
  | noResponse command => "No response received for " ++ command
  | timeout command => "Command timeout: " ++ command
  | errorResponse command token => "Error response for " ++ command ++ ": " ++ token.display
  | malformedResponse details => "Malformed response: " ++ details
  | decode kind code =>
    "Cannot decode " ++ String.ofList (Numeral.hexCode code.toNat) ++ " as " ++ kind
  | unknownAction action line => "Unknown action '" ++ action ++ "' in line: " ++ line
  | notImplemented operation interface =>
    operation ++ " not implemented by " ++ interface ++ " transport"
  | unsupported what => what ++ " has no synchronous query"
  | disconnected => "Device disconnected"
  | channelClosed => "Channel closed"
  | unknownDevice id => "Unknown device: " ++ id
  | expression text reason => "Expression error in '" ++ text ++ "': " ++ reason
  | transformation kind function reason =>
    "Transformation " ++ kind ++ "(" ++ function ++ ") failed: " ++ reason
  | config details => "Invalid configuration: " ++ details

def isConnectionLevel : PanelError → Bool
  | io _ | connection .. | disconnected | channelClosed => true
  | _ => false

end PanelError

end AlarmPanel
