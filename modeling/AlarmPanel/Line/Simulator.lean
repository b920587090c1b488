import AlarmPanel.Frame.Assembler
import AlarmPanel.Line.Basic

namespace AlarmPanel

structure Simulator where
  delay : Nat
  cursor : Nat := 0
  /-- When the next line is due; a closed line has none. -/
  due : Option Nat := none
  deriving DecidableEq, Repr

namespace Simulator

def lines : List String := [
  "2014/01/14 17:01  Partition 2    Zone close               Zone 3          ",
  "2014/02/14 17:02  Partition 2    Zone close               Zone 10         ",
  "2014/03/14 17:03  Partition 2    Stay arming             ",
  "2014/04/14 17:04  Partition 2    Partial arming          ",
  "2014/05/14 17:05  Partition 2    Arming with master code  User Code 2     ",
  "2014/06/14 17:06  Partition 2    Zone open                Zone 10         ",
  "2014/07/14 17:07  Partition 2    Zone open                Zone 3          ",
  "2014/08/14 17:08  Partition 2    Burglary alarm           Zone 1          ",
  "2014/09/14 17:09  System Area    User code entered        User Code 2     ",
  "2014/10/14 17:10  Partition 4    Duress alarm on code     User Code 2     "]

variable (s : Simulator)

def nextLine : String × Simulator :=
  (lines.getD s.cursor "", { s with cursor := (s.cursor + 1) % lines.length })

def upcoming : Nat → Simulator → List String
  | 0, _ => []
  | n + 1, s => s.nextLine.1 :: upcoming n s.nextLine.2

def connect (now : Nat) : Except PanelError Unit × Simulator :=
  (.ok (), { s with due := some (s.due.getD (now + s.delay)) })

def disconnect : Except PanelError Unit × Simulator :=
  (.ok (), { s with due := none })

def read (now : Nat) : Except PanelError (List UInt8) × Simulator :=
  match s.due with
  | none => (.error .disconnected, s)
  | some due =>
    if now < due then (.ok [], s)
    else
      let (line, s) := s.nextLine
      (.ok (Text.Utf8.encode line.toList ++ Frame.lineEnd), { s with due := some (now + s.delay) })

end Simulator

instance : Transport Simulator where
  interface _ := .simulated
  isOpen s := s.due.isSome
  pollInterval _ := 100
  connect now s := s.connect now
  disconnect := Simulator.disconnect
  write _ s := (.error (.notImplemented "write" Interface.simulated.name), s)
  read now s := s.read now
  purges _ := true
  isQuiet _ := true
  backlog _ := 1

end AlarmPanel
