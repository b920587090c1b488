import AlarmPanel.Line.Basic

namespace AlarmPanel

inductive LineItem where
  | chunk (octets : List UInt8)
  | idle
  | failure (e : PanelError)
  deriving DecidableEq, Repr

inductive LineReply where
  | items (l : List LineItem)
  | failure (e : PanelError)
  deriving DecidableEq, Repr

structure ScriptedLine where
  queue : List LineItem := []
  replies : List LineReply := []
  /-- The outcomes of coming attempts to open the line; further ones succeed. -/
  connects : List (Except PanelError Unit) := []
  disconnects : List (Except PanelError Unit) := []
  interval : Nat := 100
  isOpen : Bool := false
  sent : List (List UInt8) := []

namespace ScriptedLine

variable (s : ScriptedLine)

def next (l : List (Except PanelError Unit)) : Except PanelError Unit × List (Except PanelError Unit) :=
  match l with
  | [] => (.ok (), [])
  | r :: l => (r, l)

def connect : Except PanelError Unit × ScriptedLine :=
  let (r, l) := next s.connects
  match r with
  | .ok () => (.ok (), { s with connects := l, isOpen := true })
  | .error e => (.error e, { s with connects := l })

def closed : ScriptedLine :=
  { s with isOpen := false }

/-- The line closes even where closing it fails. -/
def disconnect : Except PanelError Unit × ScriptedLine :=
  let (r, l) := next s.disconnects
  (r, { s with disconnects := l, isOpen := false })

def write (octets : List UInt8) : Except PanelError Unit × ScriptedLine :=
  let s := { s with sent := s.sent ++ [octets] }
  match s.replies with
  | [] => (.ok (), s)
  | .items l :: r => (.ok (), { s with replies := r, queue := s.queue ++ l })
  | .failure e :: r => (.error e, { s with replies := r })

def read : Except PanelError (List UInt8) × ScriptedLine :=
  match s.queue with
  | [] => (.ok [], s)
  | .chunk octets :: q => (.ok octets, { s with queue := q })
  | .idle :: q => (.ok [], { s with queue := q })
  | .failure e :: q => (.error e, { s with queue := q })

def weight : LineItem → Nat
  | .chunk octets => octets.length + 1
  | _ => 1

def queueWeight : List LineItem → Nat
  | [] => 0
  | i :: l => weight i + queueWeight l

def repliesWeight : List LineReply → Nat
  | [] => 0
  | .items i :: l => queueWeight i + repliesWeight l
  | .failure _ :: l => repliesWeight l

def backlog : Nat :=
  queueWeight s.queue + repliesWeight s.replies

def feed (l : List LineItem) : ScriptedLine :=
  { s with queue := s.queue ++ l }

end ScriptedLine

instance : Transport ScriptedLine where
  interface _ := .ptr3
  isOpen := ScriptedLine.isOpen
  pollInterval := ScriptedLine.interval
  connect _ := ScriptedLine.connect
  disconnect := ScriptedLine.disconnect
  write octets s := s.write octets
  read _ := ScriptedLine.read
  isQuiet s := s.queue.isEmpty
  backlog := ScriptedLine.backlog

end AlarmPanel
