import AlarmPanel.Device.Run
import AlarmPanel.Line.Link

namespace AlarmPanel

/-- What the serial port of a name does for the device that is started as the `n`th, if it is there. -/
abbrev Ports := Nat → String → Option ScriptedLine

/-- The devices of one process, on one clock and with one log of notices. One that was replaced or
removed is kept, where it has stopped. -/
structure Hub where
  ports : Ports := fun _ _ ↦ none
  devices : List (Device Link) := []
  /-- Where among `devices` the device in use under each identifier stands. -/
  handles : List (String × Nat) := []
  clock : Nat := 0
  log : List Notice := []

namespace Hub

variable (h : Hub)

def ids : List String :=
  h.handles.map Prod.fst

def place? (id : String) : Option Nat :=
  (h.handles.find? fun p ↦ p.1 = id).map Prod.snd

def place (id : String) : Except PanelError Nat :=
  match h.place? id with
  | some i => .ok i
  | none => .error (.unknownDevice id)

def get? (id : String) : Option (Device Link) :=
  (h.place? id).bind fun i ↦ h.devices[i]?

def get (id : String) : Except PanelError (Device Link) :=
  match h.get? id with
  | some d => .ok d
  | none => .error (.unknownDevice id)

def told (d e : Device Link) : List Notice :=
  (e.worker.log.drop d.worker.log.length).map (Notice.mk d.config.id)

def change (i : Nat) (f : Device Link → Device Link) : Hub :=
  match h.devices[i]? with
  | none => h
  | some d => { h with devices := h.devices.set i (f d), log := h.log ++ told d (f d) }

def changeAll (f : Device Link → Device Link) : Hub :=
  (List.range h.devices.length).foldl (fun h i ↦ h.change i f) h

def run : Hub :=
  h.changeAll Device.run

def runUntil (t : Nat) : Hub :=
  { h.changeAll (Device.runUntil · t) with clock := t }

def stop (i : Nat) : Hub :=
  h.change i fun d ↦ d.cancel.run

def release (id : String) : Hub :=
  { h with handles := h.handles.filter fun p ↦ p.1 ≠ id }

/-- Takes a device in. One with the same identifier is stopped, but only after the new one has begun
to run. -/
def insert (d : Device Link) : Hub :=
  let i := h.devices.length
  let g := { h with
    devices := h.devices ++ [d]
    log := h.log ++ d.worker.log.map (Notice.mk d.config.id) }
  let g :=
    match h.place? d.config.id with
    | some old => ((g.change i Device.run).stop old).release d.config.id
    | none => g
  { g with handles := g.handles ++ [(d.config.id, i)] }

/-- The transport that a configuration asks for, as it is for the device started as the `n`th. -/
def link (n : Nat) (c : DeviceConfig) : Link :=
  .ofConfig c (h.ports n c.serialPort)

def add (c : DeviceConfig) : Hub :=
  h.insert (Device.start c (h.link h.devices.length c) h.clock)

def reconnect (id : String) : Except PanelError Hub :=
  (h.get id).map fun d ↦ h.add d.config

def remove (id : String) : Except PanelError Hub :=
  (h.place id).map fun i ↦ (h.release id).stop i

def shutdown : Hub :=
  h.handles.foldl (fun h p ↦ h.stop p.2) { h with handles := [] }

def restart : Hub :=
  (h.ids.filter fun id ↦ (h.get? id).any Device.isFinished).foldl
    (fun h id ↦ (h.reconnect id).toOption.getD h) h

/-- Puts a request to the device at place `i`, and gives the answer if there ever is one. While the
exchange takes its time, the other devices run on. -/
def request (i : Nat) (q : Request) : Option (Except PanelError Reading) × Hub :=
  match h.devices[i]? with
  | none => (none, h)
  | some d =>
    let e := (d.submit q).run
    (e.answerTo? d.issued, (h.change i fun _ ↦ e).runUntil (max h.clock e.now))

/-- Lets the device at place `i` come to rest, and the others run as long as that takes. -/
def settle (i : Nat) : Hub :=
  match h.devices[i]? with
  | none => h
  | some d =>
    let e := d.settle
    (h.change i fun _ ↦ e).runUntil (max h.clock e.now)

def ask (id : String) (q : Request) : Option (Except PanelError Reading) × Hub :=
  match h.place id with
  | .ok i => h.request i q
  | .error e => (some (.error e), h)

end Hub

end AlarmPanel
