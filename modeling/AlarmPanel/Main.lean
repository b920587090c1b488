import AlarmPanel.Host.Config

namespace AlarmPanel

def configFile? : List String → Option String
  | [] => some "config.toml"
  | ["--config", file] => some file
  | _ => none

def writeMessages (topic : String) (n : Nat) (b : Bridge) : IO Unit := do
  let now ← IO.monoMsNow
  let out ← IO.getStdout
  for m in b.published.drop n do
    out.putStrLn (m.topic topic ++ " " ++ (m.toJson now).toText)
  out.flush

/-- Takes lines in until the input ends. Devices start anew and bindings are polled when the last
round of polls, at `polled`, is long enough ago. -/
partial def serve (c : HostConfig) (start polled : Nat) (b : Bridge) : IO Unit := do
  let line ← (← IO.getStdin).getLine
  if line.isEmpty then
    writeMessages c.broker.published b.published.length { b with hub := b.hub.shutdown }.catchUp
  else
    let now := (← IO.monoMsNow) - start
    let due := polled + c.granularity ≤ now
    let d := (b.runUntil now).receive line
    let d := (if due then d.tick else d).catchUp
    writeMessages c.broker.published b.published.length d
    serve c start (if due then now else polled) d

end AlarmPanel

open AlarmPanel

def main (args : List String) : IO UInt32 := do
  let some file := configFile? args
    | IO.eprintln "usage: --config FILE"
      return 2
  match HostConfig.ofText (← IO.FS.readFile file) with
  | .error e =>
    IO.eprintln e.message
    return 1
  | .ok c =>
    match Address.ofText c.broker.url.toList with
    | .error e =>
      IO.eprintln e.message
      return 1
    | .ok _ =>
      serve c (← IO.monoMsNow) 0 c.bridge
      return 0
