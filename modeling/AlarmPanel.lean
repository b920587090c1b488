import AlarmPanel.Main
import AlarmPanel.Proofs.Frame.Split
import AlarmPanel.Proofs.Line.Exchange
import AlarmPanel.Proofs.Device.Request
import AlarmPanel.Proofs.Device.Hearing
import AlarmPanel.Proofs.Device.Listening
import AlarmPanel.Proofs.Device.Serving
import AlarmPanel.Proofs.Device.Moves
import AlarmPanel.Proofs.Device.Loss
import AlarmPanel.Proofs.Device.Rest
import AlarmPanel.Proofs.Device.Mixing
import AlarmPanel.Proofs.Text.Decode
import AlarmPanel.Proofs.Frame.Trace
import AlarmPanel.Proofs.Device.Answers
import AlarmPanel.Proofs.Device.Late
import AlarmPanel.Proofs.Frame.Filling
import AlarmPanel.Proofs.Line.Keeping
import AlarmPanel.Proofs.Device.Course
import AlarmPanel.Proofs.Device.LifeCycle
import AlarmPanel.Proofs.Device.Ledger
import AlarmPanel.Proofs.Event.Grammar
import AlarmPanel.Proofs.Text.Number
import AlarmPanel.Proofs.Event.Reading
import AlarmPanel.Proofs.Event.Recognition
import AlarmPanel.Proofs.Command.Template
import AlarmPanel.Proofs.Command.Rendering
import AlarmPanel.Proofs.Command.Instruction
import AlarmPanel.Proofs.Line.Cutting
import AlarmPanel.Proofs.Device.Growth
import AlarmPanel.Proofs.Hub.Upkeep
import AlarmPanel.Proofs.Hub.Replacement
import AlarmPanel.Proofs.Hub.History
import AlarmPanel.Proofs.Device.Lasting
import AlarmPanel.Proofs.Hub.Roster
import AlarmPanel.Proofs.Hub.Everywhere
import AlarmPanel.Proofs.Hub.Ownership
import AlarmPanel.Proofs.Line.Failing
import AlarmPanel.Proofs.Device.Directed
import AlarmPanel.Proofs.Host.Polling
import AlarmPanel.Proofs.Bridge.Desk
import AlarmPanel.Proofs.Bridge.Books
import AlarmPanel.Proofs.Bridge.Acknowledging
import AlarmPanel.Proofs.Bridge.Refreshing
import AlarmPanel.Proofs.Device.Closing
import AlarmPanel.Proofs.Device.Simulated
import AlarmPanel.Proofs.Line.Schedule
import AlarmPanel.Proofs.Line.Watched
import AlarmPanel.Proofs.Device.Canned
import AlarmPanel.Proofs.Frame.Parting
import AlarmPanel.Proofs.Device.Reopening
import AlarmPanel.Proofs.Reply.Payload
import AlarmPanel.Proofs.Reply.Noise
import AlarmPanel.Proofs.Command.Slicing
import AlarmPanel.Proofs.Command.Canonical
import AlarmPanel.Proofs.Reply.Status
import AlarmPanel.Proofs.Line.Inquiry
import AlarmPanel.Proofs.Event.Keys
import AlarmPanel.Proofs.Binding.Token
import AlarmPanel.Proofs.Binding.Matching
import AlarmPanel.Proofs.Binding.Term
import AlarmPanel.Proofs.Binding.Dispatching
import AlarmPanel.Proofs.Binding.Naming
import AlarmPanel.Proofs.Binding.Feeding
import AlarmPanel.Proofs.Device.Undelayed
import AlarmPanel.Proofs.Frame.Overflow
import AlarmPanel.Proofs.Frame.Bounding
import AlarmPanel.Proofs.Frame.Awaiting
import AlarmPanel.Proofs.Decimal.Range
import AlarmPanel.Proofs.Decimal.Spelling
import AlarmPanel.Proofs.Binding.Origin
import AlarmPanel.Proofs.Bridge.Publishing
