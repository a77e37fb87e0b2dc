import DebugAdapter.Execution.Operation
import DebugAdapter.Transport.Connection
import DebugAdapter.Transport.Loop
import DebugAdapter.Transport.Transcript
import DebugAdapter.Proofs.Execution.Contention
import DebugAdapter.Proofs.Session.Alternation
import DebugAdapter.Proofs.Session.Answers
import DebugAdapter.Proofs.Session.Barrier
import DebugAdapter.Proofs.Session.LiveThreads
import DebugAdapter.Proofs.Session.Phases
import DebugAdapter.Proofs.Session.Printing
import DebugAdapter.Proofs.Session.StepCompletion
import DebugAdapter.Proofs.Output.Attribution
import DebugAdapter.Proofs.Text.Utf8
import DebugAdapter.Proofs.Output.Styling
import DebugAdapter.Proofs.Session.Delivery
import DebugAdapter.Proofs.Session.Joining
import DebugAdapter.Proofs.Source.Keys
import DebugAdapter.Proofs.Session.Resolution
import DebugAdapter.Proofs.Session.Announcing
import DebugAdapter.Proofs.Transport.Framing
import DebugAdapter.Proofs.Output.Flushing
import DebugAdapter.Proofs.Transport.Loop
import DebugAdapter.Proofs.Session.Relabelling
import DebugAdapter.Proofs.Output.Sequence
import DebugAdapter.Proofs.Output.Pending
import DebugAdapter.Proofs.Path.Choice
import DebugAdapter.Proofs.Path.Canonical
import DebugAdapter.Proofs.Path.Relative
import DebugAdapter.Proofs.Path.Location
import DebugAdapter.Proofs.Session.AskedStops
import DebugAdapter.Proofs.Breakpoint.Replacement
import DebugAdapter.Proofs.Session.Visits
import DebugAdapter.Proofs.Session.SkippedLines
import DebugAdapter.Proofs.Session.ExceptionStops
import DebugAdapter.Proofs.Session.ThreadEvents
import DebugAdapter.Proofs.Breakpoint.LogMessage
import DebugAdapter.Proofs.Breakpoint.HitCondition
import DebugAdapter.Proofs.Text.Encoding
