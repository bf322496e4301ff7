import Stepwise.Config.Store
import Stepwise.Rehearsal
import Stepwise.Script.Samples
import Stepwise.Session.Schedule
import Stepwise.Proofs.Session.Move
import Stepwise.Proofs.Session.Steps
import Stepwise.Proofs.Session.Departing
import Stepwise.Proofs.Session.Attended
import Stepwise.Proofs.Session.Leaving
import Stepwise.Proofs.Session.Lifecycle
import Stepwise.Proofs.Session.Chronicle
import Stepwise.Proofs.Breakpoint.Confirmation
import Stepwise.Proofs.Breakpoint.Registration
import Stepwise.Proofs.Breakpoint.Agreement
import Stepwise.Proofs.Script.Alike
import Stepwise.Proofs.Script.Observing
import Stepwise.Proofs.Script.Undisturbed
import Stepwise.Proofs.Script.Transparency
import Stepwise.Proofs.Handle.Ledger
import Stepwise.Proofs.Value.Described
import Stepwise.Proofs.Script.Telling
import Stepwise.Proofs.Handle.Growth
import Stepwise.Proofs.Session.Replacing
import Stepwise.Proofs.Script.Places
import Stepwise.Proofs.Script.Stepping
import Stepwise.Proofs.Script.ArgumentBinding
import Stepwise.Proofs.Session.Freshness
import Stepwise.Proofs.Session.Aftermath
import Stepwise.Proofs.Session.Delivery
import Stepwise.Proofs.Session.Coherence
import Stepwise.Proofs.Script.HitCounts
import Stepwise.Proofs.Session.Naming
import Stepwise.Proofs.Session.Setting
import Stepwise.Proofs.Session.Refusing
import Stepwise.Proofs.Script.Concluding
import Stepwise.Proofs.Path.Spelling
import Stepwise.Proofs.Breakpoint.Scoped
import Stepwise.Proofs.Session.Latest
import Stepwise.Proofs.Expression.Grammar
import Stepwise.Proofs.Expression.Spelling
import Stepwise.Proofs.Expression.Printing
import Stepwise.Proofs.Session.OwnStop
import Stepwise.Proofs.Session.ShownPath
import Stepwise.Proofs.Breakpoint.Verification
import Stepwise.Proofs.Session.Abandoning
import Stepwise.Proofs.StopChannel.Fifo
import Stepwise.Proofs.Session.ExecutedPath
import Stepwise.Proofs.Config.Record
import Stepwise.Proofs.Config.Store
import Stepwise.Proofs.Session.Snapshot
import Stepwise.Proofs.Script.Interrupting
import Stepwise.Proofs.Script.ReadingBack
import Stepwise.Proofs.Breakpoint.EveryRequest
import Stepwise.Proofs.Session.Repeating
import Stepwise.Proofs.Session.Typing
import Stepwise.Proofs.Expression.Operators
import Stepwise.Proofs.Handle.Refused
import Stepwise.Proofs.Session.Converting
import Stepwise.Proofs.Session.TypingBack
import Stepwise.Proofs.Script.Answering
import Stepwise.Proofs.Script.Independent
import Stepwise.Proofs.Script.Isolation
import Stepwise.Proofs.Script.Resolving
import Stepwise.Proofs.Breakpoint.FirstOperator
import Stepwise.Proofs.Expression.Rejoining
