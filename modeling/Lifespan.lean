import Lifespan.Document.Parser
import Lifespan.Document.Printer
import Lifespan.Document.Reading
import Lifespan.Scenario.Transcript
import Lifespan.Proofs.Stack
import Lifespan.Proofs.Cell
import Lifespan.Proofs.GripsAndStages
import Lifespan.Proofs.ScopeSteps
import Lifespan.Proofs.Life
import Lifespan.Proofs.Ending
import Lifespan.Proofs.Accounts
import Lifespan.Proofs.Stock
import Lifespan.Proofs.Content
import Lifespan.Proofs.Access
import Lifespan.Proofs.Registered
import Lifespan.Proofs.Uniqueness
import Lifespan.Proofs.Drained
import Lifespan.Proofs.Ended
import Lifespan.Proofs.Chain
import Lifespan.Proofs.Walk
import Lifespan.Proofs.Cyclic
import Lifespan.Proofs.Deadlock
import Lifespan.Proofs.Interrupted
import Lifespan.Proofs.Guarded
import Lifespan.Proofs.Dependency
import Lifespan.Proofs.OwedEvents
import Lifespan.Proofs.Telling
import Lifespan.Proofs.Grammar
import Lifespan.Proofs.Contest
import Lifespan.Proofs.Sealed
import Lifespan.Proofs.Loudness
import Lifespan.Proofs.Resolution
import Lifespan.Proofs.Alone
import Lifespan.Proofs.Apart
import Lifespan.Proofs.Sweep
import Lifespan.Proofs.Certain
import Lifespan.Proofs.Foreign
import Lifespan.Proofs.Undisturbed
import Lifespan.Proofs.UndisturbedTeardown
import Lifespan.Proofs.Closing
import Lifespan.Proofs.Shutdown
import Lifespan.Proofs.Views
import Lifespan.Proofs.Straight
import Lifespan.Proofs.Vacant
import Lifespan.Proofs.Origin
import Lifespan.Proofs.Failed
import Lifespan.Proofs.CallProgress
import Lifespan.Proofs.Reports
import Lifespan.Proofs.Renaming
import Lifespan.Proofs.Interchange
import Lifespan.Proofs.Entries
import Lifespan.Proofs.Presence
import Lifespan.Proofs.Attributes
import Lifespan.Proofs.Reuse
