import FairMerge.Network.Session
import FairMerge.Proofs.Administration
import FairMerge.Proofs.ArrivalOrder
import FairMerge.Proofs.Atomicity
import FairMerge.Proofs.Configuration
import FairMerge.Proofs.Conservation
import FairMerge.Proofs.Enrolment
import FairMerge.Proofs.FailingSources
import FairMerge.Proofs.FailureCause
import FairMerge.Proofs.History
import FairMerge.Proofs.IdleRuns
import FairMerge.Proofs.Lasting
import FairMerge.Proofs.Ledger
import FairMerge.Proofs.LookaheadTransparency
import FairMerge.Proofs.Moments
import FairMerge.Proofs.NextKind
import FairMerge.Proofs.Numbering
import FairMerge.Proofs.Overtaking
import FairMerge.Proofs.PassCourse
import FairMerge.Proofs.PlainPass
import FairMerge.Proofs.Policy
import FairMerge.Proofs.Promises
import FairMerge.Proofs.PublicCount
import FairMerge.Proofs.Queries
import FairMerge.Proofs.QueryTransparency
import FairMerge.Proofs.QueueService
import FairMerge.Proofs.ReadyFlags
import FairMerge.Proofs.Refills
import FairMerge.Proofs.Release
import FairMerge.Proofs.Routing
import FairMerge.Proofs.Signals
import FairMerge.Proofs.SourceHistory
import FairMerge.Proofs.SpuriousNotices
import FairMerge.Proofs.TransientFaults
import FairMerge.Proofs.Twins
import FairMerge.Proofs.ViewSteps
import FairMerge.Proofs.WakeUp
import FairMerge.Proofs.Workload
import FairMerge.Source
import FairMerge.Source.Memory.Move
import FairMerge.Wire
