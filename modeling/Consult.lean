import Consult.Cli
import Consult.Format.Consultation
import Consult.Main
import Consult.Proofs.Persistence
import Consult.Proofs.Fallback
import Consult.Proofs.Goals
import Consult.Proofs.Model
import Consult.Proofs.ClosedWorld
import Consult.Proofs.Naming
import Consult.Proofs.Path
import Consult.Proofs.Sweep
import Consult.Proofs.Continuation
import Consult.Proofs.Saturation
import Consult.Proofs.RuleOrder
import Consult.Proofs.Provenance
import Consult.Proofs.Roundtrip
import Consult.Proofs.Parking
import Consult.Proofs.Progress
import Consult.Proofs.Attribution
import Consult.Proofs.Skipping
import Consult.Proofs.Limits
import Consult.Proofs.Condition.Involution
import Consult.Proofs.KnownValues
import Consult.Proofs.Condition.Origin
import Consult.Proofs.Condition.Thresholds
import Consult.Proofs.Condition.Quorum
import Consult.Proofs.Condition.ReadOnce
import Consult.Proofs.Faults
import Consult.Proofs.Solving
import Consult.Proofs.Standstill
import Consult.Proofs.Trail
import Consult.Proofs.FirstValue
import Consult.Proofs.FillingIn
import Consult.Proofs.Seeding
import Consult.Proofs.Responsibility
import Consult.Proofs.Ordering
