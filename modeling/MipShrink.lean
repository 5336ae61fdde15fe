import MipShrink.Main
import MipShrink.Parameters.Defaults
import MipShrink.Problem.RowType
import MipShrink.Proofs.Decimal.RoundTrip
import MipShrink.Proofs.Mps.Indentation
import MipShrink.Proofs.Mps.RoundTrip
import MipShrink.Proofs.Mps.RowNames
import MipShrink.Proofs.Mps.WellRead
import MipShrink.Proofs.Parameters.Assignments
import MipShrink.Proofs.Parameters.Bounds
import MipShrink.Proofs.Problem.Compression
import MipShrink.Proofs.Problem.Elimination
import MipShrink.Proofs.Problem.ImpliedSides
import MipShrink.Proofs.Problem.Locks
import MipShrink.Proofs.Problem.Renumbering
import MipShrink.Proofs.Problem.Storage
import MipShrink.Proofs.Reduction.Displacement
import MipShrink.Proofs.Reduction.Exhaustion
import MipShrink.Proofs.Reduction.Outward
import MipShrink.Proofs.Reduction.Partition
import MipShrink.Proofs.Reduction.Restriction
import MipShrink.Proofs.Reduction.SafeRows
import MipShrink.Proofs.Run.Expenditure
import MipShrink.Proofs.Run.NoReturn
import MipShrink.Proofs.Run.Progress
import MipShrink.Proofs.Run.Resumption
import MipShrink.Proofs.Run.Statistics
import MipShrink.Proofs.Settings.Built
import MipShrink.Proofs.Settings.RoundTrip
import MipShrink.Proofs.Solution.RoundTrip
import MipShrink.Proofs.Strict.Safety
import MipShrink.Proofs.Throughout.Consistency
import MipShrink.Proofs.Throughout.Feasibility
import MipShrink.Proofs.Throughout.Representation
import MipShrink.Proofs.Throughout.Shrinkage
import MipShrink.Rehearsal.Marking
import MipShrink.Rehearsal.Players
import MipShrink.Report.Times
