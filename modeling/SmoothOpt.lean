import SmoothOpt.Barrier.Curvature
import SmoothOpt.Barrier.Engine
import SmoothOpt.Barrier.Filter
import SmoothOpt.Barrier.Iterate
import SmoothOpt.Barrier.LineSearch
import SmoothOpt.Barrier.Multipliers
import SmoothOpt.Barrier.Residual
import SmoothOpt.Barrier.Schedule
import SmoothOpt.Decimal.Binary
import SmoothOpt.Decimal.Reader
import SmoothOpt.Decimal.Rounding
import SmoothOpt.Decimal.Shortest
import SmoothOpt.Decimal.Text
import SmoothOpt.Dims
import SmoothOpt.Event
import SmoothOpt.Event.Message
import SmoothOpt.Failure
import SmoothOpt.Failure.Message
import SmoothOpt.Linear.Dense
import SmoothOpt.Linear.Norm
import SmoothOpt.Linear.Solver
import SmoothOpt.Linear.Solver.Cholesky
import SmoothOpt.Linear.Solver.Double
import SmoothOpt.Linear.Solver.Tridiagonal
import SmoothOpt.Main
import SmoothOpt.Newton.Inertia
import SmoothOpt.Newton.Regularization
import SmoothOpt.Newton.System
import SmoothOpt.Penalty.Engine
import SmoothOpt.Penalty.Update
import SmoothOpt.Penalty.View
import SmoothOpt.Problem
import SmoothOpt.Problem.Bounds
import SmoothOpt.Problem.Evaluation
import SmoothOpt.Problem.Fault
import SmoothOpt.Problem.TermSum
import SmoothOpt.Problem.Trace
import SmoothOpt.Proofs.Alike
import SmoothOpt.Proofs.Barrier.Abort
import SmoothOpt.Proofs.Barrier.Absent
import SmoothOpt.Proofs.Barrier.Advance
import SmoothOpt.Proofs.Barrier.AffineConstraints
import SmoothOpt.Proofs.Barrier.Announcement
import SmoothOpt.Proofs.Barrier.Backtracking
import SmoothOpt.Proofs.Barrier.Certificate
import SmoothOpt.Proofs.Barrier.Coherence
import SmoothOpt.Proofs.Barrier.Course
import SmoothOpt.Proofs.Barrier.Decrease
import SmoothOpt.Proofs.Barrier.Descent
import SmoothOpt.Proofs.Barrier.Errors
import SmoothOpt.Proofs.Barrier.Finite
import SmoothOpt.Proofs.Barrier.FiniteErrors
import SmoothOpt.Proofs.Barrier.FullSystem
import SmoothOpt.Proofs.Barrier.Halfway
import SmoothOpt.Proofs.Barrier.Interior
import SmoothOpt.Proofs.Barrier.LeastSquares
import SmoothOpt.Proofs.Barrier.Lift
import SmoothOpt.Proofs.Barrier.LinearModel
import SmoothOpt.Proofs.Barrier.Lowering
import SmoothOpt.Proofs.Barrier.Monotone
import SmoothOpt.Proofs.Barrier.Phases
import SmoothOpt.Proofs.Barrier.Positivity
import SmoothOpt.Proofs.Barrier.Projection
import SmoothOpt.Proofs.Barrier.Protocol
import SmoothOpt.Proofs.Barrier.QuasiNewton
import SmoothOpt.Proofs.Barrier.Ray
import SmoothOpt.Proofs.Barrier.Rerun
import SmoothOpt.Proofs.Barrier.Restart
import SmoothOpt.Proofs.Barrier.Safety
import SmoothOpt.Proofs.Barrier.Slope
import SmoothOpt.Proofs.Barrier.Snapshot
import SmoothOpt.Proofs.Barrier.StepLength
import SmoothOpt.Proofs.Barrier.Twin
import SmoothOpt.Proofs.Barrier.Watch
import SmoothOpt.Proofs.Decimal.Reader
import SmoothOpt.Proofs.Linear.Entries
import SmoothOpt.Proofs.Linear.Lift
import SmoothOpt.Proofs.Linear.Signature
import SmoothOpt.Proofs.Linear.Spectral
import SmoothOpt.Proofs.Newton.Blocks
import SmoothOpt.Proofs.Newton.Cap
import SmoothOpt.Proofs.Newton.Correction
import SmoothOpt.Proofs.Newton.Inertia
import SmoothOpt.Proofs.Newton.Spectrum
import SmoothOpt.Proofs.Penalty.Announcement
import SmoothOpt.Proofs.Penalty.Course
import SmoothOpt.Proofs.Penalty.History
import SmoothOpt.Proofs.Penalty.Major
import SmoothOpt.Proofs.Penalty.Merit
import SmoothOpt.Proofs.Penalty.Multipliers
import SmoothOpt.Proofs.Penalty.Repeatable
import SmoothOpt.Proofs.Penalty.Rerun
import SmoothOpt.Proofs.Penalty.Revalidation
import SmoothOpt.Proofs.Penalty.Stationarity
import SmoothOpt.Proofs.Penalty.Subproblem
import SmoothOpt.Proofs.Penalty.Transparency
import SmoothOpt.Proofs.Penalty.Unconstrained
import SmoothOpt.Proofs.Penalty.View
import SmoothOpt.Proofs.Problem.Agreement
import SmoothOpt.Proofs.Problem.Announcement
import SmoothOpt.Proofs.Problem.Answer
import SmoothOpt.Proofs.Problem.Calculus
import SmoothOpt.Proofs.Problem.Fault
import SmoothOpt.Proofs.Problem.Functions
import SmoothOpt.Proofs.Problem.Ordering
import SmoothOpt.Proofs.Problem.Preparation
import SmoothOpt.Proofs.Problem.SecondOrder
import SmoothOpt.Proofs.Problem.Watch
import SmoothOpt.Proofs.Scalar.Exact
import SmoothOpt.Proofs.Scalar.Extended
import SmoothOpt.Proofs.Settings.Assignment
import SmoothOpt.Proofs.Settings.Range
import SmoothOpt.Proofs.Settings.Reading
import SmoothOpt.Proofs.Step
import SmoothOpt.Proofs.Suite.Derivatives
import SmoothOpt.Proofs.Suite.Override
import SmoothOpt.Proofs.Suite.Spelling
import SmoothOpt.Proofs.Termination
import SmoothOpt.Proofs.Termination.Runs
import SmoothOpt.Proofs.Termination.Streak
import SmoothOpt.Report
import SmoothOpt.Scalar
import SmoothOpt.Scalar.Double
import SmoothOpt.Settings
import SmoothOpt.Settings.Fields
import SmoothOpt.Settings.Option
import SmoothOpt.Status
import SmoothOpt.Step
import SmoothOpt.Suite.Arguments
import SmoothOpt.Suite.Case
import SmoothOpt.Suite.Config
import SmoothOpt.Suite.Registry
import SmoothOpt.Suite.Report
import SmoothOpt.Termination
import SmoothOpt.Text.Blank
import SmoothOpt.Text.Document
import SmoothOpt.Text.Toml.Date
import SmoothOpt.Text.Toml.Reader
import SmoothOpt.Text.Toml.Tables
import SmoothOpt.Text.Toml.Value
