import Descent.Bracketing
import Descent.Decimal.Dyadic
import Descent.Decimal.Format
import Descent.Decimal.Nearest
import Descent.Decimal.Shortest
import Descent.Differences
import Descent.Equations.Basic
import Descent.Equations.Dogleg
import Descent.Equations.Dogleg.Step
import Descent.Equations.FixedPoint
import Descent.Equations.Method
import Descent.Equations.Newton
import Descent.Fault
import Descent.Formula.Basic
import Descent.Formula.Derivative
import Descent.Formula.Notation
import Descent.Formula.Problem
import Descent.Formula.Tape
import Descent.InverseHessian
import Descent.Iteration.Cache
import Descent.Iteration.Kept
import Descent.Iteration.Loop
import Descent.LineSearch.Basic
import Descent.LineSearch.Policy
import Descent.LineSearch.ThreePoint
import Descent.LineSearch.Track
import Descent.Linear.Dense
import Descent.Linear.Factors
import Descent.Linear.Nested
import Descent.Linear.Pivot
import Descent.Linear.Shaped
import Descent.Linear.Solver
import Descent.Linear.Tensor
import Descent.Linear.Tuple
import Descent.Linear.Vec
import Descent.Log.Layout
import Descent.Log.Layout.Place
import Descent.Log.Level
import Descent.Log.Record
import Descent.Log.Registry
import Descent.Objective.Basic
import Descent.Objective.Optimizer
import Descent.Proofs.Bracketing.Bisection
import Descent.Proofs.Bracketing.Known
import Descent.Proofs.Bracketing.Minimum
import Descent.Proofs.Bracketing.Root
import Descent.Proofs.Bracketing.Tolerance
import Descent.Proofs.Coherence
import Descent.Proofs.Correspondence
import Descent.Proofs.Correspondence.Algorithms
import Descent.Proofs.Count
import Descent.Proofs.Differences
import Descent.Proofs.Effects
import Descent.Proofs.Equations.Bounded
import Descent.Proofs.Equations.Coherence
import Descent.Proofs.Equations.Dogleg.Decrease
import Descent.Proofs.Equations.Dogleg.Path
import Descent.Proofs.Equations.Dogleg.Prediction
import Descent.Proofs.Equations.Dogleg.Progress
import Descent.Proofs.Equations.Dogleg.Radius
import Descent.Proofs.Equations.Dogleg.Residual
import Descent.Proofs.Equations.Dogleg.Step
import Descent.Proofs.Equations.Dogleg.Trials
import Descent.Proofs.Equations.Evaluation
import Descent.Proofs.Equations.Frame
import Descent.Proofs.Equations.Ledger
import Descent.Proofs.Equations.Newton.Descent
import Descent.Proofs.Equations.Newton.Direction
import Descent.Proofs.Equations.Newton.Linear
import Descent.Proofs.Equations.Newton.Places
import Descent.Proofs.Equations.Newton.Refinement
import Descent.Proofs.Equations.Newton.Schedule
import Descent.Proofs.Equations.Ray
import Descent.Proofs.Exact
import Descent.Proofs.Faults
import Descent.Proofs.Finish
import Descent.Proofs.Guard
import Descent.Proofs.InverseHessian.Conjugate
import Descent.Proofs.InverseHessian.Correction
import Descent.Proofs.InverseHessian.Definite
import Descent.Proofs.InverseHessian.Symmetry
import Descent.Proofs.Iteration.Aim
import Descent.Proofs.Iteration.Alike
import Descent.Proofs.Iteration.Coherence
import Descent.Proofs.Iteration.Finish
import Descent.Proofs.Iteration.Frame
import Descent.Proofs.Iteration.Guard
import Descent.Proofs.Iteration.Ledger
import Descent.Proofs.Iteration.Lockstep
import Descent.Proofs.Iteration.Memory
import Descent.Proofs.Iteration.Renewal
import Descent.Proofs.Iteration.Run
import Descent.Proofs.Iteration.Single
import Descent.Proofs.Iteration.Verdict
import Descent.Proofs.LineSearch.Admitted
import Descent.Proofs.LineSearch.Backtracking
import Descent.Proofs.LineSearch.Forward
import Descent.Proofs.LineSearch.Line
import Descent.Proofs.LineSearch.Stranded
import Descent.Proofs.LineSearch.ThreePoint
import Descent.Proofs.LineSearch.Undefined
import Descent.Proofs.LineSearch.Unit
import Descent.Proofs.Linear.Arrays
import Descent.Proofs.Linear.Embedding
import Descent.Proofs.Linear.Factors
import Descent.Proofs.Linear.Length
import Descent.Proofs.Linear.Loops
import Descent.Proofs.Linear.Solver
import Descent.Proofs.Linear.Undefined
import Descent.Proofs.Linear.Wide
import Descent.Proofs.Objective.Coherence
import Descent.Proofs.Objective.Descent
import Descent.Proofs.Objective.Direction
import Descent.Proofs.Objective.Estimate
import Descent.Proofs.Objective.Frame
import Descent.Proofs.Objective.Ledger
import Descent.Proofs.Objective.Quadratic
import Descent.Proofs.Objective.Ray
import Descent.Proofs.Renewal
import Descent.Proofs.Settlement
import Descent.Proofs.Stopping
import Descent.Proofs.Wide
import Descent.Scalar
import Descent.Scalar.Double
import Descent.Session
import Descent.Stopping.Criteria
import Descent.Stopping.Options
import Descent.Stopping.Progress
import Descent.Text.Lines
import Descent.Text.Literal
import Descent.Text.Literal.Reader
import Descent.Text.Message
import Descent.Text.Printable
import Descent.Text.Quoted
import Descent.Text.Word
import Descent.Proofs.Bracketing.Undefined
import Descent.Proofs.LineSearch.FirstStep
import Descent.Proofs.LineSearch.Lowest
import Descent.Proofs.LineSearch.Safeguard
import Descent.Proofs.InverseHessian.Secant
import Descent.Proofs.LineSearch.Cached
import Descent.Proofs.LineSearch.Convex
import Descent.Proofs.LineSearch.Parabola
import Descent.Proofs.Objective.Secant
import Descent.Proofs.InverseHessian.Dual
import Descent.Proofs.Differences.Polynomial
import Descent.Proofs.Differences.Exact
import Descent.Proofs.LineSearch.Slope
import Descent.Proofs.Equations.Picard
import Descent.Proofs.Bracketing.Gap
import Descent.Proofs.Stopping.History
import Descent.Proofs.LineSearch.Shortened
import Descent.Proofs.Iteration.FullStep
