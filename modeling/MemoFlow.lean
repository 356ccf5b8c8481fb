import MemoFlow.Branch.Block
import MemoFlow.Branch.Coordinator
import MemoFlow.Branch.Pool
import MemoFlow.Branch.Run
import MemoFlow.Cache.Basic
import MemoFlow.Cache.Program
import MemoFlow.Cache.Suite
import MemoFlow.Code.Remarks
import MemoFlow.Code.Build
import MemoFlow.Code.Constant
import MemoFlow.Code.Declaration
import MemoFlow.Code.Directive
import MemoFlow.Code.Expr
import MemoFlow.Code.Rewriting
import MemoFlow.Code.Function
import MemoFlow.Code.Header
import MemoFlow.Code.Kind
import MemoFlow.Code.Library
import MemoFlow.Code.Linker
import MemoFlow.Code.Macro
import MemoFlow.Code.OptionNames
import MemoFlow.Code.OptionValues
import MemoFlow.Code.Options
import MemoFlow.Code.Parser
import MemoFlow.Code.Predefined
import MemoFlow.Code.Reader
import MemoFlow.Code.Remark
import MemoFlow.Code.Shape
import MemoFlow.Code.SmallHeader
import MemoFlow.Code.Token
import MemoFlow.Code.Value
import MemoFlow.Environment
import MemoFlow.Evaluator.Assignment
import MemoFlow.Fault
import MemoFlow.Fingerprint
import MemoFlow.Kernel.Accelerator
import MemoFlow.Kernel.Basic
import MemoFlow.Kernel.Compiler
import MemoFlow.NameMap
import MemoFlow.Number.Datum
import MemoFlow.Number.Double
import MemoFlow.Number.Special
import MemoFlow.Number.Scalar
import MemoFlow.Pipeline.Run
import MemoFlow.Pipeline.Stage
import MemoFlow.Proofs.Bindings
import MemoFlow.Proofs.Branch.Compute
import MemoFlow.Proofs.Branch.Edit
import MemoFlow.Proofs.Branch.Replay
import MemoFlow.Proofs.Cache.Recall
import MemoFlow.Proofs.Cache.Shelf
import MemoFlow.Proofs.Cache.Slots
import MemoFlow.Proofs.Pipeline.Desk
import MemoFlow.Proofs.Pipeline.Memo
import MemoFlow.Proofs.Pipeline.Perform
import MemoFlow.Proofs.Tensor.Faults
import MemoFlow.Schedule.Jobs
import MemoFlow.Schedule.Workers
import MemoFlow.Script.Basic
import MemoFlow.Session.Basic
import MemoFlow.Session.Blocks
import MemoFlow.Session.Caches
import MemoFlow.Session.Live
import MemoFlow.Session.Report
import MemoFlow.Session.Script
import MemoFlow.Session.Tensors
import MemoFlow.Settings.Config
import MemoFlow.Shell.Arithmetic
import MemoFlow.Shell.Builtin
import MemoFlow.Shell.Columns
import MemoFlow.Shell.Command
import MemoFlow.Shell.Condition
import MemoFlow.Shell.Editing
import MemoFlow.Shell.Editor
import MemoFlow.Shell.Excerpt
import MemoFlow.Shell.Expansion
import MemoFlow.Shell.Expression
import MemoFlow.Shell.Files
import MemoFlow.Shell.Filter
import MemoFlow.Shell.Format
import MemoFlow.Shell.Given
import MemoFlow.Shell.Letters
import MemoFlow.Shell.Match
import MemoFlow.Shell.Order
import MemoFlow.Shell.Pattern
import MemoFlow.Shell.Program
import MemoFlow.Shell.Reader
import MemoFlow.Shell.Real
import MemoFlow.Shell.Regex
import MemoFlow.Shell.Reply
import MemoFlow.Shell.Run
import MemoFlow.Shell.Search
import MemoFlow.Shell.Signal
import MemoFlow.Shell.Setting
import MemoFlow.Shell.State
import MemoFlow.Tensor.Basic
import MemoFlow.Tensor.Blas
import MemoFlow.Tensor.Dispatch
import MemoFlow.Tensor.Grid
import MemoFlow.Tensor.Native.Basic
import MemoFlow.Tensor.Native.Factor
import MemoFlow.Tensor.Native.Jacobi
import MemoFlow.Tensor.Native.Run
import MemoFlow.Tensor.Op
import MemoFlow.Text.Ascii
import MemoFlow.Text.Decimal
import MemoFlow.Text.Literal
import MemoFlow.Trace
import MemoFlow.Value
import MemoFlow.Proofs.Pipeline.Terminal
import MemoFlow.Proofs.Tensor.Agree
import MemoFlow.Proofs.Branch.Apart
import MemoFlow.Proofs.Branch.Barrier
import MemoFlow.Proofs.Branch.Join
import MemoFlow.Proofs.Cache.Intact
import MemoFlow.Proofs.Cache.Budget
import MemoFlow.Proofs.Pool.Account
import MemoFlow.Proofs.Pool.Drain
import MemoFlow.Proofs.Fingerprint.Crossing
import MemoFlow.Proofs.Fingerprint.Encoding
import MemoFlow.Proofs.Tensor.Reasons
import MemoFlow.Proofs.Tensor.Rotations
import MemoFlow.Proofs.Tensor.Divergence
import MemoFlow.Proofs.Branch.Synthesis
import MemoFlow.Proofs.Branch.Registry
import MemoFlow.Proofs.Tensor.Turns
import MemoFlow.Proofs.Branch.Independence
import MemoFlow.Proofs.Kernel.Reuse
import MemoFlow.Proofs.Pipeline.Expression
import MemoFlow.Proofs.Branch.Failure
import MemoFlow.Proofs.Branch.Archive
import MemoFlow.Proofs.Branch.Copies
import MemoFlow.Proofs.Branch.Originals
import MemoFlow.Proofs.Branch.Hall
import MemoFlow.Proofs.Cache.Conservation
import MemoFlow.Proofs.Cache.Computation
import MemoFlow.Proofs.Branch.Refusal
import MemoFlow.Proofs.Branch.Sizing
import MemoFlow.Proofs.Cache.Lifetime
import MemoFlow.Proofs.Settings.Size
import MemoFlow.Proofs.Changes
import MemoFlow.Proofs.Equality
import MemoFlow.Proofs.Bounds.Library
import MemoFlow.Proofs.Algebra.Elimination
import MemoFlow.Proofs.Algebra.Cholesky
import MemoFlow.Proofs.Algebra.Reflection
import MemoFlow.Proofs.Algebra.Singular
import MemoFlow.Proofs.Fourier.Transform
import MemoFlow.Proofs.Kernel.Comment
import MemoFlow.Proofs.Kernel.Places
import MemoFlow.Proofs.Kernel.Reading
import MemoFlow.Proofs.Algebra.Signs
import MemoFlow.Proofs.Shell.Words
