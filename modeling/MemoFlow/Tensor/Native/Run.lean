import MemoFlow.Tensor.Native.Basic
import MemoFlow.Tensor.Native.Factor
import MemoFlow.Tensor.Native.Jacobi

/-!
# Tensor operations by plain loops

* `OpFailure`: an operation is refused, or the engine that runs it fails;
* `Native.lu`, `Native.qr`, `Native.cholesky`, `Native.svd`, `Native.eigh`: the decompositions as
  functions of tensors;
* **`Native.run`**: any operation on operands that it takes.
-/

namespace MemoFlow

/-- How an operation of an engine ends without a result. -/
inductive OpFailure where
  /-- The operands are refused. -/
  | refused (e : TensorError)
  /-- The engine failed; another one may be tried. -/
  | fault (reason : String)
deriving DecidableEq, Repr

namespace Native

variable {α : Type} [Arith α] [Scalar α]

/-- The tensor of a payload of a real matrix, in the precision of its type. -/
def ofMatrix (m n : UInt64) (data : Array α) (d : DType) : Tensor α :=
  Tensor.rounded ⟨d, [m, n], data, .native⟩

/-- The tensor of a payload of a real vector, in the precision of its type. -/
def ofVector (n : UInt64) (data : Array α) (d : DType) : Tensor α :=
  Tensor.rounded ⟨d, [n], data, .native⟩

/-- The number of rows as a word. -/
def rowDim (a : Tensor α) : UInt64 := a.shape.getD 0 0

/-- The number of columns as a word. -/
def colDim (a : Tensor α) : UInt64 := a.shape.getD 1 0

/-- The matrix of a real tensor. -/
def grid (a : Tensor α) : Grid α := .ofArray a.rows a.cols a.data

/-- `P`, `L` and `U` with `A = P L U`. -/
def lu (a : Tensor α) : List (Tensor α) :=
  let n := a.rows
  let r := Lu.factor n (grid a)
  let out (g : Grid α) := ofMatrix (rowDim a) (rowDim a) g.data a.dtype
  [out (Lu.permutation r.1), out (Lu.lower n r.2), out (Lu.upper n r.2)]

/-- `Q` and `R` with `A = Q R`. -/
def qr (a : Tensor α) : List (Tensor α) :=
  let r := Qr.factor a.rows a.cols (grid a)
  [ofMatrix (rowDim a) (colDim a) r.1 a.dtype, ofMatrix (colDim a) (colDim a) r.2 a.dtype]

/-- `L` with `A = L Lᵀ`. -/
def cholesky (a : Tensor α) : Except OpFailure (List (Tensor α)) :=
  match Cholesky.factor? a.rows (grid a) with
  | none => .error (.refused .notPositiveDefinite)
  | some l => .ok [ofMatrix (rowDim a) (rowDim a) l.data a.dtype]

/-- `U`, `S` and `Vᵀ` with `A = U S Vᵀ`. -/
def svd (a : Tensor α) : Except OpFailure (List (Tensor α)) :=
  let k := min (rowDim a) (colDim a)
  match Jacobi.svd? a.rows a.cols (grid a) with
  | none => .error (.fault "native svd: Jacobi iteration did not converge")
  | some (u, s, vt) =>
    .ok [ofMatrix (rowDim a) k u a.dtype, ofVector k s a.dtype, ofMatrix k (colDim a) vt a.dtype]

/-- Eigenvalues and eigenvectors. -/
def eigh (a : Tensor α) : Except OpFailure (List (Tensor α)) :=
  match Jacobi.eigh? a.rows (grid a) with
  | none => .error (.fault "native eigh: Jacobi iteration did not converge")
  | some (w, v) => .ok [ofVector (rowDim a) w a.dtype, ofMatrix (rowDim a) (rowDim a) v a.dtype]

/-- An operation on one operand. -/
def unary (o : Op) (a : Tensor α) : Except OpFailure (List (Tensor α)) :=
  match o with
  | .fft => .ok [Fourier.transform false a]
  | .ifft => .ok [Fourier.transform true a]
  | .lu => .ok (lu a)
  | .qr => .ok (qr a)
  | .cholesky => cholesky a
  | .svd => svd a
  | .eigh => eigh a
  | o => .ok [reduce o a]

/-- **Any operation**, on operands that it takes. -/
def run (o : Op) (args : List (Tensor α)) : Except OpFailure (List (Tensor α)) :=
  match args with
  | [a, b] => .ok [if o = .matmul then matmul a b else elementwise o a b]
  | [a] => unary o a
  | _ => .error (.refused (.other "native: no such number of operands"))

end Native

end MemoFlow
