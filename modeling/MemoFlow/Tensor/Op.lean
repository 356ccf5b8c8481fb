import MemoFlow.Tensor.Basic

/-!
# Tensor operations and the operands they take

* `Op`, `Op.name`, `Op.ofName?`, `Op.arity`, `Op.kind`, `Op.isCostly`: the operations;
* `Op.resultType`, `Tensor.meetShape`: type and shape of results;
* **`Op.check`**: the operands that an operation takes, with the text of each refusal.
-/

namespace MemoFlow

/-- The tensor operations. -/
inductive Op where
  | add | sub | mul | div | matmul | sum | mean | std | min | max
  | fft | ifft | lu | qr | cholesky | svd | eigh
deriving DecidableEq, Repr, Inhabited

/-- Operations of one kind take the same operands. -/
inductive OpKind where
  | elementwise | product | reduction | fourier | decomposition
deriving DecidableEq, Repr

namespace Op

/-- All operations, in the order in which they are listed. -/
def all : List Op :=
  [.add, .sub, .mul, .div, .matmul, .sum, .mean, .std, .min, .max, .fft, .ifft, .lu, .qr,
    .cholesky, .svd, .eigh]

/-- The name of an operation. -/
def name : Op → String
  | .add => "add"
  | .sub => "sub"
  | .mul => "mul"
  | .div => "div"
  | .matmul => "matmul"
  | .sum => "sum"
  | .mean => "mean"
  | .std => "std"
  | .min => "min"
  | .max => "max"
  | .fft => "fft"
  | .ifft => "ifft"
  | .lu => "lu"
  | .qr => "qr"
  | .cholesky => "cholesky"
  | .svd => "svd"
  | .eigh => "eigh"

/-- The operation of a name; three of them have a longer synonym. -/
def ofName? (s : String) : Option Op :=
  if s = "multiply" then some .mul
  else if s = "subtract" then some .sub
  else if s = "divide" then some .div
  else all.find? fun o => o.name = s

/-- The kind of an operation. -/
def kind : Op → OpKind
  | .add | .sub | .mul | .div => .elementwise
  | .matmul => .product
  | .sum | .mean | .std | .min | .max => .reduction
  | .fft | .ifft => .fourier
  | .lu | .qr | .cholesky | .svd | .eigh => .decomposition

/-- The number of operands. -/
def arity (o : Op) : Nat :=
  match o.kind with
  | .elementwise | .product => 2
  | .reduction | .fourier | .decomposition => 1

/-- Whether a result is worth a place in a cache. -/
def isCostly (o : Op) : Bool :=
  match o.kind with
  | .product | .fourier | .decomposition => true
  | .elementwise | .reduction => false

/-- The element type of the results. -/
def resultType (o : Op) (d : DType) : DType :=
  match o with
  | .fft | .ifft => .c128
  | .std => if d = .c128 then .f64 else d
  | _ => d

end Op

namespace Tensor

variable {α : Type}

/-- The shape of an elementwise result: that of the first operand with dimensions. -/
def meetShape (a b : Tensor α) : Shape := if a.rank = 0 then b.shape else a.shape

/-- Type and shape of an operand. -/
def describe (t : Tensor α) : String := t.dtype.name ++ t.shape.text

/-- Numbers that the payload of a shape holds, as a 64-bit word. -/
def payloadSize (t : Tensor α) : UInt64 := t.count * stride t.dtype

end Tensor

namespace Op

variable {α : Type} [Arith α] [Scalar α]

/-- Refuse with a text when a condition holds. -/
def refuseIf (o : Op) (bad : Bool) (detail : String) : Except TensorError Unit :=
  if bad then .error (.operand o.name detail) else .ok ()

/-- An operand is owned by the engine of the handle and its payload fits its shape. -/
def checkOperand (o : Op) (e : Engine) (t : Tensor α) : Except TensorError Unit := do
  o.refuseIf (t.home ≠ e)
    ("operand resides on " ++ t.home.name ++ ", handle is " ++ e.name ++ " (migrate it first)")
  o.refuseIf (t.data.size ≠ t.payloadSize.toNat)
    ("operand payload holds " ++ toString t.data.size ++ " doubles, shape " ++ t.describe ++
      " needs " ++ toString t.payloadSize.toNat)

/-- Whether two entries agree within the tolerance. -/
def agree (a b : α) : Bool :=
  let scale := Scalar.max (Scalar.max 1 (Scalar.abs a)) (Scalar.abs b)
  !Scalar.lt (Scalar.tolerance * scale) (Scalar.abs (a - b))

/-- Whether a square matrix agrees with its transpose. -/
def isSymmetric (t : Tensor α) : Bool :=
  let n := t.rows
  (List.range n).all fun i => (List.range (n - (i + 1))).all fun k =>
    agree (t.at2 i (i + 1 + k)) (t.at2 (i + 1 + k) i)

/-- The conditions on one matrix operand. -/
def checkRank (o : Op) (rank : Nat) (t : Tensor α) : Except TensorError Unit :=
  o.refuseIf (t.rank ≠ rank)
    ("expected rank " ++ toString rank ++ " operand, got " ++ t.describe)

/-- A complex operand is refused. -/
def checkReal (o : Op) (t : Tensor α) : Except TensorError Unit :=
  o.refuseIf t.isComplex "complex operands are not supported"

/-- An operand without elements is refused. -/
def checkNonempty (o : Op) (t : Tensor α) : Except TensorError Unit :=
  o.refuseIf (t.count = 0) ("empty operand " ++ t.describe)

/-- The conditions on two operands of an elementwise operation. -/
def checkElementwise (o : Op) (a b : Tensor α) : Except TensorError Unit := do
  o.refuseIf (a.dtype ≠ b.dtype) ("dtype mismatch " ++ a.describe ++ " vs " ++ b.describe)
  o.refuseIf (a.shape ≠ b.shape && a.rank ≠ 0 && b.rank ≠ 0)
    ("shape mismatch " ++ a.describe ++ " vs " ++ b.describe)

/-- The conditions on two factors. -/
def checkProduct (o : Op) (a b : Tensor α) : Except TensorError Unit := do
  o.checkRank 2 a
  o.checkRank 2 b
  o.refuseIf (a.dtype ≠ b.dtype) ("dtype mismatch " ++ a.describe ++ " vs " ++ b.describe)
  o.refuseIf (a.shape.getD 1 0 ≠ b.shape.getD 0 0)
    ("inner dimensions differ " ++ a.describe ++ " x " ++ b.describe)

/-- The conditions on the operand of a reduction. -/
def checkReduction (o : Op) (a : Tensor α) : Except TensorError Unit := do
  if o = .min ∨ o = .max then o.checkReal a
  if o ≠ .sum then o.checkNonempty a

/-- The conditions on a matrix to decompose. -/
def checkDecomposition (o : Op) (a : Tensor α) : Except TensorError Unit := do
  o.checkRank 2 a
  o.checkReal a
  o.checkNonempty a
  if o = .lu ∨ o = .cholesky ∨ o = .eigh then
    o.refuseIf (a.shape.getD 0 0 ≠ a.shape.getD 1 0)
      ("expected square matrix, got " ++ a.describe)
  if o = .cholesky ∨ o = .eigh then
    o.refuseIf (!isSymmetric a) "expected symmetric matrix"
  if o = .qr then
    o.refuseIf (a.shape.getD 0 0 < a.shape.getD 1 0) ("expected rows >= cols, got " ++ a.describe)

/-- The conditions on the operands of an operation beyond number, owner and payload. -/
def checkForm (o : Op) (args : List (Tensor α)) : Except TensorError Unit :=
  match o.kind, args with
  | .elementwise, [a, b] => o.checkElementwise a b
  | .product, [a, b] => o.checkProduct a b
  | .reduction, [a] => o.checkReduction a
  | .fourier, [a] => do
    o.checkRank 1 a
    o.checkNonempty a
  | .decomposition, [a] => o.checkDecomposition a
  | _, _ => .ok ()

/-- **The operands that an operation takes** through a handle of an engine. -/
def check (o : Op) (args : List (Tensor α)) (e : Engine) : Except TensorError Unit := do
  o.refuseIf (args.length ≠ o.arity)
    ("expected " ++ toString o.arity ++ " operands, got " ++ toString args.length)
  args.forM (o.checkOperand e)
  o.checkForm args

end Op

end MemoFlow
