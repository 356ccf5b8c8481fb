import MemoFlow.Number.Scalar

/-!
# Dense tensors

Row-major host tensors of real or complex numbers, with the engine that owns their storage.

* `DType`, `Engine`: element types and engines, with their names;
* `Shape`, `numel`, `Shape.text`: dimensions are 64-bit words and so is their product;
* **`Tensor`**: a tensor; complex payloads interleave real and imaginary parts;
* `Tensor.ofValues`, `Tensor.ofComplex`, `Tensor.zeros`, `Tensor.ones`, `Tensor.eye`,
  `Tensor.scalar`: the constructors, with `TensorError`;
* `Tensor.same`: comparison.
-/

namespace MemoFlow

/-! ## Element types and engines -/

/-- The element types. -/
inductive DType where
  /-- Single precision. -/
  | f32
  /-- Double precision. -/
  | f64
  /-- Complex with parts of double precision. -/
  | c128
deriving DecidableEq, Repr, Inhabited

/-- The name of an element type. -/
def DType.name : DType → String
  | .f32 => "f32"
  | .f64 => "f64"
  | .c128 => "c128"

/-- The element type of a name or of its longer synonym. -/
def DType.ofName? (s : String) : Option DType :=
  if s = "f32" ∨ s = "float32" then some .f32
  else if s = "f64" ∨ s = "float64" then some .f64
  else if s = "c128" ∨ s = "complex128" then some .c128
  else none

/-- Engines that run tensor operations, the preferred ones first. -/
inductive Engine where
  /-- A linear algebra library loaded at run time. -/
  | blas
  /-- The template library. -/
  | eigen
  /-- Plain loops. -/
  | native
deriving DecidableEq, Repr, Inhabited

namespace Engine

/-- The name of an engine. -/
def name : Engine → String
  | .blas => "blas"
  | .eigen => "eigen"
  | .native => "native"

/-- The engine of a name. -/
def ofName? (s : String) : Option Engine :=
  if s = "blas" then some .blas
  else if s = "eigen" then some .eigen
  else if s = "native" ∨ s = "cpu" then some .native
  else none

/-- The engines in order of preference. -/
def all : List Engine := [.blas, .eigen, .native]

/-- The place of an engine in the order of preference. -/
def rank : Engine → Nat
  | .blas => 0
  | .eigen => 1
  | .native => 2

/-- The engine itself and those tried after it. -/
def onward : Engine → List Engine
  | .blas => [.blas, .eigen, .native]
  | .eigen => [.eigen, .native]
  | .native => [.native]

end Engine

/-! ## Shapes -/

/-- The dimensions of a tensor. -/
abbrev Shape : Type := List UInt64

/-- The number of elements of a shape, as a 64-bit word. -/
def numel (s : Shape) : UInt64 := s.foldl (· * ·) 1

/-- The text of a shape: dimensions in brackets, a lone one with a comma behind it. -/
def Shape.text (s : Shape) : String :=
  "(" ++ String.intercalate ", " (s.map fun d => toString d.toNat) ++
    (if s.length = 1 then "," else "") ++ ")"

/-! ## Tensors -/

/-- **A tensor.** -/
structure Tensor (α : Type) where
  /-- The element type. -/
  dtype : DType
  /-- The dimensions. -/
  shape : Shape
  /-- The elements in row-major order, complex ones as two numbers. -/
  data : Array α
  /-- The engine that owns the storage. -/
  home : Engine
deriving Repr, Inhabited, DecidableEq

/-- Why a tensor operation is refused. -/
inductive TensorError where
  /-- Real values for a complex tensor. -/
  | realsForComplex
  /-- A payload that does not fit its shape. -/
  | count (maker : String) (shape : Shape) (needs got : Nat)
  /-- An operation that does not exist. -/
  | unknownOp (name : String)
  /-- Operands that an operation does not take. -/
  | operand (op detail : String)
  /-- A matrix without a Cholesky factor. -/
  | notPositiveDefinite
  /-- An error with a text of its own. -/
  | other (text : String)
deriving DecidableEq, Repr

/-- The text of a tensor error. -/
def TensorError.message : TensorError → String
  | .realsForComplex => "from_values: use complex_from_values for c128 tensors"
  | .count maker shape needs got =>
    maker ++ ": shape " ++ shape.text ++ " needs " ++ toString needs ++ " values, got " ++
      toString got
  | .unknownOp name => "unknown tensor op '" ++ name ++ "'"
  | .operand op detail => op ++ ": " ++ detail
  | .notPositiveDefinite => "cholesky: matrix is not positive definite"
  | .other text => text

namespace Tensor

variable {α : Type}

/-- The number of dimensions. -/
def rank (t : Tensor α) : Nat := t.shape.length

/-- The number of elements. -/
def count (t : Tensor α) : UInt64 := numel t.shape

/-- Whether the elements are complex. -/
def isComplex (t : Tensor α) : Bool := t.dtype = .c128

/-- Numbers stored for one element. -/
def stride (d : DType) : UInt64 := if d = .c128 then 2 else 1

/-- The bytes that the elements take in their own precision. -/
def byteSize (t : Tensor α) : UInt64 :=
  match t.dtype with
  | .f32 => t.count * 4
  | .f64 => t.count * 8
  | .c128 => t.count * 2 * 8

variable [Arith α]

/-- The number at a place of the payload. -/
def get (t : Tensor α) (i : Nat) : α := t.data.getD i 0

/-- The real part of an element. -/
def realAt (t : Tensor α) (i : Nat) : α := if t.isComplex then t.get (i * 2) else t.get i

/-- An element as a complex number. -/
def complexAt (t : Tensor α) (i : Nat) : Cplx α :=
  if t.isComplex then (t.get (i * 2), t.get (i * 2 + 1)) else (t.get i, 0)

/-- The number of columns of a matrix. -/
def cols (t : Tensor α) : Nat := (t.shape.getD 1 0).toNat

/-- The number of rows of a matrix. -/
def rows (t : Tensor α) : Nat := (t.shape.getD 0 0).toNat

/-- The real part of an entry of a matrix. -/
def at2 (t : Tensor α) (i j : Nat) : α := t.realAt (i * t.cols + j)

/-- The element that meets element `i` of a result; a single number meets all of them. -/
def meetIndex (t : Tensor α) (i : Nat) : Nat := if t.rank = 0 then 0 else i

/-- The tensor with every number `0`. -/
def zeros (s : Shape) (d : DType) : Tensor α :=
  ⟨d, s, Array.replicate (numel s * stride d).toNat 0, .native⟩

/-- The tensor with every element `1`. -/
def ones (s : Shape) (d : DType) : Tensor α :=
  ⟨d, s, Array.ofFn fun i : Fin (numel s * stride d).toNat =>
    if i.val % (stride d).toNat = 0 then 1 else 0, .native⟩

/-- The identity matrix. -/
def eye (n : UInt64) (d : DType) : Tensor α :=
  ⟨d, [n, n], Array.ofFn fun i : Fin (numel [n, n] * stride d).toNat =>
    let k := i.val / (stride d).toNat
    if i.val % (stride d).toNat = 0 ∧ k / n.toNat = k % n.toNat then 1 else 0, .native⟩

/-- The complex tensor of a list of elements. -/
def ofComplex (s : Shape) (vs : List (Cplx α)) : Except TensorError (Tensor α) :=
  if vs.length ≠ (numel s).toNat then
    .error (.count "complex_from_values" s (numel s).toNat vs.length)
  else .ok ⟨.c128, s, (vs.flatMap fun z => [z.1, z.2]).toArray, .native⟩

/-- Numbers two by two; an odd one at the end is dropped. -/
def inPairs {β : Type} : List β → List (β × β)
  | a :: b :: r => (a, b) :: inPairs r
  | _ => []

/-- The complex tensor of real and imaginary parts in turn. -/
def ofParts (s : Shape) (vs : List α) : Except TensorError (Tensor α) := ofComplex s (inPairs vs)

variable [Scalar α]

/-- A number in the precision of a type. -/
def roundTo (d : DType) (x : α) : α := if d = .f32 then Scalar.single x else x

/-- A payload in the precision of the tensor. -/
def rounded (t : Tensor α) : Tensor α :=
  if t.dtype = .f32 then { t with data := t.data.map Scalar.single } else t

/-- The real tensor of a payload, in the precision of its type. -/
def ofValues (s : Shape) (vs : Array α) (d : DType) : Except TensorError (Tensor α) :=
  if d = .c128 then .error .realsForComplex
  else if vs.size ≠ (numel s).toNat then
    .error (.count "from_values" s (numel s).toNat vs.size)
  else .ok (rounded ⟨d, s, vs, .native⟩)

/-- The tensor without dimensions that holds one number. -/
def scalar (x : α) (d : DType) : Tensor α :=
  if d = .c128 then ⟨d, [], #[x, 0], .native⟩ else rounded ⟨d, [], #[x], .native⟩

/-- Equal numbers, where what is not a number equals itself. -/
def sameNumber (a b : α) : Bool := Scalar.eq a b || (Scalar.isNaN a && Scalar.isNaN b)

/-- Equal type, shape and payload; the owner of the storage does not count. -/
def same (a b : Tensor α) : Bool :=
  a.dtype = b.dtype && a.shape = b.shape && a.data.size = b.data.size &&
    (a.data.toList.zip b.data.toList).all fun p => sameNumber p.1 p.2

/-- The same tensor, owned by another engine. -/
def onEngine (t : Tensor α) (e : Engine) : Tensor α := { t with home := e }

end Tensor

end MemoFlow
