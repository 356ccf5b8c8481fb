import MemoFlow.Tensor.Native.Run

/-!
# The linear algebra library

Sums, differences and products of real tensors through a library with two routines: a matrix
product `c = α (a b)` and an update `y + α x`. Operands of single precision are processed in single
precision throughout.

* `Blas.dim`: dimensions as the library takes them;
* `Blas.axpy`, `Blas.gemm`: the two routines;
* **`Blas.run?`**: the operations that go through the library.
-/

namespace MemoFlow.Blas

variable {α : Type} [Arith α] [Scalar α]

/-- The payload of `n` numbers, with a single number repeated. -/
def expand (n : Nat) (t : Tensor α) : Array α :=
  if t.rank = 0 then Array.replicate n (t.get 0) else t.data

/-- A dimension as the library takes it: a signed 32-bit word. -/
def dim (n : UInt64) : Int32 := n.toUInt32.toInt32

/-- `y + α x` on the first `n` entries, each operation rounded to the type. -/
def axpy (d : DType) (n : Int32) (k : α) (x y : Array α) : Array α :=
  let r := Tensor.roundTo d
  y.mapIdx fun i b => if i < n.toNatClampNeg then r (r b + r (k * r (x.getD i 0))) else b

/-- The product of an `m × k` and a `k × n` payload, each operation rounded to the type, in a
payload of the given size. -/
def gemm (d : DType) (m n k : Int32) (a b : Array α) (size : Nat) : Array α :=
  let r := Tensor.roundTo d
  let m := m.toNatClampNeg
  let n := n.toNatClampNeg
  let k := k.toNatClampNeg
  Array.ofFn fun c : Fin size =>
    if c.val < m * n then
      r (1 * (List.range k).foldl (fun s p =>
        r (s + r (r (a.getD (c.val / n * k + p) 0) * r (b.getD (p * n + c.val % n) 0)))) 0)
    else 0

/-- A matrix product through the library; nothing is asked of it when a dimension is zero. -/
def matmul (a b : Tensor α) : Tensor α :=
  let m := a.shape.getD 0 0
  let k := a.shape.getD 1 0
  let n := b.shape.getD 1 0
  if m = 0 ∨ n = 0 ∨ k = 0 then Tensor.zeros [m, n] a.dtype
  else
    ⟨a.dtype, [m, n],
      gemm a.dtype (dim m) (dim n) (dim k) a.data b.data (numel [m, n]).toNat, .native⟩

/-- A sum or a difference through the library. -/
def addScaled (k : α) (a b : Tensor α) : Tensor α :=
  let s := Tensor.meetShape a b
  let n := numel s
  ⟨a.dtype, s, axpy a.dtype (dim n) k (expand n.toNat b) (expand n.toNat a), .native⟩

/-- **The operations of the library**: sums, differences and products of real tensors. -/
def run? (o : Op) (d : DType) : Option (List (Tensor α) → Except OpFailure (List (Tensor α))) :=
  if d = .c128 then none
  else
    match o with
    | .add => some fun
      | [a, b] => .ok [addScaled 1 a b]
      | _ => .error (.refused (.other "blas: no such number of operands"))
    | .sub => some fun
      | [a, b] => .ok [addScaled (-1) a b]
      | _ => .error (.refused (.other "blas: no such number of operands"))
    | .matmul => some fun
      | [a, b] => .ok [matmul a b]
      | _ => .error (.refused (.other "blas: no such number of operands"))
    | _ => none

end MemoFlow.Blas
