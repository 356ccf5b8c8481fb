import MemoFlow.Tensor.Grid

/-!
# Jacobi rotations

Eigenvalues of symmetric matrices and singular values, by plane rotations in cyclic order.

* `Jacobi.eigenRotation`, `Jacobi.columnRotation?`: cosines and sines of rotations;
* `Jacobi.turnColumns`, `Jacobi.turnRows`: a rotation on columns or rows;
* `Jacobi.eigen?`: rotations until the part off the diagonal is negligible;
* `Jacobi.orthogonalise?`: rotations of columns until all are orthogonal;
* **`Jacobi.eigh?`**, **`Jacobi.svd?`**: eigenvalues in ascending order with eigenvectors, singular
  values in descending order with both factors.
-/

namespace MemoFlow.Jacobi

variable {α : Type} [Arith α] [Scalar α]

/-- Sweeps before the iteration is given up. -/
def maxSweeps : Nat := 100

/-- The pairs `p < q` below `n`, row by row. -/
def pairs (n : Nat) : List (Nat × Nat) :=
  (List.range n).flatMap fun p => (List.range' (p + 1) (n - (p + 1))).map fun q => (p, q)

/-- The identity matrix. -/
def identity (n : Nat) : Grid α := .tabulate n n fun i j => if i = j then 1 else 0

/-- Columns `p` and `q` turned by the rotation with cosine `c` and sine `s`. -/
def turnColumns (m n p q : Nat) (c s : α) (w : Grid α) : Grid α :=
  .tabulate m n fun i j =>
    if j = p then c * w.entry i p - s * w.entry i q
    else if j = q then s * w.entry i p + c * w.entry i q
    else w.entry i j

/-- Rows `p` and `q` turned by the rotation with cosine `c` and sine `s`. -/
def turnRows (m n p q : Nat) (c s : α) (w : Grid α) : Grid α :=
  .tabulate m n fun i j =>
    if i = p then c * w.entry p j - s * w.entry q j
    else if i = q then s * w.entry p j + c * w.entry q j
    else w.entry i j

/-- One, with the sign of a number that is not negative or else. -/
def signOf (x : α) : α := if Scalar.le 0 x then 1 else -1

/-- The places of a list in the order of a comparison; equals keep their order. -/
def order (n : Nat) (before : Nat → Nat → Bool) : List Nat :=
  (List.range n).mergeSort fun i j => !before j i

/-! ## Symmetric matrices -/

/-- The sums of the squares off the diagonal and of all entries. -/
def squares (n : Nat) (w : Grid α) : α × α :=
  (List.range (n * n)).foldl (fun s p =>
    let x := w.entry (p / n) (p % n)
    let sq := x * x
    (if p / n ≠ p % n then s.1 + sq else s.1, s.2 + sq)) (0, 0)

/-- Whether the part off the diagonal is negligible. -/
def isDiagonal (n : Nat) (w : Grid α) : Bool :=
  let s := squares n w
  Scalar.le s.1 (Scalar.epsilon * Scalar.epsilon * s.2)

/-- The rotation that clears the entries at `(p, q)`: cosine and sine. -/
def eigenRotation (w : Grid α) (p q : Nat) : α × α :=
  let θ := (w.entry q q - w.entry p p) / (Scalar.two * w.entry p q)
  let t := signOf θ / (Scalar.abs θ + Scalar.sqrt (θ * θ + 1))
  let c := 1 / Scalar.sqrt (t * t + 1)
  (c, t * c)

/-- One rotation of a symmetric matrix, with the vectors along. -/
def eigenStep (n : Nat) (s : Grid α × Grid α) (pq : Nat × Nat) : Grid α × Grid α :=
  let (p, q) := pq
  if Scalar.eq (s.1.entry p q) 0 then s
  else
    let (c, t) := eigenRotation s.1 p q
    (turnRows n n p q c t (turnColumns n n p q c t s.1), turnColumns n n p q c t s.2)

/-- Rotate in cyclic order until the matrix is diagonal or the sweeps run out. -/
def eigenSweeps (n : Nat) : Nat → Grid α × Grid α → Option (Grid α × Grid α)
  | 0, _ => none
  | k + 1, s =>
    if isDiagonal n s.1 then some s else eigenSweeps n k ((pairs n).foldl (eigenStep n) s)

/-- The diagonalised matrix and the vectors, none without convergence. -/
def eigen? (n : Nat) (w : Grid α) : Option (Grid α × Grid α) :=
  eigenSweeps n maxSweeps (w, identity n)

/-- **Eigenvalues and eigenvectors** of a symmetric matrix, as payloads. -/
def eigh? (n : Nat) (w : Grid α) : Option (Array α × Array α) :=
  (eigen? n w).map fun s =>
    let ord := order n fun i j => Scalar.lt (s.1.entry i i) (s.1.entry j j)
    let v : Grid α := .tabulate n n fun i j => s.2.entry i (ord.getD j 0)
    ((ord.map fun i => s.1.entry i i).toArray, Signs.positivePivots n n v.data)

/-! ## Singular values -/

/-- The squared norms of columns `p` and `q` and their inner product. -/
def gram (m p q : Nat) (u : Grid α) : α × α × α :=
  (List.range m).foldl (fun s i =>
    (s.1 + u.entry i p * u.entry i p, s.2.1 + u.entry i q * u.entry i q,
      s.2.2 + u.entry i p * u.entry i q)) (0, 0, 0)

/-- The rotation that makes two columns orthogonal, none when they are. -/
def columnRotation? (m : Nat) (u : Grid α) (p q : Nat) : Option (α × α) :=
  let (a, b, g) := gram m p q u
  if Scalar.le (Scalar.abs g) (Scalar.epsilon * Scalar.sqrt (a * b)) then none
  else
    let ζ := (b - a) / (Scalar.two * g)
    let t := signOf ζ / (Scalar.abs ζ + Scalar.sqrt (1 + ζ * ζ))
    let c := 1 / Scalar.sqrt (1 + t * t)
    some (c, c * t)

/-- The matrix, the rotations so far and whether the sweep has rotated. -/
structure Columns (α : Type) where
  /-- The rotated columns. -/
  u : Grid α
  /-- The product of the rotations. -/
  v : Grid α
  /-- Whether there was a rotation. -/
  rotated : Bool

/-- One rotation of columns, if it is needed. -/
def columnStep (m n : Nat) (s : Columns α) (pq : Nat × Nat) : Columns α :=
  match columnRotation? m s.u pq.1 pq.2 with
  | none => s
  | some (c, t) =>
    ⟨turnColumns m n pq.1 pq.2 c t s.u, turnColumns n n pq.1 pq.2 c t s.v, true⟩

/-- Rotate in cyclic order until a sweep finds nothing to do or the sweeps run out. -/
def columnSweeps (m n : Nat) : Nat → Grid α → Grid α → Option (Grid α × Grid α)
  | 0, _, _ => none
  | k + 1, u, v =>
    let s := (pairs n).foldl (columnStep m n) ⟨u, v, false⟩
    if s.rotated then columnSweeps m n k s.u s.v else some (s.u, s.v)

/-- Orthogonal columns and the product of the rotations, none without convergence. -/
def orthogonalise? (m n : Nat) (u : Grid α) : Option (Grid α × Grid α) :=
  columnSweeps m n maxSweeps u (identity n)

/-- Left vectors, values and right vectors of a decomposition. -/
structure Singular (α : Type) where
  /-- The left vectors, as columns. -/
  u : Grid α
  /-- The singular values. -/
  s : List α
  /-- The right vectors, as rows. -/
  vt : Grid α

/-- The decomposition of a matrix with at least as many rows as columns. -/
def tall? (m n : Nat) (w : Grid α) : Option (Singular α) :=
  (orthogonalise? m n w).map fun r =>
    let norms := (List.range n).map fun j =>
      Scalar.sqrt ((List.range m).foldl (fun s i => s + r.1.entry i j * r.1.entry i j) 0)
    let ord := order n fun i j => Scalar.lt (norms.getD j 0) (norms.getD i 0)
    let s := ord.map fun i => norms.getD i 0
    { u := .tabulate m n fun i k =>
        let x := s.getD k 0
        if Scalar.lt 0 x then r.1.entry i (ord.getD k 0) / x else 0
      s := s
      vt := .tabulate n n fun k j => r.2.entry j (ord.getD k 0) }

/-- The transposed matrix. -/
def transpose (m n : Nat) (w : Grid α) : Grid α := .tabulate n m fun i j => w.entry j i

/-- The decomposition of any matrix; a wide one goes by its transpose. -/
def thin? (m n : Nat) (w : Grid α) : Option (Singular α) :=
  if n ≤ m then tall? m n w
  else (tall? n m (transpose m n w)).map fun r =>
    ⟨transpose m m r.vt, r.s, transpose n m r.u⟩

/-- **The singular value decomposition**, with the pivots of the left vectors positive. -/
def svd? (m n : Nat) (w : Grid α) : Option (Array α × Array α × Array α) :=
  (thin? m n w).map fun r =>
    let k := min m n
    (Signs.positivePivots m k r.u.data, r.s.toArray,
      Signs.alongPivots m k n r.u.data r.vt.data)

end MemoFlow.Jacobi
