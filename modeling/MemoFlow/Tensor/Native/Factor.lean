import MemoFlow.Tensor.Basic
import MemoFlow.Tensor.Grid

/-!
# Factors of matrices

* **`Cholesky.factor?`**: the lower factor, none when a pivot is not positive; `Cholesky.column` is
  one column of it from the columns before;
* **`Lu.factor`**: the elimination with row exchanges, which gives the row order and the matrix that
  holds both triangles; `Lu.step` clears one column;
* `Lu.lower`, `Lu.upper`, `Lu.permutation`: its factors;
* **`Qr.factor`**: the factors `Q` and `R`, with a diagonal of `R` that is not negative;
  `Qr.reflector` and `Qr.reflect` are the reflection that clears a column, `Qr.triangularise` clears
  all of them.
-/

/-! ## Symmetric matrices -/

namespace MemoFlow.Cholesky

variable {α : Type} [Arith α] [Scalar α]

/-- `x` less the products of the first `j` entries of two rows. -/
def residue (l : Grid α) (x : α) (i j : Nat) : α :=
  (List.range j).foldl (fun s p => s - l.entry i p * l.entry j p) x

/-- Fill column `j`, unless its pivot is not positive. -/
def column (n : Nat) (a : Grid α) (l : Grid α) (j : Nat) : Option (Grid α) :=
  let d := residue l (a.entry j j) j j
  if Scalar.lt 0 d then
    let root := Scalar.sqrt d
    some (.tabulate n n fun i c =>
      if c = j ∧ i = j then root
      else if c = j ∧ j < i then residue l (a.entry i j) i j / root
      else l.entry i c)
  else none

/-- **The lower factor** of a symmetric matrix. -/
def factor? (n : Nat) (a : Grid α) : Option (Grid α) :=
  (List.range n).foldlM (column n a) (.tabulate n n fun _ _ => 0)

end MemoFlow.Cholesky

/-! ## Elimination with row exchanges -/

namespace MemoFlow.Lu

variable {α : Type} [Arith α] [Scalar α]

/-- The first row from `k` on whose entry in column `k` has the greatest magnitude. -/
def pivotRow (n k : Nat) (w : Grid α) : Nat :=
  (List.range' (k + 1) (n - (k + 1))).foldl (fun best i =>
    if Scalar.lt (Scalar.abs (w.entry best k)) (Scalar.abs (w.entry i k)) then i else best) k

/-- The index that meets `i` when `a` and `b` are exchanged. -/
def swapIndex (a b i : Nat) : Nat := if i = a then b else if i = b then a else i

/-- Exchange two rows. -/
def exchange (n a b : Nat) (w : Grid α) : Grid α :=
  .tabulate n n fun i j => w.entry (swapIndex a b i) j

/-- Subtract multiples of row `k` from the rows below; the multipliers take the place of the
entries they clear. -/
def eliminate (n k : Nat) (w : Grid α) : Grid α :=
  let d := w.entry k k
  .tabulate n n fun i j =>
    if i ≤ k ∨ j < k then w.entry i j
    else
      let factor := w.entry i k / d
      if j = k then factor else w.entry i j - factor * w.entry k j

/-- One column of the elimination: exchange rows, then clear the column unless its pivot is zero. -/
def step (n : Nat) (s : List Nat × Grid α) (k : Nat) : List Nat × Grid α :=
  let p := pivotRow n k s.2
  let w := if p ≠ k then exchange n k p s.2 else s.2
  let perm := if p ≠ k then (List.range n).map fun i => s.1.getD (swapIndex k p i) 0 else s.1
  (perm, if Scalar.eq (w.entry k k) 0 then w else eliminate n k w)

/-- **The elimination**: the order of the rows and the matrix of multipliers and remainders. -/
def factor (n : Nat) (w : Grid α) : List Nat × Grid α :=
  (List.range n).foldl (step n) (List.range n, w)

/-- The lower factor, with ones on the diagonal. -/
def lower (n : Nat) (w : Grid α) : Grid α :=
  .tabulate n n fun i j => if j < i then w.entry i j else if i = j then 1 else 0

/-- The upper factor. -/
def upper (n : Nat) (w : Grid α) : Grid α :=
  .tabulate n n fun i j => if j < i then 0 else w.entry i j

/-- The permutation matrix `P` for rows in the order `perm`: column `i` has its one in row
`perm i`. -/
def permutation (perm : List Nat) : Grid α :=
  .tabulate perm.length perm.length fun i j => if perm.getD j 0 = i then 1 else 0

end MemoFlow.Lu

/-! ## Reflections to triangular form -/

namespace MemoFlow.Qr

variable {α : Type} [Arith α] [Scalar α]

/-- The Euclidean norm of a list. -/
def norm (xs : List α) : α := Scalar.sqrt (xs.foldl (fun s x => s + x * x) 0)

/-- The unit vector of the reflection that sends column `k`, from row `k` on, to a multiple of the
first axis; none for a column of zeros. -/
def reflector (m k : Nat) (w : Grid α) : Option (Array α) :=
  let xs := (List.range' k (m - k)).map fun i => w.entry i k
  let r := norm xs
  if Scalar.eq r 0 then none
  else
    let shift := if Scalar.le 0 (xs.headD 0) then -r else r
    let v := match xs with
      | [] => []
      | x :: rest => (x - shift) :: rest
    let s := norm v
    if Scalar.eq s 0 then none else some (v.map (· / s)).toArray

/-- The reflection with unit vector `v`, which starts in row `k`, on the columns from `from` on. -/
def reflect (m n k start : Nat) (v : Array α) (w : Grid α) : Grid α :=
  let dots := Array.ofFn fun j : Fin n =>
    (List.range' k (m - k)).foldl (fun s i => s + v.getD (i - k) 0 * w.entry i j) 0
  .tabulate m n fun i j =>
    if i < k ∨ j < start then w.entry i j
    else w.entry i j - Scalar.two * v.getD (i - k) 0 * dots.getD j 0

/-- Clear one column below the diagonal and note the reflector. -/
def step (m n : Nat) (s : Grid α × List (Option (Array α))) (k : Nat) :
    Grid α × List (Option (Array α)) :=
  match reflector m k s.1 with
  | none => (s.1, s.2 ++ [none])
  | some v => (reflect m n k k v s.1, s.2 ++ [some v])

/-- The triangular matrix and the reflectors, in the order of their columns. -/
def triangularise (m n : Nat) (w : Grid α) : Grid α × List (Option (Array α)) :=
  (List.range n).foldl (step m n) (w, [])

/-- The product of the reflections applied to the first `n` columns of the identity. -/
def orthogonal (m n : Nat) (vs : List (Option (Array α))) : Grid α :=
  (vs.zipIdx.reverse).foldl (fun q p =>
    match p.1 with
    | none => q
    | some v => reflect m n p.2 0 v q)
    (.tabulate m n fun i j => if i = j then 1 else 0)

/-- **The factors** `Q` (`m × n`) and `R` (`n × n`) as payloads. -/
def factor (m n : Nat) (w : Grid α) : Array α × Array α :=
  let (t, vs) := triangularise m n w
  let r : Grid α := .tabulate n n fun i j => if i ≤ j then t.entry i j else 0
  Signs.positiveDiagonal m n (orthogonal m n vs).data r.data

end MemoFlow.Qr
