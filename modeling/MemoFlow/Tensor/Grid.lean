import MemoFlow.Number.Scalar

/-!
# Matrices of the decompositions

A matrix held row by row. The decompositions build each intermediate matrix from a formula for its
entries.

* **`Grid`**, `Grid.entry`, `Grid.tabulate`, `Grid.ofArray`;
* `Grid.entry_tabulate`: a tabulated matrix has the entries of its formula;
* `Signs.pivot`: the first entry of greatest magnitude of a column;
* **`Signs.positiveDiagonal`**: rows of `R` with a negative diagonal entry are flipped;
* **`Signs.positivePivots`**: columns with a negative pivot are flipped.
-/

namespace MemoFlow

/-- **A matrix**, row by row. -/
structure Grid (α : Type) where
  /-- The number of rows. -/
  rows : Nat
  /-- The number of columns. -/
  cols : Nat
  /-- The entries. -/
  data : Array α
deriving Repr, Inhabited

namespace Grid

variable {α : Type}

/-- An entry, zero outside the payload. -/
def entry [Zero α] (g : Grid α) (i j : Nat) : α := g.data.getD (i * g.cols + j) 0

/-- The matrix with a formula for its entries. -/
def tabulate (m n : Nat) (f : Nat → Nat → α) : Grid α :=
  ⟨m, n, Array.ofFn fun p : Fin (m * n) => f (p.val / n) (p.val % n)⟩

/-- The matrix of a payload. -/
def ofArray (m n : Nat) (data : Array α) : Grid α := ⟨m, n, data⟩

@[simp] theorem rows_tabulate (m n : Nat) (f : Nat → Nat → α) : (tabulate m n f).rows = m := rfl

@[simp] theorem cols_tabulate (m n : Nat) (f : Nat → Nat → α) : (tabulate m n f).cols = n := rfl

@[simp] theorem size_data_tabulate (m n : Nat) (f : Nat → Nat → α) :
    (tabulate m n f).data.size = m * n := by simp [tabulate]

/-- A tabulated matrix has the entries of its formula. -/
theorem entry_tabulate [Zero α] {m n : Nat} (f : Nat → Nat → α) {i j : Nat} (hi : i < m)
    (hj : j < n) :
    (tabulate m n f).entry i j = f i j := by
  have hlt : i * n + j < m * n :=
    Nat.lt_of_lt_of_le (Nat.add_lt_add_left hj _) (by
      rw [← Nat.succ_mul]; exact Nat.mul_le_mul_right _ hi)
  have hn : 0 < n := Nat.lt_of_le_of_lt (Nat.zero_le _) hj
  have hdiv : (i * n + j) / n = i := by
    rw [Nat.mul_comm, Nat.mul_add_div hn, Nat.div_eq_of_lt hj, Nat.add_zero]
  have hmod : (i * n + j) % n = j := by
    rw [Nat.mul_comm, Nat.mul_add_mod, Nat.mod_eq_of_lt hj]
  simp [entry, tabulate, Array.getD, hlt, hdiv, hmod]

end Grid

end MemoFlow

/-!
## Sign conventions of factors

A factorisation is unique only up to signs; these functions choose them. A flip negates a row of
one factor and the matching column of the other, so the product stays.
-/

namespace MemoFlow.Signs

variable {α : Type} [Arith α] [Scalar α]

/-- Negate the entries of a payload whose place is chosen. -/
def negateAt (flip : Nat → Bool) (data : Array α) : Array α :=
  data.mapIdx fun p x => if flip p then -x else x

/-- Whether row `i` of the `n × n` payload `r` has a diagonal entry that is not at least zero. -/
def negativeDiagonal (n : Nat) (r : Array α) (i : Nat) : Bool :=
  !Scalar.le 0 (r.getD (i * n + i) 0)

/-- **Make the diagonal of `r` not negative.** `q` is `m × n` and `r` is `n × n`. -/
def positiveDiagonal (m n : Nat) (q r : Array α) : Array α × Array α :=
  (negateAt (fun p => p < m * n && negativeDiagonal n r (p % n)) q,
    negateAt (fun p => p < n * n && negativeDiagonal n r (p / n)) r)

/-- The first entry of greatest magnitude of column `c` of an `m × k` payload. -/
def pivot (m k : Nat) (data : Array α) (c : Nat) : α :=
  (List.range m).foldl (fun best i =>
    let x := data.getD (i * k + c) 0
    if Scalar.lt (Scalar.abs best) (Scalar.abs x) then x else best) 0

/-- Whether column `c` has a pivot that is not at least zero. -/
def negativePivot (m k : Nat) (data : Array α) (c : Nat) : Bool :=
  !Scalar.le 0 (pivot m k data c)

/-- **Make the pivot of every column of an `m × k` payload positive.** -/
def positivePivots (m k : Nat) (columns : Array α) : Array α :=
  negateAt (fun p => p < m * k && negativePivot m k columns (p % k)) columns

/-- The `k × n` payload of the rows that belong to the columns, flipped along with them. -/
def alongPivots (m k n : Nat) (columns rows : Array α) : Array α :=
  negateAt (fun p => p < k * n && negativePivot m k columns (p / n)) rows

end MemoFlow.Signs
