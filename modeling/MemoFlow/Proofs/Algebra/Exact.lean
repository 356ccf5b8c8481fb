import Mathlib.Data.Matrix.Diagonal
import Mathlib.LinearAlgebra.Matrix.Block
import MemoFlow.Proofs.Bounds.Loops
import MemoFlow.Proofs.Tensor.Agree
import MemoFlow.Tensor.Native.Run

/-!
# Exact numbers and the matrices of tensors

What the decompositions mean is a statement about numbers that are not rounded: an ordered field
with its own order, and with true roots where roots are taken. The real numbers are such numbers.

* **`Scalar.Exact`**, **`Scalar.ExactRoot`**: numbers with exact comparisons, and with exact roots;
* `foldl_range'_of_step`: the invariant of a loop over numbers in turn;
* `foldl_add_eq`, `foldl_sub_eq`, `sum_map_range'`: running sums;
* `transpose_mul_self_mul`: products of matrices with orthonormal columns;
* **`Grid.matrix`**: the matrix of a payload, `Grid.matrix_tabulate`;
* **`Tensor.Holds`**, **`Tensor.HoldsVector`**: tensors of doubles that hold a matrix or a vector.

To flip columns of a factor is to multiply it by a diagonal matrix of signs from the right, to flip
rows is to multiply from the left.

* `Signs.sign`, `Signs.diagonalSigns`, `Signs.pivotSigns`: the signs that are chosen;
* **`Signs.matrix_positiveDiagonal`**: both factors times the signs, with
  `Signs.diagonalSigns_mul_nonneg`;
* `Signs.IsPivot`, `Signs.exists_isPivot`: the first entry of greatest magnitude;
* **`Signs.matrix_positivePivots`**, `Signs.matrix_alongPivots`: columns times their signs, and the
  rows along with them, with `Signs.exists_isPivot_pos`.
-/

namespace MemoFlow

/-! ## Exact numbers -/

namespace Scalar

/-- **Numbers with exact comparisons**: those of an ordered field. -/
class Exact (α : Type) [Field α] [LinearOrder α] [Scalar α] : Prop where
  lt_iff (a b : α) : Scalar.lt a b = true ↔ a < b
  le_iff (a b : α) : Scalar.le a b = true ↔ a ≤ b
  eq_iff (a b : α) : Scalar.eq a b = true ↔ a = b
  abs_eq (a : α) : Scalar.abs a = |a|

/-- **Numbers with exact roots** of all numbers that have one. -/
class ExactRoot (α : Type) [Field α] [LinearOrder α] [Scalar α] : Prop extends Exact α where
  sqrt_nonneg (a : α) : 0 ≤ Scalar.sqrt a
  sqrt_mul_self {a : α} (h : 0 ≤ a) : Scalar.sqrt a * Scalar.sqrt a = a

theorem sqrt_pos {α : Type} [Field α] [LinearOrder α] [Scalar α] [ExactRoot α] {a : α}
    (h : 0 < a) : 0 < Scalar.sqrt a := by
  refine (ExactRoot.sqrt_nonneg a).lt_of_ne fun h0 => h.ne ?_
  rw [← ExactRoot.sqrt_mul_self h.le, ← h0, mul_zero]

attribute [simp] Exact.lt_iff Exact.le_iff Exact.eq_iff Exact.abs_eq

/-- The reals are such numbers. -/
instance : ExactRoot ℝ where
  lt_iff _ _ := decide_eq_true_iff
  le_iff _ _ := decide_eq_true_iff
  eq_iff _ _ := decide_eq_true_iff
  abs_eq _ := rfl
  sqrt_nonneg := Real.sqrt_nonneg
  sqrt_mul_self := Real.mul_self_sqrt

end Scalar

/-! ## Loops and running sums -/

/-- What each step of a loop passes on holds at its end. -/
theorem foldl_range'_of_step {σ : Type} {f : σ → Nat → σ} (P : Nat → σ → Prop) {a c : Nat} {s : σ}
    (h0 : P a s) (hstep : ∀ i, a ≤ i → i < a + c → ∀ s, P i s → P (i + 1) (f s i)) :
    P (a + c) ((List.range' a c).foldl f s) := by
  induction c with
  | zero => exact h0
  | succ c ih =>
    rw [List.range'_concat, List.foldl_append, one_mul]
    exact hstep (a + c) (by omega) (by omega) _ (ih fun i hi hic => hstep i hi (by omega))

theorem foldl_range_of_step {σ : Type} {f : σ → Nat → σ} (P : Nat → σ → Prop) {n : Nat} {s : σ}
    (h0 : P 0 s) (hstep : ∀ i < n, ∀ s, P i s → P (i + 1) (f s i)) :
    P n ((List.range n).foldl f s) := by
  have h := foldl_range'_of_step P (c := n) h0 fun i _ hi => hstep i (by omega)
  rwa [zero_add, ← List.range_eq_range'] at h

/-- The same for a loop that goes through, and one that may end early. -/
theorem foldlM_range_of_step {σ : Type} {f : σ → Nat → Option σ} (P : Nat → σ → Prop) {n : Nat}
    {s : σ} (h0 : P 0 s) (hstep : ∀ i < n, ∀ s, P i s → ∃ t, f s i = some t ∧ P (i + 1) t) :
    ∃ t, (List.range n).foldlM f s = some t ∧ P n t := by
  induction n with
  | zero => exact ⟨s, rfl, h0⟩
  | succ n ih =>
    obtain ⟨t, ht, hP⟩ := ih fun i hi => hstep i (by omega)
    obtain ⟨u, hu, hP'⟩ := hstep n (by omega) t hP
    exact ⟨u, by simp [List.range_succ, List.foldlM_append, ht, hu], hP'⟩

theorem of_foldlM_range_eq_some {σ : Type} {f : σ → Nat → Option σ} (P : Nat → σ → Prop) {n : Nat}
    {s t : σ} (h0 : P 0 s) (hstep : ∀ i < n, ∀ s t, P i s → f s i = some t → P (i + 1) t)
    (ht : (List.range n).foldlM f s = some t) : P n t := by
  induction n generalizing t with
  | zero => exact Option.some.inj ht ▸ h0
  | succ n ih =>
    rw [List.range_succ, List.foldlM_append] at ht
    obtain ⟨u, hu, hut⟩ := Option.bind_eq_some_iff.1 ht
    obtain ⟨v, hv, hvt⟩ := Option.bind_eq_some_iff.1 hut
    obtain rfl := Option.some.inj hvt
    exact hstep n (by omega) u v (ih (fun i hi => hstep i (by omega)) hu) hv

section Sums

variable {α ι : Type} [AddCommGroup α]

theorem foldl_add_eq (l : List ι) (f : ι → α) (x : α) :
    l.foldl (fun s i => s + f i) x = x + (l.map f).sum := by
  induction l generalizing x with
  | nil => simp
  | cons i l ih => rw [List.foldl_cons, ih, List.map_cons, List.sum_cons, add_assoc]

theorem foldl_sub_eq (l : List ι) (f : ι → α) (x : α) :
    l.foldl (fun s i => s - f i) x = x - (l.map f).sum := by
  induction l generalizing x with
  | nil => simp
  | cons i l ih => rw [List.foldl_cons, ih, List.map_cons, List.sum_cons, sub_sub]

theorem sum_map_range' (k m : Nat) (f : Nat → α) :
    ((List.range' k (m - k)).map f).sum = ∑ i ∈ Finset.Ico k m, f i := rfl

theorem sum_map_range (n : Nat) (f : Nat → α) :
    ((List.range n).map f).sum = ∑ i ∈ Finset.range n, f i := rfl

end Sums

/-! ## Matrices -/

/-- Matrices with orthonormal columns are closed under products. -/
theorem transpose_mul_self_mul {α : Type} [Field α] {l m n : Nat} {P : Matrix (Fin l) (Fin m) α}
    {Q : Matrix (Fin m) (Fin n) α} (hP : P.transpose * P = 1) (hQ : Q.transpose * Q = 1) :
    (P * Q).transpose * (P * Q) = 1 := by
  rw [Matrix.transpose_mul, Matrix.mul_assoc, ← Matrix.mul_assoc P.transpose, hP, Matrix.one_mul,
    hQ]

namespace Grid

variable {α : Type} [Zero α]

/-- **The matrix of a payload.** -/
def matrix (m n : Nat) (g : Grid α) : Matrix (Fin m) (Fin n) α := Matrix.of fun i j => g.entry i j

@[simp] theorem matrix_apply {m n : Nat} (g : Grid α) (i : Fin m) (j : Fin n) :
    g.matrix m n i j = g.entry i j := rfl

theorem matrix_tabulate {m n : Nat} (f : Nat → Nat → α) :
    (tabulate m n f).matrix m n = Matrix.of fun (i : Fin m) (j : Fin n) => f i j := by
  ext i j
  exact entry_tabulate f i.2 j.2

end Grid

/-! ## Tensors -/

namespace Tensor

variable {α : Type} [Arith α] {m n : Nat}

/-- **A tensor of doubles that holds a matrix**, row by row. -/
structure Holds (t : Tensor α) (M : Matrix (Fin m) (Fin n) α) : Prop where
  dtype : t.dtype = .f64
  rank : t.rank = 2
  rows : t.rows = m
  cols : t.cols = n
  size : t.data.size = m * n
  entry (i : Fin m) (j : Fin n) : t.get (i * n + j) = M i j

/-- **A tensor of doubles that holds a vector.** -/
structure HoldsVector (t : Tensor α) (x : Fin n → α) : Prop where
  dtype : t.dtype = .f64
  rank : t.rank = 1
  rows : t.rows = n
  size : t.data.size = n
  entry (i : Fin n) : t.get i = x i

theorem Holds.matrix_grid {t : Tensor α} {M : Matrix (Fin m) (Fin n) α} (h : t.Holds M) :
    (Native.grid t).matrix m n = M := by
  ext i j
  rw [← h.entry i j]
  change t.data.getD (i * t.cols + j) 0 = _
  rw [h.cols]
  rfl

variable [Scalar α]

omit [Arith α] in
theorem rounded_of_double {t : Tensor α} (h : t.dtype = .f64) : t.rounded = t :=
  if_neg (by rw [h]; exact nofun)

/-- A tensor made of a grid with all its entries in the payload. -/
theorem holds_ofMatrix {d : DType} (hd : d = .f64) {r c : UInt64} (hr : r.toNat = m)
    (hc : c.toNat = n) {g : Grid α} (hg : g.Fits m n) :
    (Native.ofMatrix r c g.data d).Holds (g.matrix m n) := by
  subst hd
  rw [Native.ofMatrix, rounded_of_double rfl]
  refine ⟨rfl, rfl, hr, hc, hg.size, fun i j => ?_⟩
  rw [Grid.matrix_apply, Grid.entry, hg.cols]
  rfl

/-- A tensor made of a payload of one row. -/
theorem holdsVector_ofVector {d : DType} (hd : d = .f64) {r : UInt64} (hr : r.toNat = n)
    {data : Array α} (hsize : data.size = n) :
    (Native.ofVector r data d).HoldsVector fun i : Fin n => data.getD i 0 := by
  subst hd
  rw [Native.ofVector, rounded_of_double rfl]
  exact ⟨rfl, rfl, hr, hsize, fun _ => rfl⟩

end Tensor

end MemoFlow

/-! ## Sign conventions as diagonal matrices -/

namespace MemoFlow.Signs

open Matrix

variable {α : Type} [Field α] {m n : Nat}

/-- The sign of a place that may be flipped. -/
def sign (flip : Bool) : α := if flip then -1 else 1

theorem sign_mul_self (flip : Bool) : (sign flip * sign flip : α) = 1 := by
  cases flip <;> simp [sign]

/-- Signs on both sides cancel. -/
theorem diagonal_mul_self {d : Fin n → α} (hd : ∀ i, d i * d i = 1) :
    diagonal d * diagonal d = 1 := by
  rw [diagonal_mul_diagonal, ← diagonal_one]
  exact congrArg diagonal (funext hd)

theorem getD_negateAt (flip : Nat → Bool) (data : Array α) (p : Nat) :
    (negateAt flip data).getD p 0 = sign (flip p) * data.getD p 0 := by
  by_cases hp : p < data.size
  · cases hf : flip p <;> simp [negateAt, sign, Array.getD, hp, hf]
  · simp [negateAt, Array.getD, hp]

theorem div_place {i j : Nat} (hj : j < n) : (i * n + j) / n = i := by
  rw [Nat.mul_comm, Nat.mul_add_div (by omega), Nat.div_eq_of_lt hj, Nat.add_zero]

theorem mod_place {i j : Nat} (hj : j < n) : (i * n + j) % n = j := by
  rw [Nat.mul_comm, Nat.mul_add_mod, Nat.mod_eq_of_lt hj]

theorem matrix_ofArray_apply (data : Array α) (i : Fin m) (j : Fin n) :
    (Grid.ofArray m n data).matrix m n i j = data.getD (i * n + j) 0 := rfl

section Pivot

variable [LinearOrder α]

/-- **The first entry of greatest magnitude** of a column. -/
structure IsPivot (f : Fin m → α) (r : Fin m) : Prop where
  abs_le (i : Fin m) : |f i| ≤ |f r|
  abs_lt (i : Fin m) : i < r → |f i| < |f r|

theorem IsPivot.mul [IsStrictOrderedRing α] {f : Fin m → α} {r : Fin m} (h : IsPivot f r) {x : α}
    (hx : x ≠ 0) : IsPivot (fun i => f i * x) r := by
  refine ⟨fun i => ?_, fun i hi => ?_⟩ <;> simp only [abs_mul]
  · exact mul_le_mul_of_nonneg_right (h.abs_le i) (abs_nonneg x)
  · exact mul_lt_mul_of_pos_right (h.abs_lt i hi) (abs_pos.2 hx)

end Pivot

theorem matrix_ofArray {g : Grid α} (h : g.Fits m n) :
    (Grid.ofArray m n g.data).matrix m n = g.matrix m n := by
  ext i j
  rw [matrix_ofArray_apply, Grid.matrix_apply, Grid.entry, h.cols]

variable [Scalar α]

/-! ## Signs of a diagonal -/

/-- The signs that make a diagonal not negative. -/
def diagonalSigns (n : Nat) (r : Array α) (j : Fin n) : α := sign (negativeDiagonal n r j)

/-- **Columns of one factor and rows of the other are flipped together.** -/
theorem matrix_positiveDiagonal (m n : Nat) (q r : Array α) :
    (Grid.ofArray m n (positiveDiagonal m n q r).1).matrix m n =
        (Grid.ofArray m n q).matrix m n * diagonal (diagonalSigns n r) ∧
      (Grid.ofArray n n (positiveDiagonal m n q r).2).matrix n n =
        diagonal (diagonalSigns n r) * (Grid.ofArray n n r).matrix n n := by
  refine ⟨?_, ?_⟩
  · ext i j
    rw [mul_diagonal, mul_comm, matrix_ofArray_apply, positiveDiagonal, getD_negateAt,
      mod_place j.2, decide_eq_true (Grid.place_lt i.2 j.2), Bool.true_and]
    rfl
  · ext i j
    rw [diagonal_mul, matrix_ofArray_apply, positiveDiagonal, getD_negateAt, div_place j.2,
      decide_eq_true (Grid.place_lt i.2 j.2), Bool.true_and]
    rfl

theorem diagonalSigns_mul_self (r : Array α) :
    diagonal (diagonalSigns n r) * diagonal (diagonalSigns n r) = 1 :=
  diagonal_mul_self fun _ => sign_mul_self _

/-! ## Signs of pivots -/

/-- The signs that make the pivots of the columns positive. -/
def pivotSigns (m k : Nat) (columns : Array α) (j : Fin k) : α :=
  sign (negativePivot m k columns j)

/-- **Columns are flipped as a whole.** -/
theorem matrix_positivePivots (m k : Nat) (columns : Array α) :
    (Grid.ofArray m k (positivePivots m k columns)).matrix m k =
      (Grid.ofArray m k columns).matrix m k * diagonal (pivotSigns m k columns) := by
  ext i j
  rw [mul_diagonal, mul_comm, matrix_ofArray_apply, positivePivots, getD_negateAt, mod_place j.2,
    decide_eq_true (Grid.place_lt i.2 j.2), Bool.true_and]
  rfl

/-- **Rows are flipped along with the columns that they belong to.** -/
theorem matrix_alongPivots (m k n : Nat) (columns rows : Array α) :
    (Grid.ofArray k n (alongPivots m k n columns rows)).matrix k n =
      diagonal (pivotSigns m k columns) * (Grid.ofArray k n rows).matrix k n := by
  ext i j
  rw [diagonal_mul, matrix_ofArray_apply, alongPivots, getD_negateAt, div_place j.2,
    decide_eq_true (Grid.place_lt i.2 j.2), Bool.true_and]
  rfl

section Order

variable [LinearOrder α] [IsStrictOrderedRing α] [Scalar.Exact α]

/-- A sign that flips what is not at least zero. -/
theorem sign_mul_nonneg (x : α) : 0 ≤ sign (!Scalar.le 0 x) * x := by
  by_cases h : 0 ≤ x
  · rw [(Scalar.Exact.le_iff 0 x).2 h]
    simpa [sign] using h
  · rw [Bool.eq_false_iff.2 fun hle => h ((Scalar.Exact.le_iff 0 x).1 hle)]
    simpa [sign] using (not_le.1 h).le

/-- The diagonal times its signs is not negative. -/
theorem diagonalSigns_mul_nonneg (r : Array α) (i : Fin n) :
    0 ≤ diagonalSigns n r i * (Grid.ofArray n n r).matrix n n i i :=
  sign_mul_nonneg _

/-- The pivot of a column that is not all zeros is its first entry of greatest magnitude. -/
theorem exists_isPivot (data : Array α) (c : Fin n)
    (hc : ∃ i, (Grid.ofArray m n data).matrix m n i c ≠ 0) :
    ∃ r, IsPivot (fun i => (Grid.ofArray m n data).matrix m n i c) r ∧
      pivot m n data c = (Grid.ofArray m n data).matrix m n r c := by
  obtain ⟨x, hx⟩ : ∃ x : Nat → α, ∀ i, data.getD (i * n + c) 0 = x i := ⟨_, fun _ => rfl⟩
  simp only [matrix_ofArray_apply, pivot, hx] at hc ⊢
  have hloop := foldl_range_of_step (n := m) (s := (0 : α))
    (f := fun best i => if Scalar.lt (Scalar.abs best) (Scalar.abs (x i)) then x i else best)
    (P := fun k best => (∀ i < k, |x i| ≤ |best|) ∧
      (best = 0 ∨ ∃ r < k, best = x r ∧ ∀ i < r, |x i| < |best|))
    ⟨nofun, .inl rfl⟩ ?_
  · obtain ⟨hle, h0 | ⟨r, hr, hbest, hlt⟩⟩ := hloop
    · obtain ⟨i, hi⟩ := hc
      have hxi := hle i i.2
      rw [h0, abs_zero, abs_nonpos_iff] at hxi
      exact absurd hxi hi
    · rw [hbest] at hle hlt
      exact ⟨⟨r, hr⟩, ⟨fun i => hle i i.2, fun i hi => hlt i hi⟩, hbest⟩
  · rintro k - best ⟨hle, hbest⟩
    simp only [Scalar.Exact.abs_eq, Scalar.Exact.lt_iff]
    split_ifs with hlt
    · refine ⟨fun i hi => ?_, .inr ⟨k, by omega, rfl, fun i hi => (hle i hi).trans_lt hlt⟩⟩
      obtain hi | rfl : i < k ∨ i = k := by omega
      · exact (hle i hi).trans hlt.le
      · exact le_rfl
    · refine ⟨fun i hi => ?_, hbest.imp_right (Exists.imp fun r => And.imp_left Nat.lt_succ_of_lt)⟩
      obtain hi | rfl : i < k ∨ i = k := by omega
      · exact hle i hi
      · exact not_lt.1 hlt

/-- **Flipped along, that entry is positive.** -/
theorem exists_isPivot_pos (data : Array α) (c : Fin n)
    (hc : ∃ i, (Grid.ofArray m n data).matrix m n i c ≠ 0) :
    ∃ r, IsPivot (fun i => ((Grid.ofArray m n data).matrix m n *
        diagonal (pivotSigns m n data)) i c) r ∧
      0 < ((Grid.ofArray m n data).matrix m n * diagonal (pivotSigns m n data)) r c := by
  obtain ⟨r, hr, hpivot⟩ := exists_isPivot data c hc
  obtain ⟨i, hi⟩ := hc
  have hne : (Grid.ofArray m n data).matrix m n r c ≠ 0 :=
    abs_pos.1 ((abs_pos.2 hi).trans_le (hr.abs_le i))
  have hsign : pivotSigns m n data c ≠ 0 := left_ne_zero_of_mul_eq_one (sign_mul_self _)
  simp only [mul_diagonal]
  refine ⟨r, hr.mul hsign, lt_of_le_of_ne ?_ (mul_ne_zero hne hsign).symm⟩
  rw [mul_comm, pivotSigns, negativePivot, hpivot]
  exact sign_mul_nonneg _

end Order

end MemoFlow.Signs
