import Mathlib.LinearAlgebra.Matrix.Permutation
import MemoFlow.Proofs.Algebra.Exact
import MemoFlow.Proofs.Bounds.Factor

/-!
# Elimination with row exchanges

The elimination keeps the multipliers and the remaining matrix in one grid. After `k` columns the
first `k` columns of the left factor and the first `k` rows of the right factor are known, and what
is left of the matrix, with its rows in their new order, stands in the lower right corner.

* `Lu.Orders`, `Lu.IsPermutation`: the order of the rows and its matrix;
* **`Lu.Reduces`**: the state after `k` columns, as a product and a rest;
* `Lu.Reduces.exchange`, `Lu.Clears`, `Lu.Reduces.clear`: exchanging rows and clearing a column
  keep it;
* `Lu.leads_pivotRow`, `Lu.clears_of_leads`: a pivot leads its column, so a column whose pivot is
  zero is clear as it is;
* **`Native.lu_factors`**: every square matrix is `P L U`.
-/

namespace MemoFlow.Lu

open Finset (range sum_congr sum_range_succ)

/-! ## Factors -/

section Factors

variable {α : Type} [Field α] {n : Nat} {σ : Equiv.Perm (Fin n)}

/-- The left factor that the multipliers below the diagonal make. -/
def left (w : Grid α) (i p : Nat) : α := if p < i then w.entry i p else if i = p then 1 else 0

/-- The right factor from the diagonal on. -/
def right (w : Grid α) (p j : Nat) : α := if j < p then 0 else w.entry p j

theorem lower_apply (w : Grid α) (i j : Fin n) : (lower n w).matrix n n i j = left w i j :=
  Grid.entry_tabulate _ i.2 j.2

theorem upper_apply (w : Grid α) (i j : Fin n) : (upper n w).matrix n n i j = right w i j :=
  Grid.entry_tabulate _ i.2 j.2

theorem isLowerTriangular_lower (w : Grid α) : ((lower n w).matrix n n).IsLowerTriangular := by
  intro i j hij
  have hlt : (i : Nat) < j := hij
  rw [lower_apply, left, if_neg (by omega), if_neg (by omega)]

theorem isUpperTriangular_upper (w : Grid α) : ((upper n w).matrix n n).IsUpperTriangular := by
  intro i j hij
  have hlt : (j : Nat) < i := hij
  rw [upper_apply, right, if_pos hlt]

theorem lower_diagonal (w : Grid α) (i : Fin n) : (lower n w).matrix n n i i = 1 := by
  rw [lower_apply, left, if_neg (lt_irrefl _), if_pos rfl]

/-- **A permutation matrix**: zeros, and exactly one one in each row and each column. -/
structure IsPermutation (P : Matrix (Fin n) (Fin n) α) : Prop where
  entry (i j : Fin n) : P i j = 0 ∨ P i j = 1
  row (i : Fin n) : ∃! j, P i j = 1
  column (j : Fin n) : ∃! i, P i j = 1

theorem permMatrix_apply (i j : Fin n) : σ.permMatrix α i j = if σ i = j then 1 else 0 := by
  simp [PEquiv.toMatrix_apply, eq_comm]

theorem isPermutation_permMatrix : IsPermutation (σ.permMatrix α) := by
  have hone (i j : Fin n) : σ.permMatrix α i j = 1 ↔ σ i = j := by simp
  refine ⟨fun i j => ?_, fun i => ⟨σ i, (hone _ _).2 rfl, fun j hj => ((hone _ _).1 hj).symm⟩,
    fun j => ⟨σ.symm j, (hone _ _).2 (σ.apply_symm_apply j), fun i hi => ?_⟩⟩
  · rw [hone, permMatrix_apply]
    simp [em']
  · rw [← (hone _ _).1 hi, σ.symm_apply_apply]

/-- The order of the rows as a permutation: row `i` of the new matrix is row `σ i`. -/
structure Orders (perm : List Nat) (σ : Equiv.Perm (Fin n)) : Prop where
  length : perm.length = n
  row (i : Fin n) : perm.getD i 0 = σ i

theorem orders_range : Orders (List.range n) (1 : Equiv.Perm (Fin n)) :=
  ⟨List.length_range, fun i => by simp [List.getD_eq_getElem?_getD]⟩

/-- The matrix of an order has the one of column `i` in the row that comes `i`-th. -/
theorem Orders.permutation {perm : List Nat} (hp : Orders perm σ) :
    (permutation perm : Grid α).matrix n n = Equiv.Perm.permMatrix α σ.symm := by
  rw [Lu.permutation, hp.length, Grid.matrix_tabulate]
  ext i j
  rw [Matrix.of_apply, permMatrix_apply, hp.row]
  refine if_congr ?_ rfl rfl
  rw [σ.symm_apply_eq, eq_comm, Fin.ext_iff]

theorem swapIndex_eq (a b i : Fin n) : swapIndex a b i = Equiv.swap a b i := by
  simp only [swapIndex, Equiv.swap_apply_def, Fin.ext_iff]
  split_ifs <;> rfl

end Factors

/-! ## The invariant -/

section Invariant

variable {α : Type} [Field α] [LinearOrder α] {n k : Nat} {σ : Equiv.Perm (Fin n)}
  {A : Matrix (Fin n) (Fin n) α} {w w' : Grid α}

/-- **The state after `k` columns**: a product of `k` columns by `k` rows, and what is left in the
lower right corner. Multipliers have magnitudes up to one. -/
structure Reduces (A : Matrix (Fin n) (Fin n) α) (k : Nat) (σ : Equiv.Perm (Fin n)) (w : Grid α) :
    Prop where
  product (i j : Fin n) : A (σ i) j =
    ∑ p ∈ range k, left w i p * right w p j + if k ≤ i ∧ k ≤ j then w.entry i j else 0
  small (i : Fin n) (p : Nat) : p < k → p < i → |w.entry i p| ≤ 1

theorem reduces_zero : Reduces (w.matrix n n) 0 1 w := ⟨fun i j => by simp, nofun⟩

/-- Rows that are not finished may be exchanged. -/
theorem Reduces.exchange (h : Reduces A k σ w) {a b : Fin n} (ha : k ≤ a) (hb : k ≤ b)
    (hw : ∀ i j : Fin n, w'.entry i j = w.entry (Equiv.swap a b i) j) :
    Reduces A k (σ * Equiv.swap a b) w' := by
  have hcases (i : Fin n) :
      (i : Nat) < k ∧ Equiv.swap a b i = i ∨ k ≤ i ∧ k ≤ Equiv.swap a b i := by
    by_cases hi : (i : Nat) < k
    · refine .inl ⟨hi, Equiv.swap_apply_of_ne_of_ne ?_ ?_⟩ <;> rintro rfl <;> omega
    · refine .inr ⟨by omega, ?_⟩
      rw [Equiv.swap_apply_def]
      split_ifs <;> omega
  have hleft (i : Fin n) {p : Nat} (hp : p < k) : left w' i p = left w (Equiv.swap a b i) p := by
    unfold left
    rw [hw i ⟨p, by omega⟩]
    obtain ⟨hi, heq⟩ | ⟨hi, hi'⟩ := hcases i
    · rw [heq]
    · rw [if_pos (by omega), if_pos (by omega)]
  have hright (j : Fin n) {p : Nat} (hp : p < k) : right w' p j = right w p j := by
    have hfix : Equiv.swap a b ⟨p, by omega⟩ = ⟨p, by omega⟩ := by
      obtain ⟨-, heq⟩ | ⟨hp', -⟩ := hcases ⟨p, by omega⟩
      · exact heq
      · exact absurd hp' (by simpa using hp)
    unfold right
    rw [hw ⟨p, by omega⟩ j, hfix]
  refine ⟨fun i j => ?_, fun i p hp hpi => ?_⟩
  · rw [Equiv.Perm.mul_apply, h.product, hw]
    congr 1
    · refine sum_congr rfl fun p hp => ?_
      rw [hleft i (Finset.mem_range.1 hp), hright j (Finset.mem_range.1 hp)]
    · refine if_congr (and_congr_left' ?_) rfl rfl
      obtain ⟨-, heq⟩ | ⟨hi, hi'⟩ := hcases i
      · rw [heq]
      · exact iff_of_true hi' hi
  · rw [hw i ⟨p, by omega⟩]
    refine h.small _ p hp ?_
    obtain ⟨-, heq⟩ | ⟨-, hi'⟩ := hcases i
    · rwa [heq]
    · omega

/-- **Column `k` is cleared**: the rows below are what they were, less multiples of row `k`. -/
structure Clears (n k : Nat) (w w' : Grid α) : Prop where
  keep (i j : Fin n) : i ≤ k ∨ j < k → w'.entry i j = w.entry i j
  factor (i : Fin n) : k < i → w'.entry i k * w.entry k k = w.entry i k
  rest (i j : Fin n) : k < i → k < j →
    w'.entry i j = w.entry i j - w'.entry i k * w.entry k j
  small (i : Fin n) : k < i → |w'.entry i k| ≤ 1

theorem Reduces.clear (h : Reduces A k σ w) (hk : k < n) (hw : Clears n k w w') :
    Reduces A (k + 1) σ w' := by
  have hleft (i : Fin n) {p : Nat} (hp : p < k) : left w' i p = left w i p := by
    unfold left
    rw [hw.keep i ⟨p, by omega⟩ (.inr hp)]
  have hright (j : Fin n) {p : Nat} (hp : p ≤ k) : right w' p j = right w p j := by
    unfold right
    rw [hw.keep ⟨p, by omega⟩ j (.inl hp)]
  refine ⟨fun i j => ?_, fun i p hp hpi => ?_⟩
  · have hsum : ∑ p ∈ range k, left w' i p * right w' p j =
        ∑ p ∈ range k, left w i p * right w p j := sum_congr rfl fun p hp => by
      rw [hleft i (Finset.mem_range.1 hp), hright j (Finset.mem_range.1 hp).le]
    rw [h.product, sum_range_succ, hsum, hright j le_rfl, add_assoc]
    congr 1
    -- the new term of the product and the new rest make up the old rest
    unfold left right
    obtain hik | hik | hik := lt_trichotomy (i : Nat) k
    · simp [hik.not_ge, hik.ne, hik.not_gt, show ¬k + 1 ≤ (i : Nat) by omega]
    · by_cases hjk : (j : Nat) < k
      · simp [hik, hjk, hjk.not_ge]
      · simp [hik, hjk, not_lt.1 hjk]
    · obtain hjk | hjk | hjk := lt_trichotomy (j : Nat) k
      · simp [hjk, hjk.not_ge, show ¬k + 1 ≤ (j : Nat) by omega]
      · simp [hik, hik.le, hjk, hw.factor i hik]
      · simp [hik, hik.le, hjk.le, hjk.not_gt, hjk, hw.rest i j hik hjk]
  · obtain hp | rfl : p < k ∨ p = k := by omega
    · rw [hw.keep i ⟨p, by omega⟩ (.inr hp)]
      exact h.small i p hp hpi
    · exact hw.small i hpi

/-- When all columns are done nothing is left beside the product. -/
theorem Reduces.eq_mul (h : Reduces A n σ w) :
    A = Equiv.Perm.permMatrix α σ.symm * (lower n w).matrix n n * (upper n w).matrix n n := by
  ext i j
  have hrow := h.product (σ.symm i) j
  rw [if_neg (by omega), add_zero, σ.apply_symm_apply,
    ← Fin.sum_univ_eq_sum_range fun p => left w (σ.symm i : Fin n) p * right w p j] at hrow
  rw [hrow, Matrix.mul_assoc, PEquiv.toMatrix_toPEquiv_mul, Matrix.submatrix_apply,
    Matrix.mul_apply]
  simp only [lower_apply, upper_apply, id_eq]

/-- Multipliers, ones and zeros are all that the left factor has. -/
theorem Reduces.abs_lower_le [IsStrictOrderedRing α] (h : Reduces A n σ w) (i j : Fin n) :
    |(lower n w).matrix n n i j| ≤ 1 := by
  rw [lower_apply, left]
  split_ifs with hlt
  · exact h.small i j j.2 hlt
  · rw [abs_one]
  · rw [abs_zero]
    exact zero_le_one

end Invariant

/-! ## The elimination -/

section Elimination

variable {α : Type} [Field α] [LinearOrder α] [Scalar α] [Scalar.Exact α] {n k : Nat}
  {σ : Equiv.Perm (Fin n)} {A : Matrix (Fin n) (Fin n) α} {w : Grid α}

/-- Row `r` has an entry of greatest magnitude in column `k`, from the diagonal on. -/
structure Leads (n k : Nat) (w : Grid α) (r : Nat) : Prop where
  le : k ≤ r
  lt : r < n
  abs_le (i : Nat) : k ≤ i → i < n → |w.entry i k| ≤ |w.entry r k|

theorem leads_pivotRow (hk : k < n) (w : Grid α) : Leads n k w (pivotRow n k w) := by
  have hloop := foldl_range'_of_step
    (P := fun i r => k ≤ r ∧ r < i ∧ ∀ j, k ≤ j → j < i → |w.entry j k| ≤ |w.entry r k|)
    (f := fun best i =>
      if Scalar.lt (Scalar.abs (w.entry best k)) (Scalar.abs (w.entry i k)) then i else best)
    (a := k + 1) (c := n - (k + 1)) (s := k)
    ⟨le_rfl, by omega, fun j hkj hj => by rw [show j = k by omega]⟩ ?_
  · rw [show k + 1 + (n - (k + 1)) = n by omega] at hloop
    exact ⟨hloop.1, hloop.2.1, hloop.2.2⟩
  · rintro i hki - r ⟨hkr, hri, hmax⟩
    simp only [Scalar.Exact.abs_eq, Scalar.Exact.lt_iff]
    split_ifs with hlt
    · refine ⟨by omega, by omega, fun j hkj hj => ?_⟩
      obtain hj | rfl : j < i ∨ j = i := by omega
      · exact (hmax j hkj hj).trans hlt.le
      · exact le_rfl
    · refine ⟨hkr, by omega, fun j hkj hj => ?_⟩
      obtain hj | rfl : j < i ∨ j = i := by omega
      · exact hmax j hkj hj
      · exact not_lt.1 hlt

variable [IsStrictOrderedRing α]

/-- A column that its pivot leads is cleared by the elimination, and one whose pivot is zero is
clear already. -/
theorem clears_of_leads (hk : k < n)
    (h : ∀ i, k ≤ i → i < n → |w.entry i k| ≤ |w.entry k k|) :
    Clears n k w (if Scalar.eq (w.entry k k) 0 then w else eliminate n k w) := by
  by_cases hd : w.entry k k = 0
  · have hzero (i : Fin n) (hi : k < i) : w.entry i k = 0 := by
      have hle := h i hi.le i.2
      rwa [hd, abs_zero, abs_nonpos_iff] at hle
    rw [if_pos ((Scalar.Exact.eq_iff _ _).2 hd)]
    refine ⟨fun _ _ _ => rfl, fun i hi => ?_, fun i j hi _ => ?_, fun i hi => ?_⟩
    · rw [hzero i hi, zero_mul]
    · rw [hzero i hi, zero_mul, sub_zero]
    · rw [hzero i hi, abs_zero]
      exact zero_le_one
  · have hentry (i j : Fin n) : (eliminate n k w).entry i j =
        if (i : Nat) ≤ k ∨ (j : Nat) < k then w.entry i j
        else if (j : Nat) = k then w.entry i k / w.entry k k
        else w.entry i j - w.entry i k / w.entry k k * w.entry k j :=
      Grid.entry_tabulate _ i.2 j.2
    have hfactor (i : Fin n) (hi : k < i) :
        (eliminate n k w).entry i k = w.entry i k / w.entry k k := by
      rw [hentry i ⟨k, hk⟩, if_neg (by simp [hi]), if_pos rfl]
    rw [if_neg (by simpa using hd)]
    refine ⟨fun i j hij => ?_, fun i hi => ?_, fun i j hi hj => ?_, fun i hi => ?_⟩
    · rw [hentry, if_pos hij]
    · rw [hfactor i hi, div_mul_cancel₀ _ hd]
    · rw [hfactor i hi, hentry, if_neg (by omega), if_neg (by omega)]
    · rw [hfactor i hi, abs_div]
      exact div_le_one_of_le₀ (h i hi.le i.2) (abs_nonneg _)

/-- **One column of the elimination.** -/
theorem reduces_step {perm : List Nat} (hp : Orders perm σ) (h : Reduces A k σ w) (hk : k < n) :
    ∃ τ : Equiv.Perm (Fin n), Orders (step n (perm, w) k).1 τ ∧
      Reduces A (k + 1) τ (step n (perm, w) k).2 := by
  obtain ⟨hle, hlt, hmax⟩ := leads_pivotRow hk w
  unfold step
  dsimp only
  generalize pivotRow n k w = r at hle hlt hmax
  have hentry (i j : Fin n) : (if r ≠ k then exchange n k r w else w).entry i j =
      w.entry (Equiv.swap (⟨k, hk⟩ : Fin n) ⟨r, hlt⟩ i) j := by
    by_cases hrk : r = k
    · subst hrk
      simp
    · rw [if_pos hrk, ← swapIndex_eq]
      exact Grid.entry_tabulate _ i.2 j.2
  have horder : Orders (if r ≠ k then (List.range n).map fun i => perm.getD (swapIndex k r i) 0
      else perm) (σ * Equiv.swap ⟨k, hk⟩ ⟨r, hlt⟩) := by
    by_cases hrk : r = k
    · subst hrk
      rw [if_neg (by simp), Equiv.swap_self, ← Equiv.Perm.one_def, mul_one]
      exact hp
    · rw [if_pos hrk]
      refine ⟨by simp, fun i => ?_⟩
      have hswap := swapIndex_eq ⟨k, hk⟩ ⟨r, hlt⟩ i
      rw [Equiv.Perm.mul_apply, ← hp.row, ← hswap]
      simp [List.getD_eq_getElem?_getD]
  refine ⟨_, horder, (h.exchange (a := ⟨k, hk⟩) (b := ⟨r, hlt⟩) le_rfl hle hentry).clear hk
    (clears_of_leads hk fun i hki hin => ?_)⟩
  have hrow := hentry ⟨i, hin⟩ ⟨k, hk⟩
  have hpivot := hentry ⟨k, hk⟩ ⟨k, hk⟩
  rw [Equiv.swap_apply_left] at hpivot
  dsimp only at hrow hpivot
  rw [hrow, hpivot]
  refine hmax _ ?_ (Fin.is_lt _)
  rw [Equiv.swap_apply_def]
  split_ifs
  exacts [hle, le_rfl, hki]

theorem reduces_factor (w : Grid α) :
    ∃ σ : Equiv.Perm (Fin n), Orders (factor n w).1 σ ∧
      Reduces (w.matrix n n) n σ (factor n w).2 :=
  foldl_range_of_step (P := fun k (s : List Nat × Grid α) => ∃ σ : Equiv.Perm (Fin n),
    Orders s.1 σ ∧ Reduces (w.matrix n n) k σ s.2) ⟨1, orders_range, reduces_zero⟩
    fun _ hk _ ⟨_, hp, h⟩ => reduces_step hp h hk

end Elimination

end MemoFlow.Lu

namespace MemoFlow.Native

/-- **Every square matrix is `P L U`**, a singular one as well, over every ordered field: `P` is a
permutation matrix, `L` has ones on its diagonal and no entry of a magnitude above one, and `U` is
upper triangular. -/
theorem lu_factors {α : Type} [Field α] [LinearOrder α] [IsStrictOrderedRing α] [Scalar α]
    [Scalar.Exact α] {n : Nat} {a : Tensor α} {A : Matrix (Fin n) (Fin n) α} (ha : a.Holds A) :
    ∃ p l u : Tensor α, ∃ P L U : Matrix (Fin n) (Fin n) α,
      lu a = [p, l, u] ∧ p.Holds P ∧ l.Holds L ∧ u.Holds U ∧ A = P * L * U ∧
      Lu.IsPermutation P ∧ L.IsLowerTriangular ∧ (∀ i, L i i = 1) ∧ (∀ i j, |L i j| ≤ 1) ∧
      U.IsUpperTriangular := by
  obtain ⟨σ, hp, h⟩ := Lu.reduces_factor (n := n) (grid a)
  rw [ha.matrix_grid] at h
  unfold lu
  rw [ha.rows]
  dsimp only
  generalize Lu.factor n (grid a) = s at hp h
  have hfits : (Lu.permutation s.1 : Grid α).Fits n n := by
    simpa [hp.length] using Guarded.fits_permutation (α := α) s.1
  have hproduct := h.eq_mul
  have hpermutation := Lu.isPermutation_permMatrix (α := α) (σ := σ.symm)
  rw [← hp.permutation] at hproduct hpermutation
  exact ⟨_, _, _, _, _, _, rfl, Tensor.holds_ofMatrix ha.dtype ha.rows ha.rows hfits,
    Tensor.holds_ofMatrix ha.dtype ha.rows ha.rows (Guarded.fits_lower n s.2),
    Tensor.holds_ofMatrix ha.dtype ha.rows ha.rows (Guarded.fits_upper n s.2), hproduct,
    hpermutation, Lu.isLowerTriangular_lower s.2, Lu.lower_diagonal s.2, h.abs_lower_le,
    Lu.isUpperTriangular_upper s.2⟩

/-- A singular matrix of real numbers, whose rows are exchanged. -/
theorem lu_factors_singular :
    let a : Tensor ℝ := ⟨.f64, [2, 2], #[1, 2, 2, 4], .native⟩
    a.Holds !![1, 2; 2, 4] ∧ ∃ p l u : Tensor ℝ, ∃ P L U : Matrix (Fin 2) (Fin 2) ℝ,
      lu a = [p, l, u] ∧ p.Holds P ∧ l.Holds L ∧ u.Holds U ∧ !![1, 2; 2, 4] = P * L * U ∧
      Lu.IsPermutation P ∧ L.IsLowerTriangular ∧ (∀ i, L i i = 1) ∧ (∀ i j, |L i j| ≤ 1) ∧
      U.IsUpperTriangular := by
  intro a
  have ha : a.Holds !![1, 2; 2, 4] :=
    ⟨rfl, rfl, rfl, rfl, rfl, fun i j => by fin_cases i <;> fin_cases j <;> rfl⟩
  exact ⟨ha, lu_factors ha⟩

end MemoFlow.Native
