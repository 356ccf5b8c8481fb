import Mathlib.Algebra.Order.Star.Real
import Mathlib.LinearAlgebra.Matrix.NonsingularInverse
import Mathlib.LinearAlgebra.Matrix.PosDef
import MemoFlow.Proofs.Algebra.Exact

/-!
# Lower factors of positive definite matrices

A column of the factor is a column of what the columns before leave of the matrix, divided by the
root of its pivot. What is left after it is the Schur complement of the pivot, and that is definite
on the remaining coordinates as long as the matrix is.

* `Cholesky.rest`, **`Cholesky.Factors`**: what is left of the matrix, and the state after `k`
  columns;
* `Cholesky.Factors.next`, `Cholesky.Definite.complement`: one more column keeps the state, and the
  rest definite;
* `Cholesky.column_eq`: a column is a column of the rest, unless the pivot is not positive;
* **`Native.cholesky_factors`**: a symmetric matrix has its factor when it is positive definite, and
  is refused else.
-/

namespace MemoFlow.Cholesky

open Matrix

/-! ## What is left of a matrix -/

section Rest

variable {α : Type} [Field α] {n : Nat}

/-- What a matrix is beyond the product of its factor so far. -/
def rest (A L : Matrix (Fin n) (Fin n) α) : Matrix (Fin n) (Fin n) α := A - L * Lᵀ

variable {A L : Matrix (Fin n) (Fin n) α}

theorem isSymm_rest (hA : A.IsSymm) : (rest A L).IsSymm := hA.sub (isSymm_mul_transpose_self L)

/-- A new column in the place of zeros takes its own product away. -/
theorem rest_updateCol {j : Fin n} (hL : ∀ i, L i j = 0) (v : Fin n → α) :
    rest A (L.updateCol j v) = rest A L - vecMulVec v v := by
  have hterm (i c p : Fin n) : L.updateCol j v i p * L.updateCol j v c p =
      L i p * L c p + if p = j then v i * v c else 0 := by
    rw [updateCol_apply, updateCol_apply]
    split_ifs with hp
    · rw [hp, hL, zero_mul, zero_add]
    · rw [add_zero]
  ext i c
  simp only [rest, Matrix.sub_apply, mul_apply, transpose_apply, hterm, Finset.sum_add_distrib,
    Finset.sum_ite_eq', Finset.mem_univ, if_true, vecMulVec_apply]
  ring

/-- Running differences subtract the product, where the later columns are still zero. -/
theorem residue_eq {l : Grid α} {j : Fin n} (hl : ∀ i c : Fin n, j ≤ c → l.matrix n n i c = 0)
    (x : α) (i : Fin n) : residue l x i j = x - (l.matrix n n * (l.matrix n n)ᵀ) i j := by
  have hzero : ∀ p ∈ Finset.range n, p ∉ Finset.range j → l.entry i p * l.entry j p = 0 := by
    intro p hp hpj
    rw [Finset.mem_range] at hp hpj
    have hcol := hl i ⟨p, hp⟩ (not_lt.1 hpj)
    rw [Grid.matrix_apply] at hcol
    rw [hcol, zero_mul]
  rw [residue, foldl_sub_eq, sum_map_range, mul_apply,
    Finset.sum_subset (Finset.range_subset_range.2 j.2.le) hzero, ← Fin.sum_univ_eq_sum_range]
  rfl

end Rest

/-! ## Definite matrices -/

section Definite

variable {α : Type} [Field α] [LinearOrder α] {n : Nat} {S : Matrix (Fin n) (Fin n) α} {j : Fin n}

/-- A matrix that is definite on the coordinates from `k` on. -/
def Definite (k : Nat) (S : Matrix (Fin n) (Fin n) α) : Prop :=
  ∀ x : Fin n → α, (∀ i : Fin n, i < k → x i = 0) → x ≠ 0 → 0 < x ⬝ᵥ S *ᵥ x

variable [IsStrictOrderedRing α]

theorem Definite.pivot_pos (h : Definite j S) : 0 < S j j := by
  have hpos := h (Pi.single j 1) (fun i hi => Pi.single_eq_of_ne (by rintro rfl; omega) 1)
    (by simp)
  rwa [mulVec_single_one, single_one_dotProduct] at hpos

/-- The Schur complement of the pivot is definite on the remaining coordinates. -/
theorem Definite.complement (hS : S.IsSymm) (h : Definite j S) {r : α} (hr : r * r = S j j) :
    Definite (j + 1) (S - vecMulVec (fun i => S i j / r) fun i => S i j / r) := by
  intro x hx hx0
  have hd := h.pivot_pos
  have hcol : x ⬝ᵥ S.col j = (S *ᵥ x) j := by
    rw [dotProduct_comm]
    exact congrArg (· ⬝ᵥ x) (funext fun i => hS.apply j i)
  have hv : (fun i => S i j / r) = r⁻¹ • S.col j := by
    ext i
    simp [div_eq_inv_mul]
  -- among the vectors that agree with `x` elsewhere, the form is least at this one
  have hleast : 0 < (x - ((S *ᵥ x) j / S j j) • Pi.single j 1) ⬝ᵥ
      S *ᵥ (x - ((S *ᵥ x) j / S j j) • Pi.single j 1) := by
    refine h _ (fun i hi => ?_) fun h0 => hx0 (funext fun i => ?_)
    · have hij : i ≠ j := by
        rintro rfl
        omega
      simp [hx i (by omega), hij]
    · by_cases hij : i = j
      · rw [hij]
        exact hx j (by omega)
      · simpa [hij] using congrFun h0 i
  calc 0 < _ := hleast
    _ = x ⬝ᵥ S *ᵥ x - (S *ᵥ x) j * (S *ᵥ x) j / S j j := by
      rw [mulVec_sub, mulVec_smul, mulVec_single_one, sub_dotProduct, dotProduct_sub,
        dotProduct_sub, smul_dotProduct, smul_dotProduct, dotProduct_smul, dotProduct_smul,
        single_one_dotProduct, single_one_dotProduct, hcol]
      simp only [smul_eq_mul, col_apply]
      field_simp
      ring
    _ = _ := by
      rw [hv, sub_mulVec, dotProduct_sub, vecMulVec_mulVec, dotProduct_smul, dotProduct_smul,
        smul_dotProduct, dotProduct_comm _ x, hcol, ← hr]
      simp only [smul_eq_mul, MulOpposite.smul_eq_mul_unop, MulOpposite.unop_op]
      field_simp

end Definite

/-! ## The state after some columns -/

section Columns

variable {α : Type} [Field α] [LinearOrder α] {n : Nat} {A L : Matrix (Fin n) (Fin n) α}

/-- **The state after `k` columns**: a lower triangular matrix with positive pivots and zeros from
column `k` on, whose product has the first `k` columns of the matrix. -/
structure Factors (A : Matrix (Fin n) (Fin n) α) (k : Nat) (L : Matrix (Fin n) (Fin n) α) :
    Prop where
  blank (i j : Fin n) : k ≤ j → L i j = 0
  lower : L.IsLowerTriangular
  pivot (j : Fin n) : j < k → 0 < L j j
  rest_eq (i j : Fin n) : j < k → rest A L i j = 0

theorem factors_zero : Factors A 0 ((Grid.tabulate n n fun _ _ => (0 : α)).matrix n n) := by
  rw [Grid.matrix_tabulate]
  exact ⟨fun _ _ _ => rfl, blockTriangular_zero, nofun, nofun⟩

theorem Factors.eq_mul (h : Factors A n L) : A = L * Lᵀ :=
  sub_eq_zero.1 (Matrix.ext fun i j => h.rest_eq i j j.2)

/-- The rest is zero above the pivot as well. -/
theorem Factors.rest_eq_of_lt (hA : A.IsSymm) {k : Nat} (h : Factors A k L) {i : Fin n} (j : Fin n)
    (hi : i < k) : rest A L i j = 0 :=
  ((isSymm_rest hA).apply j i).trans (h.rest_eq j i hi)

variable [Scalar α]

/-- The next column of the factor: the rest over the root of the pivot. -/
def nextColumn (A L : Matrix (Fin n) (Fin n) α) (j : Fin n) : Fin n → α :=
  fun i => rest A L i j / Scalar.sqrt (rest A L j j)

variable [Scalar.ExactRoot α]

/-- A column is a column of the rest, unless the pivot is not positive. -/
theorem column_eq (hA : A.IsSymm) {a l : Grid α} (ha : a.matrix n n = A) {j : Fin n}
    (h : Factors A j (l.matrix n n)) :
    (∃ l', column n a l j = some l' ∧ 0 < rest A (l.matrix n n) j j ∧ l'.Fits n n ∧
      l'.matrix n n = (l.matrix n n).updateCol j (nextColumn A (l.matrix n n) j)) ∨
      column n a l j = none ∧ ¬0 < rest A (l.matrix n n) j j := by
  have hres (i : Fin n) : residue l (a.entry i j) i j = rest A (l.matrix n n) i j := by
    rw [residue_eq (fun i c hc => h.blank i c hc), ← ha]
    rfl
  unfold column
  dsimp only
  rw [hres j]
  by_cases hd : 0 < rest A (l.matrix n n) j j
  · left
    rw [if_pos ((Scalar.Exact.lt_iff _ _).2 hd)]
    refine ⟨_, rfl, hd, Grid.fits_tabulate _ _ _, ?_⟩
    rw [Grid.matrix_tabulate]
    ext i c
    rw [of_apply, updateCol_apply]
    by_cases hc : c = j
    · subst hc
      rw [if_pos rfl, nextColumn]
      obtain hi | rfl | hi := lt_trichotomy i c
      · have hi' : (i : Nat) < c := hi
        rw [if_neg (by omega), if_neg (by omega), h.rest_eq_of_lt hA _ hi, zero_div]
        exact h.blank i c le_rfl
      · rw [if_pos ⟨rfl, rfl⟩, eq_div_iff (Scalar.sqrt_pos hd).ne']
        exact Scalar.ExactRoot.sqrt_mul_self hd.le
      · have hi' : (c : Nat) < i := hi
        rw [if_neg (by omega), if_pos ⟨rfl, hi⟩, hres]
    · have hc' : (c : Nat) ≠ j := fun h => hc (Fin.ext h)
      rw [if_neg (by omega), if_neg (by omega), if_neg hc]
      rfl
  · exact .inr ⟨if_neg (by simpa using hd), hd⟩

variable [IsStrictOrderedRing α]

/-- **One more column keeps the state.** -/
theorem Factors.next (hA : A.IsSymm) {j : Fin n} (h : Factors A j L) (hd : 0 < rest A L j j) :
    Factors A (j + 1) (L.updateCol j (nextColumn A L j)) := by
  refine ⟨fun i c hc => ?_, fun i c hic => ?_, fun c hc => ?_, fun i c hc => ?_⟩
  · rw [updateCol_apply, if_neg (by rintro rfl; omega)]
    exact h.blank i c (by omega)
  · have hlt : i < c := hic
    rw [updateCol_apply]
    split_ifs with hcj
    · subst hcj
      rw [nextColumn, h.rest_eq_of_lt hA _ hlt, zero_div]
    · exact h.lower hic
  · rw [updateCol_apply]
    split_ifs with hcj
    · subst hcj
      exact div_pos hd (Scalar.sqrt_pos hd)
    · exact h.pivot c (by omega)
  · rw [rest_updateCol (fun i => h.blank i j le_rfl), Matrix.sub_apply, vecMulVec_apply]
    obtain hc | rfl : (c : Nat) < j ∨ c = j := by omega
    · rw [h.rest_eq i c hc, nextColumn, nextColumn, h.rest_eq_of_lt hA j hc, zero_div, mul_zero,
        sub_zero]
    · rw [nextColumn, nextColumn, div_mul_div_comm, Scalar.ExactRoot.sqrt_mul_self hd.le,
        mul_div_cancel_right₀ _ hd.ne', sub_self]

theorem Definite.next (hA : A.IsSymm) {j : Fin n} (h : Factors A j L)
    (hd : Definite j (rest A L)) :
    Definite (j + 1) (rest A (L.updateCol j (nextColumn A L j))) := by
  rw [rest_updateCol fun i => h.blank i j le_rfl]
  exact hd.complement (isSymm_rest hA) (Scalar.ExactRoot.sqrt_mul_self hd.pivot_pos.le)

/-! ## The whole factor -/

theorem factors_of_eq_some (hA : A.IsSymm) {a l : Grid α} (ha : a.matrix n n = A)
    (h : factor? n a = some l) : l.Fits n n ∧ Factors A n (l.matrix n n) := by
  refine of_foldlM_range_eq_some (P := fun k l => l.Fits n n ∧ Factors A k (l.matrix n n))
    ⟨Grid.fits_tabulate _ _ _, factors_zero⟩ ?_ h
  rintro k hk l l' ⟨-, h⟩ hl
  obtain ⟨_, hl', hd, hfits, hm⟩ | ⟨hl', -⟩ := column_eq hA ha (j := ⟨k, hk⟩) h
  · obtain rfl := Option.some.inj (hl.symm.trans hl')
    exact ⟨hfits, hm ▸ h.next hA hd⟩
  · exact nomatch hl.symm.trans hl'

/-- A definite matrix meets no pivot that is not positive. -/
theorem exists_factor (hA : A.IsSymm) {a : Grid α} (ha : a.matrix n n = A) (h : Definite 0 A) :
    ∃ l, factor? n a = some l := by
  have hrest : rest A ((Grid.tabulate n n fun _ _ => (0 : α)).matrix n n) = A := by
    rw [Grid.matrix_tabulate]
    exact (congrArg (A - ·) (Matrix.zero_mul _)).trans (sub_zero A)
  have hstep : ∀ k < n, ∀ l : Grid α,
      Factors A k (l.matrix n n) ∧ Definite k (rest A (l.matrix n n)) →
      ∃ l', column n a l k = some l' ∧
        Factors A (k + 1) (l'.matrix n n) ∧ Definite (k + 1) (rest A (l'.matrix n n)) := by
    rintro k hk l ⟨h, hdef⟩
    obtain ⟨l', hl', hd, -, hm⟩ | ⟨-, hd⟩ := column_eq hA ha (j := ⟨k, hk⟩) h
    · exact ⟨l', hl', hm ▸ h.next hA hd, hm ▸ Definite.next hA (j := ⟨k, hk⟩) h hdef⟩
    · exact absurd (Definite.pivot_pos (j := ⟨k, hk⟩) hdef) hd
  obtain ⟨l, hl, -⟩ := foldlM_range_of_step
    (P := fun k (l : Grid α) => Factors A k (l.matrix n n) ∧ Definite k (rest A (l.matrix n n)))
    ⟨factors_zero, hrest.symm ▸ h⟩ hstep
  exact ⟨l, hl⟩

end Columns

/-- The product of a lower triangular matrix with positive diagonal and its transpose. -/
theorem posDef_of_factors {n : Nat} {A L : Matrix (Fin n) (Fin n) ℝ} (h : Factors A n L) :
    A.PosDef := by
  have hunit : IsUnit L := by
    rw [isUnit_iff_isUnit_det, det_of_isLowerTriangular L h.lower]
    exact isUnit_iff_ne_zero.2 (Finset.prod_ne_zero_iff.2 fun i _ => (h.pivot i i.2).ne')
  rw [h.eq_mul, ← conjTranspose_eq_transpose_of_trivial]
  exact PosDef.mul_conjTranspose_self L (vecMul_injective_of_isUnit hunit)

theorem definite_of_posDef {n : Nat} {A : Matrix (Fin n) (Fin n) ℝ} (h : A.PosDef) :
    Definite 0 A := fun x _ hx => by
  have hpos := h.dotProduct_mulVec_pos hx
  rwa [star_trivial] at hpos

end MemoFlow.Cholesky

namespace MemoFlow.Native

open Matrix

/-- **A symmetric real matrix has its lower factor exactly when it is positive definite**: then the
factor is lower triangular with a positive diagonal and the matrix is its product with its
transpose, and else the matrix is refused. -/
theorem cholesky_factors {n : Nat} {a : Tensor ℝ} {A : Matrix (Fin n) (Fin n) ℝ} (ha : a.Holds A)
    (hA : A.IsSymm) :
    (A.PosDef → ∃ (l : Tensor ℝ) (L : Matrix (Fin n) (Fin n) ℝ), cholesky a = .ok [l] ∧
      l.Holds L ∧ L.IsLowerTriangular ∧ (∀ i, 0 < L i i) ∧ A = L * Lᵀ) ∧
    (¬A.PosDef → cholesky a = .error (.refused .notPositiveDefinite)) := by
  have hgrid := ha.matrix_grid
  unfold cholesky
  rw [ha.rows]
  refine ⟨fun hpos => ?_, fun hneg => ?_⟩
  · obtain ⟨l, hl⟩ := Cholesky.exists_factor hA hgrid (Cholesky.definite_of_posDef hpos)
    obtain ⟨hfits, h⟩ := Cholesky.factors_of_eq_some hA hgrid hl
    rw [hl]
    exact ⟨_, _, rfl, Tensor.holds_ofMatrix ha.dtype ha.rows ha.rows hfits, h.lower,
      fun i => h.pivot i i.2, h.eq_mul⟩
  · cases hl : Cholesky.factor? n (grid a) with
    | none => rfl
    | some l =>
      exact absurd (Cholesky.posDef_of_factors (Cholesky.factors_of_eq_some hA hgrid hl).2) hneg

/-- A positive definite matrix and one that is not. -/
theorem cholesky_factors_two :
    let a : Tensor ℝ := ⟨.f64, [2, 2], #[4, 2, 2, 2], .native⟩
    let b : Tensor ℝ := ⟨.f64, [2, 2], #[1, 2, 2, 1], .native⟩
    (a.Holds !![4, 2; 2, 2] ∧ (!![4, 2; 2, 2] : Matrix (Fin 2) (Fin 2) ℝ).IsSymm ∧
      ∃ (l : Tensor ℝ) (L : Matrix (Fin 2) (Fin 2) ℝ), cholesky a = .ok [l] ∧ l.Holds L ∧
        L.IsLowerTriangular ∧ (∀ i, 0 < L i i) ∧ !![4, 2; 2, 2] = L * Lᵀ) ∧
    b.Holds !![1, 2; 2, 1] ∧ (!![1, 2; 2, 1] : Matrix (Fin 2) (Fin 2) ℝ).IsSymm ∧
      cholesky b = .error (.refused .notPositiveDefinite) := by
  intro a b
  have ha : a.Holds !![4, 2; 2, 2] :=
    ⟨rfl, rfl, rfl, rfl, rfl, fun i j => by fin_cases i <;> fin_cases j <;> rfl⟩
  have hb : b.Holds !![1, 2; 2, 1] :=
    ⟨rfl, rfl, rfl, rfl, rfl, fun i j => by fin_cases i <;> fin_cases j <;> rfl⟩
  have hA : (!![4, 2; 2, 2] : Matrix (Fin 2) (Fin 2) ℝ).IsSymm :=
    IsSymm.ext fun i j => by fin_cases i <;> fin_cases j <;> rfl
  have hB : (!![1, 2; 2, 1] : Matrix (Fin 2) (Fin 2) ℝ).IsSymm :=
    IsSymm.ext fun i j => by fin_cases i <;> fin_cases j <;> rfl
  have hpos : (!![4, 2; 2, 2] : Matrix (Fin 2) (Fin 2) ℝ).PosDef := by
    have hunit : IsUnit (!![2, 0; 1, 1] : Matrix (Fin 2) (Fin 2) ℝ) := by
      rw [isUnit_iff_isUnit_det, det_fin_two_of]
      norm_num
    have hmul := PosDef.mul_conjTranspose_self _ (vecMul_injective_of_isUnit hunit)
    convert hmul using 1
    ext i j
    fin_cases i <;> fin_cases j <;> norm_num [mul_apply, Fin.sum_univ_two]
  have hneg : ¬(!![1, 2; 2, 1] : Matrix (Fin 2) (Fin 2) ℝ).PosDef := fun h => by
    have hlt := h.dotProduct_mulVec_pos (x := ![1, -1]) fun h0 => by simpa using congrFun h0 0
    norm_num [dotProduct, mulVec, Fin.sum_univ_two] at hlt
  exact ⟨⟨ha, hA, (cholesky_factors ha hA).1 hpos⟩, hb, hB, (cholesky_factors hb hB).2 hneg⟩

end MemoFlow.Native
