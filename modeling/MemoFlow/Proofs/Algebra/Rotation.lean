import Mathlib.LinearAlgebra.Matrix.NonsingularInverse
import Mathlib.LinearAlgebra.Matrix.RowCol
import Mathlib.LinearAlgebra.Matrix.Trace
import MemoFlow.Proofs.Algebra.Exact
import MemoFlow.Proofs.Bounds.Jacobi

/-!
# Rotations to diagonal form

To turn two columns of a matrix is to multiply it by a plane rotation from the right, to turn two
rows is to multiply it by the transpose from the left. A step of the iteration on a symmetric matrix
does both, so it is an orthogonal similarity.

* `Jacobi.plane`, `Jacobi.matrix_turnColumns`, `Jacobi.matrix_turnRows`: plane rotations;
* **`Jacobi.eigenRotation_spec`**: the angle that clears an entry, by the root of `t² + 2 θ t = 1`;
* `Jacobi.stages`, `Jacobi.forall_stages`: the states between the rotations of a run, and what all
  of them keep; `Jacobi.getLast_stages`: what is returned is the last of them;
* **`Jacobi.Similar`**: orthogonal vectors and the matrix seen along them, kept by
  `Jacobi.Similar.step`, with the sum of squares kept by `Jacobi.Similar.sumSquares_eq` and an entry
  cleared by `Jacobi.Similar.step_entry`;
* `Jacobi.order_le`, `Jacobi.squares_arranged`: ascending values, and vectors in their order;
* **`Jacobi.Diagonalises`**, **`Native.eigh_preserves`**: values and vectors of a symmetric matrix;
  `Jacobi.exists_eigen_two`: matrices with two rows have them.
-/

namespace MemoFlow.Jacobi

open Matrix

/-! ## Plane rotations -/

section Plane

variable {α : Type} [Field α] {m n : Nat} {p q : Fin n} {c s : α}

/-- **The rotation of the plane of two axes** with cosine `c` and sine `s`. -/
def plane (p q : Fin n) (c s : α) : Matrix (Fin n) (Fin n) α :=
  ((1 : Matrix (Fin n) (Fin n) α).updateCol p (Pi.single p c - Pi.single q s)).updateCol q
    (Pi.single p s + Pi.single q c)

theorem mul_plane_apply (hpq : p ≠ q) (W : Matrix (Fin m) (Fin n) α) (i : Fin m) (j : Fin n) :
    (W * plane p q c s) i j =
      if j = p then c * W i p - s * W i q
      else if j = q then s * W i p + c * W i q
      else W i j := by
  rw [plane, mul_updateCol, mul_updateCol, Matrix.mul_one, updateCol_apply, updateCol_apply,
    mulVec_sub, mulVec_add, mulVec_single, mulVec_single, mulVec_single, mulVec_single]
  simp only [Pi.add_apply, Pi.sub_apply, Pi.smul_apply, op_smul_eq_smul, smul_eq_mul, col_apply]
  split_ifs with hq hp hp
  · exact absurd (hp.symm.trans hq) hpq
  all_goals rfl

theorem plane_apply (hpq : p ≠ q) (i j : Fin n) :
    (plane p q c s : Matrix (Fin n) (Fin n) α) i j =
      if j = p then c * (1 : Matrix (Fin n) (Fin n) α) i p - s * (1 : Matrix (Fin n) (Fin n) α) i q
      else if j = q then
        s * (1 : Matrix (Fin n) (Fin n) α) i p + c * (1 : Matrix (Fin n) (Fin n) α) i q
      else (1 : Matrix (Fin n) (Fin n) α) i j := by
  rw [← mul_plane_apply hpq, Matrix.one_mul]

theorem transpose_plane_mul_apply (hpq : p ≠ q) (W : Matrix (Fin n) (Fin m) α) (i : Fin n)
    (j : Fin m) :
    ((plane p q c s)ᵀ * W) i j =
      if i = p then c * W p j - s * W q j
      else if i = q then s * W p j + c * W q j
      else W i j := by
  rw [← transpose_transpose W, ← transpose_mul, transpose_apply, mul_plane_apply hpq]
  simp only [transpose_apply]

/-- **A rotation is orthogonal.** -/
theorem transpose_plane_mul_self (hpq : p ≠ q) (h : c * c + s * s = 1) :
    (plane p q c s)ᵀ * plane p q c s = 1 := by
  ext i j
  rw [transpose_plane_mul_apply hpq]
  simp only [plane_apply hpq, one_apply]
  split_ifs <;> grind

theorem matrix_turnColumns (hpq : p ≠ q) (w : Grid α) :
    (turnColumns m n p q c s w).matrix m n = w.matrix m n * plane p q c s := by
  ext i j
  rw [mul_plane_apply hpq, turnColumns, Grid.matrix_tabulate, of_apply]
  simp only [Fin.ext_iff, Grid.matrix_apply]

theorem matrix_turnRows (hpq : p ≠ q) (w : Grid α) :
    (turnRows n m p q c s w).matrix n m = (plane p q c s)ᵀ * w.matrix n m := by
  ext i j
  rw [transpose_plane_mul_apply hpq, turnRows, Grid.matrix_tabulate, of_apply]
  simp only [Fin.ext_iff, Grid.matrix_apply]

end Plane

/-! ## The angle of a rotation -/

section Angle

variable {α : Type} [Field α] [Scalar α]

theorem signOf_mul_self (x : α) : signOf x * signOf x = 1 := by
  unfold signOf
  split_ifs
  · rw [one_mul]
  · rw [neg_one_mul, neg_neg]

/-- The tangent of an angle, for the cotangent of twice the angle. -/
def tangent (θ : α) : α := signOf θ / (Scalar.abs θ + Scalar.sqrt (θ * θ + 1))

variable [LinearOrder α] [IsStrictOrderedRing α] [Scalar.ExactRoot α]

theorem abs_eq_signOf_mul (x : α) : |x| = signOf x * x := by
  simp only [signOf, Scalar.Exact.le_iff]
  split_ifs with h
  · rw [abs_of_nonneg h, one_mul]
  · rw [abs_of_neg (not_le.1 h), neg_one_mul]

theorem tangent_root (θ : α) : tangent θ * tangent θ + 2 * θ * tangent θ = 1 := by
  have hθ : 0 < θ * θ + 1 := add_pos_of_nonneg_of_pos (mul_self_nonneg θ) one_pos
  have hroot := Scalar.ExactRoot.sqrt_mul_self hθ.le
  have hpos := Scalar.sqrt_pos hθ
  have hsign := signOf_mul_self θ
  have hne : |θ| + Scalar.sqrt (θ * θ + 1) ≠ 0 := by positivity
  rw [tangent, Scalar.Exact.abs_eq]
  rw [abs_eq_signOf_mul] at hne ⊢
  generalize signOf θ = g at hne hsign ⊢
  generalize Scalar.sqrt (θ * θ + 1) = r at hroot hpos hne ⊢
  field_simp
  linear_combination (1 + θ * θ) * hsign - hroot

theorem cosine_mul_self (t : α) :
    1 / Scalar.sqrt (t * t + 1) * (1 / Scalar.sqrt (t * t + 1)) * (t * t + 1) = 1 := by
  have ht : 0 < t * t + 1 := add_pos_of_nonneg_of_pos (mul_self_nonneg t) one_pos
  rw [div_mul_div_comm, Scalar.ExactRoot.sqrt_mul_self ht.le, one_mul, one_div_mul_cancel ht.ne']

/-- **Cosine and sine that clear an entry**: on the unit circle, at the angle where the turned
entries at `(p, q)` cancel. -/
theorem eigenRotation_spec {w : Grid α} {p q : Nat} (h : w.entry p q ≠ 0) :
    ∃ c t, eigenRotation w p q = (c, t) ∧ c * c + t * t = 1 ∧
      c * t * (w.entry p p - w.entry q q) + (c * c - t * t) * w.entry p q = 0 := by
  generalize hθ : (w.entry q q - w.entry p p) / (Scalar.two * w.entry p q) = θ
  have htwice : w.entry q q - w.entry p p = 2 * θ * w.entry p q := by
    rw [← hθ, Scalar.two, one_add_one_eq_two]
    field_simp
  have hroot := tangent_root θ
  refine ⟨1 / Scalar.sqrt (tangent θ * tangent θ + 1),
    tangent θ * (1 / Scalar.sqrt (tangent θ * tangent θ + 1)), ?_, ?_, ?_⟩
  · unfold eigenRotation
    rw [hθ]
    rfl
  · linear_combination cosine_mul_self (tangent θ)
  · generalize 1 / Scalar.sqrt (tangent θ * tangent θ + 1) = c
    linear_combination -(c * c * tangent θ) * htwice - c * c * w.entry p q * hroot

end Angle

/-! ## The states of a run -/

section Run

variable {α : Type} [Field α] [Scalar α] {n : Nat}

theorem lt_of_mem_pairs {pq : Nat × Nat} (h : pq ∈ pairs n) : pq.1 < pq.2 ∧ pq.2 < n := by
  obtain ⟨p, hp, hpq⟩ := List.mem_flatMap.1 h
  obtain ⟨q, hq, rfl⟩ := List.mem_map.1 hpq
  have hq' := List.mem_range'_1.1 hq
  dsimp only
  omega

/-- **The states between the rotations of a run**, from the first one on: before each sweep and
after each of its pairs. -/
def stages (n : Nat) : Nat → Grid α × Grid α → List (Grid α × Grid α)
  | 0, s => [s]
  | k + 1, s =>
    if isDiagonal n s.1 then [s]
    else (pairs n).scanl (eigenStep n) s ++ stages n k ((pairs n).foldl (eigenStep n) s)

/-- What every rotation keeps holds all along the run. -/
theorem forall_stages {P : Grid α × Grid α → Prop}
    (hstep : ∀ s, P s → ∀ pq ∈ pairs n, P (eigenStep n s pq)) (k : Nat) {s : Grid α × Grid α}
    (h0 : P s) : ∀ t ∈ stages n k s, P t := by
  have hscan : ∀ (l : List (Nat × Nat)), (∀ pq ∈ l, pq ∈ pairs n) → ∀ s, P s →
      (∀ t ∈ l.scanl (eigenStep n) s, P t) ∧ P (l.foldl (eigenStep n) s) := by
    intro l hl
    induction l with
    | nil => exact fun s hs => ⟨by simpa using hs, hs⟩
    | cons pq l ih =>
      intro s hs
      obtain ⟨hall, hlast⟩ := ih (fun pq' h => hl pq' (List.mem_cons_of_mem _ h)) _
        (hstep s hs pq (hl pq List.mem_cons_self))
      refine ⟨fun t ht => ?_, hlast⟩
      rw [List.scanl_cons, List.mem_cons] at ht
      obtain rfl | ht := ht
      · exact hs
      · exact hall t ht
  induction k generalizing s with
  | zero => simpa [stages] using h0
  | succ k ih =>
    obtain ⟨hall, hlast⟩ := hscan (pairs n) (fun _ h => h) s h0
    unfold stages
    split_ifs
    · simpa using h0
    · intro t ht
      obtain ht | ht := List.mem_append.1 ht
      · exact hall t ht
      · exact ih hlast t ht

/-- What the iteration returns is the last of its states, and is diagonal as far as it checks. -/
theorem getLast_stages {k : Nat} {s t : Grid α × Grid α} (h : eigenSweeps n k s = some t) :
    (stages n k s).getLast? = some t ∧ isDiagonal n t.1 = true := by
  induction k generalizing s with
  | zero => exact nomatch h
  | succ k ih =>
    unfold eigenSweeps at h
    unfold stages
    split_ifs at h ⊢ with hd
    · obtain rfl := Option.some.inj h
      exact ⟨rfl, hd⟩
    · obtain ⟨hlast, hdiag⟩ := ih h
      refine ⟨?_, hdiag⟩
      rw [List.getLast?_append, hlast]
      rfl

end Run

/-! ## Similar matrices -/

section Similar

variable {α : Type} [Field α] {n : Nat} {A : Matrix (Fin n) (Fin n) α} {s : Grid α × Grid α}

/-- The sum of the squares of all entries. -/
def sumSquares (W : Matrix (Fin n) (Fin n) α) : α := ∑ i, ∑ j, W i j ^ 2

/-- The sum of the squares off the diagonal. -/
def sumOffDiagonal (W : Matrix (Fin n) (Fin n) α) : α := ∑ i, ∑ j, if i = j then 0 else W i j ^ 2

/-- **The state of the iteration**: orthogonal vectors, and the matrix they make of the first
one. -/
structure Similar (A : Matrix (Fin n) (Fin n) α) (s : Grid α × Grid α) : Prop where
  orthogonal : (s.2.matrix n n)ᵀ * s.2.matrix n n = 1
  similar : s.1.matrix n n = (s.2.matrix n n)ᵀ * A * s.2.matrix n n

theorem matrix_identity : (identity n : Grid α).matrix n n = 1 := by
  rw [identity, Grid.matrix_tabulate]
  ext i j
  simp [one_apply, Fin.ext_iff]

theorem similar_identity (w : Grid α) : Similar (w.matrix n n) (w, identity n) := by
  constructor
  · rw [matrix_identity, transpose_one, Matrix.one_mul]
  · rw [matrix_identity, transpose_one, Matrix.one_mul, Matrix.mul_one]

theorem Similar.isSymm (hA : A.IsSymm) (h : Similar A s) : (s.1.matrix n n).IsSymm := by
  rw [h.similar, IsSymm, transpose_mul, transpose_mul, transpose_transpose, hA, Matrix.mul_assoc]

theorem sumSquares_eq_trace (W : Matrix (Fin n) (Fin n) α) : sumSquares W = trace (W * Wᵀ) := by
  simp only [sumSquares, trace, diag_apply, mul_apply, transpose_apply, pow_two]

/-- **The sum of the squares stays.** -/
theorem Similar.sumSquares_eq (h : Similar A s) : sumSquares (s.1.matrix n n) = sumSquares A := by
  have hright : s.2.matrix n n * (s.2.matrix n n)ᵀ = 1 := mul_eq_one_comm.1 h.orthogonal
  rw [sumSquares_eq_trace, sumSquares_eq_trace, h.similar]
  generalize s.2.matrix n n = V at hright ⊢
  calc trace (Vᵀ * A * V * (Vᵀ * A * V)ᵀ)
      = trace (Vᵀ * (A * (V * Vᵀ) * Aᵀ) * V) := by
        simp only [transpose_mul, transpose_transpose, Matrix.mul_assoc]
    _ = trace (V * Vᵀ * (A * Aᵀ)) := by
        rw [hright, Matrix.mul_one, trace_mul_comm, ← Matrix.mul_assoc, hright]
    _ = trace (A * Aᵀ) := by rw [hright, Matrix.one_mul]

variable [LinearOrder α] [IsStrictOrderedRing α] [Scalar α] [Scalar.ExactRoot α] {p q : Fin n}

/-- A pair that is not clear is turned by a plane rotation on both sides. -/
theorem eigenStep_eq (s : Grid α × Grid α) (hpq : p ≠ q) (h : s.1.entry p q ≠ 0) :
    ∃ c t, c * c + t * t = 1 ∧
      c * t * (s.1.entry p p - s.1.entry q q) + (c * c - t * t) * s.1.entry p q = 0 ∧
      (eigenStep n s (p, q)).1.matrix n n =
        (plane p q c t)ᵀ * (s.1.matrix n n * plane p q c t) ∧
      (eigenStep n s (p, q)).2.matrix n n = s.2.matrix n n * plane p q c t := by
  obtain ⟨c, t, hrot, hunit, hclear⟩ := eigenRotation_spec h
  refine ⟨c, t, hunit, hclear, ?_⟩
  rw [eigenStep, if_neg (mt (Scalar.Exact.eq_iff _ _).1 h), hrot]
  dsimp only
  rw [matrix_turnRows hpq, matrix_turnColumns hpq, matrix_turnColumns hpq]
  exact ⟨rfl, rfl⟩

/-- **A rotation is an orthogonal similarity.** -/
theorem Similar.step (h : Similar A s) (hpq : p ≠ q) : Similar A (eigenStep n s (p, q)) := by
  by_cases hzero : s.1.entry p q = 0
  · rwa [eigenStep, if_pos ((Scalar.Exact.eq_iff _ _).2 hzero)]
  · obtain ⟨c, t, hunit, -, hw, hv⟩ := eigenStep_eq s hpq hzero
    constructor
    · rw [hv]
      exact transpose_mul_self_mul h.orthogonal (transpose_plane_mul_self hpq hunit)
    · rw [hv, hw, h.similar]
      simp only [transpose_mul, Matrix.mul_assoc]

/-- **A rotation makes the entry of its pair zero.** -/
theorem Similar.step_entry (hA : A.IsSymm) (h : Similar A s) (hpq : p ≠ q) :
    (eigenStep n s (p, q)).1.entry p q = 0 := by
  by_cases hzero : s.1.entry p q = 0
  · rwa [eigenStep, if_pos ((Scalar.Exact.eq_iff _ _).2 hzero)]
  · obtain ⟨c, t, -, hclear, hw, -⟩ := eigenStep_eq s hpq hzero
    have hsymm : s.1.entry q p = s.1.entry p q := (h.isSymm hA).apply p q
    rw [← Grid.matrix_apply, hw, transpose_plane_mul_apply hpq, if_pos rfl, mul_plane_apply hpq,
      mul_plane_apply hpq, if_neg hpq.symm, if_neg hpq.symm, if_pos rfl, if_pos rfl]
    simp only [Grid.matrix_apply, hsymm]
    linear_combination hclear

end Similar

/-! ## The order of the values and the signs of the vectors -/

section Arranged

variable {α : Type} [Field α] {n : Nat}

theorem sum_places (f : Nat → Nat → α) :
    ∑ p ∈ Finset.range (n * n), f (p / n) (p % n) = ∑ i : Fin n, ∑ j : Fin n, f i j := by
  rw [← Fin.sum_univ_eq_sum_range fun p => f (p / n) (p % n), ← Fintype.sum_prod_type']
  exact Fintype.sum_equiv finProdFinEquiv.symm _ _ fun p => rfl

theorem squares_eq (w : Grid α) :
    squares n w = (sumOffDiagonal (w.matrix n n), sumSquares (w.matrix n n)) := by
  let sq (p : Nat) : α := w.entry (p / n) (p % n) ^ 2
  have hstep : squares n w = (List.range (n * n)).foldl
      (fun s p => s + (if p / n = p % n then 0 else sq p, sq p)) 0 := by
    unfold squares
    congr 1
    funext s p
    by_cases hp : p / n = p % n <;> simp [hp, sq, pow_two, Prod.ext_iff]
  rw [hstep, foldl_add_eq, zero_add, sum_map_range, Prod.ext_iff, Prod.fst_sum, Prod.snd_sum]
  refine ⟨(sum_places fun i j => if i = j then 0 else w.entry i j ^ 2).trans ?_,
    sum_places fun i j => w.entry i j ^ 2⟩
  simp only [sumOffDiagonal, Fin.ext_iff, Grid.matrix_apply]

/-- Vectors in another order and with other signs make the same matrix, up to both. -/
theorem arranged_apply (A V : Matrix (Fin n) (Fin n) α) (σ : Equiv.Perm (Fin n)) (d : Fin n → α)
    (i j : Fin n) :
    ((V.submatrix id σ * diagonal d)ᵀ * A * (V.submatrix id σ * diagonal d)) i j =
      d i * (Vᵀ * A * V) (σ i) (σ j) * d j := by
  have hperm : (V.submatrix id σ)ᵀ * A * V.submatrix id σ = (Vᵀ * A * V).submatrix σ σ := rfl
  rw [transpose_mul, diagonal_transpose, ← Matrix.mul_assoc, mul_diagonal, Matrix.mul_assoc,
    Matrix.mul_assoc, diagonal_mul, ← Matrix.mul_assoc, hperm, submatrix_apply]

variable {W W' : Matrix (Fin n) (Fin n) α} {σ : Equiv.Perm (Fin n)} {d : Fin n → α}

/-- Orthonormal vectors in another order are orthonormal. -/
theorem orthogonal_submatrix (h : Wᵀ * W = 1) (σ : Equiv.Perm (Fin n)) :
    (W.submatrix id σ)ᵀ * W.submatrix id σ = 1 := by
  have hperm : (W.submatrix id σ)ᵀ * W.submatrix id σ = (Wᵀ * W).submatrix σ σ := rfl
  rw [hperm, h, submatrix_one_equiv]

theorem sum_sum_perm (f : Fin n → Fin n → α) :
    ∑ i, ∑ j, f (σ i) (σ j) = ∑ i, ∑ j, f i j :=
  (Equiv.sum_comp σ fun i => ∑ j, f i (σ j)).trans
    (Finset.sum_congr rfl fun i _ => Equiv.sum_comp σ (f i))

/-- Order and signs do not matter to sums of squares. -/
theorem squares_arranged (hd : ∀ i, d i * d i = 1)
    (h : ∀ i j, W' i j = d i * W (σ i) (σ j) * d j) :
    sumOffDiagonal W' = sumOffDiagonal W ∧ sumSquares W' = sumSquares W := by
  have hsq (i j : Fin n) : W' i j ^ 2 = W (σ i) (σ j) ^ 2 := by
    rw [h]
    linear_combination W (σ i) (σ j) ^ 2 * (d j * d j * hd i + hd j)
  unfold sumOffDiagonal sumSquares
  rw [← sum_sum_perm (σ := σ) fun i j => W i j ^ 2,
    ← sum_sum_perm (σ := σ) fun i j => if i = j then 0 else W i j ^ 2]
  simp only [hsq, σ.injective.eq_iff, and_self]

variable [LinearOrder α] [Scalar α] [Scalar.Exact α]

theorem isDiagonal_iff (w : Grid α) : isDiagonal n w = true ↔ sumOffDiagonal (w.matrix n n) ≤
    Scalar.epsilon * Scalar.epsilon * sumSquares (w.matrix n n) := by
  rw [isDiagonal, squares_eq, Scalar.Exact.le_iff]

/-- The places in order are all the places, each one once. -/
theorem exists_perm_order (before : Nat → Nat → Bool) :
    ∃ σ : Equiv.Perm (Fin n), ∀ j : Fin n, (order n before).getD j 0 = σ j := by
  have hlt (j : Fin n) : (j : Nat) < (order n before).length := by
    rw [length_order]
    exact j.2
  have hinj : Function.Injective fun j : Fin n =>
      (⟨(order n before).getD j 0, Guarded.getD_order_lt j.2⟩ : Fin n) := by
    intro i j hij
    have hval := congrArg Fin.val hij
    have hnodup : (order n before).Nodup :=
      (List.mergeSort_perm _ _).nodup_iff.2 List.nodup_range
    dsimp only at hval
    rw [List.getD_eq_getElem _ _ (hlt i), List.getD_eq_getElem _ _ (hlt j)] at hval
    exact Fin.ext ((hnodup.getElem_inj_iff).1 hval)
  exact ⟨Equiv.ofBijective _ (Finite.injective_iff_bijective.1 hinj), fun j => rfl⟩

/-- In the order of their keys the places have ascending keys. -/
theorem order_le (key : Nat → α) {i j : Nat} (hij : i ≤ j) (hj : j < n) :
    key ((order n fun i j => Scalar.lt (key i) (key j)).getD i 0) ≤
      key ((order n fun i j => Scalar.lt (key i) (key j)).getD j 0) := by
  have hle (i j : Nat) : (!Scalar.lt (key j) (key i)) = true ↔ key i ≤ key j := by
    rw [Bool.not_eq_true', ← Bool.not_eq_true, Scalar.Exact.lt_iff, not_lt]
  have hsorted : (order n fun i j => Scalar.lt (key i) (key j)).Pairwise fun i j =>
      (!Scalar.lt (key j) (key i)) = true :=
    List.pairwise_mergeSort
      (fun a b c hab hbc => (hle a c).2 (((hle a b).1 hab).trans ((hle b c).1 hbc)))
      (fun a b => by rw [Bool.or_eq_true, hle, hle]; exact le_total _ _) _
  obtain hij | rfl := hij.lt_or_eq
  · have hlen := length_order n fun i j => Scalar.lt (key i) (key j)
    have hi : i < (order n fun i j => Scalar.lt (key i) (key j)).length := by omega
    have hj : j < (order n fun i j => Scalar.lt (key i) (key j)).length := by omega
    rw [List.getD_eq_getElem _ _ hi, List.getD_eq_getElem _ _ hj]
    exact (hle _ _).1 (List.pairwise_iff_getElem.1 hsorted i j hi hj hij)
  · exact le_rfl

end Arranged

/-! ## Values and vectors -/

section Result

variable {α : Type} [Field α] [LinearOrder α] [IsStrictOrderedRing α] [Scalar α]
  [Scalar.ExactRoot α] {n : Nat} {A : Matrix (Fin n) (Fin n) α}

/-- **Values and vectors of a symmetric matrix**: the values ascend, the vectors are orthonormal and
make a matrix with the values on its diagonal and next to nothing off it, and the first entry of
greatest magnitude of each vector is positive. -/
structure Diagonalises (A : Matrix (Fin n) (Fin n) α) (x : Fin n → α)
    (V : Matrix (Fin n) (Fin n) α) : Prop where
  ascending : Monotone x
  orthogonal : Vᵀ * V = 1
  diagonal (i : Fin n) : (Vᵀ * A * V) i i = x i
  negligible : sumOffDiagonal (Vᵀ * A * V) ≤
    Scalar.epsilon * Scalar.epsilon * sumSquares (Vᵀ * A * V)
  positive (j : Fin n) : ∃ r, Signs.IsPivot (fun i => V i j) r ∧ 0 < V r j

/-- **Every state of the run is similar to the first matrix.** -/
theorem similar_stages (w : Grid α) :
    ∀ s ∈ stages n maxSweeps (w, identity n), Similar (w.matrix n n) s := by
  refine forall_stages (fun s hs pq hpq => ?_) _ (similar_identity w)
  obtain ⟨hlt, hn⟩ := lt_of_mem_pairs hpq
  exact hs.step (p := ⟨pq.1, by omega⟩) (q := ⟨pq.2, hn⟩) (by simpa using hlt.ne)

/-- A state whose matrix is diagonal, in ascending order and with signs that make the pivots
positive. -/
theorem Similar.diagonalises {s : Grid α × Grid α} (h : Similar A s)
    (hdiag : isDiagonal n s.1 = true) {σ : Equiv.Perm (Fin n)} {d : Fin n → α}
    (hd : ∀ i, d i * d i = 1) (hle : Monotone fun i : Fin n => s.1.matrix n n (σ i) (σ i))
    (hpos : ∀ j, (∃ i, (s.2.matrix n n).submatrix id σ i j ≠ 0) →
      ∃ r, Signs.IsPivot (fun i => ((s.2.matrix n n).submatrix id σ * diagonal d) i j) r ∧
        0 < ((s.2.matrix n n).submatrix id σ * diagonal d) r j) :
    Diagonalises A (fun i => s.1.matrix n n (σ i) (σ i))
      ((s.2.matrix n n).submatrix id σ * diagonal d) := by
  have horth := orthogonal_submatrix h.orthogonal σ
  have hentry := arranged_apply A (s.2.matrix n n) σ d
  rw [← h.similar] at hentry
  obtain ⟨hoff, htotal⟩ := squares_arranged hd hentry
  refine ⟨hle, ?_, fun i => ?_, ?_, fun j => hpos j ?_⟩
  · refine transpose_mul_self_mul horth ?_
    rw [diagonal_transpose, Signs.diagonal_mul_self hd]
  · rw [hentry, mul_right_comm, hd, one_mul]
  · rw [hoff, htotal]
    exact (isDiagonal_iff s.1).1 hdiag
  · -- no column of an orthogonal matrix is zero
    by_contra! hzero
    have hone := congrFun (congrFun horth j) j
    rw [one_apply_eq, mul_apply, Finset.sum_eq_zero fun i _ => by rw [hzero, mul_zero]] at hone
    exact zero_ne_one hone

/-- What the decomposition gives, if the iteration ends. -/
theorem eigh_diagonalises {w : Grid α} {r : Array α × Array α} (h : eigh? n w = some r) :
    r.1.size = n ∧ (Grid.ofArray n n r.2).Fits n n ∧
      Diagonalises (w.matrix n n) (fun i => r.1.getD i 0) ((Grid.ofArray n n r.2).matrix n n) := by
  obtain ⟨s, hs, rfl⟩ := Option.map_eq_some_iff.1 h
  obtain ⟨hlast, hdiag⟩ := getLast_stages hs
  have hsim := similar_stages w s (List.mem_of_getLast? hlast)
  obtain ⟨σ, hσ⟩ := exists_perm_order (n := n) fun i j =>
    Scalar.lt (s.1.entry i i) (s.1.entry j j)
  have hle : Monotone fun i : Fin n => s.1.matrix n n (σ i) (σ i) := fun i j hij => by
    have hkey := order_le (fun i => s.1.entry i i) hij j.2
    rwa [hσ, hσ] at hkey
  have hlen := length_order n fun i j => Scalar.lt (s.1.entry i i) (s.1.entry j j)
  dsimp only
  generalize (order n fun i j => Scalar.lt (s.1.entry i i) (s.1.entry j j)) = ord at hσ hlen ⊢
  generalize hv : (Grid.tabulate n n fun i j => s.2.entry i (ord.getD j 0)) = v
  have hfits : v.Fits n n := hv ▸ Grid.fits_tabulate _ _ _
  have hcols : (Grid.ofArray n n v.data).matrix n n = (s.2.matrix n n).submatrix id σ := by
    rw [Signs.matrix_ofArray hfits, ← hv, Grid.matrix_tabulate]
    ext i j
    rw [of_apply, hσ]
    rfl
  have hvalue (i : Fin n) : (ord.map fun i => s.1.entry i i).toArray.getD i 0 =
      s.1.matrix n n (σ i) (σ i) := by
    rw [Grid.matrix_apply, ← hσ]
    simp [hlen]
  refine ⟨by simpa using hlen, ⟨rfl, (Guarded.size_negateAt _ _).trans hfits.size⟩, ?_⟩
  have hpos := fun j : Fin n => Signs.exists_isPivot_pos (m := n) v.data j
  simp only [hvalue]
  rw [Signs.matrix_positivePivots]
  rw [hcols] at hpos ⊢
  exact hsim.diagonalises hdiag (fun _ => Signs.sign_mul_self _) hle hpos

/-- **Two rows need one rotation**: it leaves nothing off the diagonal. -/
theorem exists_eigen_two {w : Grid α} (hw : (w.matrix 2 2).IsSymm) :
    ∃ s, eigen? 2 w = some s := by
  have hstart := similar_identity (n := 2) w
  have hpq : (0 : Fin 2) ≠ 1 := by decide
  have hzero := hstart.step_entry hw hpq
  have hsymm := ((hstart.step hpq).isSymm hw).apply 0 1
  rw [eigen?, maxSweeps, eigenSweeps]
  split_ifs
  · exact ⟨_, rfl⟩
  · rw [show (pairs 2).foldl (eigenStep 2) (w, identity 2) =
      eigenStep 2 (w, identity 2) ((0 : Fin 2), (1 : Fin 2)) from rfl]
    generalize eigenStep 2 (w, identity 2) ((0 : Fin 2), (1 : Fin 2)) = s at hzero hsymm ⊢
    have hoff : sumOffDiagonal (s.1.matrix 2 2) = 0 := by
      have hupper : s.1.matrix 2 2 0 1 = 0 := hzero
      rw [sumOffDiagonal, Fin.sum_univ_two, Fin.sum_univ_two, Fin.sum_univ_two, hsymm, hupper]
      norm_num
    refine ⟨s, if_pos ((isDiagonal_iff _).2 ?_)⟩
    rw [hoff]
    exact mul_nonneg (mul_self_nonneg _) (Finset.sum_nonneg fun i _ =>
      Finset.sum_nonneg fun j _ => sq_nonneg _)

end Result

end MemoFlow.Jacobi

namespace MemoFlow.Native

open Matrix Jacobi

/-- **The rotations preserve a symmetric real matrix.** Between any two of them the vectors are
orthogonal, the matrix is the first one seen along them, the sum of its squares is the one of the
first matrix, and every rotation clears the entry of its pair. What is returned in the end are
values and vectors of the first matrix. -/
theorem eigh_preserves {n : Nat} {a : Tensor ℝ} {A : Matrix (Fin n) (Fin n) ℝ} (ha : a.Holds A)
    (hA : A.IsSymm) :
    (∀ s ∈ stages n maxSweeps (grid a, identity n),
      (s.2.matrix n n)ᵀ * s.2.matrix n n = 1 ∧
      s.1.matrix n n = (s.2.matrix n n)ᵀ * A * s.2.matrix n n ∧
      sumSquares (s.1.matrix n n) = sumSquares A ∧
      ∀ pq ∈ pairs n, (eigenStep n s pq).1.entry pq.1 pq.2 = 0) ∧
    ∀ ts, eigh a = .ok ts → ∃ (w v : Tensor ℝ) (x : Fin n → ℝ) (V : Matrix (Fin n) (Fin n) ℝ),
      ts = [w, v] ∧ w.HoldsVector x ∧ v.Holds V ∧ Diagonalises A x V := by
  have hgrid := ha.matrix_grid
  refine ⟨fun s hs => ?_, fun ts hts => ?_⟩
  · have h := similar_stages (n := n) (grid a) s hs
    rw [hgrid] at h
    refine ⟨h.orthogonal, h.similar, h.sumSquares_eq, fun pq hpq => ?_⟩
    obtain ⟨hlt, hn⟩ := lt_of_mem_pairs hpq
    exact h.step_entry hA (p := ⟨pq.1, by omega⟩) (q := ⟨pq.2, hn⟩) (by simpa using hlt.ne)
  · unfold eigh at hts
    rw [ha.rows] at hts
    cases hr : eigh? n (grid a) with
    | none =>
      rw [hr] at hts
      exact nomatch hts
    | some r =>
      rw [hr] at hts
      obtain rfl := Except.ok.inj hts
      obtain ⟨hsize, hfits, h⟩ := eigh_diagonalises hr
      rw [hgrid] at h
      exact ⟨_, _, _, _, rfl, Tensor.holdsVector_ofVector ha.dtype ha.rows hsize,
        Tensor.holds_ofMatrix ha.dtype ha.rows ha.rows hfits, h⟩

/-- The exchange of two axes, which is not diagonal. -/
theorem eigh_preserves_exchange :
    let a : Tensor ℝ := ⟨.f64, [2, 2], #[0, 1, 1, 0], .native⟩
    let A : Matrix (Fin 2) (Fin 2) ℝ := !![0, 1; 1, 0]
    a.Holds A ∧ A.IsSymm ∧
      (∀ s ∈ stages 2 maxSweeps (grid a, identity 2),
        (s.2.matrix 2 2)ᵀ * s.2.matrix 2 2 = 1 ∧
        s.1.matrix 2 2 = (s.2.matrix 2 2)ᵀ * A * s.2.matrix 2 2 ∧
        sumSquares (s.1.matrix 2 2) = sumSquares A ∧
        ∀ pq ∈ pairs 2, (eigenStep 2 s pq).1.entry pq.1 pq.2 = 0) ∧
      ∃ (w v : Tensor ℝ) (x : Fin 2 → ℝ) (V : Matrix (Fin 2) (Fin 2) ℝ),
        eigh a = .ok [w, v] ∧ w.HoldsVector x ∧ v.Holds V ∧ Diagonalises A x V := by
  intro a A
  have ha : a.Holds A :=
    ⟨rfl, rfl, rfl, rfl, rfl, fun i j => by fin_cases i <;> fin_cases j <;> rfl⟩
  have hA : A.IsSymm := IsSymm.ext fun i j => by fin_cases i <;> fin_cases j <;> rfl
  obtain ⟨hstages, hreturned⟩ := eigh_preserves ha hA
  obtain ⟨s, hs⟩ := exists_eigen_two (w := grid a) (by rwa [ha.matrix_grid])
  obtain ⟨ts, hts⟩ : ∃ ts, eigh a = .ok ts := by
    rw [eigh, ha.rows, eigh?, hs]
    exact ⟨_, rfl⟩
  obtain ⟨w, v, x, V, rfl, h⟩ := hreturned ts hts
  exact ⟨ha, hA, hstages, w, v, x, V, hts, h⟩

end MemoFlow.Native
