import Mathlib.LinearAlgebra.Matrix.DotProduct
import MemoFlow.Proofs.Algebra.Exact
import MemoFlow.Proofs.Bounds.Factor

/-!
# Reflections to triangular form

The reflection along a unit vector is symmetric and its own inverse, and so is the one along zero,
which does nothing. A column that is not reflected therefore fits in as a reflection along zero, and
the triangular matrix and the first factor are products of the same reflections.

* `Qr.mirror`, `Qr.IsAxis`: the reflection along a vector; `Qr.isAxis_smul`,
  `Qr.mirror_mulVec_eq`: the axis that sends a vector to a multiple of a unit vector;
* `Qr.axis`, **`Qr.clears_reflector`**: what the reflector of a column does;
* `Qr.matrix_reflect`: a reflection of a grid;
* **`Qr.Triangular`**, `Qr.Triangular.next`: the state after `k` columns, kept by one more;
* `Qr.matrix_orthogonal`: the first factor is the product of the reflections;
* **`Native.qr_factors`**: every tall matrix is `Q R`.
-/

namespace MemoFlow.Qr

open Matrix

/-! ## Reflections -/

section Mirrors

variable {α : Type} [Field α] {m n : Nat} {u x : Fin m → α}

/-- **The reflection along a vector.** -/
def mirror (u : Fin m → α) : Matrix (Fin m) (Fin m) α := 1 - (Scalar.two : α) • vecMulVec u u

/-- A unit vector or zero. -/
def IsAxis (u : Fin m → α) : Prop := (u ⬝ᵥ u) • u = u

theorem isAxis_zero : IsAxis (0 : Fin m → α) := smul_zero _

theorem mirror_eq (u : Fin m → α) : mirror u = 1 - (2 : α) • vecMulVec u u := by
  rw [mirror, Scalar.two, one_add_one_eq_two]

theorem mirror_zero : mirror (0 : Fin m → α) = 1 := by
  rw [mirror, zero_vecMulVec, smul_zero, sub_zero]

theorem mirror_mul (u : Fin m → α) (W : Matrix (Fin m) (Fin n) α) :
    mirror u * W = W - (2 : α) • vecMulVec u (u ᵥ* W) := by
  rw [mirror_eq, Matrix.sub_mul, Matrix.one_mul, smul_mul, vecMulVec_mul]

theorem mirror_mulVec (u x : Fin m → α) : mirror u *ᵥ x = x - (2 * (u ⬝ᵥ x)) • u := by
  rw [mirror_eq, sub_mulVec, one_mulVec, smul_mulVec, vecMulVec_mulVec, op_smul_eq_smul, smul_smul]

theorem isSymm_mirror (u : Fin m → α) : (mirror u).IsSymm := by
  rw [IsSymm, mirror, transpose_sub, transpose_one, transpose_smul, transpose_vecMulVec]

theorem mirror_mul_self (h : IsAxis u) : mirror u * mirror u = 1 := by
  have hrow : u ᵥ* mirror u = -u := by
    rw [← mulVec_transpose, isSymm_mirror, mirror_mulVec, mul_smul, h]
    module
  rw [mirror_mul, hrow, vecMulVec_neg, mirror_eq]
  module

/-- The axis between a vector and a multiple of a unit vector of the same length. -/
theorem isAxis_smul {v : Fin m → α} {s : α} (hs : s * s = v ⬝ᵥ v) (hs0 : s ≠ 0) :
    IsAxis (s⁻¹ • v) := by
  have hunit : s⁻¹ • v ⬝ᵥ s⁻¹ • v = 1 := by
    rw [smul_dotProduct, dotProduct_smul, ← hs]
    simp only [smul_eq_mul]
    field_simp
  rw [IsAxis, hunit, one_smul]

theorem mirror_mulVec_eq {v : Fin m → α} {k : Fin m} {t s : α} (hv : v = x - Pi.single k t)
    (ht : t * t = x ⬝ᵥ x) (hs : s * s = v ⬝ᵥ v) (hs0 : s ≠ 0) :
    mirror (s⁻¹ • v) *ᵥ x = Pi.single k t := by
  have htwice : 2 * (v ⬝ᵥ x) = s * s := by
    rw [hs, hv]
    simp only [sub_dotProduct, dotProduct_sub, single_dotProduct, dotProduct_single,
      Pi.sub_apply, Pi.single_eq_same, ← ht]
    ring
  have hcoeff : 2 * (s⁻¹ • v ⬝ᵥ x) * s⁻¹ = 1 := by
    rw [smul_dotProduct, smul_eq_mul, mul_left_comm, htwice]
    field_simp
  rw [mirror_mulVec, smul_smul, hcoeff, one_smul, hv, sub_sub_cancel]

end Mirrors

/-! ## The reflector of a column -/

section Reflector

variable {α : Type} [Field α] {m k : Nat}

/-- The part of a column from row `k` on. -/
def trail (m k : Nat) (f : Nat → α) (i : Fin m) : α := if i < k then 0 else f i

@[simp] theorem trail_of_lt {f : Nat → α} {i : Fin m} (hi : i < k) : trail m k f i = 0 := if_pos hi

@[simp] theorem trail_of_le {f : Nat → α} {i : Fin m} (hi : k ≤ i) : trail m k f i = f i :=
  if_neg (by omega)

/-- **The axis of a reflector** that starts in row `k`; zero if there is none. -/
def axis (m k : Nat) : Option (Array α) → Fin m → α
  | none => 0
  | some v => trail m k fun i => v.getD (i - k) 0

theorem sum_Ico_eq (f : Nat → α) : ∑ i ∈ Finset.Ico k m, f i = ∑ i, trail m k f i := by
  unfold trail
  rw [Fin.sum_univ_eq_sum_range fun i => if i < k then 0 else f i, Finset.sum_ite,
    Finset.sum_const_zero, zero_add]
  congr 1
  ext i
  simp [and_comm]

theorem trail_dotProduct (f g : Nat → α) :
    trail m k f ⬝ᵥ trail m k g = ∑ i ∈ Finset.Ico k m, f i * g i := by
  rw [sum_Ico_eq]
  refine Finset.sum_congr rfl fun i _ => ?_
  obtain hi | hi := lt_or_ge (i : Nat) k
  · simp [hi]
  · simp [hi]

theorem axis_map (f : Nat → α) :
    axis m k (some ((List.range' k (m - k)).map f).toArray) = trail m k f := by
  funext i
  refine ite_congr rfl (fun _ => rfl) fun hi => ?_
  have hlt : i - k < m - k := by omega
  simp [Array.getD, hlt, show k + (i - k) = i by omega]

/-- A reflection that keeps the rows above `k` and clears the ones below in a column. -/
structure Clears (k : Nat) (x u : Fin m → α) : Prop where
  isAxis : IsAxis u
  above (i : Fin m) : i < k → u i = 0
  below (i : Fin m) : k < i → (mirror u *ᵥ x) i = 0

/-- Only the part of a column from row `k` on meets the axis. -/
theorem clears_of_trail {u : Fin m → α} {f : Nat → α} (hu : IsAxis u)
    (habove : ∀ i : Fin m, i < k → u i = 0)
    (hbelow : ∀ i : Fin m, k < i → (mirror u *ᵥ trail m k f) i = 0) :
    Clears k (fun i : Fin m => f i) u := by
  refine ⟨hu, habove, fun i hi => ?_⟩
  have hdot : u ⬝ᵥ (fun i : Fin m => f i) = u ⬝ᵥ trail m k f := by
    refine Finset.sum_congr rfl fun i _ => ?_
    obtain hi | hi := lt_or_ge (i : Nat) k
    · rw [habove i hi, zero_mul, zero_mul]
    · rw [trail_of_le hi]
  have hrow := hbelow i hi
  rw [mirror_mulVec, Pi.sub_apply, trail_of_le hi.le, ← hdot] at hrow
  rw [mirror_mulVec]
  exact hrow

/-- The entries from row `k` on with the first one shifted. -/
def shifted (k : Nat) (f : Nat → α) (t : α) (i : Nat) : α := if i = k then f i - t else f i

theorem trail_shifted (hk : k < m) (f : Nat → α) (t : α) :
    trail m k (shifted k f t) = trail m k f - Pi.single ⟨k, hk⟩ t := by
  ext i
  rw [Pi.sub_apply, Pi.single_apply, trail, trail, shifted]
  simp only [Fin.ext_iff]
  split_ifs
  · omega
  all_goals simp

theorem map_range'_of_lt {β : Type} (hk : k < m) (f : Nat → β) :
    (List.range' k (m - k)).map f = f k :: (List.range' (k + 1) (m - (k + 1))).map f := by
  rw [show m - k = m - (k + 1) + 1 by omega, List.range'_succ, List.map_cons]

theorem cons_shifted (hk : k < m) (f : Nat → α) (t : α) :
    (f k - t) :: (List.range' (k + 1) (m - (k + 1))).map f =
      (List.range' k (m - k)).map (shifted k f t) := by
  rw [map_range'_of_lt hk, shifted, if_pos rfl]
  congr 1
  refine List.map_congr_left fun i hi => (if_neg ?_).symm
  have hlt := (List.mem_range'_1.1 hi).1
  omega

variable [Scalar α]

/-- The length of a vector. -/
def magnitude (v : Fin m → α) : α := Scalar.sqrt (v ⬝ᵥ v)

theorem norm_map (f : Nat → α) :
    norm ((List.range' k (m - k)).map f) = magnitude (trail m k f) := by
  rw [norm, magnitude, trail_dotProduct, List.foldl_map, foldl_add_eq, zero_add, sum_map_range']

/-- What is taken off the first entry of a vector of length `r`: that length, away from the
entry. -/
def shift (x r : α) : α := if Scalar.le 0 x then -r else r

theorem shift_mul_self (x r : α) : shift x r * shift x r = r * r := by
  unfold shift
  split_ifs
  · rw [neg_mul_neg]
  · rfl

/-- The axis of a column from row `k` on, shifted and divided by its length. -/
theorem axis_reflector [LinearOrder α] [Scalar.Exact α] (hk : k < m) {w : Grid α} {f : Nat → α}
    (hf : ∀ i, w.entry i k = f i) {v : Nat → α}
    (hv : v = shifted k f (shift (f k) (magnitude (trail m k f)))) :
    axis m k (reflector m k w) =
      if magnitude (trail m k f) = 0 then 0
      else (magnitude (trail m k v))⁻¹ • trail m k v := by
  have hcons := cons_shifted hk f (shift (f k) (magnitude (trail m k f)))
  rw [← hv] at hcons
  unfold reflector
  simp only [hf, norm_map]
  simp only [map_range'_of_lt hk f, List.headD_cons]
  change axis m k (if Scalar.eq (magnitude (trail m k f)) 0 = true then none else
    if Scalar.eq (norm ((f k - shift (f k) (magnitude (trail m k f))) :: _)) 0 = true then none
    else some (List.map (· / norm ((f k - shift (f k) (magnitude (trail m k f))) :: _))
      ((f k - shift (f k) (magnitude (trail m k f))) :: _)).toArray) = _
  rw [hcons, norm_map, List.map_map]
  by_cases hr : magnitude (trail m k f) = 0
  · rw [if_pos ((Scalar.Exact.eq_iff _ _).2 hr), if_pos hr]
    rfl
  · rw [if_neg (mt (Scalar.Exact.eq_iff _ _).1 hr), if_neg hr]
    -- where nothing is left to divide there is no reflector, and the quotient is zero as well
    by_cases hs : magnitude (trail m k v) = 0
    · rw [if_pos ((Scalar.Exact.eq_iff _ _).2 hs), hs, GroupWithZero.inv_zero, zero_smul]
      rfl
    · rw [if_neg (mt (Scalar.Exact.eq_iff _ _).1 hs), axis_map]
      ext i
      obtain hi | hi := lt_or_ge (i : Nat) k
      · simp [hi]
      · simp [hi, div_eq_inv_mul]

section Order

variable [LinearOrder α] [IsStrictOrderedRing α] [Scalar.ExactRoot α]

theorem magnitude_mul_self (v : Fin m → α) : magnitude v * magnitude v = v ⬝ᵥ v :=
  Scalar.ExactRoot.sqrt_mul_self (Finset.sum_nonneg fun i _ => mul_self_nonneg (v i))

theorem magnitude_eq_zero {v : Fin m → α} : magnitude v = 0 ↔ v = 0 := by
  rw [← mul_self_eq_zero, magnitude_mul_self, dotProduct_self_eq_zero]

/-- The shift goes away from the entry, so that something is left of it. -/
theorem sub_shift_ne_zero {x r : α} (hr : 0 < r) : x - shift x r ≠ 0 := by
  simp only [shift, Scalar.Exact.le_iff]
  split_ifs with hx
  · rw [sub_neg_eq_add]
    exact (add_pos_of_nonneg_of_pos hx hr).ne'
  · exact (sub_neg.2 ((not_le.1 hx).trans hr)).ne

/-- **The reflector of a column clears it**: there is none only for a column of zeros. -/
theorem clears_reflector (hk : k < m) (w : Grid α) :
    Clears k (fun i : Fin m => w.entry i k) (axis m k (reflector m k w)) := by
  obtain ⟨f, hf⟩ : ∃ f : Nat → α, ∀ i, w.entry i k = f i := ⟨_, fun _ => rfl⟩
  obtain ⟨v, hv⟩ : ∃ v, v = shifted k f (shift (f k) (magnitude (trail m k f))) := ⟨_, rfl⟩
  simp only [axis_reflector hk hf hv, hf]
  split_ifs with hr
  · refine clears_of_trail isAxis_zero (fun _ _ => rfl) fun i _ => ?_
    rw [magnitude_eq_zero.1 hr, mulVec_zero]
    rfl
  · have htrail : trail m k v = trail m k f - Pi.single ⟨k, hk⟩ _ := hv ▸ trail_shifted hk f _
    have hs : magnitude (trail m k v) ≠ 0 := fun h0 => by
      have hrow := congrFun (magnitude_eq_zero.1 h0) ⟨k, hk⟩
      rw [hv, trail_of_le (i := ⟨k, hk⟩) le_rfl, shifted, if_pos rfl] at hrow
      exact sub_shift_ne_zero ((Scalar.ExactRoot.sqrt_nonneg _).lt_of_ne' hr) hrow
    refine clears_of_trail (isAxis_smul (magnitude_mul_self _) hs) (fun i hi => ?_) fun i hi => ?_
    · rw [Pi.smul_apply, trail_of_lt hi, smul_zero]
    · rw [mirror_mulVec_eq htrail ((shift_mul_self _ _).trans (magnitude_mul_self _))
        (magnitude_mul_self _) hs]
      exact Pi.single_eq_of_ne (by rintro rfl; exact lt_irrefl k hi) _

end Order

end Reflector

/-! ## Reflections of grids -/

section Grids

variable {α : Type} [Field α] {m n k : Nat}

/-- **The reflection of a grid**, where the columns that are left out are orthogonal to the axis. -/
theorem matrix_reflect (start : Nat) (v : Array α) (w : Grid α)
    (h : ∀ j : Fin n, j < start → (axis m k (some v) ᵥ* w.matrix m n) j = 0) :
    (reflect m n k start v w).matrix m n = mirror (axis m k (some v)) * w.matrix m n := by
  have hdots (j : Fin n) : (List.range' k (m - k)).foldl
      (fun s i => s + v.getD (i - k) 0 * w.entry i j) 0 =
        (axis m k (some v) ᵥ* w.matrix m n) j := by
    rw [foldl_add_eq, zero_add, sum_map_range', sum_Ico_eq]
    refine Finset.sum_congr rfl fun i _ => ?_
    rw [axis, trail, trail, ite_mul, zero_mul]
    rfl
  ext i j
  rw [reflect, Grid.matrix_tabulate, of_apply, mirror_mul, Matrix.sub_apply, Matrix.smul_apply,
    vecMulVec_apply, smul_eq_mul]
  split_ifs with hij
  · obtain hi | hj := hij
    · rw [axis, trail_of_lt hi, zero_mul, mul_zero, sub_zero]
      rfl
    · rw [h j hj, mul_zero, mul_zero, sub_zero]
      rfl
  · have hget : (Array.ofFn fun j : Fin n => (List.range' k (m - k)).foldl
        (fun s i => s + v.getD (i - k) 0 * w.entry i j) 0).getD j 0 =
          (axis m k (some v) ᵥ* w.matrix m n) j := by
      rw [← hdots]
      simp
    rw [hget, axis, trail_of_le (by omega), Scalar.two, one_add_one_eq_two, mul_assoc]
    rfl

/-- The product of the reflections of the columns from the first on. -/
def mirrors (m : Nat) (vs : List (Option (Array α))) : Matrix (Fin m) (Fin m) α :=
  (vs.zipIdx.map fun p => mirror (axis m p.2 p.1)).prod

theorem mirrors_concat (vs : List (Option (Array α))) (v : Option (Array α)) :
    mirrors m (vs ++ [v]) = mirrors m vs * mirror (axis m vs.length v) := by
  simp [mirrors, List.zipIdx_append]

variable (α) in
/-- The first columns of the identity. -/
def frame (m n : Nat) : Matrix (Fin m) (Fin n) α :=
  of fun i j => if (i : Nat) = j then 1 else 0

/-- A matrix with zeros below the diagonal is made of its first rows. -/
theorem frame_mul {T : Matrix (Fin m) (Fin n) α} {R : Matrix (Fin n) (Fin n) α}
    (hR : ∀ (i : Fin m) (p j : Fin n), (i : Nat) = p → R p j = T i j)
    (hT : ∀ (i : Fin m) (j : Fin n), n ≤ i → T i j = 0) : frame α m n * R = T := by
  ext i j
  rw [mul_apply]
  by_cases hi : (i : Nat) < n
  · rw [Finset.sum_eq_single ⟨i, hi⟩]
    · simp [frame, hR i ⟨i, hi⟩ j rfl]
    · intro p _ hp
      have hne : (i : Nat) ≠ p := fun h => hp (Fin.ext h.symm)
      simp [frame, hne]
    · simp
  · rw [hT i j (by omega)]
    refine Finset.sum_eq_zero fun p _ => ?_
    have hne : (i : Nat) ≠ p := by omega
    simp [frame, hne]

theorem transpose_frame_mul_self (hnm : n ≤ m) : (frame α m n)ᵀ * frame α m n = 1 := by
  ext p q
  rw [mul_apply, Finset.sum_eq_single ⟨p, by omega⟩]
  · simp [frame, one_apply, Fin.ext_iff]
  · intro i _ hi
    have hne : (i : Nat) ≠ p := fun h => hi (Fin.ext h)
    simp [frame, hne]
  · simp

/-- **The first factor is the product of the reflections**, as far as its columns go. -/
theorem matrix_orthogonal (vs : List (Option (Array α))) :
    (orthogonal m n vs).Fits m n ∧ (orthogonal m n vs).matrix m n = mirrors m vs * frame α m n := by
  unfold orthogonal mirrors
  rw [List.foldl_reverse]
  induction vs.zipIdx with
  | nil =>
    refine ⟨Grid.fits_tabulate _ _ _, ?_⟩
    rw [List.map_nil, List.prod_nil, Matrix.one_mul]
    exact Grid.matrix_tabulate _
  | cons p l ih =>
    obtain ⟨v | v, k⟩ := p
    · refine ⟨ih.1, ?_⟩
      rw [List.map_cons, List.prod_cons, axis, mirror_zero, Matrix.one_mul, ← ih.2]
      rfl
    · refine ⟨Guarded.fits_reflect _ _ _ _, ?_⟩
      rw [List.map_cons, List.prod_cons, Matrix.mul_assoc, ← ih.2]
      exact matrix_reflect 0 v _ nofun

end Grids

/-! ## The state after some columns -/

section Columns

variable {α : Type} [Field α] {m n k : Nat} {A : Matrix (Fin m) (Fin n) α}

/-- **The state after `k` columns**: the reflections so far and a matrix whose first `k` columns are
zero below the diagonal, with the whole matrix as their product. -/
structure Triangular (A : Matrix (Fin m) (Fin n) α) (k : Nat)
    (s : Grid α × List (Option (Array α))) : Prop where
  length : s.2.length = k
  product : A = mirrors m s.2 * s.1.matrix m n
  orthogonal : (mirrors m s.2)ᵀ * mirrors m s.2 = 1
  below (i : Fin m) (j : Fin n) : j < k → j < (i : Nat) → s.1.matrix m n i j = 0

theorem triangular_zero (w : Grid α) : Triangular (w.matrix m n) 0 (w, []) := by
  have hone : mirrors m ([] : List (Option (Array α))) = 1 := rfl
  exact ⟨rfl, by rw [hone, Matrix.one_mul], by rw [hone, transpose_one, Matrix.one_mul], nofun⟩

/-- The columns that are done are orthogonal to an axis that starts below them. -/
theorem Triangular.vecMul_eq_zero {s : Grid α × List (Option (Array α))} (h : Triangular A k s)
    {u : Fin m → α} (hu : ∀ i : Fin m, i < k → u i = 0) {j : Fin n} (hj : j < k) :
    (u ᵥ* s.1.matrix m n) j = 0 := by
  change ∑ i, u i * s.1.matrix m n i j = 0
  refine Finset.sum_eq_zero fun i _ => ?_
  by_cases hi : (i : Nat) < k
  · rw [hu i hi, zero_mul]
  · rw [h.below i j hj (by omega), mul_zero]

variable [Scalar α] [LinearOrder α] [IsStrictOrderedRing α] [Scalar.ExactRoot α]

/-- **One more column keeps the state.** -/
theorem Triangular.next {s : Grid α × List (Option (Array α))} (h : Triangular A k s)
    (hkm : k < m) : Triangular A (k + 1) (step m n s k) := by
  have hu := clears_reflector hkm s.1
  have hlist : (step m n s k).2 = s.2 ++ [reflector m k s.1] := by
    unfold step
    split <;> simp [*]
  have hmatrix : (step m n s k).1.matrix m n =
      mirror (axis m k (reflector m k s.1)) * s.1.matrix m n := by
    unfold step
    split
    · next hr => rw [hr, axis, mirror_zero, Matrix.one_mul]
    · next v hr =>
      rw [hr] at hu ⊢
      exact matrix_reflect k v s.1 fun j hj => h.vecMul_eq_zero hu.above hj
  have hself := mirror_mul_self hu.isAxis
  refine ⟨by rw [hlist, List.length_append, h.length]; rfl, ?_, ?_, fun i j hj hij => ?_⟩
  · rw [hlist, mirrors_concat, h.length, hmatrix, Matrix.mul_assoc, ← Matrix.mul_assoc (mirror _),
      hself, Matrix.one_mul]
    exact h.product
  · rw [hlist, mirrors_concat, h.length]
    exact transpose_mul_self_mul h.orthogonal (by rw [isSymm_mirror, hself])
  · rw [hmatrix]
    obtain hj | rfl : (j : Nat) < k ∨ (j : Nat) = k := by omega
    · rw [mirror_mul, Matrix.sub_apply, Matrix.smul_apply, vecMulVec_apply, h.below i j hj hij,
        h.vecMul_eq_zero hu.above hj, mul_zero, smul_zero, sub_zero]
    · exact hu.below i hij

theorem triangular_triangularise (hnm : n ≤ m) (w : Grid α) :
    Triangular (w.matrix m n) n (triangularise m n w) :=
  foldl_range_of_step (P := Triangular (w.matrix m n)) (triangular_zero w) fun _ hk _ h =>
    h.next (hk.trans_le hnm)

/-- **The factors**, with the signs of the diagonal moved from one to the other. -/
theorem factor_factors (hnm : n ≤ m) (w : Grid α) :
    let q := Grid.ofArray m n (factor m n w).1
    let r := Grid.ofArray n n (factor m n w).2
    q.Fits m n ∧ r.Fits n n ∧ w.matrix m n = q.matrix m n * r.matrix n n ∧
      (q.matrix m n)ᵀ * q.matrix m n = 1 ∧ (r.matrix n n).IsUpperTriangular ∧
      ∀ i, 0 ≤ r.matrix n n i i := by
  have h := triangular_triangularise hnm w
  unfold factor
  dsimp only
  generalize triangularise m n w = s at h
  obtain ⟨hfits, hq⟩ := matrix_orthogonal (m := m) (n := n) s.2
  generalize hr : (Grid.tabulate n n fun i j => if i ≤ j then s.1.entry i j else 0) = r
  have hrfits : r.Fits n n := hr ▸ Grid.fits_tabulate _ _ _
  have hentry (i j : Fin n) : r.matrix n n i j = if (i : Nat) ≤ j then s.1.entry i j else 0 :=
    hr ▸ Grid.entry_tabulate _ i.2 j.2
  have hsigns := Signs.diagonalSigns_mul_self (n := n) r.data
  obtain ⟨hQ, hR⟩ := Signs.matrix_positiveDiagonal m n (orthogonal m n s.2).data r.data
  rw [Signs.matrix_ofArray hfits, hq] at hQ
  rw [hQ, hR, Signs.matrix_ofArray hrfits]
  refine ⟨⟨rfl, ?_⟩, ⟨rfl, ?_⟩, ?_, ?_, fun i j hij => ?_, fun i => ?_⟩
  · exact (Guarded.size_negateAt _ _).trans hfits.size
  · exact (Guarded.size_negateAt _ _).trans hrfits.size
  · rw [Matrix.mul_assoc (_ * _), ← Matrix.mul_assoc (diagonal _), hsigns, Matrix.one_mul,
      Matrix.mul_assoc, frame_mul (T := s.1.matrix m n)]
    · exact h.product
    · intro i p j hip
      rw [hentry, ← hip]
      split_ifs with hij
      · rfl
      · exact (h.below i j j.2 (by omega)).symm
    · exact fun i j hi => h.below i j j.2 (by omega)
  · refine transpose_mul_self_mul (transpose_mul_self_mul h.orthogonal ?_) ?_
    · exact transpose_frame_mul_self hnm
    · rw [diagonal_transpose, hsigns]
  · have hlt : j < i := hij
    rw [diagonal_mul, hentry, if_neg (by omega), mul_zero]
  · rw [diagonal_mul, ← Signs.matrix_ofArray hrfits]
    exact Signs.diagonalSigns_mul_nonneg r.data i

end Columns

end MemoFlow.Qr

namespace MemoFlow.Native

open Matrix

/-- **Every real matrix with at least as many rows as columns is `Q R`**, whatever its rank: the
columns of `Q` are orthonormal, and `R` is upper triangular with no negative diagonal entry. -/
theorem qr_factors {m n : Nat} {a : Tensor ℝ} {A : Matrix (Fin m) (Fin n) ℝ} (ha : a.Holds A)
    (hnm : n ≤ m) :
    ∃ (q r : Tensor ℝ) (Q : Matrix (Fin m) (Fin n) ℝ) (R : Matrix (Fin n) (Fin n) ℝ),
      qr a = [q, r] ∧ q.Holds Q ∧ r.Holds R ∧ A = Q * R ∧ Qᵀ * Q = 1 ∧ R.IsUpperTriangular ∧
      ∀ i, 0 ≤ R i i := by
  obtain ⟨hQ, hR, hmul, horth, hupper, hdiag⟩ := Qr.factor_factors hnm (grid a)
  rw [ha.matrix_grid] at hmul
  unfold qr
  rw [ha.rows, ha.cols]
  exact ⟨_, _, _, _, rfl, Tensor.holds_ofMatrix ha.dtype ha.rows ha.cols hQ,
    Tensor.holds_ofMatrix ha.dtype ha.cols ha.cols hR, hmul, horth, hupper, hdiag⟩

/-- A matrix of rank one with a column of zeros. -/
theorem qr_factors_zero_column :
    let a : Tensor ℝ := ⟨.f64, [3, 2], #[0, 3, 0, 0, 0, -4], .native⟩
    a.Holds !![0, 3; 0, 0; 0, -4] ∧ 2 ≤ 3 ∧
      ∃ (q r : Tensor ℝ) (Q : Matrix (Fin 3) (Fin 2) ℝ) (R : Matrix (Fin 2) (Fin 2) ℝ),
        qr a = [q, r] ∧ q.Holds Q ∧ r.Holds R ∧ !![0, 3; 0, 0; 0, -4] = Q * R ∧ Qᵀ * Q = 1 ∧
        R.IsUpperTriangular ∧ ∀ i, 0 ≤ R i i := by
  intro a
  have ha : a.Holds !![0, 3; 0, 0; 0, -4] :=
    ⟨rfl, rfl, rfl, rfl, rfl, fun i j => by fin_cases i <;> fin_cases j <;> rfl⟩
  exact ⟨ha, by decide, qr_factors ha (by decide)⟩

end MemoFlow.Native
