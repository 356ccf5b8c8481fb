import Mathlib.LinearAlgebra.Matrix.Rank
import MemoFlow.Proofs.Algebra.Reflection
import MemoFlow.Proofs.Algebra.Rotation
import MemoFlow.Proofs.Bounds.Run

/-!
# Rotations to orthogonal columns

To turn two columns of a matrix keeps it a product with an orthogonal matrix. When a sweep has found
nothing to turn, any two columns are orthogonal up to epsilon, and their lengths and directions are
the values and the vectors of a thin decomposition.

* `Jacobi.Apart`, **`Jacobi.columnRotation?_eq_none`**: columns that are left alone;
  `Jacobi.columnRotation?_spec`: the angle that makes two columns orthogonal;
* **`Jacobi.Turned`**: the state of the iteration, kept by `Jacobi.Turned.step` and
  `Jacobi.Turned.sweep`; `Jacobi.turned_of_columnSweeps`: what it is in the end;
  `Jacobi.exists_orthogonalise_two`: two columns need one rotation;
* **`Jacobi.Directions`**, `Jacobi.directions_divided`: columns divided by their lengths;
* **`Jacobi.Thin`**: a thin decomposition, made by `Jacobi.thin_of_turned`, kept by signs
  (`Jacobi.Thin.flip`) and turned over by transposition (`Jacobi.Thin.transpose`);
* **`Native.svd_factors`**: the factors make the matrix; **`Native.svd_unit_iff`**: the lengths of
  their columns and rows.
-/

namespace MemoFlow.Jacobi

open Matrix

/-! ## Pairs of columns -/

section Gram

variable {α : Type} [Field α] {m n : Nat}

theorem gram_eq (u : Grid α) (p q : Fin n) :
    gram m p q u = (((u.matrix m n)ᵀ * u.matrix m n) p p, ((u.matrix m n)ᵀ * u.matrix m n) q q,
      ((u.matrix m n)ᵀ * u.matrix m n) p q) := by
  have hstep : gram m p q u = (List.range m).foldl (fun s i => s +
      (u.entry i p * u.entry i p, u.entry i q * u.entry i q, u.entry i p * u.entry i q)) 0 := rfl
  rw [hstep, foldl_add_eq, zero_add, sum_map_range, ← Fin.sum_univ_eq_sum_range]
  simp only [Prod.ext_iff, Prod.fst_sum, Prod.snd_sum, mul_apply, transpose_apply,
    Grid.matrix_apply, and_self]

theorem transpose_mul_self_symm (U : Matrix (Fin m) (Fin n) α) (p q : Fin n) :
    (Uᵀ * U) q p = (Uᵀ * U) p q := by
  rw [← transpose_apply (Uᵀ * U), transpose_mul, transpose_transpose]

variable [LinearOrder α] [Scalar α]

/-- **Two columns are orthogonal** as far as this is checked: their product is at most epsilon times
the product of their lengths. -/
def Apart (U : Matrix (Fin m) (Fin n) α) (p q : Fin n) : Prop :=
  |(Uᵀ * U) p q| ≤ Scalar.epsilon * Scalar.sqrt ((Uᵀ * U) p p * (Uᵀ * U) q q)

theorem Apart.symm {U : Matrix (Fin m) (Fin n) α} {p q : Fin n} (h : Apart U p q) :
    Apart U q p := by
  rw [Apart, transpose_mul_self_symm, mul_comm ((Uᵀ * U) q q)]
  exact h

/-- **Such columns are left alone.** -/
theorem columnRotation?_eq_none [Scalar.Exact α] {u : Grid α} {p q : Fin n} :
    columnRotation? m u p q = none ↔ Apart (u.matrix m n) p q := by
  unfold columnRotation? Apart
  rw [gram_eq u p q]
  simp only [Scalar.Exact.abs_eq, Scalar.Exact.le_iff, ite_eq_left_iff, reduceCtorEq, imp_false,
    not_not]

variable [IsStrictOrderedRing α] [Scalar.ExactRoot α]

/-- **Cosine and sine for all others**: on the unit circle, at the angle where the product of the
turned columns vanishes. -/
theorem columnRotation?_spec {u : Grid α} {p q : Fin n} {c t : α}
    (h : columnRotation? m u p q = some (c, t)) :
    c * c + t * t = 1 ∧ (((u.matrix m n)ᵀ * u.matrix m n) p q ≠ 0 →
      c * t * (((u.matrix m n)ᵀ * u.matrix m n) p p - ((u.matrix m n)ᵀ * u.matrix m n) q q) +
        (c * c - t * t) * ((u.matrix m n)ᵀ * u.matrix m n) p q = 0) := by
  unfold columnRotation? at h
  rw [gram_eq u p q] at h
  generalize ((u.matrix m n)ᵀ * u.matrix m n) p q = g at h ⊢
  generalize ((u.matrix m n)ᵀ * u.matrix m n) p p = a at h ⊢
  generalize ((u.matrix m n)ᵀ * u.matrix m n) q q = b at h ⊢
  dsimp only at h
  split_ifs at h
  generalize hζ : (b - a) / (Scalar.two * g) = ζ at h
  have hroot := tangent_root ζ
  have hcircle := cosine_mul_self (tangent ζ)
  have hpair : (1 / Scalar.sqrt (tangent ζ * tangent ζ + 1),
      1 / Scalar.sqrt (tangent ζ * tangent ζ + 1) * tangent ζ) = (c, t) := by
    rw [← Option.some.inj h, tangent]
    simp only [add_comm (1 : α)]
  obtain ⟨rfl, rfl⟩ := Prod.mk.inj hpair
  generalize 1 / Scalar.sqrt (tangent ζ * tangent ζ + 1) = c at hcircle ⊢
  refine ⟨by linear_combination hcircle, fun hg => ?_⟩
  have htwice : b - a = 2 * ζ * g := by
    rw [← hζ, Scalar.two, one_add_one_eq_two]
    field_simp
  linear_combination -(c * c * tangent ζ) * htwice - c * c * g * hroot

end Gram

/-! ## The state between two rotations -/

section Sweep

variable {α : Type} [Field α] [Scalar α] {m n : Nat}

theorem mem_pairs_iff {pq : Nat × Nat} : pq ∈ pairs n ↔ pq.1 < pq.2 ∧ pq.2 < n := by
  refine ⟨lt_of_mem_pairs, fun h => ?_⟩
  refine List.mem_flatMap.2 ⟨pq.1, List.mem_range.2 (by omega), List.mem_map.2 ⟨pq.2, ?_, rfl⟩⟩
  rw [List.mem_range'_1]
  omega

/-- A sweep that ends without a rotation has made none: it leaves the columns and has found nothing
to do at each of its pairs. -/
theorem foldl_columnStep_of_not_rotated {l : List (Nat × Nat)} {s : Columns α}
    (h : (l.foldl (columnStep m n) s).rotated = false) :
    l.foldl (columnStep m n) s = s ∧ ∀ pq ∈ l, columnRotation? m s.u pq.1 pq.2 = none := by
  have hstays : ∀ (l : List (Nat × Nat)) (s : Columns α), s.rotated = true →
      (l.foldl (columnStep m n) s).rotated = true := by
    intro l
    induction l with
    | nil => exact fun s hs => hs
    | cons pq l ih =>
      intro s hs
      refine ih _ ?_
      unfold columnStep
      split
      · exact hs
      · rfl
  induction l generalizing s with
  | nil => exact ⟨rfl, fun _ h => absurd h List.not_mem_nil⟩
  | cons pq l ih =>
    cases hr : columnRotation? m s.u pq.1 pq.2 with
    | none =>
      have hs : columnStep m n s pq = s := by rw [columnStep, hr]
      rw [List.foldl_cons, hs] at h ⊢
      obtain ⟨hsame, hall⟩ := ih h
      exact ⟨hsame, List.forall_mem_cons.2 ⟨hr, hall⟩⟩
    | some r =>
      have hs : (columnStep m n s pq).rotated = true := by rw [columnStep, hr]
      rw [List.foldl_cons, hstays l _ hs] at h
      exact nomatch h

end Sweep

section Turned

variable {α : Type} [Field α] {m n : Nat} {A : Matrix (Fin m) (Fin n) α}

/-- **The state of the iteration**: orthogonal vectors, and the columns that the first matrix makes
of them. -/
structure Turned (A : Matrix (Fin m) (Fin n) α) (u v : Grid α) : Prop where
  orthogonal : (v.matrix n n)ᵀ * v.matrix n n = 1
  turned : u.matrix m n = A * v.matrix n n

theorem turned_identity (w : Grid α) : Turned (w.matrix m n) w (identity n) := by
  constructor
  · rw [matrix_identity, transpose_one, Matrix.one_mul]
  · rw [matrix_identity, Matrix.mul_one]

variable [Scalar α] [LinearOrder α] [IsStrictOrderedRing α] [Scalar.ExactRoot α] {p q : Fin n}

/-- **A rotation of columns keeps the state.** -/
theorem Turned.step {s : Columns α} (h : Turned A s.u s.v) (hpq : p ≠ q) :
    Turned A (columnStep m n s (p, q)).u (columnStep m n s (p, q)).v := by
  unfold columnStep
  cases hr : columnRotation? m s.u (p, q).1 (p, q).2 with
  | none => exact h
  | some r =>
    obtain ⟨c, t⟩ := r
    have hunit := (columnRotation?_spec hr).1
    constructor
    · dsimp only
      rw [matrix_turnColumns hpq]
      exact transpose_mul_self_mul h.orthogonal (transpose_plane_mul_self hpq hunit)
    · dsimp only
      rw [matrix_turnColumns hpq, matrix_turnColumns hpq, h.turned, Matrix.mul_assoc]

/-- **So does a sweep.** -/
theorem Turned.sweep {l : List (Nat × Nat)} (hl : ∀ pq ∈ l, pq ∈ pairs n) {s : Columns α}
    (h : Turned A s.u s.v) :
    Turned A (l.foldl (columnStep m n) s).u (l.foldl (columnStep m n) s).v := by
  induction l generalizing s with
  | nil => exact h
  | cons pq l ih =>
    obtain ⟨hlt, hn⟩ := lt_of_mem_pairs (hl pq List.mem_cons_self)
    exact ih (fun pq' h' => hl pq' (List.mem_cons_of_mem _ h'))
      (h.step (p := ⟨pq.1, by omega⟩) (q := ⟨pq.2, hn⟩) (by simpa using hlt.ne))

/-- **What the iteration returns** is the first matrix along orthogonal vectors, and any two of its
columns are orthogonal as far as this is checked. -/
theorem turned_of_columnSweeps {k : Nat} {u v : Grid α} {r : Grid α × Grid α}
    (h : columnSweeps m n k u v = some r) (huv : Turned A u v) :
    Turned A r.1 r.2 ∧ ∀ p q : Fin n, p ≠ q → Apart (r.1.matrix m n) p q := by
  induction k generalizing u v with
  | zero => exact nomatch h
  | succ k ih =>
    have hsweep := Turned.sweep (l := pairs n) (fun _ h => h) (s := ⟨u, v, false⟩) huv
    rw [columnSweeps] at h
    cases hrot : ((pairs n).foldl (columnStep m n) ⟨u, v, false⟩).rotated with
    | true => exact ih (by simpa only [hrot, if_true] using h) hsweep
    | false =>
      simp only [hrot, Bool.false_eq_true, if_false] at h
      obtain rfl := Option.some.inj h
      obtain ⟨hsame, hall⟩ := foldl_columnStep_of_not_rotated hrot
      rw [hsame] at hsweep ⊢
      have hlt (p q : Fin n) (hpq : p < q) : Apart (u.matrix m n) p q :=
        columnRotation?_eq_none.1 (hall (p, q) (mem_pairs_iff.2 ⟨hpq, q.2⟩))
      refine ⟨hsweep, fun p q hpq => ?_⟩
      obtain h | h := lt_or_gt_of_ne hpq
      · exact hlt p q h
      · exact (hlt q p h).symm

/-- **A rotation makes the columns of its pair orthogonal.** -/
theorem columnStep_apart (hε : (0 : α) ≤ Scalar.epsilon) (s : Columns α) (hpq : p ≠ q) :
    Apart ((columnStep m n s (p, q)).u.matrix m n) p q := by
  unfold columnStep
  cases hr : columnRotation? m s.u (p, q).1 (p, q).2 with
  | none => exact columnRotation?_eq_none.1 hr
  | some r =>
    obtain ⟨c, t⟩ := r
    have hlen : 0 ≤ Scalar.epsilon * Scalar.sqrt (((s.u.matrix m n)ᵀ * s.u.matrix m n) p p *
        ((s.u.matrix m n)ᵀ * s.u.matrix m n) q q) :=
      mul_nonneg hε (Scalar.ExactRoot.sqrt_nonneg _)
    have hclear := (columnRotation?_spec hr).2 fun hzero => by
      have hnone : columnRotation? m s.u p q = none := by
        rw [columnRotation?_eq_none, Apart, hzero, abs_zero]
        exact hlen
      exact nomatch hr.symm.trans hnone
    dsimp only
    rw [Apart, matrix_turnColumns hpq]
    have hentry : ((s.u.matrix m n * plane p q c t)ᵀ * (s.u.matrix m n * plane p q c t)) p q =
        0 := by
      rw [transpose_mul, Matrix.mul_assoc, transpose_plane_mul_apply hpq, if_pos rfl,
        ← Matrix.mul_assoc, mul_plane_apply hpq, mul_plane_apply hpq, if_neg hpq.symm,
        if_neg hpq.symm, if_pos rfl, if_pos rfl, transpose_mul_self_symm _ p q]
      linear_combination hclear
    rw [hentry, abs_zero]
    exact mul_nonneg hε (Scalar.ExactRoot.sqrt_nonneg _)

/-- **Two columns need one rotation.** -/
theorem exists_orthogonalise_two (hε : (0 : α) ≤ Scalar.epsilon) (w : Grid α) :
    ∃ r, orthogonalise? m 2 w = some r := by
  have hpq : (0 : Fin 2) ≠ 1 := by decide
  have hsweep (s : Columns α) :
      (pairs 2).foldl (columnStep m 2) s = columnStep m 2 s ((0 : Fin 2), (1 : Fin 2)) := rfl
  rw [orthogonalise?, maxSweeps, columnSweeps]
  split_ifs
  · have hapart := columnStep_apart (m := m) hε ⟨w, identity 2, false⟩ hpq
    rw [← hsweep] at hapart
    generalize (pairs 2).foldl (columnStep m 2) ⟨w, identity 2, false⟩ = s at hapart
    have hnone : columnRotation? m s.u (0 : Fin 2) (1 : Fin 2) = none :=
      columnRotation?_eq_none.2 hapart
    have hstill : columnStep m 2 ⟨s.u, s.v, false⟩ ((0 : Fin 2), (1 : Fin 2)) =
        ⟨s.u, s.v, false⟩ := by
      rw [columnStep, hnone]
    refine ⟨(s.u, s.v), ?_⟩
    rw [columnSweeps, hsweep, hstill]
    rfl
  · exact ⟨_, rfl⟩

end Turned

/-! ## Lengths and directions -/

section Directions

variable {α : Type} [Field α] {m n k : Nat}

theorem transpose_mul_self_flip (Q : Matrix (Fin m) (Fin k) α) (d : Fin k → α) (i j : Fin k) :
    ((Q * diagonal d)ᵀ * (Q * diagonal d)) i j = d i * (Qᵀ * Q) i j * d j := by
  rw [transpose_mul, diagonal_transpose, ← Matrix.mul_assoc, mul_diagonal, Matrix.mul_assoc,
    diagonal_mul]

variable [LinearOrder α]

/-- The columns of a matrix, divided by numbers where these are positive. -/
def divided (W : Matrix (Fin m) (Fin k) α) (x : Fin k → α) : Matrix (Fin m) (Fin k) α :=
  of fun i j => if 0 < x j then W i j / x j else 0

variable [Scalar α]

/-- **Columns and their lengths**: they are unit vectors where there is a length and zero elsewhere,
and any two of them are orthogonal up to epsilon. -/
structure Directions (x : Fin k → α) (Q : Matrix (Fin m) (Fin k) α) : Prop where
  unit {j : Fin k} : x j ≠ 0 → (Qᵀ * Q) j j = 1
  zero {j : Fin k} : x j = 0 → Q.col j = 0
  inner {i j : Fin k} : i ≠ j → |(Qᵀ * Q) i j| ≤ Scalar.epsilon

variable {x : Fin k → α} {Q : Matrix (Fin m) (Fin k) α}

theorem Directions.unit_iff (h : Directions x Q) (j : Fin k) : (Qᵀ * Q) j j = 1 ↔ x j ≠ 0 := by
  refine ⟨fun hone hzero => ?_, h.unit⟩
  have hcol (i : Fin m) : Q i j = 0 := congrFun (h.zero hzero) i
  simp [mul_apply, hcol] at hone

variable [IsStrictOrderedRing α]

/-- Signs do not matter to them. -/
theorem Directions.flip (h : Directions x Q) {d : Fin k → α} (hd : ∀ j, d j * d j = 1) :
    Directions x (Q * diagonal d) := by
  have habs (j : Fin k) : |d j| = 1 := (abs_eq zero_le_one).2 (mul_self_eq_one_iff.1 (hd j))
  refine ⟨fun hj => ?_, fun hj => ?_, fun hij => ?_⟩
  · rw [transpose_mul_self_flip, h.unit hj, mul_one, hd]
  · ext i
    rw [col_apply, mul_diagonal, ← col_apply Q, h.zero hj, Pi.zero_apply, zero_mul]
  · rw [transpose_mul_self_flip, abs_mul, abs_mul, habs, habs, one_mul, mul_one]
    exact h.inner hij

variable [Scalar.ExactRoot α]

theorem sqrt_mul_self {a : α} (h : 0 ≤ a) : Scalar.sqrt (a * a) = a :=
  (mul_self_inj (Scalar.ExactRoot.sqrt_nonneg _) h).1
    (Scalar.ExactRoot.sqrt_mul_self (mul_self_nonneg a))

/-- The columns are their directions times their lengths. -/
theorem divided_mul_diagonal {W : Matrix (Fin m) (Fin k) α}
    (hx : ∀ j, x j = Qr.magnitude (W.col j)) : divided W x * diagonal x = W := by
  ext i j
  rw [mul_diagonal, divided, of_apply]
  split_ifs with hpos
  · exact div_mul_cancel₀ _ hpos.ne'
  · have hzero : x j = 0 := le_antisymm (not_lt.1 hpos) (hx j ▸ Scalar.ExactRoot.sqrt_nonneg _)
    rw [hx, Qr.magnitude_eq_zero] at hzero
    rw [zero_mul]
    exact (congrFun hzero i).symm

/-- **Orthogonal columns divided by their lengths.** -/
theorem directions_divided (hε : (0 : α) ≤ Scalar.epsilon) {W : Matrix (Fin m) (Fin k) α}
    (hx : ∀ j, x j = Qr.magnitude (W.col j)) (hW : ∀ i j, i ≠ j → Apart W i j) :
    Directions x (divided W x) := by
  have hnonneg (j : Fin k) : 0 ≤ x j := hx j ▸ Scalar.ExactRoot.sqrt_nonneg _
  have hdiag (j : Fin k) : (Wᵀ * W) j j = x j * x j := by
    rw [hx, Qr.magnitude_mul_self]
    rfl
  have hgram (i j : Fin k) : (Wᵀ * W) i j =
      x i * ((divided W x)ᵀ * divided W x) i j * x j := by
    rw [← transpose_mul_self_flip, divided_mul_diagonal hx]
  have hzero {j : Fin k} (hj : x j = 0) : (divided W x).col j = 0 := by
    ext i
    rw [col_apply, divided, of_apply, if_neg hj.not_gt, Pi.zero_apply]
  refine ⟨fun {j} hj => ?_, hzero, fun {i j} hij => ?_⟩
  · refine mul_left_cancel₀ (mul_ne_zero hj hj) ?_
    linear_combination hdiag j - hgram j j
  · by_cases hpos : 0 < x i * x j
    · have hapart := hW i j hij
      rw [Apart, hdiag, hdiag, mul_mul_mul_comm, sqrt_mul_self hpos.le, hgram, mul_right_comm,
        abs_mul, abs_of_pos hpos, mul_comm] at hapart
      exact le_of_mul_le_mul_right hapart hpos
    · -- a column of zeros is orthogonal to all others
      obtain hi | hj : x i = 0 ∨ x j = 0 := mul_eq_zero.1
        (le_antisymm (not_lt.1 hpos) (mul_nonneg (hnonneg i) (hnonneg j)))
      · have hcol (p : Fin m) : divided W x p i = 0 := congrFun (hzero hi) p
        simpa [mul_apply, hcol] using hε
      · have hcol (p : Fin m) : divided W x p j = 0 := congrFun (hzero hj) p
        simpa [mul_apply, hcol] using hε

end Directions

/-! ## Thin decompositions -/

section Thin

variable {α : Type} [Field α] {m n k : Nat} {A : Matrix (Fin m) (Fin n) α}
  {U : Matrix (Fin m) (Fin k) α} {x : Fin k → α} {Vt : Matrix (Fin k) (Fin n) α}

theorem diagonal_flip {d : Fin k → α} (hd : ∀ j, d j * d j = 1) (U : Matrix (Fin m) (Fin k) α)
    (x : Fin k → α) (Vt : Matrix (Fin k) (Fin n) α) :
    U * diagonal d * diagonal x * (diagonal d * Vt) = U * diagonal x * Vt := by
  have hmiddle : diagonal d * diagonal x * diagonal d = diagonal x := by
    rw [diagonal_mul_diagonal, diagonal_mul_diagonal]
    exact congrArg diagonal (funext fun j => by rw [mul_right_comm, hd, one_mul])
  calc U * diagonal d * diagonal x * (diagonal d * Vt)
      = U * (diagonal d * diagonal x * diagonal d) * Vt := by simp only [Matrix.mul_assoc]
    _ = U * diagonal x * Vt := by rw [hmiddle]

theorem matrix_transpose (w : Grid α) : (transpose m n w).matrix n m = (w.matrix m n)ᵀ := by
  rw [transpose, Grid.matrix_tabulate]
  rfl

variable [LinearOrder α] [Scalar α]

/-- **A thin decomposition**: a product with descending values in the middle. The factor that the
rotations were collected in is orthogonal, the other one has the directions of the columns that
they made. -/
structure Thin (A : Matrix (Fin m) (Fin n) α) (U : Matrix (Fin m) (Fin k) α) (x : Fin k → α)
    (Vt : Matrix (Fin k) (Fin n) α) : Prop where
  product : A = U * diagonal x * Vt
  nonneg (j : Fin k) : 0 ≤ x j
  descending : Antitone x
  tall : n ≤ m → Vt * Vtᵀ = 1 ∧ Directions x U
  wide : m < n → Uᵀ * U = 1 ∧ Directions x Vtᵀ

/-- The decomposition of a tall matrix, read for its transpose. -/
theorem Thin.transpose (h : Thin A U x Vt) (hnm : n < m) : Thin Aᵀ Vtᵀ x Uᵀ := by
  obtain ⟨horth, hdir⟩ := h.tall hnm.le
  refine ⟨?_, h.nonneg, h.descending, fun hle => absurd hnm hle.not_gt, fun _ => ?_⟩
  · rw [h.product, transpose_mul, transpose_mul, diagonal_transpose, Matrix.mul_assoc]
  · exact ⟨by rwa [transpose_transpose], by rwa [transpose_transpose]⟩

/-- A matrix of full rank has no value zero. -/
theorem Thin.ne_zero_of_rank (h : Thin A U x Vt) (hrank : A.rank = k) (j : Fin k) : x j ≠ 0 := by
  have hle : k ≤ Fintype.card { i // x i ≠ 0 } :=
    calc k = (U * diagonal x * Vt).rank := by rw [← h.product, hrank]
      _ ≤ (U * diagonal x).rank := rank_mul_le_left _ _
      _ ≤ (diagonal x).rank := rank_mul_le_right _ _
      _ = Fintype.card { i // x i ≠ 0 } := rank_diagonal x
  intro hzero
  have hlt : Fintype.card { i // x i ≠ 0 } < Fintype.card (Fin k) :=
    Fintype.card_subtype_lt fun hj => hj hzero
  rw [Fintype.card_fin] at hlt
  omega

variable [IsStrictOrderedRing α]

/-- **Signs of columns and of the rows that belong to them cancel.** -/
theorem Thin.flip (h : Thin A U x Vt) {d : Fin k → α} (hd : ∀ j, d j * d j = 1) :
    Thin A (U * diagonal d) x (diagonal d * Vt) := by
  have hsigns := Signs.diagonal_mul_self hd
  refine ⟨?_, h.nonneg, h.descending, fun hle => ?_, fun hlt => ?_⟩
  · rw [diagonal_flip hd, h.product]
  · obtain ⟨horth, hdir⟩ := h.tall hle
    refine ⟨?_, hdir.flip hd⟩
    rw [transpose_mul, diagonal_transpose, Matrix.mul_assoc, ← Matrix.mul_assoc Vt, horth,
      Matrix.one_mul, hsigns]
  · obtain ⟨horth, hdir⟩ := h.wide hlt
    refine ⟨transpose_mul_self_mul horth (by rw [diagonal_transpose, hsigns]), ?_⟩
    rw [transpose_mul, diagonal_transpose]
    exact hdir.flip hd

variable [Scalar.ExactRoot α]

/-- In the order of their keys from the largest one the places have descending keys. -/
theorem order_ge (key : Nat → α) {i j : Nat} (hij : i ≤ j) (hj : j < n) :
    key ((order n fun i j => Scalar.lt (key j) (key i)).getD j 0) ≤
      key ((order n fun i j => Scalar.lt (key j) (key i)).getD i 0) := by
  have hneg : (fun i j => Scalar.lt (key j) (key i)) =
      fun i j => Scalar.lt (-key i) (-key j) := by
    funext i j
    rw [Bool.eq_iff_iff, Scalar.Exact.lt_iff, Scalar.Exact.lt_iff, neg_lt_neg_iff]
  rw [hneg]
  exact neg_le_neg_iff.1 (order_le (fun i => -key i) hij hj)

/-- Columns that are orthogonal up to epsilon, in descending order of their lengths, make a thin
decomposition of the matrix that they come from. -/
theorem thin_of_turned (hε : (0 : α) ≤ Scalar.epsilon) (hnm : n ≤ m) {A : Matrix (Fin m) (Fin n) α}
    {u v : Grid α} (h : Turned A u v) (hapart : ∀ p q, p ≠ q → Apart (u.matrix m n) p q)
    {σ : Equiv.Perm (Fin n)} {x : Fin n → α}
    (hx : ∀ j, x j = Qr.magnitude (((u.matrix m n).submatrix id σ).col j)) (hdesc : Antitone x) :
    Thin A (divided ((u.matrix m n).submatrix id σ) x) x ((v.matrix n n).submatrix id σ)ᵀ := by
  have horth := orthogonal_submatrix h.orthogonal σ
  have hcols : (u.matrix m n).submatrix id σ = A * (v.matrix n n).submatrix id σ := by
    rw [h.turned]
    rfl
  refine ⟨?_, fun j => hx j ▸ Scalar.ExactRoot.sqrt_nonneg _, hdesc, fun _ => ⟨?_, ?_⟩,
    fun hlt => absurd hlt hnm.not_gt⟩
  · rw [divided_mul_diagonal hx, hcols, Matrix.mul_assoc, mul_eq_one_comm.1 horth, Matrix.mul_one]
  · rw [transpose_transpose, horth]
  · exact directions_divided hε hx fun i j hij => hapart _ _ (σ.injective.ne hij)

/-- What the decomposition of a tall matrix gives, if the iteration ends. -/
theorem tall?_thin (hε : (0 : α) ≤ Scalar.epsilon) (hnm : n ≤ m) {w : Grid α} {r : Singular α}
    (h : tall? m n w = some r) : r.u.Fits m n ∧ r.s.length = n ∧ r.vt.Fits n n ∧
      Thin (w.matrix m n) (r.u.matrix m n) (fun j => r.s.getD j 0) (r.vt.matrix n n) := by
  obtain ⟨⟨u, v⟩, huv, rfl⟩ := Option.map_eq_some_iff.1 h
  obtain ⟨hturned, hapart⟩ := turned_of_columnSweeps huv (turned_identity w)
  dsimp only
  generalize hnorms : ((List.range n).map fun j =>
    Scalar.sqrt ((List.range m).foldl (fun s i => s + u.entry i j * u.entry i j) 0)) = norms
  have hnorm (j : Fin n) : norms.getD j 0 = Qr.magnitude ((u.matrix m n).col j) := by
    rw [← hnorms, List.getD_eq_getElem _ _ (by simp), List.getElem_map, List.getElem_range,
      foldl_add_eq, zero_add, sum_map_range, ← Fin.sum_univ_eq_sum_range]
    rfl
  have hge (i j : Fin n) (hij : i ≤ j) := order_ge (fun i => norms.getD i 0) hij j.2
  have hlen := length_order n fun i j => Scalar.lt (norms.getD j 0) (norms.getD i 0)
  obtain ⟨σ, hσ⟩ := exists_perm_order (n := n) fun i j =>
    Scalar.lt (norms.getD j 0) (norms.getD i 0)
  generalize (order n fun i j => Scalar.lt (norms.getD j 0) (norms.getD i 0)) = ord
    at hge hlen hσ ⊢
  have hvalue (j : Fin n) : (ord.map fun i => norms.getD i 0).getD j 0 = norms.getD (σ j) 0 := by
    rw [← hσ]
    simp [hlen]
  have hdesc : Antitone fun j : Fin n => (ord.map fun i => norms.getD i 0).getD j 0 := by
    intro i j hij
    have h := hge i j hij
    rw [hσ, hσ] at h
    dsimp only
    rwa [hvalue, hvalue]
  have hthin := thin_of_turned hε hnm hturned hapart
    (fun j => (hvalue j).trans (hnorm (σ j))) hdesc
  refine ⟨Grid.fits_tabulate _ _ _, by simpa using hlen, Grid.fits_tabulate _ _ _, ?_⟩
  rw [Grid.matrix_tabulate, Grid.matrix_tabulate]
  convert hthin using 1
  · ext i j
    simp only [divided, of_apply, Scalar.Exact.lt_iff, hσ]
    rfl
  · ext i j
    rw [of_apply, hσ]
    rfl

/-- What the decomposition of any matrix gives. -/
theorem thin?_thin (hε : (0 : α) ≤ Scalar.epsilon) (hk : min m n = k) {w : Grid α}
    {r : Singular α} (h : thin? m n w = some r) : r.u.Fits m k ∧ r.s.length = k ∧ r.vt.Fits k n ∧
      Thin (w.matrix m n) (r.u.matrix m k) (fun j => r.s.getD j 0) (r.vt.matrix k n) := by
  unfold thin? at h
  split_ifs at h with hnm
  · obtain rfl : n = k := by omega
    exact tall?_thin hε hnm h
  · obtain rfl : m = k := by omega
    obtain ⟨r, hr, rfl⟩ := Option.map_eq_some_iff.1 h
    obtain ⟨-, hs, -, hthin⟩ := tall?_thin hε (by omega) hr
    refine ⟨Guarded.fits_transpose _, hs, Guarded.fits_transpose _, ?_⟩
    dsimp only
    rw [matrix_transpose, matrix_transpose]
    have htransposed := hthin.transpose (by omega)
    rwa [matrix_transpose, transpose_transpose] at htransposed

/-- **What is returned**, with the signs of the pivots. -/
theorem svd?_thin (hε : (0 : α) ≤ Scalar.epsilon) (hk : min m n = k) {w : Grid α}
    {r : Array α × Array α × Array α} (h : svd? m n w = some r) :
    (Grid.ofArray m k r.1).Fits m k ∧ r.2.1.size = k ∧ (Grid.ofArray k n r.2.2).Fits k n ∧
      Thin (w.matrix m n) ((Grid.ofArray m k r.1).matrix m k) (fun j => r.2.1.getD j 0)
        ((Grid.ofArray k n r.2.2).matrix k n) ∧
      ∀ j, ((Grid.ofArray m k r.1).matrix m k).col j ≠ 0 →
        ∃ i, Signs.IsPivot (((Grid.ofArray m k r.1).matrix m k).col j) i ∧
          0 < (Grid.ofArray m k r.1).matrix m k i j := by
  obtain ⟨s, hs, rfl⟩ := Option.map_eq_some_iff.1 h
  obtain ⟨hu, hlen, hvt, hthin⟩ := thin?_thin hε hk hs
  dsimp only
  rw [hk]
  refine ⟨⟨rfl, (Guarded.size_negateAt _ _).trans hu.size⟩, by simpa using hlen,
    ⟨rfl, (Guarded.size_negateAt _ _).trans hvt.size⟩, ?_, fun j hj => ?_⟩
  · rw [Signs.matrix_positivePivots, Signs.matrix_alongPivots, Signs.matrix_ofArray hu,
      Signs.matrix_ofArray hvt]
    convert hthin.flip (d := Signs.pivotSigns m k s.u.data)
      (fun _ => Signs.sign_mul_self _) using 1
    funext j
    simp [hlen]
  · rw [Signs.matrix_positivePivots] at hj ⊢
    refine Signs.exists_isPivot_pos s.u.data j ?_
    -- a flipped column of zeros is zero
    by_contra! hzero
    refine hj (funext fun i => ?_)
    rw [col_apply, mul_diagonal, hzero, zero_mul, Pi.zero_apply]

end Thin

end MemoFlow.Jacobi

namespace MemoFlow.Native

open Matrix Jacobi

section Svd

variable {m n : Nat} {a : Tensor ℝ} {A : Matrix (Fin m) (Fin n) ℝ} {ts : List (Tensor ℝ)}

theorem epsilon_nonneg : (0 : ℝ) ≤ Scalar.epsilon :=
  div_nonneg zero_le_one (pow_nonneg zero_le_two 52)

/-- The three results hold a thin decomposition. -/
theorem svd_thin (ha : a.Holds A) (h : svd a = .ok ts) :
    ∃ (u s vt : Tensor ℝ) (U : Matrix (Fin m) (Fin (min m n)) ℝ) (x : Fin (min m n) → ℝ)
      (Vt : Matrix (Fin (min m n)) (Fin n) ℝ),
      ts = [u, s, vt] ∧ u.Holds U ∧ s.HoldsVector x ∧ vt.Holds Vt ∧ Thin A U x Vt ∧
      ∀ j, U.col j ≠ 0 → ∃ i, Signs.IsPivot (U.col j) i ∧ 0 < U i j := by
  have hk : (min (rowDim a) (colDim a)).toNat = min m n := by
    rw [Guarded.toNat_min]
    exact congrArg₂ min ha.rows ha.cols
  unfold svd at h
  rw [ha.rows, ha.cols] at h
  cases hr : svd? m n (grid a) with
  | none =>
    rw [hr] at h
    exact nomatch h
  | some r =>
    rw [hr] at h
    obtain rfl := Except.ok.inj h
    obtain ⟨hu, hs, hvt, hthin, hpos⟩ := svd?_thin epsilon_nonneg rfl hr
    rw [ha.matrix_grid] at hthin
    exact ⟨_, _, _, _, _, _, rfl, Tensor.holds_ofMatrix ha.dtype ha.rows hk hu,
      Tensor.holdsVector_ofVector ha.dtype hk hs, Tensor.holds_ofMatrix ha.dtype hk ha.cols hvt,
      hthin, hpos⟩

/-- **The factors of a real matrix make the matrix**, whatever its shape and its rank: the values
are not negative and descend, the first entry of greatest magnitude of a column of `U` that is not
zero is positive, and the factor of the rotations is orthogonal. -/
theorem svd_factors (ha : a.Holds A) (h : svd a = .ok ts) :
    ∃ (u s vt : Tensor ℝ) (U : Matrix (Fin m) (Fin (min m n)) ℝ) (x : Fin (min m n) → ℝ)
      (Vt : Matrix (Fin (min m n)) (Fin n) ℝ),
      ts = [u, s, vt] ∧ u.Holds U ∧ s.HoldsVector x ∧ vt.Holds Vt ∧
      A = U * diagonal x * Vt ∧ (∀ j, 0 ≤ x j) ∧ Antitone x ∧
      (∀ j, U.col j ≠ 0 → ∃ i, Signs.IsPivot (U.col j) i ∧ 0 < U i j) ∧
      (n ≤ m → Vt * Vtᵀ = 1 ∧ Vtᵀ * Vt = 1) ∧ (m < n → Uᵀ * U = 1 ∧ U * Uᵀ = 1) := by
  obtain ⟨u, s, vt, U, x, Vt, hts, hu, hs, hvt, hthin, hpos⟩ := svd_thin ha h
  refine ⟨u, s, vt, U, x, Vt, hts, hu, hs, hvt, hthin.product, hthin.nonneg, hthin.descending,
    hpos, fun hle => ?_, fun hlt => ?_⟩
  · have horth := (hthin.tall hle).1
    have hcard : Fintype.card (Fin (min m n)) = Fintype.card (Fin n) := by
      simpa only [Fintype.card_fin] using min_eq_right hle
    exact ⟨horth, (mul_eq_one_comm_of_card_eq _ _ _ hcard).1 horth⟩
  · have horth := (hthin.wide hlt).1
    have hcard : Fintype.card (Fin (min m n)) = Fintype.card (Fin m) := by
      simpa only [Fintype.card_fin] using min_eq_left hlt.le
    exact ⟨horth, (mul_eq_one_comm_of_card_eq _ _ _ hcard).1 horth⟩

theorem exists_svd_two (ha : a.Holds A) (hn : n = 2) (hm : 2 ≤ m) : ∃ ts, svd a = .ok ts := by
  subst hn
  obtain ⟨r, hr⟩ := exists_orthogonalise_two (m := m) epsilon_nonneg (grid a)
  rw [svd, ha.rows, ha.cols, svd?, thin?, if_pos hm, tall?, hr]
  exact ⟨_, rfl⟩

/-- A square matrix of rank one, whose columns have to be turned. -/
theorem svd_factors_rank_one :
    let a : Tensor ℝ := ⟨.f64, [2, 2], #[1, 2, 1, 2], .native⟩
    let A : Matrix (Fin 2) (Fin 2) ℝ := !![1, 2; 1, 2]
    a.Holds A ∧ ∃ ts, svd a = .ok ts ∧
      ∃ (u s vt : Tensor ℝ) (U : Matrix (Fin 2) (Fin 2) ℝ) (x : Fin 2 → ℝ)
        (Vt : Matrix (Fin 2) (Fin 2) ℝ),
        ts = [u, s, vt] ∧ u.Holds U ∧ s.HoldsVector x ∧ vt.Holds Vt ∧
        A = U * diagonal x * Vt ∧ (∀ j, 0 ≤ x j) ∧ Antitone x ∧
        (∀ j, U.col j ≠ 0 → ∃ i, Signs.IsPivot (U.col j) i ∧ 0 < U i j) ∧
        Vt * Vtᵀ = 1 ∧ Vtᵀ * Vt = 1 := by
  intro a A
  have ha : a.Holds A :=
    ⟨rfl, rfl, rfl, rfl, rfl, fun i j => by fin_cases i <;> fin_cases j <;> rfl⟩
  obtain ⟨ts, hts⟩ := exists_svd_two ha rfl le_rfl
  obtain ⟨u, s, vt, U, x, Vt, hres, hu, hs, hvt, hproduct, hnonneg, hdesc, hpos, hright, -⟩ :=
    svd_factors ha hts
  exact ⟨ha, ts, hts, u, s, vt, U, x, Vt, hres, hu, hs, hvt, hproduct, hnonneg, hdesc, hpos,
    hright le_rfl⟩

/-- **Columns of `U` and rows of `Vᵀ` are unit vectors where the value is not zero**, and any two
of them are orthogonal up to epsilon. Where the value is zero, the factor that was divided by the
values has zeros; a matrix of full rank has no such values. -/
theorem svd_unit_iff (ha : a.Holds A) (h : svd a = .ok ts) :
    ∃ (u s vt : Tensor ℝ) (U : Matrix (Fin m) (Fin (min m n)) ℝ) (x : Fin (min m n) → ℝ)
      (Vt : Matrix (Fin (min m n)) (Fin n) ℝ),
      ts = [u, s, vt] ∧ u.Holds U ∧ s.HoldsVector x ∧ vt.Holds Vt ∧ A = U * diagonal x * Vt ∧
      (∀ i j, i ≠ j → |(Uᵀ * U) i j| ≤ Scalar.epsilon ∧ |(Vt * Vtᵀ) i j| ≤ Scalar.epsilon) ∧
      (∀ j, (Uᵀ * U) j j = 1 ∧ (Vt * Vtᵀ) j j = 1 ↔ x j ≠ 0) ∧
      (∀ j, x j = 0 → if n ≤ m then U.col j = 0 else Vt.row j = 0) ∧
      (A.rank = min m n → ∀ j, x j ≠ 0) := by
  obtain ⟨u, s, vt, U, x, Vt, hts, hu, hs, hvt, hthin, -⟩ := svd_thin ha h
  have hone {i j : Fin (min m n)} (hij : i ≠ j) :
      |(1 : Matrix (Fin (min m n)) (Fin (min m n)) ℝ) i j| ≤ Scalar.epsilon := by
    rw [one_apply_ne hij, abs_zero]
    exact epsilon_nonneg
  refine ⟨u, s, vt, U, x, Vt, hts, hu, hs, hvt, hthin.product, fun i j hij => ?_, fun j => ?_,
    fun j hj => ?_, hthin.ne_zero_of_rank⟩
  all_goals obtain hle | hlt := le_or_gt n m
  · obtain ⟨horth, hdir⟩ := hthin.tall hle
    exact ⟨hdir.inner hij, horth ▸ hone hij⟩
  · obtain ⟨horth, hdir⟩ := hthin.wide hlt
    exact ⟨horth ▸ hone hij, hdir.inner hij⟩
  · obtain ⟨horth, hdir⟩ := hthin.tall hle
    rw [horth, one_apply_eq, eq_self_iff_true, and_true]
    exact hdir.unit_iff j
  · obtain ⟨horth, hdir⟩ := hthin.wide hlt
    rw [horth, one_apply_eq, eq_self_iff_true, true_and]
    exact hdir.unit_iff j
  · rw [if_pos hle]
    exact (hthin.tall hle).2.zero hj
  · rw [if_neg hlt.not_ge]
    exact (hthin.wide hlt).2.zero hj

/-- The matrix of one zero: there is no unit vector in `U`. -/
theorem svd_of_zero :
    let a : Tensor ℝ := ⟨.f64, [1, 1], #[0], .native⟩
    a.Holds (0 : Matrix (Fin 1) (Fin 1) ℝ) ∧ ∃ ts, svd a = .ok ts ∧
      ∃ (u s vt : Tensor ℝ) (U : Matrix (Fin 1) (Fin 1) ℝ) (x : Fin 1 → ℝ)
        (Vt : Matrix (Fin 1) (Fin 1) ℝ),
        ts = [u, s, vt] ∧ u.Holds U ∧ s.HoldsVector x ∧ vt.Holds Vt ∧ x 0 = 0 ∧ U.col 0 = 0 ∧
        (Uᵀ * U) 0 0 ≠ 1 := by
  intro a
  have ha : a.Holds (0 : Matrix (Fin 1) (Fin 1) ℝ) :=
    ⟨rfl, rfl, rfl, rfl, rfl, fun i j => by fin_cases i; fin_cases j; rfl⟩
  obtain ⟨ts, hts⟩ : ∃ ts, svd a = .ok ts := ⟨_, rfl⟩
  obtain ⟨u, s, vt, U, x, Vt, hres, hu, hs, hvt, hproduct, -, hunit, hzero, -⟩ :=
    svd_unit_iff ha hts
  have hvalue : ∀ (U : Matrix (Fin 1) (Fin 1) ℝ) (x : Fin 1 → ℝ) (Vt : Matrix (Fin 1) (Fin 1) ℝ),
      0 = U * diagonal x * Vt → ((Uᵀ * U) 0 0 = 1 ∧ (Vt * Vtᵀ) 0 0 = 1 ↔ x 0 ≠ 0) → x 0 = 0 := by
    intro U x Vt hproduct hunit
    by_contra hne
    have hentry := congrFun (congrFun hproduct 0) 0
    simp only [mul_apply, Fin.sum_univ_one, transpose_apply, diagonal_apply_eq] at hunit hentry
    obtain ⟨hU, hVt⟩ := hunit.2 hne
    have hU0 : U 0 0 ≠ 0 := left_ne_zero_of_mul_eq_one hU
    have hVt0 : Vt 0 0 ≠ 0 := left_ne_zero_of_mul_eq_one hVt
    exact mul_ne_zero (mul_ne_zero hU0 hne) hVt0 hentry.symm
  have hx : x (0 : Fin 1) = 0 := hvalue U x Vt hproduct (hunit (0 : Fin 1))
  have hcol : U.col (0 : Fin 1) = 0 := hzero (0 : Fin 1) hx
  refine ⟨ha, ts, hts, u, s, vt, U, x, Vt, hres, hu, hs, hvt, hx, hcol, fun hone => ?_⟩
  have hlength : U.col (0 : Fin 1) ⬝ᵥ U.col (0 : Fin 1) = 1 := hone
  rw [hcol, dotProduct_zero] at hlength
  exact zero_ne_one hlength

end Svd

end MemoFlow.Native
