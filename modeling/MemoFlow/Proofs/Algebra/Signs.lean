import MemoFlow.Proofs.Algebra.Exact
import MemoFlow.Proofs.Bounds.Factor

/-!
# What sign conventions change

The sign of a diagonal entry or of a pivot decides whether a whole column of one factor and the
matching row of the other are negated. Nothing else changes, so products of the factors stay, also
with a diagonal matrix between them.

* `Signs.SameMagnitudes`, `Signs.FlipsAlong`: payloads that differ in signs only, and columns that
  are flipped with the rows that belong to them;
* `FlipsAlong.mul_diagonal_mul`, `FlipsAlong.mul`: products are unchanged;
* `Signs.negativeDiagonal_iff`, `Signs.negativePivot_iff`: the columns that are flipped;
* `Signs.flipsAlong_positiveDiagonal`, `Signs.flipsAlong_positivePivots`: both conventions are such
  flips;
* **`Signs.positiveDiagonal_eq_foldl`**, **`Signs.positivePivots_eq_foldl`**: all flips at once are
  the flips of one column after the other, each decided by what the ones before have left;
* **`Signs.flips_conserve`**: signs only, the same products, diagonals and pivots that are not
  negative, and nothing left to flip.
-/

namespace MemoFlow.Signs

open Matrix

/-! ## Flips -/

section Flips

variable {α : Type} [Field α] {m n k : Nat}

/-- **Columns that are flipped as a whole along with the rows that belong to them**: those that are
`negative`, and no others. -/
structure FlipsAlong (negative : Fin k → Prop) (C C' : Matrix (Fin m) (Fin k) α)
    (R R' : Matrix (Fin k) (Fin n) α) : Prop where
  col_neg {j : Fin k} : negative j → C'.col j = -C.col j
  col_pos {j : Fin k} : ¬ negative j → C'.col j = C.col j
  row_neg {j : Fin k} : negative j → R'.row j = -R.row j
  row_pos {j : Fin k} : ¬ negative j → R'.row j = R.row j

variable {negative : Fin k → Prop} {C C' : Matrix (Fin m) (Fin k) α}
  {R R' : Matrix (Fin k) (Fin n) α}

/-- Signs on both sides of a diagonal matrix cancel. -/
theorem FlipsAlong.mul_diagonal_mul (h : FlipsAlong negative C C' R R') (d : Fin k → α) :
    C' * diagonal d * R' = C * diagonal d * R := by
  ext i l
  rw [mul_apply, mul_apply]
  refine Finset.sum_congr rfl fun j _ => ?_
  rw [mul_diagonal, mul_diagonal]
  by_cases hj : negative j
  · have hC : C' i j = -C i j := congrFun (h.col_neg hj) i
    have hR : R' j l = -R j l := congrFun (h.row_neg hj) l
    rw [hC, hR]
    ring
  · have hC : C' i j = C i j := congrFun (h.col_pos hj) i
    have hR : R' j l = R j l := congrFun (h.row_pos hj) l
    rw [hC, hR]

theorem FlipsAlong.mul (h : FlipsAlong negative C C' R R') : C' * R' = C * R := by
  have hone := h.mul_diagonal_mul 1
  have hdiag : diagonal (1 : Fin k → α) = 1 := diagonal_one
  rwa [hdiag, Matrix.mul_one, Matrix.mul_one] at hone

/-- Diagonal matrices of signs from both sides are such flips. -/
theorem flipsAlong_diagonal {flip : Fin k → Bool} (h : ∀ j, flip j = true ↔ negative j)
    (C : Matrix (Fin m) (Fin k) α) (R : Matrix (Fin k) (Fin n) α) :
    FlipsAlong negative C (C * diagonal fun j => (sign (flip j) : α)) R
      ((diagonal fun j => (sign (flip j) : α)) * R) := by
  have hneg {j : Fin k} (hj : negative j) : (sign (flip j) : α) = -1 := by simp [sign, (h j).2 hj]
  have hpos {j : Fin k} (hj : ¬ negative j) : (sign (flip j) : α) = 1 := by
    simp [sign, mt (h j).1 hj]
  refine ⟨fun hj => ?_, fun hj => ?_, fun hj => ?_, fun hj => ?_⟩
  · ext i
    rw [col_apply, mul_diagonal, hneg hj, mul_neg_one]
    rfl
  · ext i
    rw [col_apply, mul_diagonal, hpos hj, mul_one]
    rfl
  · ext l
    rw [row_apply, diagonal_mul, hneg hj, neg_one_mul]
    rfl
  · ext l
    rw [row_apply, diagonal_mul, hpos hj, one_mul]
    rfl

/-- A payload of which nothing is chosen stays. -/
theorem negateAt_of_forall {flip : Nat → Bool} {data : Array α} (h : ∀ p, flip p = false) :
    negateAt flip data = data := by
  apply Array.ext
  · exact Guarded.size_negateAt _ _
  · intro p hp hp'
    simp [negateAt, h]

/-- The same when place `p` belongs to decision `f p`, and none of the `n` decisions chooses. -/
theorem negateAt_of_done {bound n : Nat} {f : Nat → Nat} {negative : Nat → Bool}
    {data : Array α} (hf : ∀ p < bound, f p < n) (h : ∀ i < n, negative i = false) :
    negateAt (fun p => p < bound && negative (f p)) data = data :=
  negateAt_of_forall fun p => by
    by_cases hp : p < bound
    · rw [h _ (hf p hp), Bool.and_false]
    · rw [decide_eq_false hp, Bool.false_and]

/-- Two flips of one place undo each other. -/
theorem negateAt_negateAt (flip turn : Nat → Bool) (data : Array α) :
    negateAt turn (negateAt flip data) = negateAt (fun p => flip p ^^ turn p) data := by
  apply Array.ext
  · simp only [Guarded.size_negateAt]
  · intro p hp hp'
    cases hf : flip p <;> cases ht : turn p <;> simp [negateAt, hf, ht]

/-- The places that have been flipped before the `i`-th decision, where place `p` belongs to
decision `f p`. -/
def flipped (bound : Nat) (f : Nat → Nat) (negative : Nat → Bool) (i p : Nat) : Bool :=
  p < bound && (f p < i && negative (f p))

theorem negateAt_flipped_zero (bound : Nat) (f : Nat → Nat) (negative : Nat → Bool)
    (data : Array α) : negateAt (flipped bound f negative 0) data = data :=
  negateAt_of_forall fun p => by simp [flipped]

theorem negateAt_flipped {bound n : Nat} {f : Nat → Nat} (hf : ∀ p < bound, f p < n)
    (negative : Nat → Bool) (data : Array α) :
    negateAt (flipped bound f negative n) data =
      negateAt (fun p => p < bound && negative (f p)) data := by
  refine congrArg (negateAt · data) (funext fun p => ?_)
  by_cases hp : p < bound
  · simp [flipped, hp, hf p hp]
  · simp [flipped, hp]

/-- A decision flips the places that belong to it, once. -/
theorem negateAt_flipped_succ (bound : Nat) (f : Nat → Nat) (negative : Nat → Bool) (i : Nat)
    (data : Array α) :
    negateAt (flipped bound f negative (i + 1)) data =
      if negative i then negateAt (fun p => p < bound && f p == i)
        (negateAt (flipped bound f negative i) data)
      else negateAt (flipped bound f negative i) data := by
  have hsplit (p : Nat) : flipped bound f negative (i + 1) p =
      (flipped bound f negative i p ^^ (negative i && (p < bound && f p == i))) := by
    by_cases hi : f p = i
    · subst hi
      simp [flipped, Bool.and_comm]
    · simp [flipped, hi, beq_eq_false_iff_ne.2 hi, Nat.le_iff_lt_or_eq]
  cases hneg : negative i with
  | true =>
    rw [if_pos rfl, negateAt_negateAt]
    exact congrArg (negateAt · data) (funext fun p => by rw [hsplit, hneg, Bool.true_and])
  | false =>
    rw [if_neg Bool.false_ne_true]
    exact congrArg (negateAt · data) (funext fun p => by
      rw [hsplit, hneg, Bool.false_and, Bool.xor_false])

/-- **Payloads that differ in signs only.** -/
def SameMagnitudes [LinearOrder α] (xs ys : Array α) : Prop :=
  ys.size = xs.size ∧ ∀ p, |ys.getD p 0| = |xs.getD p 0|

theorem sameMagnitudes_negateAt [LinearOrder α] [IsStrictOrderedRing α] (flip : Nat → Bool)
    (data : Array α) : SameMagnitudes data (negateAt flip data) := by
  refine ⟨Guarded.size_negateAt _ _, fun p => ?_⟩
  rw [getD_negateAt]
  cases flip p <;> simp [sign]

end Flips

/-! ## One column after the other -/

section InTurn

variable {α : Type} [Field α] [Scalar α] {m n k : Nat}

/-- A pivot depends on its column only. -/
theorem pivot_congr {c : Nat} {xs ys : Array α}
    (h : ∀ i < m, xs.getD (i * k + c) 0 = ys.getD (i * k + c) 0) :
    pivot m k xs c = pivot m k ys c := by
  unfold pivot
  refine List.foldl_ext _ _ _ fun best i hi => ?_
  simp only [h i (List.mem_range.1 hi)]

/-- What is decided for the `i`-th diagonal entry. -/
def diagonalStep (m n : Nat) (s : Array α × Array α) (i : Nat) : Array α × Array α :=
  if Scalar.le 0 (s.2.getD (i * n + i) 0) then s
  else (negateAt (fun p => p < m * n && p % n == i) s.1,
    negateAt (fun p => p < n * n && p / n == i) s.2)

/-- What is decided for the pivot of column `j`. -/
def pivotStep (m k n : Nat) (s : Array α × Array α) (j : Nat) : Array α × Array α :=
  if Scalar.le 0 (pivot m k s.1 j) then s
  else (negateAt (fun p => p < m * k && p % k == j) s.1,
    negateAt (fun p => p < k * n && p / n == j) s.2)

/-- **All rows at once are one row after the other**: a decision finds its diagonal entry as it
was. -/
theorem positiveDiagonal_eq_foldl (m n : Nat) (q r : Array α) :
    positiveDiagonal m n q r = (List.range n).foldl (diagonalStep m n) (q, r) := by
  have hloop := foldl_range_of_step (n := n) (f := diagonalStep m n) (s := (q, r))
    (P := fun i s => s = (negateAt (flipped (m * n) (· % n) (negativeDiagonal n r) i) q,
      negateAt (flipped (n * n) (· / n) (negativeDiagonal n r) i) r))
    (by rw [negateAt_flipped_zero, negateAt_flipped_zero]) ?_
  · rw [hloop, negateAt_flipped fun _ => Grid.col_lt, negateAt_flipped fun _ => Grid.row_lt]
    rfl
  · rintro i hi s rfl
    have hentry : (negateAt (flipped (n * n) (· / n) (negativeDiagonal n r) i) r).getD
        (i * n + i) 0 = r.getD (i * n + i) 0 := by
      rw [getD_negateAt, flipped, div_place hi]
      simp [sign]
    rw [diagonalStep, hentry, negateAt_flipped_succ, negateAt_flipped_succ, negativeDiagonal]
    cases Scalar.le 0 (r.getD (i * n + i) 0) <;> rfl

/-- **All columns at once are one column after the other**: a decision finds the pivot of its column
as it was. -/
theorem positivePivots_eq_foldl (m k n : Nat) (columns rows : Array α) :
    (positivePivots m k columns, alongPivots m k n columns rows) =
      (List.range k).foldl (pivotStep m k n) (columns, rows) := by
  have hloop := foldl_range_of_step (n := k) (f := pivotStep m k n) (s := (columns, rows))
    (P := fun j s => s = (negateAt (flipped (m * k) (· % k) (negativePivot m k columns) j) columns,
      negateAt (flipped (k * n) (· / n) (negativePivot m k columns) j) rows))
    (by rw [negateAt_flipped_zero, negateAt_flipped_zero]) ?_
  · rw [hloop, negateAt_flipped fun _ => Grid.col_lt, negateAt_flipped fun _ => Grid.row_lt]
    rfl
  · rintro j hj s rfl
    have hpivot : pivot m k (negateAt (flipped (m * k) (· % k) (negativePivot m k columns) j)
        columns) j = pivot m k columns j := by
      refine pivot_congr fun i hi => ?_
      rw [getD_negateAt, flipped, mod_place hj]
      simp [sign]
    rw [pivotStep, hpivot, negateAt_flipped_succ, negateAt_flipped_succ, negativePivot]
    cases Scalar.le 0 (pivot m k columns j) <;> rfl

end InTurn

/-! ## The columns that are flipped -/

namespace IsPivot

variable {α : Type} [Field α] [LinearOrder α] {m : Nat} {f : Fin m → α} {r s : Fin m}

/-- There is only one first entry of greatest magnitude. -/
theorem unique (hr : IsPivot f r) (hs : IsPivot f s) : r = s := by
  by_contra hne
  rcases lt_or_gt_of_ne hne with hlt | hlt
  · exact (hs.abs_lt r hlt).not_ge (hr.abs_le s)
  · exact (hr.abs_lt s hlt).not_ge (hs.abs_le r)

theorem neg (h : IsPivot f r) : IsPivot (-f) r :=
  ⟨fun i => by simpa using h.abs_le i, fun i hi => by simpa using h.abs_lt i hi⟩

end IsPivot

section Order

variable {α : Type} [Field α] [LinearOrder α] [Scalar α] [Scalar.Exact α] {m n k : Nat}

theorem negativeDiagonal_iff (r : Array α) (i : Fin n) :
    negativeDiagonal n r i = true ↔ (Grid.ofArray n n r).matrix n n i i < 0 := by
  rw [negativeDiagonal, Bool.not_eq_true', Bool.eq_false_iff, ne_eq, Scalar.Exact.le_iff, not_le]
  rfl

variable [IsStrictOrderedRing α]

/-- The pivot of a column is its first entry of greatest magnitude, also when all its entries are
zero. -/
theorem isPivot_pivot (data : Array α) (c : Fin k) (i : Fin m) :
    ∃ r, IsPivot (((Grid.ofArray m k data).matrix m k).col c) r ∧
      pivot m k data c = (Grid.ofArray m k data).matrix m k r c := by
  by_cases hc : ∃ i, (Grid.ofArray m k data).matrix m k i c ≠ 0
  · exact exists_isPivot data c hc
  · push Not at hc
    have hcol : ((Grid.ofArray m k data).matrix m k).col c = 0 := funext hc
    have hfirst (i : Fin m) (hi : i < ⟨0, i.pos⟩) : False := Nat.not_lt_zero _ hi
    refine ⟨⟨0, i.pos⟩, ⟨fun i => ?_, fun i hi => (hfirst i hi).elim⟩, ?_⟩
    · rw [hcol]
      exact le_rfl
    · rw [hc, pivot]
      refine foldl_range_of_step (fun _ best => best = 0) rfl fun i hi best hbest => ?_
      have hx : data.getD (i * k + c) 0 = 0 := hc ⟨i, hi⟩
      simp only [hx, hbest, ite_self]

theorem negativePivot_iff (data : Array α) (c : Fin k) :
    negativePivot m k data c = true ↔
      ∃ r, IsPivot (((Grid.ofArray m k data).matrix m k).col c) r ∧
        (Grid.ofArray m k data).matrix m k r c < 0 := by
  rw [negativePivot, Bool.not_eq_true', Bool.eq_false_iff, ne_eq, Scalar.Exact.le_iff, not_le]
  constructor
  · intro hneg
    obtain rfl | hm := Nat.eq_zero_or_pos m
    · exact absurd hneg (lt_irrefl 0)
    · obtain ⟨r, hr, hpivot⟩ := isPivot_pivot data c ⟨0, hm⟩
      exact ⟨r, hr, hpivot ▸ hneg⟩
  · rintro ⟨r, hr, hneg⟩
    obtain ⟨s, hs, hpivot⟩ := isPivot_pivot data c r
    rwa [hpivot, hs.unique hr]

omit [IsStrictOrderedRing α] in
/-- **Rows with a negative diagonal entry are flipped, and the columns that belong to them.** -/
theorem flipsAlong_positiveDiagonal (m n : Nat) (q r : Array α) :
    FlipsAlong (fun i => (Grid.ofArray n n r).matrix n n i i < 0)
      ((Grid.ofArray m n q).matrix m n)
      ((Grid.ofArray m n (positiveDiagonal m n q r).1).matrix m n)
      ((Grid.ofArray n n r).matrix n n)
      ((Grid.ofArray n n (positiveDiagonal m n q r).2).matrix n n) := by
  obtain ⟨hq, hr⟩ := matrix_positiveDiagonal m n q r
  rw [hq, hr]
  exact flipsAlong_diagonal (negativeDiagonal_iff r) _ _

/-- **Columns with a negative pivot are flipped, and the rows that belong to them.** -/
theorem flipsAlong_positivePivots (m k n : Nat) (columns rows : Array α) :
    FlipsAlong (fun j => ∃ r, IsPivot (((Grid.ofArray m k columns).matrix m k).col j) r ∧
        (Grid.ofArray m k columns).matrix m k r j < 0)
      ((Grid.ofArray m k columns).matrix m k)
      ((Grid.ofArray m k (positivePivots m k columns)).matrix m k)
      ((Grid.ofArray k n rows).matrix k n)
      ((Grid.ofArray k n (alongPivots m k n columns rows)).matrix k n) := by
  rw [matrix_positivePivots, matrix_alongPivots]
  exact flipsAlong_diagonal (negativePivot_iff columns) _ _

/-! ## What is left -/

theorem diagonal_nonneg (m : Nat) (q r : Array α) (i : Fin n) :
    0 ≤ (Grid.ofArray n n (positiveDiagonal m n q r).2).matrix n n i i := by
  rw [(matrix_positiveDiagonal m n q r).2, diagonal_mul]
  exact diagonalSigns_mul_nonneg r i

/-- A column that has been flipped or left has the pivot where it was, and it is not negative. -/
theorem pivot_nonneg (columns : Array α) (j : Fin k) (i : Fin m) :
    ∃ r, IsPivot (((Grid.ofArray m k (positivePivots m k columns)).matrix m k).col j) r ∧
      0 ≤ (Grid.ofArray m k (positivePivots m k columns)).matrix m k r j := by
  have hflips := flipsAlong_positivePivots m k 0 columns #[]
  obtain ⟨r, hr, -⟩ := isPivot_pivot columns j i
  refine ⟨r, ?_⟩
  by_cases hneg : (Grid.ofArray m k columns).matrix m k r j < 0
  · have hcol := hflips.col_neg ⟨r, hr, hneg⟩
    refine ⟨hcol ▸ hr.neg, ?_⟩
    rw [← col_apply (Grid.matrix m k _), hcol]
    exact (neg_pos.2 hneg).le
  · have hcol := hflips.col_pos fun ⟨s, hs, hs'⟩ => hneg (hr.unique hs ▸ hs')
    refine ⟨hcol ▸ hr, ?_⟩
    rw [← col_apply (Grid.matrix m k _), hcol]
    exact not_lt.1 hneg

/-- Nothing is left to flip of a diagonal. -/
theorem positiveDiagonal_positiveDiagonal (m n : Nat) (q r : Array α) :
    positiveDiagonal m n (positiveDiagonal m n q r).1 (positiveDiagonal m n q r).2 =
      positiveDiagonal m n q r := by
  have hdone : ∀ i < n, negativeDiagonal n (positiveDiagonal m n q r).2 i = false := by
    intro i hi
    rw [Bool.eq_false_iff, ne_eq, negativeDiagonal_iff _ ⟨i, hi⟩, not_lt]
    exact diagonal_nonneg m q r ⟨i, hi⟩
  exact Prod.ext (negateAt_of_done (fun _ => Grid.col_lt) hdone)
    (negateAt_of_done (fun _ => Grid.row_lt) hdone)

theorem negativePivot_positivePivots (columns : Array α) :
    ∀ j < k, negativePivot m k (positivePivots m k columns) j = false := by
  intro j hj
  rw [Bool.eq_false_iff, ne_eq, negativePivot_iff _ ⟨j, hj⟩]
  rintro ⟨r, hr, hneg⟩
  obtain ⟨s, hs, hpos⟩ := pivot_nonneg columns ⟨j, hj⟩ r
  exact (hr.unique hs ▸ hneg).not_ge hpos

/-- Nothing is left to flip of the pivots. -/
theorem positivePivots_positivePivots (m k : Nat) (columns : Array α) :
    positivePivots m k (positivePivots m k columns) = positivePivots m k columns :=
  negateAt_of_done (fun _ => Grid.col_lt) (negativePivot_positivePivots columns)

theorem alongPivots_positivePivots (m k n : Nat) (columns rows : Array α) :
    alongPivots m k n (positivePivots m k columns) rows = rows :=
  negateAt_of_done (fun _ => Grid.row_lt) (negativePivot_positivePivots columns)

/-! ## Both conventions -/

/-- **Sign conventions change signs only and keep products.** For numbers with exact comparisons and
payloads of all sizes. Of factors `Q` and `R` just the rows of `R` with a negative diagonal entry
are flipped along with their columns of `Q`; of columns and the rows that belong to them just those
with a negative first entry of greatest magnitude. The products stay, for columns and rows also
with a diagonal matrix between them, no magnitude changes, the entries that decide are no longer
negative, and there is nothing left to flip. -/
theorem flips_conserve (m n k : Nat) :
    (∀ q r : Array α,
      let s := positiveDiagonal m n q r
      let Q := (Grid.ofArray m n q).matrix m n
      let R := (Grid.ofArray n n r).matrix n n
      let Q' := (Grid.ofArray m n s.1).matrix m n
      let R' := (Grid.ofArray n n s.2).matrix n n
      Q' * R' = Q * R ∧ (∀ i, 0 ≤ R' i i) ∧ FlipsAlong (fun i => R i i < 0) Q Q' R R' ∧
        SameMagnitudes q s.1 ∧ SameMagnitudes r s.2 ∧ positiveDiagonal m n s.1 s.2 = s) ∧
    ∀ columns rows : Array α,
      let columns' := positivePivots m k columns
      let rows' := alongPivots m k n columns rows
      let C := (Grid.ofArray m k columns).matrix m k
      let R := (Grid.ofArray k n rows).matrix k n
      let C' := (Grid.ofArray m k columns').matrix m k
      let R' := (Grid.ofArray k n rows').matrix k n
      (∀ d : Fin k → α, C' * diagonal d * R' = C * diagonal d * R) ∧
        (∀ (j : Fin k) (_ : Fin m), ∃ i, IsPivot (C'.col j) i ∧ 0 ≤ C' i j) ∧
        FlipsAlong (fun j => ∃ i, IsPivot (C.col j) i ∧ C i j < 0) C C' R R' ∧
        SameMagnitudes columns columns' ∧ SameMagnitudes rows rows' ∧
        positivePivots m k columns' = columns' ∧ alongPivots m k n columns' rows' = rows' := by
  refine ⟨fun q r => ?_, fun columns rows => ?_⟩
  · have hflips := flipsAlong_positiveDiagonal m n q r
    exact ⟨hflips.mul, diagonal_nonneg m q r, hflips, sameMagnitudes_negateAt _ _,
      sameMagnitudes_negateAt _ _, positiveDiagonal_positiveDiagonal m n q r⟩
  · have hflips := flipsAlong_positivePivots m k n columns rows
    exact ⟨hflips.mul_diagonal_mul, pivot_nonneg columns, hflips, sameMagnitudes_negateAt _ _,
      sameMagnitudes_negateAt _ _, positivePivots_positivePivots m k columns,
      alongPivots_positivePivots m k n columns _⟩

end Order

/-- A factor with one negative diagonal entry, and a column with two entries of greatest magnitude,
the first of them negative. -/
theorem flips_conserve_two :
    let q : Array ℝ := #[1, 2, 3, 4]
    let r : Array ℝ := #[-1, 5, 0, 6]
    let s := positiveDiagonal 2 2 q r
    let columns : Array ℝ := #[-2, 2]
    let rows : Array ℝ := #[5, -7]
    (s.1.getD 2 0 = -3 ∧ s.2.getD 1 0 = -5 ∧ s.1.getD 3 0 = 4 ∧ s.2.getD 3 0 = 6 ∧
      (Grid.ofArray 2 2 s.1).matrix 2 2 * (Grid.ofArray 2 2 s.2).matrix 2 2 =
        (Grid.ofArray 2 2 q).matrix 2 2 * (Grid.ofArray 2 2 r).matrix 2 2 ∧
      positiveDiagonal 2 2 s.1 s.2 = s) ∧
    (positivePivots 2 1 columns).getD 1 0 = -2 ∧
      (alongPivots 2 1 2 columns rows).getD 1 0 = 7 := by
  intro q r s columns rows
  obtain ⟨hdiag, hpivots⟩ := flips_conserve (α := ℝ) 2 2 1
  obtain ⟨hmul, -, hflips, -, -, hdone⟩ := hdiag q r
  obtain ⟨-, -, hpivot, -⟩ := hpivots columns rows
  have hnegative : (Grid.ofArray 2 2 r).matrix 2 2 0 0 < 0 := by
    change (-1 : ℝ) < 0
    norm_num
  have hpositive : ¬ (Grid.ofArray 2 2 r).matrix 2 2 1 1 < 0 := by
    change ¬ (6 : ℝ) < 0
    norm_num
  have hfirst : IsPivot (((Grid.ofArray 2 1 columns).matrix 2 1).col 0) 0 := by
    refine ⟨fun i => ?_, fun i hi => absurd hi (Fin.not_lt_zero i)⟩
    fin_cases i
    · exact le_rfl
    · change |(2 : ℝ)| ≤ |-2|
      norm_num
  have hfirst' : (Grid.ofArray 2 1 columns).matrix 2 1 0 0 < 0 := by
    change (-2 : ℝ) < 0
    norm_num
  refine ⟨⟨congrFun (hflips.col_neg hnegative) 1, congrFun (hflips.row_neg hnegative) 1,
    congrFun (hflips.col_pos hpositive) 1, congrFun (hflips.row_pos hpositive) 1, hmul, hdone⟩,
    congrFun (hpivot.col_neg ⟨0, hfirst, hfirst'⟩) 1, ?_⟩
  exact (congrFun (hpivot.row_neg ⟨0, hfirst, hfirst'⟩) 1).trans (neg_neg 7)

end MemoFlow.Signs
