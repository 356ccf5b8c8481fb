import Mathlib.Data.List.GetD
import MemoFlow.Proofs.Bounds.Loops

/-!
# Factors of matrices with checked places

* `Guarded.cholesky`, `Guarded.lu`, `Guarded.qr`: the loops of the factorisations with checked
  places; `Guarded.permutation` writes the ones of a permutation matrix where they belong;
* `Guarded.positiveDiagonal`, `Guarded.positivePivots`, `Guarded.alongPivots`: signs;
* `Guarded.cholesky_eq`, `Guarded.lu_eq`, `Guarded.qr_eq`: on matrices that fit their payload they
  are the factorisations.
-/

namespace MemoFlow.Guarded

variable {α : Type} [Arith α]

/-! ## Signs -/

@[simp] theorem size_negateAt (chosen : Nat → Bool) (data : Array α) :
    (Signs.negateAt chosen data).size = data.size := by simp [Signs.negateAt]

/-- Negate the chosen entries of a payload. -/
def negateAt (n : Nat) (flip : Nat → Guarded Bool) (data : Array α) : Guarded (Array α) :=
  revise n (fun p => do
    if ← flip p then .ok (some (-(← read data p))) else .ok none) data

theorem negateAt_eq {n : Nat} {flip : Nat → Guarded Bool} {chosen : Nat → Bool} {data : Array α}
    (hn : data.size = n) (h : ∀ p < n, flip p = .ok (chosen p)) :
    negateAt n flip data = .ok (Signs.negateAt chosen data) := by
  refine revise_eq hn (by simp [Signs.negateAt, hn]) fun p hp => ?_
  rw [h p hp, Signs.negateAt, Array.getElem?_mapIdx, Array.getElem?_eq_getElem (hn ▸ hp)]
  cases hc : chosen p with
  | true =>
    right
    change (do .ok (some (-(← read data p))) : Guarded (Option α)) = _
    rw [read, dif_pos (hn ▸ hp)]
    simp
    rfl
  | false => exact .inl ⟨rfl, by simp⟩

section Signs

variable [Scalar α]

/-- Whether a diagonal entry is negative. -/
def negativeDiagonal (n : Nat) (r : Array α) (i : Nat) : Guarded Bool := do
  .ok (!Scalar.le 0 (← read r (i * n + i)))

/-- Negate the columns of one factor and the rows of the other where the diagonal is negative. -/
def positiveDiagonal (m n : Nat) (q r : Array α) : Guarded (Array α × Array α) := do
  let q' ← negateAt (m * n) (fun p => negativeDiagonal n r (p % n)) q
  let r' ← negateAt (n * n) (fun p => negativeDiagonal n r (p / n)) r
  .ok (q', r')

/-- The entry of largest magnitude in a column, the first of them. -/
def pivot (m k : Nat) (data : Array α) (c : Nat) : Guarded α :=
  (List.range m).foldlM (fun best i => do
    let x ← read data (i * k + c)
    .ok (if Scalar.lt (Scalar.abs best) (Scalar.abs x) then x else best)) 0

/-- Whether the pivot of a column is negative. -/
def negativePivot (m k : Nat) (data : Array α) (c : Nat) : Guarded Bool := do
  .ok (!Scalar.le 0 (← pivot m k data c))

/-- Negate the columns whose pivots are negative. -/
def positivePivots (m k : Nat) (columns : Array α) : Guarded (Array α) :=
  negateAt (m * k) (fun p => negativePivot m k columns (p % k)) columns

/-- Negate the rows that belong to columns whose pivots are negative. -/
def alongPivots (m k n : Nat) (columns rows : Array α) : Guarded (Array α) :=
  negateAt (k * n) (fun p => negativePivot m k columns (p / n)) rows

theorem positiveDiagonal_eq {m n : Nat} {q r : Array α} (hq : q.size = m * n)
    (hr : r.size = n * n) : positiveDiagonal m n q r = .ok (Signs.positiveDiagonal m n q r) := by
  have hdiag : ∀ i < n, negativeDiagonal n r i = .ok (Signs.negativeDiagonal n r i) := by
    intro i hi
    rw [negativeDiagonal, read_eq (hr ▸ Grid.place_lt hi hi) 0]
    rfl
  have hcolumns : ∀ p < m * n, negativeDiagonal n r (p % n) =
      .ok (p < m * n && Signs.negativeDiagonal n r (p % n)) := fun p hp => by
    rw [hdiag _ (Grid.col_lt hp), decide_eq_true hp, Bool.true_and]
  have hrows : ∀ p < n * n, negativeDiagonal n r (p / n) =
      .ok (p < n * n && Signs.negativeDiagonal n r (p / n)) := fun p hp => by
    rw [hdiag _ (Grid.row_lt hp), decide_eq_true hp, Bool.true_and]
  unfold positiveDiagonal
  rw [negateAt_eq hq hcolumns, negateAt_eq hr hrows]
  rfl

theorem negativePivot_eq {m k : Nat} {data : Array α} (h : data.size = m * k) {c : Nat}
    (hc : c < k) : negativePivot m k data c = .ok (Signs.negativePivot m k data c) := by
  have hpivot : pivot m k data c = .ok (Signs.pivot m k data c) := by
    refine foldlM_eq _ fun best i hi => ?_
    rw [read_eq (h ▸ Grid.place_lt (List.mem_range.1 hi) hc) 0]
    rfl
  rw [negativePivot, hpivot]
  rfl

theorem positivePivots_eq {m k : Nat} {columns : Array α} (h : columns.size = m * k) :
    positivePivots m k columns = .ok (Signs.positivePivots m k columns) :=
  negateAt_eq h fun p hp => by
    rw [negativePivot_eq h (Grid.col_lt hp), decide_eq_true hp, Bool.true_and]

theorem alongPivots_eq {m k n : Nat} {columns rows : Array α} (h : columns.size = m * k)
    (hr : rows.size = k * n) :
    alongPivots m k n columns rows = .ok (Signs.alongPivots m k n columns rows) :=
  negateAt_eq hr fun p hp => by
    rw [negativePivot_eq h (Grid.row_lt hp), decide_eq_true hp, Bool.true_and]

end Signs

/-! ## Symmetric matrices -/

/-- What is left of an entry after the products with the columns that are done. -/
def residue (l : Grid α) (x : α) (i j : Nat) : Guarded α :=
  (List.range j).foldlM (fun s p => do .ok (s - (← l.cell i p) * (← l.cell j p))) x

theorem residue_eq {l : Grid α} {n : Nat} (hl : l.Fits n n) (x : α) {i j : Nat} (hi : i < n)
    (hj : j < n) : residue l x i j = .ok (Cholesky.residue l x i j) := by
  refine foldlM_eq _ fun s p hp => ?_
  have hp' : p < n := (List.mem_range.1 hp).trans hj
  rw [Grid.cell_eq hl hi hp', Grid.cell_eq hl hj hp']
  rfl

section Cholesky

variable [Scalar α]

/-- One column of the factor; it fails where the square of the diagonal entry is not positive. -/
def choleskyColumn (n : Nat) (a l : Grid α) (j : Nat) : Guarded (Grid α) := do
  let d ← residue l (← a.cell j j) j j
  if Scalar.lt 0 d then
    let root := Scalar.sqrt d
    l.revise n n fun i c =>
      if c = j ∧ i = j then .ok (some root)
      else if c = j ∧ j < i then do .ok (some ((← residue l (← a.cell i j) i j) / root))
      else .ok none
  else .error (.fails (.refused .notPositiveDefinite))

/-- The factor, column by column. -/
def cholesky (n : Nat) (a : Grid α) : Guarded (Grid α) :=
  (List.range n).foldlM (choleskyColumn n a) (.zeros n n)

theorem choleskyColumn_eq {n : Nat} {a l : Grid α} (ha : a.Fits n n) (hl : l.Fits n n) {j : Nat}
    (hj : j < n) : choleskyColumn n a l j =
      ofOption (.refused .notPositiveDefinite) (Cholesky.column n a l j) := by
  unfold choleskyColumn Cholesky.column
  rw [Grid.cell_eq ha hj hj, ok_bind, residue_eq hl _ hj hj, ok_bind]
  dsimp only
  by_cases hd : Scalar.lt 0 (Cholesky.residue l (a.entry j j) j j) = true
  · rw [if_pos hd, if_pos hd]
    refine Grid.revise_eq hl fun i hi c hc => ?_
    by_cases h1 : c = j ∧ i = j
    · simp [h1]
    · by_cases h2 : c = j ∧ j < i
      · right
        rw [if_neg h1, if_neg h1, if_pos h2, if_pos h2, Grid.cell_eq ha hi hj, ok_bind,
          residue_eq hl _ hi hj]
        rfl
      · left
        rw [if_neg h1, if_neg h1, if_neg h2, if_neg h2]
        exact ⟨rfl, rfl⟩
  · rw [if_neg hd, if_neg hd]
    rfl

/-- **The lower factor is found inside the payloads**, or the matrix is refused. -/
theorem cholesky_eq {n : Nat} {a : Grid α} (ha : a.Fits n n) (hn : n * n < 2 ^ 64) :
    cholesky n a = ofOption (.refused .notPositiveDefinite) (Cholesky.factor? n a) ∧
      ∀ l, Cholesky.factor? n a = some l → l.Fits n n := by
  rw [cholesky, Cholesky.factor?, ← Grid.zeros_eq hn]
  refine foldlM_ofOption (P := fun l : Grid α => l.Fits n n) (Grid.fits_zeros hn) ?_
  intro l hl j hj
  refine ⟨choleskyColumn_eq ha hl (List.mem_range.1 hj), fun l' hl' => ?_⟩
  rw [Cholesky.column] at hl'
  obtain ⟨-, h⟩ := Option.ite_none_right_eq_some.1 hl'
  obtain rfl := Option.some.inj h
  exact Grid.fits_tabulate _ _ _

end Cholesky

/-! ## Elimination with row exchanges -/

section Lu

variable [Scalar α]

/-- The row of the largest entry in a column from the diagonal down, the first of them. -/
def pivotRow (n k : Nat) (w : Grid α) : Guarded Nat :=
  (List.range' (k + 1) (n - (k + 1))).foldlM (fun best i => do
    let x ← w.cell best k
    let y ← w.cell i k
    .ok (if Scalar.lt (Scalar.abs x) (Scalar.abs y) then i else best)) k

/-- Exchange two rows. -/
def exchange (n a b : Nat) (w : Grid α) : Guarded (Grid α) :=
  w.revise n n fun i j =>
    if i = a ∨ i = b then do .ok (some (← w.cell (Lu.swapIndex a b i) j)) else .ok none

/-- Take multiples of the pivot row from the rows below, and keep the factors in the column. -/
def eliminate (n k : Nat) (w : Grid α) : Guarded (Grid α) := do
  let d ← w.cell k k
  w.revise n n fun i j =>
    if i ≤ k ∨ j < k then .ok none
    else do
      let factor := (← w.cell i k) / d
      if j = k then .ok (some factor)
      else .ok (some ((← w.cell i j) - factor * (← w.cell k j)))

/-- Clear a column, unless its pivot is zero. -/
def clear (n k : Nat) (w : Grid α) : Guarded (Grid α) := do
  let d ← w.cell k k
  if Scalar.eq d 0 then .ok w else eliminate n k w

/-- One column: the pivot row is chosen and exchanged, and the column is cleared. -/
def luStep (n : Nat) (s : List Nat × Grid α) (k : Nat) : Guarded (List Nat × Grid α) := do
  let p ← pivotRow n k s.2
  if p ≠ k then
    let w ← exchange n k p s.2
    let perm ← (List.range n).mapM fun i => read s.1.toArray (Lu.swapIndex k p i)
    .ok (perm, ← clear n k w)
  else .ok (s.1, ← clear n k s.2)

/-- The elimination, column by column, with the rows in their order. -/
def lu (n : Nat) (w : Grid α) : Guarded (List Nat × Grid α) :=
  (List.range n).foldlM (luStep n) (List.range n, w)

/-- The lower factor, with ones on its diagonal. -/
def lower (n : Nat) (w : Grid α) : Guarded (Grid α) :=
  (Grid.zeros n n).revise n n fun i j =>
    if j < i then do .ok (some (← w.cell i j)) else if i = j then .ok (some 1) else .ok none

/-- The upper factor. -/
def upper (n : Nat) (w : Grid α) : Guarded (Grid α) :=
  (Grid.zeros n n).revise n n fun i j =>
    if j < i then .ok none else do .ok (some (← w.cell i j))

/-- Write one entry for each column, in the row that the permutation gives. -/
def permutation (perm : List Nat) : Guarded (Grid α) := do
  let n := perm.length
  let data ← (List.range n).foldlM (fun ys i => do
    put ys ((← read perm.toArray i) * n + i) (some 1)) (zeros (n * n))
  .ok ⟨n, n, data⟩

variable {n : Nat}

theorem pivotRow_eq {w : Grid α} (hw : w.Fits n n) {k : Nat} (hk : k < n) :
    pivotRow n k w = .ok (Lu.pivotRow n k w) ∧ Lu.pivotRow n k w < n := by
  refine foldlM_eq_of (P := fun best => best < n) hk fun best hb i hi => ?_
  obtain ⟨h1, h2⟩ := List.mem_range'_1.1 hi
  have hin : i < n := by omega
  rw [Grid.cell_eq hw hb hk, Grid.cell_eq hw hin hk]
  refine ⟨rfl, ?_⟩
  split
  · exact hin
  · exact hb

theorem swapIndex_lt {a b i : Nat} (ha : a < n) (hb : b < n) (hi : i < n) :
    Lu.swapIndex a b i < n := by
  unfold Lu.swapIndex
  split
  · exact hb
  · split
    · exact ha
    · exact hi

omit [Scalar α] in
theorem exchange_eq {w : Grid α} (hw : w.Fits n n) {a b : Nat} (ha : a < n) (hb : b < n) :
    exchange n a b w = .ok (Lu.exchange n a b w) := by
  refine Grid.revise_eq hw fun i hi j hj => ?_
  by_cases h : i = a ∨ i = b
  · right
    rw [if_pos h, Grid.cell_eq hw (swapIndex_lt ha hb hi) hj]
    rfl
  · left
    obtain ⟨h1, h2⟩ := not_or.1 h
    rw [if_neg h, Lu.swapIndex, if_neg h1, if_neg h2]
    exact ⟨rfl, rfl⟩

omit [Scalar α] in
theorem eliminate_eq {w : Grid α} (hw : w.Fits n n) {k : Nat} (hk : k < n) :
    eliminate n k w = .ok (Lu.eliminate n k w) := by
  unfold eliminate Lu.eliminate
  rw [Grid.cell_eq hw hk hk, ok_bind]
  refine Grid.revise_eq hw fun i hi j hj => ?_
  by_cases h : i ≤ k ∨ j < k
  · simp [h]
  · right
    rw [if_neg h, if_neg h, Grid.cell_eq hw hi hk, ok_bind, Grid.cell_eq hw hi hj,
      Grid.cell_eq hw hk hj]
    by_cases hjk : j = k
    · rw [if_pos hjk, if_pos hjk]
    · rw [if_neg hjk, if_neg hjk]
      rfl

theorem clear_eq {w : Grid α} (hw : w.Fits n n) {k : Nat} (hk : k < n) :
    clear n k w = .ok (if Scalar.eq (w.entry k k) 0 then w else Lu.eliminate n k w) ∧
      (if Scalar.eq (w.entry k k) 0 then w else Lu.eliminate n k w).Fits n n := by
  rw [clear, Grid.cell_eq hw hk hk, ok_bind, eliminate_eq hw hk]
  split
  · exact ⟨rfl, hw⟩
  · refine ⟨rfl, ?_⟩
    unfold Lu.eliminate
    exact Grid.fits_tabulate _ _ _

/-- The order of the rows lists rows, and the matrix stays in its payload. -/
structure InOrder (n : Nat) (s : List Nat × Grid α) : Prop where
  length : s.1.length = n
  rows : ∀ i ∈ s.1, i < n
  fits : s.2.Fits n n

theorem luStep_eq {s : List Nat × Grid α} (hs : InOrder n s) {k : Nat} (hk : k < n) :
    luStep n s k = .ok (Lu.step n s k) ∧ InOrder n (Lu.step n s k) := by
  obtain ⟨perm, w⟩ := s
  obtain ⟨hlen, hrows, hw⟩ := hs
  dsimp only at hlen hrows hw
  obtain ⟨hp, hlt⟩ := pivotRow_eq hw hk
  unfold luStep Lu.step
  dsimp only
  rw [hp, ok_bind]
  by_cases hpk : Lu.pivotRow n k w ≠ k
  · have hperm : (List.range n).mapM
        (fun i => read perm.toArray (Lu.swapIndex k (Lu.pivotRow n k w) i)) =
        .ok ((List.range n).map fun i => perm.getD (Lu.swapIndex k (Lu.pivotRow n k w) i) 0) :=
      mapM_eq fun i hi => by
        rw [read_eq (by simp [hlen, swapIndex_lt hk hlt (List.mem_range.1 hi)]) 0]
        simp
    obtain ⟨hclear, hfits⟩ := clear_eq (w := Lu.exchange n k (Lu.pivotRow n k w) w)
      (Grid.fits_tabulate _ _ _) hk
    rw [if_pos hpk, if_pos hpk, if_pos hpk, exchange_eq hw hk hlt, ok_bind, hperm, ok_bind, hclear]
    refine ⟨rfl, by simp, fun i hi => ?_, hfits⟩
    obtain ⟨j, hj, rfl⟩ := List.mem_map.1 hi
    have hj' : Lu.swapIndex k (Lu.pivotRow n k w) j < perm.length :=
      hlen.symm ▸ swapIndex_lt hk hlt (List.mem_range.1 hj)
    rw [List.getD_eq_getElem _ _ hj']
    exact hrows _ (List.getElem_mem hj')
  · obtain ⟨hclear, hfits⟩ := clear_eq hw hk
    rw [if_neg hpk, if_neg hpk, if_neg hpk, hclear]
    exact ⟨rfl, hlen, hrows, hfits⟩

/-- **The elimination stays inside the payloads.** -/
theorem lu_eq {w : Grid α} (hw : w.Fits n n) :
    lu n w = .ok (Lu.factor n w) ∧ InOrder n (Lu.factor n w) :=
  foldlM_eq_of (P := InOrder n) ⟨by simp, by simp, hw⟩ fun _ hs _ hk =>
    luStep_eq hs (List.mem_range.1 hk)

omit [Scalar α] in
theorem fits_lower (n : Nat) (w : Grid α) : (Lu.lower n w).Fits n n := by
  unfold Lu.lower
  exact Grid.fits_tabulate _ _ _

omit [Scalar α] in
theorem fits_upper (n : Nat) (w : Grid α) : (Lu.upper n w).Fits n n := by
  unfold Lu.upper
  exact Grid.fits_tabulate _ _ _

omit [Scalar α] in
theorem fits_permutation (perm : List Nat) :
    (Lu.permutation perm : Grid α).Fits perm.length perm.length := by
  unfold Lu.permutation
  exact Grid.fits_tabulate _ _ _

omit [Scalar α] in
theorem lower_eq {w : Grid α} (hw : w.Fits n n) (hn : n * n < 2 ^ 64) :
    lower n w = .ok (Lu.lower n w) := by
  refine Grid.revise_eq (Grid.fits_zeros hn) fun i hi j hj => ?_
  by_cases hji : j < i
  · rw [if_pos hji, if_pos hji, Grid.cell_eq hw hi hj]
    exact .inr rfl
  · by_cases hij : i = j
    · simp [hij]
    · simp [hji, hij, Grid.entry_zeros]

omit [Scalar α] in
theorem upper_eq {w : Grid α} (hw : w.Fits n n) (hn : n * n < 2 ^ 64) :
    upper n w = .ok (Lu.upper n w) := by
  refine Grid.revise_eq (Grid.fits_zeros hn) fun i hi j hj => ?_
  by_cases hji : j < i
  · simp [hji, Grid.entry_zeros]
  · rw [if_neg hji, if_neg hji, Grid.cell_eq hw hi hj]
    exact .inr rfl

/-- Before column `k` there is one entry in each column, from it on there is none. -/
structure Placed (n : Nat) (perm : List Nat) (k : Nat) (ys : Array α) : Prop where
  size : ys.size = n * n
  entry : ∀ p (hp : p < ys.size),
    ys[p] = if p % n < k ∧ perm.getD (p % n) 0 = p / n then 1 else 0

omit [Scalar α] in
theorem Placed.next {perm : List Nat} {k : Nat} {ys : Array α} (h : Placed n perm k ys)
    (hk : k < n) : Placed n perm (k + 1) (ys.setIfInBounds (perm.getD k 0 * n + k) 1) := by
  refine ⟨by simp [h.size], fun p hp => ?_⟩
  have hp' : p < ys.size := by simpa using hp
  have hcol : p % n < n := Grid.col_lt (h.size ▸ hp')
  have hdiv := Nat.div_add_mod' p n
  rw [Array.getElem_setIfInBounds hp']
  by_cases he : perm.getD k 0 * n + k = p
  · have hmod : p % n = k := by rw [← he, Nat.mul_add_mod', Nat.mod_eq_of_lt hk]
    have hrow' : p / n = perm.getD k 0 := by
      rw [← he]
      exact Nat.div_eq_of_lt_le (Nat.le_add_right _ _) (by rw [Nat.succ_mul]; omega)
    rw [if_pos he, if_pos ⟨by omega, by rw [hmod, hrow']⟩]
  · rw [if_neg he, h.entry p hp']
    refine if_congr ⟨fun h => ⟨by omega, h.2⟩, fun h => ⟨?_, h.2⟩⟩ rfl rfl
    by_contra hge
    have hmod : p % n = k := by omega
    rw [hmod] at h hdiv
    exact he (by rw [h.2, hdiv])

omit [Scalar α] in
/-- **A permutation matrix is written inside its payload**, as its order lists rows alone. -/
theorem permutation_eq {perm : List Nat} (hrows : ∀ i ∈ perm, i < perm.length)
    (hn : perm.length * perm.length < 2 ^ 64) :
    (permutation perm : Guarded (Grid α)) = .ok (Lu.permutation perm) := by
  unfold permutation Lu.permutation
  generalize hlen : perm.length = n at hrows hn
  dsimp only
  have hloop : ∃ ys, (List.range n).foldlM (fun ys i => do
      put ys ((← read perm.toArray i) * n + i) (some 1)) (zeros (n * n)) =
      (.ok ys : Guarded (Array α)) ∧ Placed n perm n ys := by
    refine foldlM_range ⟨size_zeros hn, fun p hp => by simp [zeros]⟩ fun i hi ys hys => ?_
    have hi' : i < perm.toArray.size := by simpa [hlen] using hi
    have hrow : perm.getD i 0 < n := by
      rw [List.getD_eq_getElem _ _ (by simpa using hi')]
      exact hrows _ (List.getElem_mem _)
    have hread : read perm.toArray i = .ok (perm.getD i 0) := by
      rw [read_eq hi' 0]
      simp
    rw [hread]
    exact ⟨_, if_pos (hys.size.symm ▸ Grid.place_lt hrow hi), hys.next hi⟩
  obtain ⟨ys, hrun, hsize, hys⟩ := hloop
  rw [hrun, ok_bind, Grid.tabulate]
  congr 2
  refine Array.ext (by rw [hsize, Array.size_ofFn]) fun p hp hp' => ?_
  rw [hys p hp, Array.getElem_ofFn]
  exact if_congr (and_iff_right (Grid.col_lt (hsize ▸ hp))) rfl rfl

end Lu

/-! ## Reflections to triangular form -/

section Qr

variable [Scalar α]

/-- The vector of the reflection that clears a column; none for a column of zeros. -/
def reflector (m k : Nat) (w : Grid α) : Guarded (Option (Array α)) := do
  let xs ← (List.range' k (m - k)).mapM fun i => w.cell i k
  let r := Qr.norm xs
  if Scalar.eq r 0 then .ok none
  else
    match xs with
    | [] => .error .outside
    | x :: rest =>
      let v := (x - if Scalar.le 0 x then -r else r) :: rest
      let s := Qr.norm v
      .ok (if Scalar.eq s 0 then none else some (v.map (· / s)).toArray)

/-- Reflect the columns from `start` on, in the rows from `k` on. -/
def reflect (m n k start : Nat) (v : Array α) (w : Grid α) : Guarded (Grid α) := do
  let dots ← (List.range n).mapM fun j => (List.range' k (m - k)).foldlM (fun s i => do
    .ok (s + (← read v (i - k)) * (← w.cell i j))) 0
  w.revise m n fun i j =>
    if i < k ∨ j < start then .ok none
    else do
      .ok (some ((← w.cell i j) -
        Scalar.two * (← read v (i - k)) * (← read dots.toArray j)))

/-- One column: its reflector, and the reflection of the columns from it on. -/
def qrStep (m n : Nat) (s : Grid α × List (Option (Array α))) (k : Nat) :
    Guarded (Grid α × List (Option (Array α))) := do
  match ← reflector m k s.1 with
  | none => .ok (s.1, s.2 ++ [none])
  | some v => .ok (← reflect m n k k v s.1, s.2 ++ [some v])

/-- Ones on the diagonal of a matrix of zeros. -/
def diagonal (m n : Nat) : Guarded (Grid α) :=
  (Grid.zeros m n).revise m n fun i j => .ok (if i = j then some 1 else none)

/-- The orthogonal factor: the reflections in turn, the last one first. -/
def orthogonal (m n : Nat) (vs : List (Option (Array α))) : Guarded (Grid α) := do
  let q ← diagonal m n
  (vs.zipIdx.reverse).foldlM (fun q p =>
    match p.1 with
    | none => .ok q
    | some v => reflect m n p.2 0 v q) q

/-- All reflections, and what they leave of the matrix. -/
def triangularise (m n : Nat) (w : Grid α) : Guarded (Grid α × List (Option (Array α))) :=
  (List.range n).foldlM (qrStep m n) (w, [])

/-- Both factors, with no negative diagonal entry. -/
def qr (m n : Nat) (w : Grid α) : Guarded (Array α × Array α) := do
  let s ← triangularise m n w
  let r ← (Grid.zeros n n).revise n n fun i j =>
    if i ≤ j then do .ok (some (← s.1.cell i j)) else .ok none
  let q ← orthogonal m n s.2
  positiveDiagonal m n q.data r.data

variable {m n : Nat}

theorem reflector_eq {w : Grid α} (hw : w.Fits m n) {k : Nat} (hk : k < n) (hkm : k < m) :
    reflector m k w = .ok (Qr.reflector m k w) := by
  have hxs : (List.range' k (m - k)).mapM (fun i => w.cell i k) =
      .ok ((List.range' k (m - k)).map fun i => w.entry i k) := mapM_eq fun i hi => by
    have hi' := List.mem_range'_1.1 hi
    exact Grid.cell_eq hw (by omega) hk
  obtain ⟨c, hc⟩ : ∃ c, m - k = c + 1 := ⟨m - k - 1, by omega⟩
  unfold reflector Qr.reflector
  rw [hxs, ok_bind, hc, List.range'_succ, List.map_cons]
  dsimp only [List.headD_cons]
  split <;> rfl

theorem size_reflector {w : Grid α} {k : Nat} {v : Array α} (h : Qr.reflector m k w = some v) :
    v.size = m - k := by
  unfold Qr.reflector at h
  dsimp only at h
  split at h
  · exact nomatch h
  · obtain ⟨-, h⟩ := Option.ite_none_left_eq_some.1 h
    obtain rfl := Option.some.inj h
    cases hxs : (List.range' k (m - k)).map fun i => w.entry i k with
    | nil => simpa using (congrArg List.length hxs).symm
    | cons x rest => simpa using (congrArg List.length hxs).symm

omit [Scalar α] in
theorem reflect_eq {w : Grid α} (hw : w.Fits m n) {k : Nat} (start : Nat) {v : Array α}
    (hv : v.size = m - k) : reflect m n k start v w = .ok (Qr.reflect m n k start v w) := by
  have hdots : (List.range n).mapM (fun j => (List.range' k (m - k)).foldlM (fun s i => do
      .ok (s + (← read v (i - k)) * (← w.cell i j))) 0) =
      .ok ((List.range n).map fun j => (List.range' k (m - k)).foldl
        (fun s i => s + v.getD (i - k) 0 * w.entry i j) 0) :=
    mapM_eq fun j hj => foldlM_eq _ fun s i hi => by
      have hi' := List.mem_range'_1.1 hi
      rw [read_eq (by omega) 0, Grid.cell_eq hw (by omega) (List.mem_range.1 hj)]
      rfl
  unfold reflect Qr.reflect
  rw [hdots, ok_bind]
  refine Grid.revise_eq hw fun i hi j hj => ?_
  by_cases h : i < k ∨ j < start
  · simp [h]
  · right
    rw [if_neg h, if_neg h, Grid.cell_eq hw hi hj, read_eq (by omega) 0,
      read_eq (by simpa using hj) 0]
    simp [hj]
    rfl

omit [Scalar α] in
theorem fits_reflect (k start : Nat) (v : Array α) (w : Grid α) :
    (Qr.reflect m n k start v w).Fits m n := by
  unfold Qr.reflect
  exact Grid.fits_tabulate _ _ _

/-- After `k` columns there are `k` reflectors, each one as long as its column from the diagonal
on. -/
structure Reflected (m n k : Nat) (s : Grid α × List (Option (Array α))) : Prop where
  fits : s.1.Fits m n
  length : s.2.length = k
  size : ∀ i v, s.2[i]? = some (some v) → v.size = m - i

omit [Arith α] [Scalar α] in
theorem Reflected.next {k : Nat} {s : Grid α × List (Option (Array α))} (hs : Reflected m n k s)
    {t : Grid α} (ht : t.Fits m n) {r : Option (Array α)} (hr : ∀ v, r = some v → v.size = m - k) :
    Reflected m n (k + 1) (t, s.2 ++ [r]) := by
  refine ⟨ht, by simp [hs.length], fun i v hi => ?_⟩
  rw [List.getElem?_append] at hi
  split at hi
  · exact hs.size i v hi
  · next hlt =>
    obtain ⟨h0, hv⟩ := List.getElem?_eq_some_iff.1 hi
    obtain rfl : i = k := by
      have hlen := hs.length
      simp at h0
      omega
    exact hr v (by simpa using hv)

theorem qrStep_eq {k : Nat} {s : Grid α × List (Option (Array α))} (hs : Reflected m n k s)
    (hk : k < n) (hkm : k < m) :
    qrStep m n s k = .ok (Qr.step m n s k) ∧ Reflected m n (k + 1) (Qr.step m n s k) := by
  unfold qrStep Qr.step
  rw [reflector_eq hs.fits hk hkm, ok_bind]
  cases hr : Qr.reflector m k s.1 with
  | none => exact ⟨rfl, hs.next hs.fits nofun⟩
  | some v =>
    have hv := size_reflector hr
    dsimp only
    rw [reflect_eq hs.fits k hv]
    exact ⟨rfl, hs.next (fits_reflect k k v s.1) fun v' hv' => Option.some.inj hv' ▸ hv⟩

theorem triangularise_eq {w : Grid α} (hw : w.Fits m n) (hnm : n ≤ m) :
    triangularise m n w = .ok (Qr.triangularise m n w) ∧
      Reflected m n n (Qr.triangularise m n w) :=
  foldlM_range_eq (P := Reflected m n) ⟨hw, rfl, by simp⟩ fun _ hk _ hs =>
    qrStep_eq hs hk (hk.trans_le hnm)

omit [Scalar α] in
theorem diagonal_eq (hmn : m * n < 2 ^ 64) :
    diagonal m n = .ok (.tabulate m n fun i j => if i = j then (1 : α) else 0) := by
  refine Grid.revise_eq (Grid.fits_zeros hmn) fun i hi j hj => ?_
  by_cases hij : i = j
  · simp [hij]
  · simp [hij, Grid.entry_zeros]

omit [Scalar α] in
theorem orthogonal_eq {vs : List (Option (Array α))} (hmn : m * n < 2 ^ 64)
    (hvs : ∀ i v, vs[i]? = some (some v) → v.size = m - i) :
    orthogonal m n vs = .ok (Qr.orthogonal m n vs) ∧ (Qr.orthogonal m n vs).Fits m n := by
  unfold orthogonal Qr.orthogonal
  rw [diagonal_eq hmn, ok_bind]
  refine foldlM_eq_of (P := fun q : Grid α => q.Fits m n) (Grid.fits_tabulate _ _ _) ?_
  rintro q hq ⟨r, i⟩ hp
  have hi := List.mem_zipIdx_iff_getElem?.1 (List.mem_reverse.1 hp)
  cases r with
  | none => exact ⟨rfl, hq⟩
  | some v => exact ⟨reflect_eq hq 0 (hvs i v hi), fits_reflect i 0 v q⟩

/-- **The reflections stay inside the payloads** of a matrix that has as many rows as columns. -/
theorem qr_eq {w : Grid α} (hw : w.Fits m n) (hnm : n ≤ m) (hmn : m * n < 2 ^ 64) :
    qr m n w = .ok (Qr.factor m n w) ∧ (Qr.factor m n w).1.size = m * n ∧
      (Qr.factor m n w).2.size = n * n := by
  have hnn : n * n < 2 ^ 64 := (Nat.mul_le_mul_right n hnm).trans_lt hmn
  obtain ⟨hrun, hfits, -, hsize⟩ := triangularise_eq hw hnm
  obtain ⟨hq, hqfits⟩ := orthogonal_eq hmn hsize
  unfold qr Qr.factor
  rw [hrun, ok_bind]
  generalize Qr.triangularise m n w = s at hfits hq hqfits
  have hr : (Grid.zeros n n).revise n n (fun i j =>
      if i ≤ j then do .ok (some (← s.1.cell i j)) else .ok none) =
      .ok (.tabulate n n fun i j => if i ≤ j then s.1.entry i j else 0) := by
    refine Grid.revise_eq (Grid.fits_zeros hnn) fun i hi j hj => ?_
    by_cases hij : i ≤ j
    · right
      rw [if_pos hij, if_pos hij, Grid.cell_eq hfits (hi.trans_le hnm) hj]
      rfl
    · simp [hij, Grid.entry_zeros]
  rw [hr, ok_bind, hq, ok_bind]
  refine ⟨positiveDiagonal_eq hqfits.size (by simp), ?_, ?_⟩
  · simp [Signs.positiveDiagonal, hqfits.size]
  · simp [Signs.positiveDiagonal]

end Qr

end MemoFlow.Guarded
