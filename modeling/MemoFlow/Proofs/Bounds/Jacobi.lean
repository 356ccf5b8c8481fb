import Mathlib.Data.List.Sort
import MemoFlow.Proofs.Bounds.Factor
import MemoFlow.Tensor.Native.Jacobi

/-!
# Jacobi rotations with checked places

* `Guarded.turnColumns`, `Guarded.turnRows`: a rotation with checked places;
* `Guarded.eigh`, `Guarded.svd`: the decompositions with checked places;
* `Jacobi.order_congr`, `Jacobi.mem_order`: the places of a list in order;
* **`Guarded.eigh_eq`**, **`Guarded.svd_eq`**: on matrices that fit their payload they are the
  decompositions, and where the iteration does not converge they fail.
-/

namespace MemoFlow

/-! ## Orders -/

namespace Jacobi

theorem mem_pairs {n : Nat} {pq : Nat × Nat} (h : pq ∈ pairs n) : pq.1 < n ∧ pq.2 < n := by
  obtain ⟨p, hp, hpq⟩ := List.mem_flatMap.1 h
  obtain ⟨q, hq, rfl⟩ := List.mem_map.1 hpq
  have hq' := List.mem_range'_1.1 hq
  have hp' := List.mem_range.1 hp
  dsimp only
  omega

theorem mem_order {n : Nat} {before : Nat → Nat → Bool} {i : Nat} :
    i ∈ order n before ↔ i < n := by
  rw [order, List.mem_mergeSort, List.mem_range]

theorem length_order (n : Nat) (before : Nat → Nat → Bool) : (order n before).length = n := by
  rw [order, List.length_mergeSort, List.length_range]

/-- An order depends on comparisons of the places alone. -/
theorem order_congr {n : Nat} {f g : Nat → Nat → Bool} (h : ∀ i < n, ∀ j < n, f i j = g i j) :
    order n f = order n g := by
  have hmap := List.map_mergeSort (r := fun i j => !f j i) (s := fun i j => !g j i) (f := id)
    (l := List.range n) fun i hi j hj => by
      rw [h j (List.mem_range.1 hj) i (List.mem_range.1 hi)]
      rfl
  simpa [order] using hmap

end Jacobi

namespace Guarded

variable {α : Type} [Arith α]

/-! ## Rotations -/

/-- Rotate two columns. -/
def turnColumns (m n p q : Nat) (c s : α) (w : Grid α) : Guarded (Grid α) :=
  w.revise m n fun i j =>
    if j = p then do .ok (some (c * (← w.cell i p) - s * (← w.cell i q)))
    else if j = q then do .ok (some (s * (← w.cell i p) + c * (← w.cell i q)))
    else .ok none

/-- Rotate two rows. -/
def turnRows (m n p q : Nat) (c s : α) (w : Grid α) : Guarded (Grid α) :=
  w.revise m n fun i j =>
    if i = p then do .ok (some (c * (← w.cell p j) - s * (← w.cell q j)))
    else if i = q then do .ok (some (s * (← w.cell p j) + c * (← w.cell q j)))
    else .ok none

variable {m n p q : Nat}

theorem turnColumns_eq {w : Grid α} (hw : w.Fits m n) (hp : p < n) (hq : q < n) (c s : α) :
    turnColumns m n p q c s w = .ok (Jacobi.turnColumns m n p q c s w) := by
  refine Grid.revise_eq hw fun i hi j hj => ?_
  rw [Grid.cell_eq hw hi hp, Grid.cell_eq hw hi hq]
  by_cases h1 : j = p
  · rw [if_pos h1, if_pos h1]
    exact .inr rfl
  · rw [if_neg h1, if_neg h1]
    by_cases h2 : j = q
    · rw [if_pos h2, if_pos h2]
      exact .inr rfl
    · rw [if_neg h2, if_neg h2]
      exact .inl ⟨rfl, rfl⟩

theorem turnRows_eq {w : Grid α} (hw : w.Fits m n) (hp : p < m) (hq : q < m) (c s : α) :
    turnRows m n p q c s w = .ok (Jacobi.turnRows m n p q c s w) := by
  refine Grid.revise_eq hw fun i hi j hj => ?_
  rw [Grid.cell_eq hw hp hj, Grid.cell_eq hw hq hj]
  by_cases h1 : i = p
  · rw [if_pos h1, if_pos h1]
    exact .inr rfl
  · rw [if_neg h1, if_neg h1]
    by_cases h2 : i = q
    · rw [if_pos h2, if_pos h2]
      exact .inr rfl
    · rw [if_neg h2, if_neg h2]
      exact .inl ⟨rfl, rfl⟩

theorem fits_turnColumns (c s : α) (w : Grid α) :
    (Jacobi.turnColumns m n p q c s w).Fits m n := by
  unfold Jacobi.turnColumns
  exact Grid.fits_tabulate _ _ _

theorem fits_turnRows (c s : α) (w : Grid α) : (Jacobi.turnRows m n p q c s w).Fits m n := by
  unfold Jacobi.turnRows
  exact Grid.fits_tabulate _ _ _

theorem fits_identity (n : Nat) : (Jacobi.identity n : Grid α).Fits n n := by
  unfold Jacobi.identity
  exact Grid.fits_tabulate _ _ _

theorem identity_eq (hn : n * n < 2 ^ 64) :
    (diagonal n n : Guarded (Grid α)) = .ok (Jacobi.identity n) := diagonal_eq hn

/-! ## Symmetric matrices -/

variable [Scalar α]

/-- The sum of the squares off the diagonal, and of all squares. -/
def squares (n : Nat) (w : Grid α) : Guarded (α × α) :=
  (List.range (n * n)).foldlM (fun s p => do
    let x ← w.cell (p / n) (p % n)
    let sq := x * x
    .ok (if p / n ≠ p % n then s.1 + sq else s.1, s.2 + sq)) (0, 0)

/-- Whether the entries off the diagonal are negligible. -/
def isDiagonal (n : Nat) (w : Grid α) : Guarded Bool := do
  let s ← squares n w
  .ok (Scalar.le s.1 (Scalar.epsilon * Scalar.epsilon * s.2))

/-- The cosine and the sine that clear an entry off the diagonal. -/
def eigenRotation (w : Grid α) (p q : Nat) : Guarded (α × α) := do
  let θ := ((← w.cell q q) - (← w.cell p p)) / (Scalar.two * (← w.cell p q))
  let t := Jacobi.signOf θ / (Scalar.abs θ + Scalar.sqrt (θ * θ + 1))
  let c := 1 / Scalar.sqrt (t * t + 1)
  .ok (c, t * c)

/-- Clear an entry off the diagonal, unless it is zero. -/
def eigenStep (n : Nat) (s : Grid α × Grid α) (pq : Nat × Nat) : Guarded (Grid α × Grid α) := do
  if Scalar.eq (← s.1.cell pq.1 pq.2) 0 then .ok s
  else
    let r ← eigenRotation s.1 pq.1 pq.2
    let w ← turnColumns n n pq.1 pq.2 r.1 r.2 s.1
    .ok (← turnRows n n pq.1 pq.2 r.1 r.2 w, ← turnColumns n n pq.1 pq.2 r.1 r.2 s.2)

/-- Sweeps until the matrix is diagonal, a failure when there are none left. -/
def eigenSweeps (e : OpFailure) (n : Nat) : Nat → Grid α × Grid α → Guarded (Grid α × Grid α)
  | 0, _ => .error (.fails e)
  | k + 1, s => do
    if ← isDiagonal n s.1 then .ok s
    else eigenSweeps e n k (← (Jacobi.pairs n).foldlM (eigenStep n) s)

/-- The eigenvalues in order and the vectors along, with the pivots positive. -/
def ordered (n : Nat) (s : Grid α × Grid α) : Guarded (Array α × Array α) := do
  let keys ← (List.range n).mapM fun i => s.1.cell i i
  let ord := Jacobi.order n fun i j => Scalar.lt (keys.getD i 0) (keys.getD j 0)
  let values ← ord.mapM fun i => s.1.cell i i
  let v ← Grid.build n n fun i j => do s.2.cell i (← read ord.toArray j)
  .ok (values.toArray, ← positivePivots n n v.data)

/-- The eigenvalues and vectors of a symmetric matrix. -/
def eigh (e : OpFailure) (n : Nat) (w : Grid α) : Guarded (Array α × Array α) := do
  ordered n (← eigenSweeps e n Jacobi.maxSweeps (w, ← diagonal n n))

theorem isDiagonal_eq {w : Grid α} (hw : w.Fits n n) :
    isDiagonal n w = .ok (Jacobi.isDiagonal n w) := by
  have hsquares : squares n w = .ok (Jacobi.squares n w) := foldlM_eq _ fun s p hp => by
    have hp' := List.mem_range.1 hp
    rw [Grid.cell_eq hw (Grid.row_lt hp') (Grid.col_lt hp')]
    rfl
  rw [isDiagonal, hsquares]
  rfl

theorem eigenRotation_eq {w : Grid α} (hw : w.Fits n n) (hp : p < n) (hq : q < n) :
    eigenRotation w p q = .ok (Jacobi.eigenRotation w p q) := by
  rw [eigenRotation, Grid.cell_eq hw hq hq, Grid.cell_eq hw hp hp, Grid.cell_eq hw hp hq]
  rfl

theorem eigenStep_eq {s : Grid α × Grid α} (hs : s.1.Fits n n ∧ s.2.Fits n n) {pq : Nat × Nat}
    (h : pq.1 < n ∧ pq.2 < n) :
    eigenStep n s pq = .ok (Jacobi.eigenStep n s pq) ∧
      (Jacobi.eigenStep n s pq).1.Fits n n ∧ (Jacobi.eigenStep n s pq).2.Fits n n := by
  unfold eigenStep Jacobi.eigenStep
  rw [Grid.cell_eq hs.1 h.1 h.2, ok_bind]
  dsimp only
  by_cases hz : Scalar.eq (s.1.entry pq.1 pq.2) 0 = true
  · rw [if_pos hz, if_pos hz]
    exact ⟨rfl, hs⟩
  · rw [if_neg hz, if_neg hz, eigenRotation_eq hs.1 h.1 h.2, ok_bind,
      turnColumns_eq hs.1 h.1 h.2, ok_bind, turnRows_eq (fits_turnColumns _ _ _) h.1 h.2, ok_bind,
      turnColumns_eq hs.2 h.1 h.2]
    exact ⟨rfl, fits_turnRows _ _ _, fits_turnColumns _ _ _⟩

theorem eigenSweeps_eq (e : OpFailure) (k : Nat) {s : Grid α × Grid α}
    (hs : s.1.Fits n n ∧ s.2.Fits n n) :
    eigenSweeps e n k s = ofOption e (Jacobi.eigenSweeps n k s) ∧
      ∀ s', Jacobi.eigenSweeps n k s = some s' → s'.1.Fits n n ∧ s'.2.Fits n n := by
  induction k generalizing s with
  | zero => exact ⟨rfl, nofun⟩
  | succ k ih =>
    obtain ⟨hrun, hfits⟩ := foldlM_eq_of (l := Jacobi.pairs n) (f := eigenStep n)
      (g := Jacobi.eigenStep n) (P := fun s => s.1.Fits n n ∧ s.2.Fits n n) hs
      fun s hs pq hpq => eigenStep_eq hs (Jacobi.mem_pairs hpq)
    rw [eigenSweeps, Jacobi.eigenSweeps, isDiagonal_eq hs.1, ok_bind]
    by_cases hd : Jacobi.isDiagonal n s.1 = true
    · rw [if_pos hd, if_pos hd]
      exact ⟨rfl, fun s' hs' => Option.some.inj hs' ▸ hs⟩
    · rw [if_neg hd, if_neg hd, hrun]
      exact ih hfits

theorem read_list {β : Type} {l : List β} {i : Nat} (hi : i < l.length) (d : β) :
    read l.toArray i = .ok (l.getD i d) := by
  rw [read_eq (by simpa using hi) d]
  simp [hi]

theorem getD_order_lt {before : Nat → Nat → Bool} {j : Nat} (hj : j < n) :
    (Jacobi.order n before).getD j 0 < n := by
  have hj' : j < (Jacobi.order n before).length := by rwa [Jacobi.length_order]
  rw [List.getD_eq_getElem _ _ hj']
  exact Jacobi.mem_order.1 (List.getElem_mem hj')

theorem ordered_eq {s : Grid α × Grid α} (h1 : s.1.Fits n n) (h2 : s.2.Fits n n)
    (hn : n * n < 2 ^ 64) : ordered n s =
      let ord := Jacobi.order n fun i j => Scalar.lt (s.1.entry i i) (s.1.entry j j)
      .ok ((ord.map fun i => s.1.entry i i).toArray, Signs.positivePivots n n
        (Grid.tabulate n n fun i j => s.2.entry i (ord.getD j 0)).data) := by
  have hkeys : (List.range n).mapM (fun i => s.1.cell i i) =
      .ok ((List.range n).map fun i => s.1.entry i i) :=
    mapM_eq fun i hi => Grid.cell_eq h1 (List.mem_range.1 hi) (List.mem_range.1 hi)
  have hord : (Jacobi.order n fun i j => Scalar.lt
      (((List.range n).map fun i => s.1.entry i i).getD i 0)
      (((List.range n).map fun i => s.1.entry i i).getD j 0)) =
      Jacobi.order n fun i j => Scalar.lt (s.1.entry i i) (s.1.entry j j) :=
    Jacobi.order_congr fun i hi j hj => by simp [hi, hj]
  rw [ordered, hkeys, ok_bind]
  dsimp only
  rw [hord]
  generalize hgen : (Jacobi.order n fun i j => Scalar.lt (s.1.entry i i) (s.1.entry j j)) = ord
  have hvalues : ord.mapM (fun i => s.1.cell i i) = .ok (ord.map fun i => s.1.entry i i) :=
    mapM_eq fun i hi => by
      have hi' := Jacobi.mem_order.1 (hgen ▸ hi)
      exact Grid.cell_eq h1 hi' hi'
  have hv : Grid.build n n (fun i j => do s.2.cell i (← read ord.toArray j)) =
      .ok (.tabulate n n fun i j => s.2.entry i (ord.getD j 0)) :=
    Grid.build_eq hn fun i hi j hj => by
      subst hgen
      rw [read_list (by rwa [Jacobi.length_order]) 0, ok_bind,
        Grid.cell_eq h2 hi (getD_order_lt hj)]
  rw [hvalues, ok_bind, hv, ok_bind, positivePivots_eq (by simp)]
  rfl

/-- **Eigenvalues and eigenvectors are found inside the payloads**, or the iteration fails. -/
theorem eigh_eq (e : OpFailure) {w : Grid α} (hw : w.Fits n n) (hn : n * n < 2 ^ 64) :
    eigh e n w = ofOption e (Jacobi.eigh? n w) ∧
      ∀ r, Jacobi.eigh? n w = some r → r.1.size = n ∧ r.2.size = n * n := by
  obtain ⟨hrun, hfits⟩ := eigenSweeps_eq e Jacobi.maxSweeps (s := (w, Jacobi.identity n))
    ⟨hw, fits_identity n⟩
  rw [eigh, identity_eq hn, ok_bind, hrun, Jacobi.eigh?, Jacobi.eigen?]
  cases hs : Jacobi.eigenSweeps n Jacobi.maxSweeps (w, Jacobi.identity n) with
  | none => exact ⟨rfl, nofun⟩
  | some s =>
    obtain ⟨h1, h2⟩ := hfits s hs
    rw [ofOption, ok_bind, ordered_eq h1 h2 hn]
    refine ⟨rfl, fun r hr => ?_⟩
    obtain rfl := Option.some.inj hr
    simp [Signs.positivePivots, Jacobi.length_order]

/-! ## Singular values -/

/-- The squared norms of two columns and their product. -/
def gram (m p q : Nat) (u : Grid α) : Guarded (α × α × α) :=
  (List.range m).foldlM (fun s i => do
    let x ← u.cell i p
    let y ← u.cell i q
    .ok (s.1 + x * x, s.2.1 + y * y, s.2.2 + x * y)) (0, 0, 0)

/-- The rotation that makes two columns orthogonal; none where they are. -/
def columnRotation (m : Nat) (u : Grid α) (p q : Nat) : Guarded (Option (α × α)) := do
  let (a, b, g) ← gram m p q u
  if Scalar.le (Scalar.abs g) (Scalar.epsilon * Scalar.sqrt (a * b)) then .ok none
  else
    let ζ := (b - a) / (Scalar.two * g)
    let t := Jacobi.signOf ζ / (Scalar.abs ζ + Scalar.sqrt (1 + ζ * ζ))
    let c := 1 / Scalar.sqrt (1 + t * t)
    .ok (some (c, c * t))

/-- Make two columns orthogonal. -/
def columnStep (m n : Nat) (s : Jacobi.Columns α) (pq : Nat × Nat) :
    Guarded (Jacobi.Columns α) := do
  match ← columnRotation m s.u pq.1 pq.2 with
  | none => .ok s
  | some (c, t) =>
    .ok ⟨← turnColumns m n pq.1 pq.2 c t s.u, ← turnColumns n n pq.1 pq.2 c t s.v, true⟩

/-- Sweeps until no columns are rotated, a failure when there are none left. -/
def columnSweeps (e : OpFailure) (m n : Nat) : Nat → Grid α → Grid α → Guarded (Grid α × Grid α)
  | 0, _, _ => .error (.fails e)
  | k + 1, u, v => do
    let s ← (Jacobi.pairs n).foldlM (columnStep m n) ⟨u, v, false⟩
    if s.rotated then columnSweeps e m n k s.u s.v else .ok (s.u, s.v)

/-- The norms of the columns. -/
def norms (m n : Nat) (u : Grid α) : Guarded (List α) :=
  (List.range n).mapM fun j => do
    .ok (Scalar.sqrt (← (List.range m).foldlM (fun s i => do
      let x ← u.cell i j
      .ok (s + x * x)) 0))

/-- The factors, their columns and rows in a given order. -/
def arrange (m n : Nat) (r : Grid α × Grid α) (ord : List Nat) (s : List α) :
    Guarded (Jacobi.Singular α) := do
  let u ← Grid.build m n fun i k => do
    let x ← read s.toArray k
    let c ← read ord.toArray k
    if Scalar.lt 0 x then do .ok ((← r.1.cell i c) / x) else .ok 0
  let vt ← Grid.build n n fun k j => do r.2.cell j (← read ord.toArray k)
  .ok ⟨u, s, vt⟩

/-- The decomposition of a matrix that is not wide. -/
def tall (e : OpFailure) (m n : Nat) (w : Grid α) : Guarded (Jacobi.Singular α) := do
  let r ← columnSweeps e m n Jacobi.maxSweeps w (← diagonal n n)
  let ns ← norms m n r.1
  let ord := Jacobi.order n fun i j => Scalar.lt (ns.getD j 0) (ns.getD i 0)
  let s ← ord.mapM fun i => read ns.toArray i
  arrange m n r ord s

/-- The transposed matrix. -/
def transpose (m n : Nat) (w : Grid α) : Guarded (Grid α) := Grid.build n m fun i j => w.cell j i

/-- The decomposition of any matrix; a wide one goes by its transpose. -/
def thin (e : OpFailure) (m n : Nat) (w : Grid α) : Guarded (Jacobi.Singular α) :=
  if n ≤ m then tall e m n w
  else do
    let r ← tall e n m (← transpose m n w)
    .ok ⟨← transpose m m r.vt, r.s, ← transpose n m r.u⟩

/-- The singular values and both factors, with the pivots positive. -/
def svd (e : OpFailure) (m n : Nat) (w : Grid α) : Guarded (Array α × Array α × Array α) := do
  let r ← thin e m n w
  let k := min m n
  .ok (← positivePivots m k r.u.data, r.s.toArray, ← alongPivots m k n r.u.data r.vt.data)

theorem columnRotation_eq {u : Grid α} (hu : u.Fits m n) (hp : p < n) (hq : q < n) :
    columnRotation m u p q = .ok (Jacobi.columnRotation? m u p q) := by
  have hgram : gram m p q u = .ok (Jacobi.gram m p q u) := foldlM_eq _ fun s i hi => by
    have hi' := List.mem_range.1 hi
    rw [Grid.cell_eq hu hi' hp, Grid.cell_eq hu hi' hq]
    rfl
  rw [columnRotation, hgram, ok_bind, Jacobi.columnRotation?]
  dsimp only
  split <;> rfl

theorem columnStep_eq {s : Jacobi.Columns α} (hs : s.u.Fits m n ∧ s.v.Fits n n) {pq : Nat × Nat}
    (h : pq.1 < n ∧ pq.2 < n) :
    columnStep m n s pq = .ok (Jacobi.columnStep m n s pq) ∧
      (Jacobi.columnStep m n s pq).u.Fits m n ∧ (Jacobi.columnStep m n s pq).v.Fits n n := by
  unfold columnStep Jacobi.columnStep
  rw [columnRotation_eq hs.1 h.1 h.2, ok_bind]
  cases Jacobi.columnRotation? m s.u pq.1 pq.2 with
  | none => exact ⟨rfl, hs⟩
  | some r =>
    dsimp only
    rw [turnColumns_eq hs.1 h.1 h.2, ok_bind, turnColumns_eq hs.2 h.1 h.2]
    exact ⟨rfl, fits_turnColumns _ _ _, fits_turnColumns _ _ _⟩

theorem columnSweeps_eq (e : OpFailure) (k : Nat) {u v : Grid α} (hu : u.Fits m n)
    (hv : v.Fits n n) :
    columnSweeps e m n k u v = ofOption e (Jacobi.columnSweeps m n k u v) ∧
      ∀ r, Jacobi.columnSweeps m n k u v = some r → r.1.Fits m n ∧ r.2.Fits n n := by
  induction k generalizing u v with
  | zero => exact ⟨rfl, nofun⟩
  | succ k ih =>
    obtain ⟨hrun, hfits⟩ := foldlM_eq_of (l := Jacobi.pairs n) (f := columnStep m n)
      (g := Jacobi.columnStep m n) (P := fun s => s.u.Fits m n ∧ s.v.Fits n n)
      (s := ⟨u, v, false⟩) ⟨hu, hv⟩ fun s hs pq hpq => columnStep_eq hs (Jacobi.mem_pairs hpq)
    rw [columnSweeps, Jacobi.columnSweeps, hrun, ok_bind]
    split
    · exact ih hfits.1 hfits.2
    · exact ⟨rfl, fun r hr => Option.some.inj hr ▸ hfits⟩

omit [Scalar α] in
theorem transpose_eq {w : Grid α} (hw : w.Fits m n) (hmn : m * n < 2 ^ 64) :
    transpose m n w = .ok (Jacobi.transpose m n w) :=
  Grid.build_eq (by rwa [mul_comm]) fun _ hi _ hj => Grid.cell_eq hw hj hi

omit [Scalar α] in
theorem fits_transpose (w : Grid α) : (Jacobi.transpose m n w).Fits n m := by
  unfold Jacobi.transpose
  exact Grid.fits_tabulate _ _ _

theorem norms_eq {u : Grid α} (hu : u.Fits m n) :
    norms m n u = .ok ((List.range n).map fun j => Scalar.sqrt
      ((List.range m).foldl (fun s i => s + u.entry i j * u.entry i j) 0)) :=
  mapM_eq fun j hj => by
    rw [foldlM_eq _ fun s i hi => by
      rw [Grid.cell_eq hu (List.mem_range.1 hi) (List.mem_range.1 hj), ok_bind]]
    rfl

theorem arrange_eq {r : Grid α × Grid α} (h1 : r.1.Fits m n) (h2 : r.2.Fits n n) {ord : List Nat}
    (ho : ord.length = n) (hlt : ∀ k < n, ord.getD k 0 < n) {s : List α} (hs : s.length = n)
    (hmn : m * n < 2 ^ 64) (hnn : n * n < 2 ^ 64) : arrange m n r ord s = .ok
      { u := .tabulate m n fun i k =>
          let x := s.getD k 0
          if Scalar.lt 0 x then r.1.entry i (ord.getD k 0) / x else 0
        s := s
        vt := .tabulate n n fun k j => r.2.entry j (ord.getD k 0) } := by
  have hu : ∀ i < m, ∀ k < n, (do
      let x ← read s.toArray k
      let c ← read ord.toArray k
      if Scalar.lt 0 x then do .ok ((← r.1.cell i c) / x) else .ok 0 : Guarded α) =
      .ok (let x := s.getD k 0
        if Scalar.lt 0 x then r.1.entry i (ord.getD k 0) / x else 0) := by
    intro i hi k hk
    rw [read_list (hs.symm ▸ hk) 0, ok_bind, read_list (ho.symm ▸ hk) 0, ok_bind,
      Grid.cell_eq h1 hi (hlt k hk)]
    dsimp only
    split <;> rfl
  have hvt : ∀ k < n, ∀ j < n, (do r.2.cell j (← read ord.toArray k) : Guarded α) =
      .ok (r.2.entry j (ord.getD k 0)) := by
    intro k hk j hj
    rw [read_list (ho.symm ▸ hk) 0, ok_bind, Grid.cell_eq h2 hj (hlt k hk)]
  rw [arrange, Grid.build_eq hmn hu, ok_bind, Grid.build_eq hnn hvt]
  rfl

/-- The factors fit their payloads: there is a value for each column. -/
structure Fitting (m n : Nat) (r : Jacobi.Singular α) : Prop where
  u : r.u.Fits m n
  s : r.s.length = n
  vt : r.vt.Fits n n

theorem tall_eq (e : OpFailure) {w : Grid α} (hw : w.Fits m n) (hmn : m * n < 2 ^ 64)
    (hnn : n * n < 2 ^ 64) : tall e m n w = ofOption e (Jacobi.tall? m n w) ∧
      ∀ r, Jacobi.tall? m n w = some r → Fitting m n r := by
  obtain ⟨hrun, hfits⟩ := columnSweeps_eq e Jacobi.maxSweeps hw (fits_identity n)
  rw [tall, identity_eq hnn, ok_bind, hrun, Jacobi.tall?, Jacobi.orthogonalise?]
  cases hr : Jacobi.columnSweeps m n Jacobi.maxSweeps w (Jacobi.identity n) with
  | none => exact ⟨rfl, nofun⟩
  | some r =>
    obtain ⟨h1, h2⟩ := hfits r hr
    rw [ofOption, ok_bind, norms_eq h1, ok_bind, Option.map_some]
    generalize hlist : ((List.range n).map fun j => Scalar.sqrt
        ((List.range m).foldl (fun s i => s + r.1.entry i j * r.1.entry i j) 0)) = ns
    have hlen : ns.length = n := by simp [← hlist]
    dsimp only
    have hs : (Jacobi.order n fun i j => Scalar.lt (ns.getD j 0) (ns.getD i 0)).mapM
        (fun i => read ns.toArray i) =
        .ok ((Jacobi.order n fun i j => Scalar.lt (ns.getD j 0) (ns.getD i 0)).map
          fun i => ns.getD i 0) :=
      mapM_eq fun i hi => read_list (hlen.symm ▸ Jacobi.mem_order.1 hi) 0
    have hsize : ((Jacobi.order n fun i j => Scalar.lt (ns.getD j 0) (ns.getD i 0)).map
        fun i => ns.getD i 0).length = n := by rw [List.length_map, Jacobi.length_order]
    rw [hs, ok_bind, arrange_eq h1 h2 (Jacobi.length_order _ _) (fun _ => getD_order_lt) hsize hmn
      hnn]
    refine ⟨rfl, fun r' hr' => ?_⟩
    obtain rfl := Option.some.inj hr'
    constructor <;> dsimp only
    · exact Grid.fits_tabulate _ _ _
    · exact hsize
    · exact Grid.fits_tabulate _ _ _

theorem thin_eq (e : OpFailure) {w : Grid α} (hw : w.Fits m n) (hmn : m * n < 2 ^ 64) :
    thin e m n w = ofOption e (Jacobi.thin? m n w) ∧ ∀ r, Jacobi.thin? m n w = some r →
      r.u.Fits m (min m n) ∧ r.s.length = min m n ∧ r.vt.Fits (min m n) n := by
  unfold thin Jacobi.thin?
  by_cases h : n ≤ m
  · rw [if_pos h, if_pos h, min_eq_right h]
    obtain ⟨hrun, hfit⟩ := tall_eq e hw hmn ((Nat.mul_le_mul_right n h).trans_lt hmn)
    exact ⟨hrun, fun r hr => ⟨(hfit r hr).u, (hfit r hr).s, (hfit r hr).vt⟩⟩
  · have hle : m ≤ n := by omega
    have hmul : n * m < 2 ^ 64 := by rwa [mul_comm]
    have hmm : m * m < 2 ^ 64 := (Nat.mul_le_mul_left m hle).trans_lt hmn
    obtain ⟨hrun, hfit⟩ := tall_eq e (fits_transpose w) hmul hmm
    rw [if_neg h, if_neg h, min_eq_left hle, transpose_eq hw hmn, ok_bind, hrun]
    cases hr : Jacobi.tall? n m (Jacobi.transpose m n w) with
    | none => exact ⟨rfl, nofun⟩
    | some r =>
      obtain ⟨hu, hs, hvt⟩ := hfit r hr
      rw [ofOption, ok_bind, transpose_eq hvt hmm, ok_bind, transpose_eq hu hmul, ok_bind]
      refine ⟨rfl, fun r' hr' => ?_⟩
      obtain rfl := Option.some.inj hr'
      dsimp only
      exact ⟨fits_transpose r.vt, hs, fits_transpose r.u⟩

/-- **Singular values and vectors are found inside the payloads**, or the iteration fails. -/
theorem svd_eq (e : OpFailure) {w : Grid α} (hw : w.Fits m n) (hmn : m * n < 2 ^ 64) :
    svd e m n w = ofOption e (Jacobi.svd? m n w) ∧ ∀ r, Jacobi.svd? m n w = some r →
      r.1.size = m * min m n ∧ r.2.1.size = min m n ∧ r.2.2.size = min m n * n := by
  obtain ⟨hrun, hfits⟩ := thin_eq e hw hmn
  unfold svd Jacobi.svd?
  rw [hrun]
  cases hr : Jacobi.thin? m n w with
  | none => exact ⟨rfl, nofun⟩
  | some r =>
    obtain ⟨hu, hs, hvt⟩ := hfits r hr
    rw [ofOption, ok_bind]
    dsimp only
    rw [positivePivots_eq hu.size, ok_bind, alongPivots_eq hu.size hvt.size]
    refine ⟨rfl, fun r' hr' => ?_⟩
    obtain rfl := Option.some.inj hr'
    simp [Signs.positivePivots, Signs.alongPivots, hu.size, hs, hvt.size]

end Guarded

end MemoFlow
