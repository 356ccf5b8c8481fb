import MemoFlow.Proofs.Bounds.Elementwise
import MemoFlow.Proofs.Bounds.Jacobi

/-!
# The plain loops with checked places

All operations by plain loops on checked operands whose sizes do not wrap. No place outside a
payload is read or written, the failures are those of three decompositions, and each result has its
shape, its type and a payload of the true size.

* `Op.resultShapes`, `Op.FailsWith`: the shapes of the results and the failures of an operation;
* **`Guarded.run`**: any operation with checked places;
* `Tensor.Shaped`, `Guarded.Sound`: what is said of a result and of a run;
* `Guarded.decompose_sound`, `Guarded.elementwise_sound`, `Guarded.matmul_sound`,
  `Guarded.reduce_sound`, `Guarded.transform_sound`: one kind of operations each;
* **`Guarded.run_sound`**, **`Native.wellFormed`**: all operations.
-/

namespace MemoFlow

variable {α : Type}

/-! ## Shapes and failures -/

namespace Op

/-- The shapes of the results of an operation. -/
def resultShapes (o : Op) (args : List (Tensor α)) : List Shape :=
  match o, args with
  | .matmul, [a, b] => [[Native.rowDim a, Native.colDim b]]
  | .fft, [a] | .ifft, [a] => [[Native.rowDim a]]
  | .lu, [a] =>
    let n := Native.rowDim a
    [[n, n], [n, n], [n, n]]
  | .qr, [a] => [[Native.rowDim a, Native.colDim a], [Native.colDim a, Native.colDim a]]
  | .cholesky, [a] => [[Native.rowDim a, Native.rowDim a]]
  | .svd, [a] =>
    let k := Min.min (Native.rowDim a) (Native.colDim a)
    [[Native.rowDim a, k], [k], [k, Native.colDim a]]
  | .eigh, [a] => [[Native.rowDim a], [Native.rowDim a, Native.rowDim a]]
  | _, [a, b] => [Tensor.meetShape a b]
  | _, _ => [[]]

section Kinds

variable {o : Op}

theorem elementwise_cases (h : o.kind = .elementwise) :
    o = .add ∨ o = .sub ∨ o = .mul ∨ o = .div := by
  cases o <;> cases h <;> simp

theorem product_eq (h : o.kind = .product) : o = .matmul := by
  cases o <;> cases h
  rfl

theorem reduction_cases (h : o.kind = .reduction) :
    o = .sum ∨ o = .mean ∨ o = .std ∨ o = .min ∨ o = .max := by
  cases o <;> cases h <;> simp

theorem fourier_cases (h : o.kind = .fourier) : o = .fft ∨ o = .ifft := by
  cases o <;> cases h <;> simp

theorem decomposition_cases (h : o.kind = .decomposition) :
    o = .lu ∨ o = .qr ∨ o = .cholesky ∨ o = .svd ∨ o = .eigh := by
  cases o <;> cases h <;> simp

theorem resultShapes_of_elementwise (h : o.kind = .elementwise) (a b : Tensor α) :
    o.resultShapes [a, b] = [Tensor.meetShape a b] := by
  obtain rfl | rfl | rfl | rfl := elementwise_cases h <;> rfl

theorem resultShapes_of_reduction (h : o.kind = .reduction) (a : Tensor α) :
    o.resultShapes [a] = [[]] := by
  obtain rfl | rfl | rfl | rfl | rfl := reduction_cases h <;> rfl

theorem resultShapes_of_fourier (h : o.kind = .fourier) (a : Tensor α) :
    o.resultShapes [a] = [[Native.rowDim a]] := by
  obtain rfl | rfl := fourier_cases h <;> rfl

theorem resultType_of_elementwise (h : o.kind = .elementwise) (d : DType) : o.resultType d = d := by
  obtain rfl | rfl | rfl | rfl := elementwise_cases h <;> rfl

theorem resultType_of_fourier (h : o.kind = .fourier) (d : DType) : o.resultType d = .c128 := by
  obtain rfl | rfl := fourier_cases h <;> rfl

theorem resultType_of_decomposition (h : o.kind = .decomposition) (d : DType) :
    o.resultType d = d := by
  obtain rfl | rfl | rfl | rfl | rfl := decomposition_cases h <;> rfl

end Kinds

/-- The failures of an operation on operands that it takes. -/
inductive FailsWith : Op → OpFailure → Prop
  | cholesky : FailsWith .cholesky (.refused .notPositiveDefinite)
  | svd : FailsWith .svd (.fault "native svd: Jacobi iteration did not converge")
  | eigh : FailsWith .eigh (.fault "native eigh: Jacobi iteration did not converge")

end Op

namespace Guarded

variable [Arith α] [Scalar α]

/-- A tensor of two dimensions. -/
def matrix (m n : UInt64) (data : Array α) (d : DType) : Guarded (Tensor α) :=
  make (Tensor.ofValues [m, n] data d)

/-- A tensor of one dimension. -/
def vector (n : UInt64) (data : Array α) (d : DType) : Guarded (Tensor α) :=
  make (Tensor.ofValues [n] data d)

/-- A decomposition, its factors made into tensors. -/
def decompose (o : Op) (a : Tensor α) : Guarded (List (Tensor α)) :=
  let m := Native.rowDim a
  let n := Native.colDim a
  match o with
  | .lu => do
    let s ← lu a.rows (Native.grid a)
    let p ← permutation s.1
    let l ← lower a.rows s.2
    let u ← upper a.rows s.2
    .ok [← matrix m m p.data a.dtype, ← matrix m m l.data a.dtype, ← matrix m m u.data a.dtype]
  | .qr => do
    let r ← qr a.rows a.cols (Native.grid a)
    .ok [← matrix m n r.1 a.dtype, ← matrix n n r.2 a.dtype]
  | .cholesky => do
    let l ← cholesky a.rows (Native.grid a)
    .ok [← matrix m m l.data a.dtype]
  | .svd => do
    let r ← svd (.fault "native svd: Jacobi iteration did not converge") a.rows a.cols
      (Native.grid a)
    let k := min m n
    .ok [← matrix m k r.1 a.dtype, ← vector k r.2.1 a.dtype, ← matrix k n r.2.2 a.dtype]
  | _ => do
    let r ← eigh (.fault "native eigh: Jacobi iteration did not converge") a.rows (Native.grid a)
    .ok [← vector m r.1 a.dtype, ← matrix m m r.2 a.dtype]

/-- **Any operation with checked places**, the operands among them. -/
def run (o : Op) (args : List (Tensor α)) : Guarded (List (Tensor α)) := do
  let a ← read args.toArray 0
  match o.kind with
  | .elementwise => do .ok [← elementwise o a (← read args.toArray 1)]
  | .product => do .ok [← matmul a (← read args.toArray 1)]
  | .reduction => do .ok [← reduce o a]
  | .fourier => do .ok [← transform (o = .ifft) a]
  | .decomposition => decompose o a

/-! ## Results -/

end Guarded

/-- The type of the operands of an operation. -/
def Tensor.operandType (args : List (Tensor α)) : DType :=
  (args.head?.map Tensor.dtype).getD .f64

/-- A tensor of a shape and a type, with a payload of the true size. -/
structure Tensor.Shaped (t : Tensor α) (s : Shape) (d : DType) : Prop where
  shape : t.shape = s
  dtype : t.dtype = d
  full : t.IsFull

/-- A run with checked places is the operation, which fails as it may and has results of the given
shapes. -/
structure Guarded.Sound (o : Op) (x : Guarded (List (Tensor α)))
    (y : Except OpFailure (List (Tensor α))) (shapes : List Shape) (d : DType) : Prop where
  run : x = lift y
  fails : ∀ f, y = .error f → o.FailsWith f
  results : ∀ ts, y = .ok ts → List.Forall₂ (fun t s => t.Shaped s d) ts shapes

namespace Guarded

theorem Sound.ok {o : Op} {x : Guarded (List (Tensor α))} {ts : List (Tensor α)}
    {shapes : List Shape} {d : DType} (hx : x = .ok ts)
    (hts : List.Forall₂ (fun t s => t.Shaped s d) ts shapes) : Sound o x (.ok ts) shapes d where
  run := hx
  fails := nofun
  results _ h := Except.ok.inj h ▸ hts

theorem Sound.error {o : Op} {x : Guarded (List (Tensor α))} {e : OpFailure} {shapes : List Shape}
    {d : DType} (hx : x = .error (.fails e)) (he : o.FailsWith e) :
    Sound o x (.error e) shapes d where
  run := hx
  fails _ h := Except.error.inj h ▸ he
  results := nofun

theorem toNat_min (m n : UInt64) : (min m n).toNat = min m.toNat n.toNat := by
  change (if m ≤ n then m else n).toNat = _
  split <;> rename_i h <;> rw [UInt64.le_iff_toNat_le] at h <;> omega

variable [Scalar α]

theorem shaped_rounded {d : DType} {s : Shape} {data : Array α} {e : Engine}
    (h : data.size = s.extent * (Tensor.stride d).toNat) :
    (Tensor.rounded ⟨d, s, data, e⟩).Shaped s d :=
  ⟨Tensor.shape_rounded _, Tensor.dtype_rounded _, by
    rw [Tensor.IsFull, Tensor.size_data_rounded, Tensor.extent_rounded]
    exact h⟩

theorem matrix_eq {m n : UInt64} {data : Array α} {d : DType} (hd : d ≠ .c128)
    (h : data.size = m.toNat * n.toNat) (hmn : m.toNat * n.toNat < 2 ^ 64) :
    matrix m n data d = .ok (Native.ofMatrix m n data d) ∧
      (Native.ofMatrix m n data d).Shaped [m, n] d := by
  have hsize : data.size = (numel [m, n]).toNat := by
    rw [h, toNat_numel_of_lt (by rwa [extent_two]), extent_two]
  rw [matrix, Tensor.ofValues_eq_ok.2 ⟨hd, hsize, rfl⟩]
  refine ⟨rfl, shaped_rounded ?_⟩
  rw [h, extent_two, Tensor.toNat_stride, if_neg hd, Nat.mul_one]

theorem vector_eq {n : UInt64} {data : Array α} {d : DType} (hd : d ≠ .c128)
    (h : data.size = n.toNat) : vector n data d = .ok (Native.ofVector n data d) ∧
      (Native.ofVector n data d).Shaped [n] d := by
  have hsize : data.size = (numel [n]).toNat := by
    rw [h, toNat_numel_of_lt] <;> simp [n.toNat_lt]
  rw [vector, Tensor.ofValues_eq_ok.2 ⟨hd, hsize, rfl⟩]
  refine ⟨rfl, shaped_rounded ?_⟩
  rw [h, extent_one, Tensor.toNat_stride, if_neg hd, Nat.mul_one]

variable [Arith α]

/-! ## Decompositions -/

section Decompositions

variable {a : Tensor α} (hd : a.dtype ≠ .c128) (hmn : a.rows * a.cols < 2 ^ 64)
  (hfits : (Native.grid a).Fits a.rows a.cols)

include hd hmn hfits

theorem lu_sound (hsquare : a.rows = a.cols) : Sound .lu (decompose .lu a) (.ok (Native.lu a))
    (Op.lu.resultShapes [a]) a.dtype := by
  rw [← hsquare] at hfits hmn
  obtain ⟨hrun, hlen, hrows, hfits'⟩ := lu_eq hfits
  have hmatrix : ∀ {g : Grid α}, g.Fits a.rows a.rows → _ := fun hg =>
    matrix_eq (m := Native.rowDim a) (n := Native.rowDim a) hd hg.size hmn
  obtain ⟨hp, hp'⟩ := hmatrix (hlen ▸ fits_permutation (Lu.factor a.rows (Native.grid a)).1)
  obtain ⟨hl, hl'⟩ := hmatrix (fits_lower a.rows (Lu.factor a.rows (Native.grid a)).2)
  obtain ⟨hu, hu'⟩ := hmatrix (fits_upper a.rows (Lu.factor a.rows (Native.grid a)).2)
  refine .ok ?_ (.cons hp' (.cons hl' (.cons hu' .nil)))
  unfold decompose
  dsimp only
  rw [hrun, ok_bind, permutation_eq (by rwa [hlen]) (by rwa [hlen]), ok_bind,
    lower_eq hfits' hmn, ok_bind, upper_eq hfits' hmn, ok_bind, hp, ok_bind, hl, ok_bind, hu]
  rfl

theorem qr_sound (htall : a.cols ≤ a.rows) : Sound .qr (decompose .qr a) (.ok (Native.qr a))
    (Op.qr.resultShapes [a]) a.dtype := by
  have hnn : a.cols * a.cols < 2 ^ 64 := (Nat.mul_le_mul_right _ htall).trans_lt hmn
  obtain ⟨hrun, hq, hr⟩ := qr_eq hfits htall hmn
  obtain ⟨hq, hq'⟩ := matrix_eq (m := Native.rowDim a) (n := Native.colDim a) hd hq hmn
  obtain ⟨hr, hr'⟩ := matrix_eq (m := Native.colDim a) (n := Native.colDim a) hd hr hnn
  refine .ok ?_ (.cons hq' (.cons hr' .nil))
  unfold decompose
  dsimp only
  rw [hrun, ok_bind, hq, ok_bind, hr]
  rfl

theorem cholesky_sound (hsquare : a.rows = a.cols) :
    Sound .cholesky (decompose .cholesky a) (Native.cholesky a) (Op.cholesky.resultShapes [a])
      a.dtype := by
  rw [← hsquare] at hfits hmn
  obtain ⟨hrun, hfits'⟩ := cholesky_eq hfits hmn
  unfold decompose Native.cholesky
  dsimp only
  rw [hrun]
  cases hl : Cholesky.factor? a.rows (Native.grid a) with
  | none => exact .error rfl .cholesky
  | some l =>
    obtain ⟨hm, hm'⟩ := matrix_eq (m := Native.rowDim a) (n := Native.rowDim a) hd
      (hfits' l hl).size hmn
    refine .ok ?_ (.cons hm' .nil)
    rw [ofOption, ok_bind, hm]
    rfl

theorem svd_sound : Sound .svd (decompose .svd a) (Native.svd a) (Op.svd.resultShapes [a])
    a.dtype := by
  obtain ⟨hrun, hsize⟩ := svd_eq (.fault "native svd: Jacobi iteration did not converge") hfits hmn
  have hk : (min (Native.rowDim a) (Native.colDim a)).toNat = min a.rows a.cols := toNat_min _ _
  unfold decompose Native.svd
  dsimp only
  rw [hrun]
  cases hr : Jacobi.svd? a.rows a.cols (Native.grid a) with
  | none => exact .error rfl .svd
  | some r =>
    obtain ⟨u, s, vt⟩ := r
    obtain ⟨hu, hs, hvt⟩ := hsize _ hr
    obtain ⟨hu, hu'⟩ := matrix_eq (m := Native.rowDim a)
      (n := min (Native.rowDim a) (Native.colDim a)) hd (by rwa [hk])
      (by
        rw [hk]
        exact (Nat.mul_le_mul_left _ (Nat.min_le_right _ _)).trans_lt hmn)
    obtain ⟨hs, hs'⟩ := vector_eq (n := min (Native.rowDim a) (Native.colDim a)) hd (by rwa [hk])
    obtain ⟨hvt, hvt'⟩ := matrix_eq (m := min (Native.rowDim a) (Native.colDim a))
      (n := Native.colDim a) hd (by rwa [hk])
      (by
        rw [hk]
        exact (Nat.mul_le_mul_right _ (Nat.min_le_left _ _)).trans_lt hmn)
    refine .ok ?_ (.cons hu' (.cons hs' (.cons hvt' .nil)))
    rw [ofOption, ok_bind]
    dsimp only
    rw [hu, ok_bind, hs, ok_bind, hvt]
    rfl

theorem eigh_sound (hsquare : a.rows = a.cols) : Sound .eigh (decompose .eigh a) (Native.eigh a)
    (Op.eigh.resultShapes [a]) a.dtype := by
  rw [← hsquare] at hfits hmn
  obtain ⟨hrun, hsize⟩ :=
    eigh_eq (.fault "native eigh: Jacobi iteration did not converge") hfits hmn
  unfold decompose Native.eigh
  dsimp only
  rw [hrun]
  cases hr : Jacobi.eigh? a.rows (Native.grid a) with
  | none => exact .error rfl .eigh
  | some r =>
    obtain ⟨w, v⟩ := r
    obtain ⟨hw, hv⟩ := hsize _ hr
    obtain ⟨hw, hw'⟩ := vector_eq (n := Native.rowDim a) hd hw
    obtain ⟨hv, hv'⟩ := matrix_eq (m := Native.rowDim a) (n := Native.rowDim a) hd hv hmn
    refine .ok ?_ (.cons hw' (.cons hv' .nil))
    rw [ofOption, ok_bind, hw, ok_bind, hv]
    rfl

theorem decompose_sound {o : Op} (ho : o.kind = .decomposition)
    (hsquare : o = .lu ∨ o = .cholesky ∨ o = .eigh → a.rows = a.cols)
    (htall : o = .qr → a.cols ≤ a.rows) :
    Sound o (decompose o a) (Native.unary o a) (o.resultShapes [a]) a.dtype := by
  obtain rfl | rfl | rfl | rfl | rfl := Op.decomposition_cases ho
  · exact lu_sound hd hmn hfits (hsquare (.inl rfl))
  · exact qr_sound hd hmn hfits (htall rfl)
  · exact cholesky_sound hd hmn hfits (hsquare (.inr (.inl rfl)))
  · exact svd_sound hd hmn hfits
  · exact eigh_sound hd hmn hfits (hsquare (.inr (.inr rfl)))

end Decompositions

/-! ## The other operations -/

omit [Arith α] in
theorem shaped_payload {a : Tensor α} {s : Shape} (hs : s.extent < 2 ^ 64) (v : Nat → Cplx α)
    (w : Fin (numel s).toNat → α) :
    (Tensor.rounded ⟨a.dtype, s,
      if a.isComplex then Native.interleave (numel s).toNat v else Array.ofFn w,
      .native⟩).Shaped s a.dtype := by
  refine shaped_rounded ?_
  rw [Tensor.toNat_stride]
  cases hr : a.isComplex with
  | true =>
    have hd := Tensor.isComplex_eq_true_iff.1 hr
    rw [if_pos rfl, if_pos hd, interleave_eq, Array.size_ofFn, toNat_numel_of_lt hs]
  | false =>
    have hd := Tensor.isComplex_eq_false_iff.1 hr
    rw [if_neg Bool.false_ne_true, if_neg hd, Array.size_ofFn, toNat_numel_of_lt hs, Nat.mul_one]

theorem shaped_scalar (x : α) (d : DType) : (Tensor.scalar x d).Shaped [] d := by
  unfold Tensor.scalar
  by_cases hd : d = .c128
  · rw [if_pos hd]
    exact ⟨rfl, rfl, by rw [hd]; rfl⟩
  · rw [if_neg hd]
    refine shaped_rounded ?_
    rw [Tensor.toNat_stride, if_neg hd]
    rfl

theorem shaped_single (z : Cplx α) (d : DType) : (Native.single z d).Shaped [] d := by
  unfold Native.single
  by_cases hd : d = .c128
  · rw [if_pos hd, hd]
    exact ⟨rfl, rfl, rfl⟩
  · rw [if_neg hd]
    exact shaped_scalar z.1 d

theorem shaped_reduce {o : Op} (ho : o.kind = .reduction) (a : Tensor α) :
    (Native.reduce o a).Shaped [] (o.resultType a.dtype) := by
  obtain rfl | rfl | rfl | rfl | rfl := Op.reduction_cases ho
  · exact shaped_single _ _
  · exact shaped_single _ _
  · exact shaped_scalar _ _
  · exact shaped_scalar _ _
  · exact shaped_scalar _ _

theorem shaped_transform (inverse : Bool) (a : Tensor α) :
    (Fourier.transform inverse a).Shaped [a.count] .c128 := by
  refine ⟨rfl, rfl, ?_⟩
  unfold Tensor.IsFull Tensor.extent Fourier.transform
  dsimp only
  rw [interleave_eq, Array.size_ofFn, Fourier.size_transformValues, Array.size_ofFn, extent_one]
  rfl

section Runs

variable {o : Op} {a b : Tensor α}

theorem elementwise_sound (ho : o.kind = .elementwise) (ha : a.IsFull) (hb : b.IsFull)
    (hc : o.checkElementwise a b = .ok ())
    (hres : (Tensor.meetShape a b).extent * (Tensor.stride a.dtype).toNat < 2 ^ 64) :
    Sound o (run o [a, b]) (Native.run o [a, b]) [Tensor.meetShape a b] a.dtype := by
  obtain ⟨hd, hs⟩ := Op.checkElementwise_eq_ok.1 hc
  have hn : (Tensor.meetShape a b).extent < 2 ^ 64 := Tensor.lt_of_mul_stride hres
  have hrun : run o [a, b] = .ok [Native.elementwise o a b] := by
    unfold run
    rw [ho]
    change (elementwise o a b >>= _) = _
    rw [elementwise_eq ha hb hd hs hres]
    rfl
  have hnative : Native.run o [a, b] = .ok [Native.elementwise o a b] := by
    obtain rfl | rfl | rfl | rfl := Op.elementwise_cases ho <;> rfl
  rw [hnative]
  exact .ok hrun (.cons (shaped_payload hn _ _) .nil)

theorem matmul_sound (ha : a.IsFull) (hb : b.IsFull) (hc : Op.matmul.checkProduct a b = .ok ())
    (hres : Shape.extent [Native.rowDim a, Native.colDim b] * (Tensor.stride a.dtype).toNat <
      2 ^ 64) :
    Sound .matmul (run .matmul [a, b]) (Native.run .matmul [a, b])
      [[Native.rowDim a, Native.colDim b]] a.dtype := by
  obtain ⟨hra, hrb, hd, hinner⟩ := Op.checkProduct_eq_ok.1 hc
  have hn : Shape.extent [Native.rowDim a, Native.colDim b] < 2 ^ 64 := Tensor.lt_of_mul_stride hres
  have hrun : run .matmul [a, b] = .ok [Native.matmul a b] := by
    change (matmul a b >>= _) = _
    rw [matmul_eq ha hb hra hrb hd (congrArg UInt64.toNat hinner) (by rwa [extent_two] at hres)]
    rfl
  exact .ok hrun (.cons (shaped_payload hn _ _) .nil)

variable (ha : a.IsFull) (hn : a.shape.extent < 2 ^ 64)

include ha hn

theorem reduce_sound (ho : o.kind = .reduction) (hc : o.checkReduction a = .ok ()) :
    Sound o (run o [a]) (Native.run o [a]) [[]] (o.resultType a.dtype) := by
  obtain ⟨hreal, hcount⟩ := Op.checkReduction_eq_ok.1 hc
  have hpos : o ≠ .sum → 0 < a.shape.extent := fun h => by
    have h0 := hcount h
    rw [← toNat_numel_of_lt hn]
    exact Nat.pos_of_ne_zero fun hz => h0 (UInt64.toNat.inj hz)
  have hreduce := reduce_eq (o := o) ha hn fun h => ⟨hreal h, hpos (by rintro rfl; simp at h)⟩
  have hrun : run o [a] = .ok [Native.reduce o a] := by
    unfold run
    rw [ho]
    change (reduce o a >>= _) = _
    rw [hreduce]
    rfl
  have hnative : Native.run o [a] = .ok [Native.reduce o a] := by
    obtain rfl | rfl | rfl | rfl | rfl := Op.reduction_cases ho <;> rfl
  rw [hnative]
  exact .ok hrun (.cons (shaped_reduce ho a) .nil)

theorem transform_sound (ho : o.kind = .fourier) (hc : o.checkRank 1 a = .ok ()) :
    Sound o (run o [a]) (Native.run o [a]) [[Native.rowDim a]] .c128 := by
  rw [Op.checkRank, Op.refuseIf_eq_ok] at hc
  obtain ⟨n, hs⟩ := List.length_eq_one_iff.1 (not_not.1 (of_decide_eq_false hc))
  have hcount : Native.rowDim a = a.count := by
    rw [Native.rowDim, Tensor.count, hs]
    exact (UInt64.one_mul n).symm
  have hrun : run o [a] = .ok [Fourier.transform (o = .ifft) a] := by
    unfold run
    rw [ho]
    change (transform _ a >>= _) = _
    rw [transform_eq _ ha hn]
    rfl
  have hnative : Native.run o [a] = .ok [Fourier.transform (o = .ifft) a] := by
    obtain rfl | rfl := Op.fourier_cases ho <;> rfl
  rw [hnative, hcount]
  exact .ok hrun (.cons (shaped_transform _ a) .nil)

theorem decomposition_sound (ho : o.kind = .decomposition) (hc : o.checkDecomposition a = .ok ()) :
    Sound o (run o [a]) (Native.run o [a]) (o.resultShapes [a]) a.dtype := by
  obtain ⟨hrank, hreal, hsquare, htall⟩ := Op.checkDecomposition_of_ok hc
  have hd := Tensor.isComplex_eq_false_iff.1 hreal
  have hfits : (Native.grid a).Fits a.rows a.cols :=
    ⟨rfl, (Tensor.size_of_real ha hreal).trans (Tensor.extent_of_rank hrank)⟩
  have hrun : run o [a] = decompose o a := by
    unfold run
    rw [ho]
    rfl
  rw [hrun]
  exact decompose_sound hd (by rwa [← Tensor.extent_of_rank hrank]) hfits ho
    (fun h => congrArg UInt64.toNat (hsquare h)) fun h => UInt64.le_iff_toNat_le.1 (htall h)

end Runs

/-- **Any operation on checked operands whose sizes do not wrap** is sound. -/
theorem run_sound {o : Op} {e : Engine} {args : List (Tensor α)} (hc : o.check args e = .ok ())
    (hargs : ∀ t ∈ args, t.extent < 2 ^ 64)
    (hres : ∀ s ∈ o.resultShapes args,
      s.extent * (Tensor.stride (Tensor.operandType args)).toNat < 2 ^ 64) :
    Sound o (run o args) (Native.run o args) (o.resultShapes args)
      (o.resultType (Tensor.operandType args)) := by
  have hfull : ∀ t ∈ args, t.IsFull := fun t ht => (Op.isFull_of_check_iff hc ht).2 (hargs t ht)
  have hsmall : ∀ t ∈ args, t.shape.extent < 2 ^ 64 := fun t ht =>
    Tensor.lt_of_mul_stride (hargs t ht)
  obtain ⟨hlen, -, hform⟩ := Op.check_eq_ok.1 hc
  unfold Op.arity at hlen
  unfold Op.checkForm at hform
  cases hk : o.kind with
  | elementwise =>
    rw [hk] at hlen hform
    obtain ⟨a, b, rfl⟩ := List.length_eq_two.1 hlen
    rw [Op.resultShapes_of_elementwise hk] at hres ⊢
    rw [Op.resultType_of_elementwise hk]
    exact elementwise_sound hk (hfull a (by simp)) (hfull b (by simp)) hform
      (hres _ List.mem_cons_self)
  | product =>
    obtain rfl := Op.product_eq hk
    obtain ⟨a, b, rfl⟩ := List.length_eq_two.1 hlen
    exact matmul_sound (hfull a (by simp)) (hfull b (by simp)) hform (hres _ List.mem_cons_self)
  | reduction =>
    rw [hk] at hlen hform
    obtain ⟨a, rfl⟩ := List.length_eq_one_iff.1 hlen
    rw [Op.resultShapes_of_reduction hk]
    exact reduce_sound (hfull a (by simp)) (hsmall a (by simp)) hk hform
  | fourier =>
    rw [hk] at hlen hform
    obtain ⟨a, rfl⟩ := List.length_eq_one_iff.1 hlen
    dsimp only at hform
    rw [Op.checkRank, Op.refuseIf_bind_eq_ok] at hform
    rw [Op.resultShapes_of_fourier hk, Op.resultType_of_fourier hk]
    exact transform_sound (hfull a (by simp)) (hsmall a (by simp)) hk
      (Op.refuseIf_eq_ok.2 hform.1)
  | decomposition =>
    rw [hk] at hlen hform
    obtain ⟨a, rfl⟩ := List.length_eq_one_iff.1 hlen
    rw [Op.resultType_of_decomposition hk]
    exact decomposition_sound (hfull a (by simp)) (hsmall a (by simp)) hk hform

omit [Scalar α] in
/-- A payload without numbers is left at the first element. -/
theorem mapM_complexAt_of_empty {a : Tensor α} (hd : a.data = #[]) {n : Nat} (hn : n ≠ 0) :
    (List.range n).mapM (complexAt a) = .error .outside := by
  obtain ⟨m, rfl⟩ := Nat.exists_eq_succ_of_ne_zero hn
  have hfirst : complexAt a 0 = .error .outside := by
    unfold complexAt
    rw [hd]
    split <;> rfl
  rw [List.range_succ_eq_map, List.mapM_cons, hfirst]
  rfl

theorem sum_of_empty {a : Tensor α} (hd : a.data = #[]) (hn : a.count.toNat ≠ 0) :
    run .sum [a] = .error .outside := by
  change (do .ok [← (do single (← total a) a.dtype : Guarded (Tensor α))]) = _
  rw [total, mapM_complexAt_of_empty hd hn]
  rfl

theorem matmul_of_empty {a : Tensor α} (hd : a.data = #[]) (hn : a.rows * a.cols ≠ 0)
    (b : Tensor α) : run .matmul [a, b] = .error .outside := by
  change (matmul a b >>= _) = _
  rw [matmul]
  dsimp only
  rw [mapM_complexAt_of_empty hd hn]
  rfl

end Guarded

/-- **The results of the plain loops are well-formed**: on checked operands, when the numbers that
operands and results should hold do not wrap, no place outside a payload is read or written, an
operation fails as it may, and the results have their shapes, their type and payloads of the true
size. -/
theorem Native.wellFormed [Arith α] [Scalar α] {o : Op} {e : Engine} {args : List (Tensor α)}
    (hc : o.check args e = .ok ()) (hargs : ∀ t ∈ args, t.extent < 2 ^ 64)
    (hres : ∀ s ∈ o.resultShapes args,
      s.extent * (Tensor.stride (Tensor.operandType args)).toNat < 2 ^ 64) :
    Guarded.run o args = Guarded.lift (run o args) ∧
      (∀ f, run o args = .error f → o.FailsWith f) ∧
      ∀ ts, run o args = .ok ts → List.Forall₂
        (fun t s => t.Shaped s (o.resultType (Tensor.operandType args))) ts (o.resultShapes args) :=
  have h := Guarded.run_sound hc hargs hres
  ⟨h.run, h.fails, h.results⟩

/-- The number of elements is a word and the number of doubles is not: the sum of a complex vector
of `2 ^ 63` elements takes a payload without numbers and leaves it, where one of two elements with
their four numbers is summed. -/
theorem Native.sum_leaves_complex_vector :
    let t : Tensor Double := ⟨.c128, [2], #[1, 2, 3, 4], .native⟩
    let u : Tensor Double := ⟨.c128, [9223372036854775808], #[], .native⟩
    (Guarded.run .sum [t] = Guarded.lift (run .sum [t]) ∧
      ∀ ts, run .sum [t] = .ok ts → List.Forall₂ (fun r s => r.Shaped s .c128) ts [[]]) ∧
      Op.sum.check [u] .native = .ok () ∧ u.shape.extent < 2 ^ 64 ∧ u.extent = 2 ^ 64 ∧
      Guarded.run .sum [u] = .error .outside := by
  intro t u
  have hc : Op.sum.check [t] .native = .ok () := by rfl
  have ht := wellFormed hc (by simp [t, Tensor.extent, Tensor.stride])
    (by simp [Op.resultShapes, Tensor.operandType, t, Tensor.stride, Shape.extent])
  have hu : Op.sum.check [u] .native = .ok () :=
    Op.check_eq_ok.2 ⟨rfl, by simp only [List.forall_mem_singleton]; decide +kernel, rfl⟩
  refine ⟨⟨ht.1, ht.2.2⟩, hu, by simp [u], by simp [u, Tensor.extent, Tensor.stride], ?_⟩
  exact Guarded.sum_of_empty rfl (by decide +kernel)

end MemoFlow
