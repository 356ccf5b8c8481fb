import MemoFlow.Proofs.Bounds.Loops

/-!
# Operations on elements with checked places

* `Guarded.elementwise`, `Guarded.matmul`, `Guarded.reduce`: the operations with checked places;
* `Guarded.elementwise_eq`, `Guarded.matmul_eq`, `Guarded.reduce_eq`: on payloads of the true size
  they are the operations;
* `Guarded.reorder`, `Guarded.butterflies`, `Guarded.direct`, `Guarded.transform`: the transforms
  with checked places;
* `Fourier.carry_lt`: reversed indices stay below the length;
* `Guarded.reorder_eq`, `Guarded.butterflies_eq`, **`Guarded.transform_eq`**: on payloads of the
  true size they are the transforms.
-/

namespace MemoFlow

namespace Guarded

variable {α : Type}

/-! ## Elements -/

theorem interleave_eq (n : Nat) (v : Nat → Cplx α) : Native.interleave n v =
    Array.ofFn fun q : Fin (n * 2) =>
      if q.val % 2 = 0 then (v (q.val / 2)).1 else (v (q.val / 2)).2 := by
  have hlist : ∀ q < n * 2, ((List.range n).flatMap fun i => [(v i).1, (v i).2])[q]? =
      some (if q % 2 = 0 then (v (q / 2)).1 else (v (q / 2)).2) := by
    induction n with
    | zero => intro q hq; omega
    | succ n ih =>
      intro q hq
      have hlen : ((List.range n).flatMap fun i => [(v i).1, (v i).2]).length = n * 2 := by simp
      rw [List.range_succ, List.flatMap_append]
      by_cases hlt : q < n * 2
      · rw [List.getElem?_append_left (by rwa [hlen]), ih q hlt]
      · rw [List.getElem?_append_right (by omega), hlen]
        obtain rfl | rfl : q = n * 2 ∨ q = n * 2 + 1 := by omega
        · simp
        · have h1 : (n * 2 + 1) / 2 = n := by omega
          have h2 : (n * 2 + 1) % 2 = 1 := by omega
          simp [h1, h2]
  refine Array.ext (by simp [Native.interleave]) fun q hq hq' => ?_
  have hq2 : q < n * 2 := by simpa using hq'
  rw [Array.getElem_ofFn, ← Option.some.injEq, ← Array.getElem?_eq_getElem hq, ← hlist q hq2]
  simp [Native.interleave]

/-- Write `n` complex numbers, two places each. -/
def fillPairs (n : Nat) (f : Nat → Guarded (Cplx α)) (xs : Array α) : Guarded (Array α) :=
  revise (n * 2) (fun q => do
    let z ← f (q / 2)
    .ok (some (if q % 2 = 0 then z.1 else z.2))) xs

theorem fillPairs_eq {n : Nat} {f : Nat → Guarded (Cplx α)} {v : Nat → Cplx α} {xs : Array α}
    (hn : xs.size = n * 2) (h : ∀ i < n, f i = .ok (v i)) :
    fillPairs n f xs = .ok (Native.interleave n v) := by
  rw [interleave_eq]
  refine revise_ofFn (v := fun q => if q % 2 = 0 then (v (q / 2)).1 else (v (q / 2)).2) hn ?_
  intro q hq
  right
  rw [h (q / 2) (by omega)]
  rfl

variable [Arith α]

/-- An element as a complex number. -/
def complexAt (t : Tensor α) (i : Nat) : Guarded (Cplx α) :=
  if t.isComplex then do .ok (← read t.data (i * 2), ← read t.data (i * 2 + 1))
  else do .ok (← read t.data i, 0)

theorem read_data {t : Tensor α} (ht : t.IsFull) (hr : t.isComplex = false) {i : Nat}
    (hi : i < t.shape.extent) : read t.data i = .ok (t.get i) :=
  read_eq (by rwa [Tensor.size_of_real ht hr]) 0

theorem complexAt_eq {t : Tensor α} (ht : t.IsFull) {i : Nat} (hi : i < t.shape.extent) :
    complexAt t i = .ok (t.complexAt i) := by
  unfold complexAt Tensor.complexAt
  cases hr : t.isComplex with
  | true =>
    have hsize := Tensor.size_of_complex ht hr
    rw [if_pos rfl, if_pos rfl, read_eq (by omega) 0, read_eq (by omega) 0]
    rfl
  | false =>
    rw [if_neg Bool.false_ne_true, if_neg Bool.false_ne_true, read_data ht hr hi]
    rfl

/-! ## Elementwise operations and products -/

variable [Scalar α]

/-- The loop of an elementwise operation. -/
def elementwise (o : Op) (a b : Tensor α) : Guarded (Tensor α) := do
  let s := Tensor.meetShape a b
  let n := (numel s).toNat
  let out : Array α := (Tensor.zeros s a.dtype).data
  let data ←
    if a.isComplex then
      fillPairs n (fun i => do .ok (Native.applyComplex o (← complexAt a (a.meetIndex i))
        (← complexAt b (b.meetIndex i)))) out
    else
      revise n (fun i => do .ok (some (Native.applyReal o (← read a.data (a.meetIndex i))
        (← read b.data (b.meetIndex i))))) out
  .ok (Tensor.rounded ⟨a.dtype, s, data, .native⟩)

/-- The loops of a matrix product; `c` is the place of an entry of the result. The entries of the
left factor are read also where the right one has no columns. -/
def matmul (a b : Tensor α) : Guarded (Tensor α) := do
  let m := a.rows
  let k := a.cols
  let n := b.cols
  let _ ← (List.range (m * k)).mapM (complexAt a)
  let shape := [a.shape.getD 0 0, b.shape.getD 1 0]
  let out : Array α := (Tensor.zeros shape a.dtype).data
  let data ←
    if a.isComplex then
      fillPairs (m * n) (fun c => (List.range k).foldlM (fun s p => do
        .ok (Cplx.add s (Scalar.mulC (← complexAt a (c / n * k + p))
          (← complexAt b (p * n + c % n))))) Cplx.zero) out
    else
      revise (m * n) (fun c => do
        .ok (some (← (List.range k).foldlM (fun s p => do
          .ok (s + (← read a.data (c / n * k + p)) * (← read b.data (p * n + c % n)))) 0))) out
  .ok (Tensor.rounded ⟨a.dtype, shape, data, .native⟩)

/-- **An elementwise operation stays inside payloads of the true size.** -/
theorem elementwise_eq {o : Op} {a b : Tensor α} (ha : a.IsFull) (hb : b.IsFull)
    (hd : a.dtype = b.dtype) (hs : a.shape = b.shape ∨ a.rank = 0 ∨ b.rank = 0)
    (hres : (Tensor.meetShape a b).extent * (Tensor.stride a.dtype).toNat < 2 ^ 64) :
    elementwise o a b = .ok (Native.elementwise o a b) := by
  have hout := Tensor.size_data_zeros (α := α) hres
  have hn : (Tensor.meetShape a b).extent < 2 ^ 64 := Tensor.lt_of_mul_stride hres
  have hma : a.rank ≠ 0 → Tensor.meetShape a b = a.shape := Tensor.meetShape_left
  have hmb : b.rank ≠ 0 → Tensor.meetShape a b = b.shape := Tensor.meetShape_right hs
  have hcomplex : b.isComplex = a.isComplex := Tensor.isComplex_congr hd
  unfold elementwise Native.elementwise
  dsimp only
  rw [toNat_numel_of_lt hn]
  cases hr : a.isComplex with
  | true =>
    have hdt := Tensor.isComplex_eq_true_iff.1 hr
    rw [if_pos rfl, if_pos rfl, fillPairs_eq (by rw [hout, if_pos hdt]) fun i hi => by
      rw [complexAt_eq ha (Tensor.meetIndex_lt hma hi),
        complexAt_eq hb (Tensor.meetIndex_lt hmb hi)]
      rfl]
    rfl
  | false =>
    have hdt := Tensor.isComplex_eq_false_iff.1 hr
    rw [if_neg Bool.false_ne_true, if_neg Bool.false_ne_true,
      revise_ofFn (v := fun i => Native.applyReal o (a.get (a.meetIndex i)) (b.get (b.meetIndex i)))
        (by rw [hout, if_neg hdt, Nat.mul_one]) fun i hi => ?_]
    · rfl
    · rw [read_data ha hr (Tensor.meetIndex_lt hma hi),
        read_data hb (hcomplex.trans hr) (Tensor.meetIndex_lt hmb hi)]
      exact .inr rfl

omit [Arith α] [Scalar α] in
/-- The places of the factors that meet in an entry of a product. -/
theorem factor_places {a b : Tensor α} (hra : a.rank = 2) (hrb : b.rank = 2)
    (hinner : a.cols = b.rows) {c : Nat} (hc : c < a.rows * b.cols) {p : Nat}
    (hp : p ∈ List.range a.cols) :
    c / b.cols * a.cols + p < a.shape.extent ∧ p * b.cols + c % b.cols < b.shape.extent := by
  have hp' := List.mem_range.1 hp
  rw [Tensor.extent_of_rank hra, Tensor.extent_of_rank hrb]
  exact ⟨Grid.place_lt (Grid.row_lt hc) hp', Grid.place_lt (hinner ▸ hp') (Grid.col_lt hc)⟩

/-- **A matrix product stays inside payloads of the true size.** -/
theorem matmul_eq {a b : Tensor α} (ha : a.IsFull) (hb : b.IsFull) (hra : a.rank = 2)
    (hrb : b.rank = 2) (hd : a.dtype = b.dtype) (hinner : a.cols = b.rows)
    (hres : a.rows * b.cols * (Tensor.stride a.dtype).toNat < 2 ^ 64) :
    matmul a b = .ok (Native.matmul a b) := by
  have hshape : Shape.extent [a.shape.getD 0 0, b.shape.getD 1 0] = a.rows * b.cols :=
    extent_two _ _
  have hout := Tensor.size_data_zeros (α := α) (s := [a.shape.getD 0 0, b.shape.getD 1 0])
    (d := a.dtype) (by rwa [hshape])
  have hn : a.rows * b.cols < 2 ^ 64 := Tensor.lt_of_mul_stride hres
  have hcomplex : b.isComplex = a.isComplex := Tensor.isComplex_congr hd
  have hentries : (List.range (a.rows * a.cols)).mapM (complexAt a) =
      .ok ((List.range (a.rows * a.cols)).map a.complexAt) := mapM_eq fun i hi =>
    complexAt_eq ha (by rwa [Tensor.extent_of_rank hra, ← List.mem_range])
  rw [hshape] at hout
  unfold matmul Native.matmul
  dsimp only
  rw [toNat_numel_of_lt (by rwa [hshape]), hshape, hentries, ok_bind]
  cases hr : a.isComplex with
  | true =>
    have hdt := Tensor.isComplex_eq_true_iff.1 hr
    rw [if_pos rfl, if_pos rfl, fillPairs_eq (by rw [hout, if_pos hdt]) fun c hc =>
      foldlM_eq _ fun s p hp => by
        obtain ⟨hleft, hright⟩ := factor_places hra hrb hinner hc hp
        rw [complexAt_eq ha hleft, complexAt_eq hb hright]
        rfl]
    rfl
  | false =>
    have hdt := Tensor.isComplex_eq_false_iff.1 hr
    have hout' : (Tensor.zeros [a.shape.getD 0 0, b.shape.getD 1 0] a.dtype : Tensor α).data.size =
        a.rows * b.cols := by rw [hout, if_neg hdt, Nat.mul_one]
    rw [if_neg Bool.false_ne_true, if_neg Bool.false_ne_true,
      fill_eq (v := fun c => Scalar.sumTo a.cols fun p =>
        a.get (c / b.cols * a.cols + p) * b.get (p * b.cols + c % b.cols)) hout' fun c hc =>
      foldlM_eq _ fun s p hp => by
        obtain ⟨hleft, hright⟩ := factor_places hra hrb hinner hc hp
        rw [read_data ha hr hleft, read_data hb (hcomplex.trans hr) hright]
        rfl]
    rfl

/-! ## Reductions -/

/-- A tensor of one number. -/
def scalar (x : α) (d : DType) : Guarded (Tensor α) :=
  make (if d = .c128 then Tensor.ofComplex [] [(x, 0)] else Tensor.ofValues [] #[x] d)

/-- A tensor of one complex number, or of its real part. -/
def single (z : Cplx α) (d : DType) : Guarded (Tensor α) :=
  if d = .c128 then make (Tensor.ofComplex [] [z]) else scalar z.1 d

/-- The sum of all elements. -/
def total (a : Tensor α) : Guarded (Cplx α) := do
  let zs ← (List.range a.count.toNat).mapM (complexAt a)
  .ok (Scalar.sum (zs.map Prod.fst), if a.isComplex then Scalar.sum (zs.map Prod.snd) else 0)

/-- The mean of all elements. -/
def mean (a : Tensor α) : Guarded (Cplx α) := do
  .ok (Cplx.divReal (← total a) (a.count.toNat : α))

/-- The standard deviation of all elements. -/
def deviation (a : Tensor α) : Guarded α := do
  let μ ← mean a
  let squares ← (List.range a.count.toNat).mapM fun i => do
    .ok (Cplx.normSq (Cplx.sub (← complexAt a i) μ))
  .ok (Scalar.sqrt (Scalar.sum squares / (a.count.toNat : α)))

/-- The least or the greatest element, or one that is not a number. -/
def extreme (pick : α → α → α) (a : Tensor α) : Guarded α := do
  let first ← read a.data 0
  let xs ← (List.range a.count.toNat).mapM (read a.data)
  .ok (match xs.find? Scalar.isNaN with
    | some x => x
    | none => xs.foldl pick first)

/-- The loops of a reduction. -/
def reduce (o : Op) (a : Tensor α) : Guarded (Tensor α) :=
  match o with
  | .mean => do single (← mean a) a.dtype
  | .std => do scalar (← deviation a) (Op.std.resultType a.dtype)
  | .min => do scalar (← extreme Scalar.min a) a.dtype
  | .max => do scalar (← extreme Scalar.max a) a.dtype
  | _ => do single (← total a) a.dtype

theorem scalar_eq (x : α) (d : DType) : scalar x d = .ok (Tensor.scalar x d) := by
  cases d <;> rfl

theorem single_eq (z : Cplx α) (d : DType) : single z d = .ok (Native.single z d) := by
  cases d <;> rfl

section Reductions

variable {a : Tensor α} (ha : a.IsFull) (hn : a.shape.extent < 2 ^ 64)

include ha hn

theorem total_eq : total a = .ok (Native.total a) := by
  have hzs : (List.range a.count.toNat).mapM (complexAt a) =
      .ok ((List.range a.count.toNat).map a.complexAt) := mapM_eq fun i hi => by
    rw [Tensor.count, toNat_numel_of_lt hn] at hi
    exact complexAt_eq ha (List.mem_range.1 hi)
  rw [total, hzs]
  rfl

theorem mean_eq : mean a = .ok (Native.mean a) := by
  rw [mean, total_eq ha hn]
  rfl

theorem deviation_eq : deviation a = .ok (Native.deviation a) := by
  have hsquares : ((List.range a.count.toNat).mapM fun i => do
      .ok (Cplx.normSq (Cplx.sub (← complexAt a i) (Native.mean a))) : Guarded (List α)) =
      .ok ((List.range a.count.toNat).map fun i =>
        Cplx.normSq (Cplx.sub (a.complexAt i) (Native.mean a))) := mapM_eq fun i hi => by
    rw [Tensor.count, toNat_numel_of_lt hn] at hi
    rw [complexAt_eq ha (List.mem_range.1 hi)]
    rfl
  rw [deviation, mean_eq ha hn]
  change ((List.range a.count.toNat).mapM fun i => do
      .ok (Cplx.normSq (Cplx.sub (← complexAt a i) (Native.mean a)))) >>= _ = _
  rw [hsquares]
  rfl

theorem extreme_eq (pick : α → α → α) (hr : a.isComplex = false) (h0 : 0 < a.shape.extent) :
    extreme pick a = .ok (Native.extreme pick a) := by
  have hxs : (List.range a.count.toNat).mapM (read a.data) =
      .ok ((List.range a.count.toNat).map a.get) := mapM_eq fun i hi => by
    rw [Tensor.count, toNat_numel_of_lt hn] at hi
    exact read_data ha hr (List.mem_range.1 hi)
  rw [extreme, read_data ha hr h0]
  change ((List.range a.count.toNat).mapM (read a.data) >>= _) = _
  rw [hxs]
  rfl

/-- **A reduction stays inside a payload of the true size.** -/
theorem reduce_eq {o : Op} (h : o = .min ∨ o = .max → a.isComplex = false ∧ 0 < a.shape.extent) :
    reduce o a = .ok (Native.reduce o a) := by
  unfold reduce Native.reduce
  cases o with
  | mean =>
    dsimp only
    rw [mean_eq ha hn]
    exact single_eq _ _
  | std =>
    dsimp only
    rw [deviation_eq ha hn]
    exact scalar_eq _ _
  | min =>
    dsimp only
    rw [extreme_eq ha hn _ (h (.inl rfl)).1 (h (.inl rfl)).2]
    exact scalar_eq _ _
  | max =>
    dsimp only
    rw [extreme_eq ha hn _ (h (.inr rfl)).1 (h (.inr rfl)).2]
    exact scalar_eq _ _
  | _ =>
    dsimp only
    rw [total_eq ha hn]
    exact single_eq _ _

end Reductions

end Guarded

end MemoFlow

/-! ## Fourier transforms with checked places -/

namespace MemoFlow

/-! ## Powers of two -/

namespace Fourier

variable {α : Type} [Arith α] [Scalar α]

theorem exists_of_isPowerOfTwo {n : Nat} (h : isPowerOfTwo n = true) : ∃ k, n = 2 ^ k := by
  obtain ⟨h0, hand⟩ : n ≠ 0 ∧ n &&& (n - 1) = 0 := by simpa [isPowerOfTwo] using h
  exact (Nat.and_sub_one_eq_zero_iff_isPowerOfTwo h0).1 hand

theorem carry_lt {j bit k : Nat} (hj : j < 2 ^ k) (hb : bit < 2 ^ k) : carry j bit < 2 ^ k := by
  induction j, bit using carry.induct with
  | case1 j bit h ih =>
    rw [carry, if_pos h]
    refine ih (Nat.xor_lt_two_pow hj hb) ?_
    rw [Nat.shiftRight_eq_div_pow]
    omega
  | case2 j bit h =>
    rw [carry, if_neg h]
    exact Nat.xor_lt_two_pow hj hb

omit [Arith α] [Scalar α] in
theorem size_reorder (vs : Array (Cplx α)) : (reorder vs).size = vs.size := by
  have hfold : ∀ (l : List Nat) (s : Nat × Array (Cplx α)),
      (l.foldl (reorderStep vs.size) s).2.size = s.2.size := by
    intro l
    induction l with
    | nil => intro s; rfl
    | cons i l ih =>
      intro s
      rw [List.foldl_cons, ih, reorderStep]
      dsimp only
      split <;> simp
  exact hfold _ _

theorem size_butterflies (inverse : Bool) (len : Nat) (vs : Array (Cplx α)) :
    (butterflies inverse len vs).size = vs.size := by simp [butterflies]

theorem size_transformValues (inverse : Bool) (vs : Array (Cplx α)) :
    (transformValues inverse vs).size = vs.size := by
  have hstages : ∀ (l : List Nat) (ws : Array (Cplx α)),
      (l.foldl (fun vs s => butterflies inverse (Nat.pow 2 (s + 1)) vs) ws).size = ws.size := by
    intro l
    induction l with
    | nil => intro ws; rfl
    | cons s l ih =>
      intro ws
      rw [List.foldl_cons, ih, size_butterflies]
  have hsize : (if isPowerOfTwo vs.size = true then radix2 inverse vs
      else direct inverse vs).size = vs.size := by
    split
    · rw [radix2, hstages, size_reorder]
    · simp [direct]
  unfold transformValues
  dsimp only
  split
  · rw [Array.size_map, hsize]
  · exact hsize

end Fourier

namespace Guarded

variable {α β : Type} [Arith α] [Scalar α]

/-! ## Transforms with checked places -/

/-- Exchange two places. -/
def swap (xs : Array β) (i j : Nat) : Guarded (Array β) :=
  if i < xs.size ∧ j < xs.size then .ok (xs.swapIfInBounds i j) else .error .outside

/-- Count on in reversed bits, and exchange an index with its reversal once. -/
def reorderStep (n : Nat) (s : Nat × Array (Cplx α)) (i : Nat) :
    Guarded (Nat × Array (Cplx α)) := do
  let j := Fourier.carry s.1 (n >>> 1)
  if i < j then .ok (j, ← swap s.2 i j) else .ok (j, s.2)

/-- The elements in the order of their reversed indices. -/
def reorder (vs : Array (Cplx α)) : Guarded (Array (Cplx α)) := do
  let s ← (List.range' 1 (vs.size - 1)).foldlM (reorderStep vs.size) (0, vs)
  .ok s.2

/-- One stage of the fast transform, over all blocks of a length. -/
def butterflies (inverse : Bool) (len : Nat) (vs : Array (Cplx α)) : Guarded (Array (Cplx α)) :=
  let angle : α := Scalar.two * Scalar.pi / (len : α) * Fourier.sign inverse
  let half := len / 2
  revise vs.size (fun p => do
    let k := p % len
    if k < half then
      let u ← read vs p
      let v ← read vs (p + half)
      .ok (some (Cplx.add u (Scalar.mulC v (Scalar.cis (angle * (k : α))))))
    else
      let u ← read vs (p - half)
      let v ← read vs p
      .ok (some (Cplx.sub u (Scalar.mulC v (Scalar.cis (angle * ((k - half : Nat) : α))))))) vs

/-- The fast transform: the elements are reordered, then the stages follow. -/
def radix2 (inverse : Bool) (vs : Array (Cplx α)) : Guarded (Array (Cplx α)) := do
  let ws ← reorder vs
  (List.range vs.size.log2).foldlM
    (fun ws s => butterflies inverse (Nat.pow 2 (s + 1)) ws) ws

/-- The transform from its definition. -/
def direct (inverse : Bool) (vs : Array (Cplx α)) : Guarded (Array (Cplx α)) :=
  let n := vs.size
  revise n (fun k => do
    .ok (some (← (List.range n).foldlM (fun s t => do
      let phase : α := ((k * t % Nat.pow 2 64 % n : Nat) : α)
      .ok (Cplx.add s (Scalar.mulC (← read vs t)
        (Scalar.cis (Fourier.sign inverse * Scalar.two * Scalar.pi * phase / (n : α))))))
      Cplx.zero))) (Array.replicate n Cplx.zero)

/-- The loops of a transform in either direction. -/
def transform (inverse : Bool) (a : Tensor α) : Guarded (Tensor α) := do
  let n := a.count.toNat
  let vs ← revise n (fun i => do .ok (some (← complexAt a i))) (Array.replicate n Cplx.zero)
  let ws ← (if Fourier.isPowerOfTwo vs.size then radix2 inverse vs else direct inverse vs)
  let ws := if inverse then ws.map fun z => Cplx.divReal z (vs.size : α) else ws
  make (Tensor.ofComplex [a.count] ws.toList)

/-! ## No misstep -/

omit [Arith α] [Scalar α] in
/-- **The exchanges stay inside**: a reversed index is below the length, a power of two. -/
theorem reorder_eq {vs : Array (Cplx α)} {k : Nat} (h : vs.size = 2 ^ k) :
    reorder vs = .ok (Fourier.reorder vs) := by
  have hloop : (List.range' 1 (vs.size - 1)).foldlM (reorderStep vs.size) (0, vs) =
      .ok ((List.range' 1 (vs.size - 1)).foldl (Fourier.reorderStep vs.size) (0, vs)) := by
    refine (foldlM_eq_of (P := fun s => s.1 < 2 ^ k ∧ s.2.size = vs.size)
      ⟨Nat.two_pow_pos k, rfl⟩ ?_).1
    rintro ⟨j, ws⟩ ⟨hj, hws⟩ i hi
    dsimp only at hj hws
    have hlt : Fourier.carry j (vs.size >>> 1) < 2 ^ k := by
      refine Fourier.carry_lt hj ?_
      rw [h, Nat.shiftRight_eq_div_pow]
      exact Nat.div_lt_self (Nat.two_pow_pos k) (by decide)
    obtain ⟨hi1, hi2⟩ : 1 ≤ i ∧ i < vs.size := by
      have hmem := List.mem_range'_1.1 hi
      omega
    unfold reorderStep Fourier.reorderStep
    dsimp only
    by_cases hij : i < Fourier.carry j (vs.size >>> 1)
    · rw [if_pos hij, if_pos hij, swap, if_pos ⟨by omega, by omega⟩]
      exact ⟨rfl, hlt, by simp [hws]⟩
    · rw [if_neg hij, if_neg hij]
      exact ⟨rfl, hlt, hws⟩
  rw [reorder, hloop]
  rfl

/-- **A stage stays inside** when its blocks fill the values. -/
theorem butterflies_eq (inverse : Bool) {len : Nat} {vs : Array (Cplx α)} (h : len ∣ vs.size)
    (heven : 2 ∣ len) : butterflies inverse len vs = .ok (Fourier.butterflies inverse len vs) := by
  have hright : ∀ p < vs.size, p % len < len / 2 → p + len / 2 < vs.size := fun p hp hk => by
    obtain ⟨c, hc⟩ := h
    have hq : p / len < c := Nat.div_lt_of_lt_mul (hc ▸ hp)
    have hblock : len * (p / len) + len ≤ len * c := by
      rw [← Nat.mul_succ]
      exact Nat.mul_le_mul_left len hq
    have hp' := Nat.div_add_mod p len
    omega
  unfold butterflies Fourier.butterflies
  dsimp only
  refine revise_eq rfl Array.size_ofFn fun p hp => .inr ?_
  rw [Array.getElem?_ofFn, dif_pos hp]
  dsimp only
  by_cases hk : p % len < len / 2
  · rw [if_pos hk, if_pos hk, read_eq hp Cplx.zero, read_eq (hright p hp hk) Cplx.zero]
    rfl
  · rw [if_neg hk, if_neg hk, read_eq (by omega) Cplx.zero, read_eq hp Cplx.zero]
    rfl

theorem radix2_eq (inverse : Bool) {vs : Array (Cplx α)} {k : Nat} (h : vs.size = 2 ^ k) :
    radix2 inverse vs = .ok (Fourier.radix2 inverse vs) := by
  have hlog : vs.size.log2 = k := by rw [h, Nat.log2_two_pow]
  have hloop : (List.range vs.size.log2).foldlM
      (fun ws s => butterflies inverse (Nat.pow 2 (s + 1)) ws) (Fourier.reorder vs) =
      .ok (Fourier.radix2 inverse vs) := by
    refine (foldlM_eq_of (P := fun ws => ws.size = 2 ^ k) ?_ ?_).1
    · rw [Fourier.size_reorder, h]
    · intro ws hws s hs
      have hs' : s < k := hlog ▸ List.mem_range.1 hs
      have hdvd : Nat.pow 2 (s + 1) ∣ ws.size := by
        rw [hws]
        exact Nat.pow_dvd_pow 2 hs'
      refine ⟨butterflies_eq inverse hdvd ?_, by rw [Fourier.size_butterflies, hws]⟩
      exact Nat.dvd_mul_left 2 (2 ^ s)
  rw [radix2, reorder_eq h]
  exact hloop

theorem direct_eq (inverse : Bool) (vs : Array (Cplx α)) :
    direct inverse vs = .ok (Fourier.direct inverse vs) := by
  unfold direct Fourier.direct
  dsimp only
  refine revise_eq Array.size_replicate Array.size_ofFn fun k hk => .inr ?_
  rw [Array.getElem?_ofFn, dif_pos hk, foldlM_eq _ fun s t ht => ?_]
  · rfl
  rw [read_eq (List.mem_range.1 ht) Cplx.zero]
  rfl

omit [Scalar α] in
theorem interleave_value (ws : Array (Cplx α)) :
    Native.interleave ws.size (Fourier.value ws) =
      (ws.toList.flatMap fun z => [z.1, z.2]).toArray := by
  have hlist : ws.toList = (List.range ws.size).map (Fourier.value ws) := by
    refine List.ext_getElem (by simp) fun i h1 h2 => ?_
    have hi : i < ws.size := by simpa using h1
    simp [Fourier.value, hi]
  rw [hlist, List.flatMap_map]
  rfl

/-- **A transform stays inside a payload of the true size.** -/
theorem transform_eq (inverse : Bool) {a : Tensor α} (ha : a.IsFull)
    (hn : a.shape.extent < 2 ^ 64) :
    transform inverse a = .ok (Fourier.transform inverse a) := by
  have hcount : a.count.toNat = a.shape.extent := toNat_numel_of_lt hn
  have hvs : revise a.count.toNat (fun i => do .ok (some (← complexAt a i)))
      (Array.replicate a.count.toNat Cplx.zero) =
      .ok (Array.ofFn fun i : Fin a.count.toNat => a.complexAt i) :=
    fill_eq (by simp) fun i hi => complexAt_eq ha (hcount ▸ hi)
  unfold transform Fourier.transform
  dsimp only
  rw [hvs]
  generalize hv : (Array.ofFn fun i : Fin a.count.toNat => a.complexAt i) = vs
  have hsize : vs.size = a.count.toNat := by rw [← hv, Array.size_ofFn]
  have hws : (if Fourier.isPowerOfTwo vs.size = true then radix2 inverse vs
      else direct inverse vs) = .ok (if Fourier.isPowerOfTwo vs.size = true then
        Fourier.radix2 inverse vs else Fourier.direct inverse vs) := by
    split
    · next hpow =>
      obtain ⟨k, hk⟩ := Fourier.exists_of_isPowerOfTwo hpow
      exact radix2_eq inverse hk
    · exact direct_eq inverse vs
  change ((if Fourier.isPowerOfTwo vs.size = true then radix2 inverse vs
      else direct inverse vs) >>= _) = _
  rw [hws]
  change make (Tensor.ofComplex [a.count] (Fourier.transformValues inverse vs).toList) = _
  have hlen : (Fourier.transformValues inverse vs).toList.length = (numel [a.count]).toNat := by
    rw [Array.length_toList, Fourier.size_transformValues, hsize, toNat_numel_of_lt] <;>
      simp [a.count.toNat_lt]
  rw [Tensor.ofComplex_eq_ok.2 ⟨hlen, rfl⟩, interleave_value]
  rfl

end Guarded

end MemoFlow
