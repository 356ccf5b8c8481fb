import MemoFlow.Proofs.Tensor.Exact

/-!
# Sizes of tensors, and loops with checked places

The number of elements of a shape is a product of 64-bit words, and it is a word itself: it wraps.
A payload that fits the word fills its shape exactly when the product, without a bound, is below
`2 ^ 64`.

The loops over payloads are written once more, with each place checked when it is read or written,
in payloads of the very sizes that are allocated. Places are counted without a bound, and allocated
sizes wrap.

* `Shape.extent`, `Tensor.extent`, `Tensor.IsFull`: sizes without a bound;
* `toNat_numel`, `Tensor.toNat_payloadSize`: words of sizes;
* `Tensor.isFull_ofValues_iff`, `Tensor.isFull_ofComplex_iff`, **`Op.isFull_of_check_iff`**:
  payloads that are accepted;
* `Misstep`, **`Guarded`**: runs that check each place;
* `Guarded.read`, `Guarded.put`, `Guarded.revise`: one place, and all places of a payload;
* `Guarded.foldlM_range`, `Guarded.foldlM_eq`, `Guarded.mapM_eq`: loops without a misstep;
* **`Guarded.revise_eq_of_le`**: a payload that is written place by place;
* `Grid.Fits`, `Grid.cell`, `Grid.revise`, `Grid.build`: the same for matrices.
-/

/-! ## True sizes of tensors -/

namespace MemoFlow

/-- The number of elements of a shape. -/
def Shape.extent (s : Shape) : Nat := (s.map UInt64.toNat).prod

/-- **The word of a size** is what is left of it modulo `2 ^ 64`. -/
theorem toNat_numel (s : Shape) : (numel s).toNat = s.extent % 2 ^ 64 := by
  have hfold : ∀ (w : UInt64) (s : Shape),
      (s.foldl (· * ·) w).toNat = w.toNat * s.extent % 2 ^ 64 := by
    intro w s
    induction s generalizing w with
    | nil => simp [Shape.extent, Nat.mod_eq_of_lt w.toNat_lt]
    | cons d s ih =>
      rw [List.foldl_cons, ih, UInt64.toNat_mul, Nat.mod_mul_mod, Nat.mul_assoc]
      rfl
  exact (hfold 1 s).trans (by rw [UInt64.toNat_one, Nat.one_mul])

theorem toNat_numel_of_lt {s : Shape} (h : s.extent < 2 ^ 64) : (numel s).toNat = s.extent := by
  rw [toNat_numel, Nat.mod_eq_of_lt h]

@[simp] theorem extent_one (n : UInt64) : Shape.extent [n] = n.toNat := by simp [Shape.extent]

@[simp] theorem extent_two (m n : UInt64) : Shape.extent [m, n] = m.toNat * n.toNat := by
  simp [Shape.extent]

theorem mod_eq_self_iff {n : Nat} : n % 2 ^ 64 = n ↔ n < 2 ^ 64 := by omega

namespace Tensor

variable {α : Type}

/-- The numbers that the payload of a tensor should hold. -/
def extent (t : Tensor α) : Nat := t.shape.extent * (stride t.dtype).toNat

/-- **A payload of the true size**: each element of the shape has its numbers. -/
def IsFull (t : Tensor α) : Prop := t.data.size = t.extent

theorem toNat_stride (d : DType) : (stride d).toNat = if d = .c128 then 2 else 1 := by
  cases d <;> rfl

theorem lt_of_mul_stride {n m : Nat} {d : DType} (h : n * (stride d).toNat < m) : n < m := by
  rw [toNat_stride] at h
  split at h <;> omega

theorem isComplex_eq_true_iff {t : Tensor α} : t.isComplex = true ↔ t.dtype = .c128 :=
  decide_eq_true_iff

theorem isComplex_eq_false_iff {t : Tensor α} : t.isComplex = false ↔ t.dtype ≠ .c128 :=
  decide_eq_false_iff_not

theorem isComplex_congr {t u : Tensor α} (h : t.dtype = u.dtype) : u.isComplex = t.isComplex := by
  rw [isComplex, isComplex, h]

theorem toNat_payloadSize (t : Tensor α) : t.payloadSize.toNat = t.extent % 2 ^ 64 := by
  rw [payloadSize, UInt64.toNat_mul, count, toNat_numel, Nat.mod_mul_mod]
  rfl

theorem isFull_iff_of_size {t : Tensor α} (h : t.data.size = t.payloadSize.toNat) :
    t.IsFull ↔ t.extent < 2 ^ 64 := by
  rw [IsFull, h, toNat_payloadSize, mod_eq_self_iff]

theorem size_of_real {t : Tensor α} (ht : t.IsFull) (hr : t.isComplex = false) :
    t.data.size = t.shape.extent := by
  rw [ht, extent, toNat_stride, if_neg (isComplex_eq_false_iff.1 hr), Nat.mul_one]

theorem size_of_complex {t : Tensor α} (ht : t.IsFull) (hr : t.isComplex = true) :
    t.data.size = t.shape.extent * 2 := by
  rw [ht, extent, toNat_stride, if_pos (isComplex_eq_true_iff.1 hr)]

theorem extent_of_rank {t : Tensor α} (h : t.rank = 2) : t.shape.extent = t.rows * t.cols := by
  obtain ⟨m, n, hs⟩ := List.length_eq_two.1 h
  rw [rows, cols, hs]
  exact extent_two m n

theorem meetShape_left {a b : Tensor α} (h : a.rank ≠ 0) : meetShape a b = a.shape := if_neg h

theorem meetShape_right {a b : Tensor α} (hs : a.shape = b.shape ∨ a.rank = 0 ∨ b.rank = 0)
    (h : b.rank ≠ 0) : meetShape a b = b.shape := by
  by_cases h0 : a.rank = 0
  · exact if_pos h0
  · rw [meetShape_left h0]
    simpa [h, h0] using hs

theorem meetIndex_lt {t : Tensor α} {s : Shape} (h : t.rank ≠ 0 → s = t.shape) {i : Nat}
    (hi : i < s.extent) : t.meetIndex i < t.shape.extent := by
  unfold meetIndex
  by_cases hr : t.rank = 0
  · have hnil : t.shape = [] := List.length_eq_zero_iff.1 hr
    rw [if_pos hr, hnil]
    decide
  · rw [if_neg hr, ← h hr]
    exact hi

section Makers

/-- The allocated payload of a result. -/
theorem size_data_zeros [Arith α] {s : Shape} {d : DType}
    (h : s.extent * (stride d).toNat < 2 ^ 64) :
    (zeros s d : Tensor α).data.size = s.extent * if d = .c128 then 2 else 1 := by
  rw [toNat_stride] at h
  rw [zeros, Array.size_replicate, UInt64.toNat_mul, toNat_numel, Nat.mod_mul_mod,
    toNat_stride, Nat.mod_eq_of_lt h]

variable [Scalar α]

@[simp] theorem shape_rounded (t : Tensor α) : t.rounded.shape = t.shape := by
  unfold rounded
  split <;> rfl

@[simp] theorem dtype_rounded (t : Tensor α) : t.rounded.dtype = t.dtype := by
  unfold rounded
  split <;> rfl

@[simp] theorem size_data_rounded (t : Tensor α) : t.rounded.data.size = t.data.size := by
  unfold rounded
  split <;> simp

@[simp] theorem extent_rounded (t : Tensor α) : t.rounded.extent = t.extent := by simp [extent]

theorem ofValues_eq_ok {s : Shape} {vs : Array α} {d : DType} {t : Tensor α} :
    ofValues s vs d = .ok t ↔
      d ≠ .c128 ∧ vs.size = (numel s).toNat ∧ t = rounded ⟨d, s, vs, .native⟩ := by
  unfold ofValues
  by_cases hd : d = .c128
  · simp [hd]
  · by_cases hs : vs.size = (numel s).toNat
    · simp [hd, hs, eq_comm]
    · simp [hd, hs]

omit [Scalar α] in
theorem ofComplex_eq_ok {s : Shape} {vs : List (Cplx α)} {t : Tensor α} :
    ofComplex s vs = .ok t ↔ vs.length = (numel s).toNat ∧
      t = ⟨.c128, s, (vs.flatMap fun z => [z.1, z.2]).toArray, .native⟩ := by
  unfold ofComplex
  by_cases hs : vs.length = (numel s).toNat
  · simp [hs, eq_comm]
  · simp [hs]

theorem isFull_ofValues_iff {s : Shape} {vs : Array α} {d : DType} {t : Tensor α}
    (h : ofValues s vs d = .ok t) : t.IsFull ↔ s.extent < 2 ^ 64 := by
  obtain ⟨hd, hs, rfl⟩ := ofValues_eq_ok.1 h
  rw [IsFull, extent_rounded, size_data_rounded, hs, toNat_numel, extent, toNat_stride, if_neg hd,
    Nat.mul_one, mod_eq_self_iff]

theorem length_flatMap_parts {β : Type} (vs : List (Cplx β)) :
    (vs.flatMap fun z => [z.1, z.2]).length = vs.length * 2 := by
  induction vs with
  | nil => rfl
  | cons z vs ih =>
    rw [List.flatMap_cons, List.length_append, ih, List.length_cons]
    simp only [List.length_cons, List.length_nil]
    omega

omit [Scalar α] in
theorem isFull_ofComplex_iff {s : Shape} {vs : List (Cplx α)} {t : Tensor α}
    (h : ofComplex s vs = .ok t) : t.IsFull ↔ s.extent < 2 ^ 64 := by
  obtain ⟨hs, rfl⟩ := ofComplex_eq_ok.1 h
  change (vs.flatMap fun z => [z.1, z.2]).length = s.extent * 2 ↔ _
  rw [length_flatMap_parts, hs, toNat_numel]
  omega

end Makers

end Tensor

/-! ## Checked operands -/

namespace Op

variable {α : Type} [Arith α] [Scalar α]

/-- **Checked operands have payloads of the true size** exactly as far as sizes do not wrap. -/
theorem isFull_of_check_iff {o : Op} {e : Engine} {args : List (Tensor α)}
    (hc : o.check args e = .ok ()) {t : Tensor α} (ht : t ∈ args) : t.IsFull ↔ t.extent < 2 ^ 64 :=
  Tensor.isFull_iff_of_size ((check_eq_ok.1 hc).2.1 t ht).2

omit [Arith α] [Scalar α] in
theorem checkElementwise_eq_ok {o : Op} {a b : Tensor α} : o.checkElementwise a b = .ok () ↔
    a.dtype = b.dtype ∧ (a.shape = b.shape ∨ a.rank = 0 ∨ b.rank = 0) := by
  rw [checkElementwise, refuseIf_bind_eq_ok, refuseIf_eq_ok]
  refine and_congr (by simp) ?_
  by_cases hs : a.shape = b.shape <;> by_cases ha : a.rank = 0 <;> simp [hs, ha]

omit [Arith α] [Scalar α] in
theorem checkProduct_eq_ok {o : Op} {a b : Tensor α} : o.checkProduct a b = .ok () ↔
    a.rank = 2 ∧ b.rank = 2 ∧ a.dtype = b.dtype ∧ a.shape.getD 1 0 = b.shape.getD 0 0 := by
  rw [checkProduct, checkRank, checkRank, refuseIf_bind_eq_ok, refuseIf_bind_eq_ok,
    refuseIf_bind_eq_ok, refuseIf_eq_ok]
  simp

omit [Arith α] [Scalar α] in
theorem checkReduction_eq_ok {o : Op} {a : Tensor α} : o.checkReduction a = .ok () ↔
    (o = .min ∨ o = .max → a.isComplex = false) ∧ (o ≠ .sum → a.count ≠ 0) := by
  cases o with
  | sum => exact ⟨fun _ => ⟨by simp, by simp⟩, fun _ => rfl⟩
  | _ => simp [checkReduction, checkReal, checkNonempty, refuseIf_bind_eq_ok, refuseIf_eq_ok]

theorem checkDecomposition_of_ok {o : Op} {a : Tensor α} (h : o.checkDecomposition a = .ok ()) :
    a.rank = 2 ∧ a.isComplex = false ∧
      (o = .lu ∨ o = .cholesky ∨ o = .eigh → a.shape.getD 0 0 = a.shape.getD 1 0) ∧
      (o = .qr → a.shape.getD 1 0 ≤ a.shape.getD 0 0) := by
  rw [checkDecomposition, checkRank, refuseIf_bind_eq_ok, checkReal, refuseIf_bind_eq_ok,
    checkNonempty, refuseIf_bind_eq_ok] at h
  obtain ⟨hrank, hreal, -, h⟩ := h
  refine ⟨not_not.1 (of_decide_eq_false hrank), hreal, ?_⟩
  cases o with
  | lu | cholesky | eigh =>
    rw [if_pos (by decide), refuseIf_bind_eq_ok] at h
    simpa using h.1
  | qr => simpa [refuseIf_eq_ok] using h
  | _ => simp

end Op

end MemoFlow

/-! ## Loops with checked places -/

namespace MemoFlow

/-- How a run that checks its places ends without a result. -/
inductive Misstep where
  /-- A place outside a payload is read or written. -/
  | outside
  /-- The operation fails. -/
  | fails (e : OpFailure)
deriving DecidableEq

/-- **A run that checks its places.** -/
abbrev Guarded (β : Type) : Type := Except Misstep β

namespace Guarded

variable {β σ ι : Type}

/-- A failure of the operation itself. -/
def lift : Except OpFailure β → Guarded β
  | .ok x => .ok x
  | .error e => .error (.fails e)

/-- A tensor that a constructor makes. -/
def make : Except TensorError β → Guarded β
  | .ok x => .ok x
  | .error e => .error (.fails (.refused e))

/-- The result of an algorithm that may not have one. -/
def ofOption (e : OpFailure) : Option β → Guarded β
  | some x => .ok x
  | none => .error (.fails e)

/-- Read one place. -/
def read (xs : Array β) (i : Nat) : Guarded β :=
  if h : i < xs.size then .ok xs[i] else .error .outside

/-- Write one place, if there is something to write. -/
def put (xs : Array β) (i : Nat) : Option β → Guarded (Array β)
  | none => .ok xs
  | some x => if i < xs.size then .ok (xs.setIfInBounds i x) else .error .outside

/-- Write the places below `n` one after the other. -/
def revise (n : Nat) (f : Nat → Guarded (Option β)) (xs : Array β) : Guarded (Array β) :=
  (List.range n).foldlM (fun ys i => do put ys i (← f i)) xs

/-- An allocated payload of zeros. -/
def zeros [Zero β] (n : Nat) : Array β := Array.replicate (n % 2 ^ 64) 0

/-! ## Loops -/

theorem ok_bind {γ : Type} (x : β) (f : β → Guarded γ) : (Except.ok x >>= f) = f x := rfl

/-- A loop whose steps keep an invariant goes through. -/
theorem foldlM_range {n : Nat} {f : σ → Nat → Guarded σ} {P : Nat → σ → Prop} {s : σ} (h0 : P 0 s)
    (hstep : ∀ i < n, ∀ s, P i s → ∃ s', f s i = .ok s' ∧ P (i + 1) s') :
    ∃ s', (List.range n).foldlM f s = .ok s' ∧ P n s' := by
  induction n with
  | zero => exact ⟨s, rfl, h0⟩
  | succ n ih =>
    obtain ⟨t, ht, hP⟩ := ih fun i hi => hstep i (Nat.lt_succ_of_lt hi)
    obtain ⟨t', ht', hP'⟩ := hstep n (Nat.lt_succ_self n) t hP
    refine ⟨t', ?_, hP'⟩
    rw [List.range_succ, List.foldlM_append, ht]
    change [n].foldlM f t = _
    rw [List.foldlM_cons, ht']
    rfl

theorem foldlM_range_eq {n : Nat} {f : σ → Nat → Guarded σ} {g : σ → Nat → σ} {P : Nat → σ → Prop}
    {s : σ} (h0 : P 0 s) (hstep : ∀ i < n, ∀ s, P i s → f s i = .ok (g s i) ∧ P (i + 1) (g s i)) :
    (List.range n).foldlM f s = .ok ((List.range n).foldl g s) ∧
      P n ((List.range n).foldl g s) := by
  obtain ⟨s', hrun, rfl, hP⟩ := foldlM_range (n := n) (f := f)
    (P := fun i t => t = (List.range i).foldl g s ∧ P i t) ⟨rfl, h0⟩ fun i hi t ⟨ht, hP⟩ => by
      obtain ⟨hf, hP'⟩ := hstep i hi t hP
      refine ⟨g t i, hf, ?_, hP'⟩
      rw [List.range_succ, List.foldl_append, ← ht]
      rfl
  exact ⟨hrun, hP⟩

theorem foldlM_eq_of {l : List ι} {f : σ → ι → Guarded σ} {g : σ → ι → σ} {P : σ → Prop} {s : σ}
    (h0 : P s) (hstep : ∀ s, P s → ∀ i ∈ l, f s i = .ok (g s i) ∧ P (g s i)) :
    l.foldlM f s = .ok (l.foldl g s) ∧ P (l.foldl g s) := by
  induction l generalizing s with
  | nil => exact ⟨rfl, h0⟩
  | cons i l ih =>
    obtain ⟨hf, hP⟩ := hstep s h0 i List.mem_cons_self
    rw [List.foldlM_cons, hf, List.foldl_cons]
    exact ih hP fun s hs j hj => hstep s hs j (List.mem_cons_of_mem i hj)

theorem foldlM_eq {l : List ι} {f : σ → ι → Guarded σ} {g : σ → ι → σ} (s : σ)
    (hstep : ∀ s, ∀ i ∈ l, f s i = .ok (g s i)) : l.foldlM f s = .ok (l.foldl g s) :=
  (foldlM_eq_of (P := fun _ => True) trivial fun s _ i hi => ⟨hstep s i hi, trivial⟩).1

/-- A loop that ends early where there is no result. -/
theorem foldlM_ofOption {e : OpFailure} {l : List ι} {f : σ → ι → Guarded σ}
    {g : σ → ι → Option σ} {P : σ → Prop} {s : σ} (h0 : P s)
    (hstep : ∀ s, P s → ∀ i ∈ l, f s i = ofOption e (g s i) ∧ ∀ s', g s i = some s' → P s') :
    l.foldlM f s = ofOption e (l.foldlM g s) ∧ ∀ s', l.foldlM g s = some s' → P s' := by
  induction l generalizing s with
  | nil => exact ⟨rfl, fun s' hs' => Option.some.inj hs' ▸ h0⟩
  | cons i l ih =>
    obtain ⟨hf, hP⟩ := hstep s h0 i List.mem_cons_self
    rw [List.foldlM_cons, List.foldlM_cons, hf]
    cases hg : g s i with
    | none => exact ⟨rfl, nofun⟩
    | some s' => exact ih (hP s' hg) fun s hs j hj => hstep s hs j (List.mem_cons_of_mem i hj)

theorem mapM_eq {l : List ι} {f : ι → Guarded β} {g : ι → β} (h : ∀ i ∈ l, f i = .ok (g i)) :
    l.mapM f = .ok (l.map g) := by
  induction l with
  | nil => rfl
  | cons i l ih =>
    rw [List.mapM_cons, h i List.mem_cons_self, ih fun j hj => h j (List.mem_cons_of_mem i hj)]
    rfl

/-! ## Payloads -/

theorem read_eq {xs : Array β} {i : Nat} (h : i < xs.size) (d : β) :
    read xs i = .ok (xs.getD i d) := by
  rw [read, dif_pos h, Array.getD, dif_pos h]
  rfl

/-- The places below `k` are those of `zs`, the others are as before. -/
structure Written (zs xs : Array β) (k : Nat) (ys : Array β) : Prop where
  size : ys.size = xs.size
  new : ∀ i, i < k → ys[i]? = zs[i]?
  old : ∀ i, k ≤ i → ys[i]? = xs[i]?

theorem Written.put {zs xs ys : Array β} {k : Nat} (h : Written zs xs k ys) (hk : k < xs.size)
    (hz : k < zs.size) {x : Option β} (hx : x = none ∧ zs[k]? = xs[k]? ∨ x = zs[k]?) :
    ∃ ys', put ys k x = .ok ys' ∧ Written zs xs (k + 1) ys' := by
  have hk' : k < ys.size := h.size.symm ▸ hk
  obtain ⟨rfl, hv⟩ | rfl := hx
  · refine ⟨ys, rfl, h.size, fun i hi => ?_, fun i hi => h.old i (by omega)⟩
    by_cases hik : i = k
    · rw [hik, hv]
      exact h.old k le_rfl
    · exact h.new i (by omega)
  · rw [Array.getElem?_eq_getElem hz]
    refine ⟨ys.setIfInBounds k zs[k], if_pos hk', by simp [h.size], fun i hi => ?_, fun i hi => ?_⟩
    · by_cases hik : k = i
      · subst hik
        rw [Array.getElem?_setIfInBounds_self_of_lt hk', Array.getElem?_eq_getElem hz]
      · rw [Array.getElem?_setIfInBounds, if_neg hik]
        exact h.new i (by omega)
    · rw [Array.getElem?_setIfInBounds, if_neg (by omega)]
      exact h.old i (by omega)

/-- **A payload that is written place by place** holds what is written, and beyond that what was
there. -/
theorem revise_eq_of_le {n : Nat} {f : Nat → Guarded (Option β)} {xs zs : Array β}
    (hx : n ≤ xs.size) (hz : zs.size = xs.size)
    (h : ∀ i < n, f i = .ok none ∧ zs[i]? = xs[i]? ∨ f i = .ok zs[i]?)
    (hrest : ∀ i, n ≤ i → zs[i]? = xs[i]?) : revise n f xs = .ok zs := by
  have hloop : ∃ ys, revise n f xs = .ok ys ∧ Written zs xs n ys := by
    refine foldlM_range ⟨rfl, nofun, fun _ _ => rfl⟩ fun i hi ys hys => ?_
    obtain ⟨hf, hv⟩ | hf := h i hi
    · rw [hf]
      exact hys.put (by omega) (by omega) (.inl ⟨rfl, hv⟩)
    · rw [hf]
      exact hys.put (by omega) (by omega) (.inr rfl)
  obtain ⟨ys, hrun, hys⟩ := hloop
  rw [hrun]
  congr 1
  refine Array.ext_getElem? fun i => ?_
  by_cases hi : i < n
  · exact hys.new i hi
  · rw [hys.old i (by omega), hrest i (by omega)]

theorem revise_eq {n : Nat} {f : Nat → Guarded (Option β)} {xs zs : Array β} (hx : xs.size = n)
    (hz : zs.size = n) (h : ∀ i < n, f i = .ok none ∧ zs[i]? = xs[i]? ∨ f i = .ok zs[i]?) :
    revise n f xs = .ok zs :=
  revise_eq_of_le hx.ge (hz.trans hx.symm) h fun i hi => by
    rw [Array.getElem?_eq_none (by omega), Array.getElem?_eq_none (by omega)]

theorem revise_ofFn {n : Nat} {f : Nat → Guarded (Option β)} {v : Nat → β} {xs : Array β}
    (hn : xs.size = n)
    (h : ∀ i < n, f i = .ok none ∧ some (v i) = xs[i]? ∨ f i = .ok (some (v i))) :
    revise n f xs = .ok (Array.ofFn fun i : Fin n => v i) :=
  revise_eq hn Array.size_ofFn fun i hi => by
    rw [Array.getElem?_ofFn, dif_pos hi]
    exact h i hi

theorem fill_eq {n : Nat} {f : Nat → Guarded β} {v : Nat → β} {xs : Array β} (hn : xs.size = n)
    (h : ∀ i < n, f i = .ok (v i)) :
    revise n (fun i => do .ok (some (← f i))) xs = .ok (Array.ofFn fun i : Fin n => v i) :=
  revise_ofFn hn fun i hi => .inr (by rw [h i hi]; rfl)

theorem size_zeros [Zero β] {n : Nat} (h : n < 2 ^ 64) : (zeros n : Array β).size = n := by
  rw [zeros, Array.size_replicate, Nat.mod_eq_of_lt h]

end Guarded

/-! ## Matrices -/

namespace Grid

variable {α : Type}

/-- **A matrix whose entries are all in its payload.** -/
structure Fits (g : Grid α) (m n : Nat) : Prop where
  cols : g.cols = n
  size : g.data.size = m * n

theorem fits_tabulate (m n : Nat) (f : Nat → Nat → α) : (tabulate m n f).Fits m n :=
  ⟨rfl, by simp⟩

/-- An entry, with its place checked. -/
def cell (g : Grid α) (i j : Nat) : Guarded α := Guarded.read g.data (i * g.cols + j)

/-- Write the entries of an `m × n` matrix in place. -/
def revise (m n : Nat) (f : Nat → Nat → Guarded (Option α)) (g : Grid α) : Guarded (Grid α) := do
  let data ← Guarded.revise (m * n) (fun p => f (p / n) (p % n)) g.data
  .ok ⟨m, n, data⟩

/-- An allocated matrix of zeros. -/
def zeros [Zero α] (m n : Nat) : Grid α := ⟨m, n, Guarded.zeros (m * n)⟩

/-- Allocate a matrix and write all of its entries. -/
def build [Zero α] (m n : Nat) (f : Nat → Nat → Guarded α) : Guarded (Grid α) :=
  revise m n (fun i j => do .ok (some (← f i j))) (zeros m n)

theorem place_lt {m n i j : Nat} (hi : i < m) (hj : j < n) : i * n + j < m * n :=
  Nat.lt_of_lt_of_le (Nat.add_lt_add_left hj _) (by
    rw [← Nat.succ_mul]
    exact Nat.mul_le_mul_right _ hi)

theorem row_lt {m n p : Nat} (hp : p < m * n) : p / n < m :=
  Nat.div_lt_of_lt_mul (by rwa [mul_comm])

theorem col_lt {m n p : Nat} (hp : p < m * n) : p % n < n :=
  Nat.mod_lt _ (Nat.pos_of_ne_zero fun hn => by simp [hn] at hp)

theorem cell_eq [Zero α] {g : Grid α} {m n i j : Nat} (h : g.Fits m n) (hi : i < m) (hj : j < n) :
    g.cell i j = .ok (g.entry i j) := by
  refine Guarded.read_eq ?_ 0
  rw [h.size, h.cols]
  exact place_lt hi hj

theorem revise_eq [Zero α] {g : Grid α} {m n : Nat} (h : g.Fits m n)
    {f : Nat → Nat → Guarded (Option α)} {v : Nat → Nat → α} (hf : ∀ i < m, ∀ j < n,
      f i j = .ok none ∧ v i j = g.entry i j ∨ f i j = .ok (some (v i j))) :
    g.revise m n f = .ok (tabulate m n v) := by
  have hdata : Guarded.revise (m * n) (fun p => f (p / n) (p % n)) g.data =
      .ok (Array.ofFn fun p : Fin (m * n) => v (p.val / n) (p.val % n)) := by
    refine Guarded.revise_ofFn (v := fun p => v (p / n) (p % n)) h.size fun p hp => ?_
    refine (hf _ (row_lt hp) _ (col_lt hp)).imp_left (And.imp_right fun hv => ?_)
    have hplace : p / n * g.cols + p % n = p := by
      rw [h.cols]
      exact Nat.div_add_mod' p n
    rw [hv, entry, hplace]
    simp [h.size, hp]
  rw [revise, hdata]
  rfl

theorem fits_zeros [Zero α] {m n : Nat} (h : m * n < 2 ^ 64) : (zeros m n : Grid α).Fits m n :=
  ⟨rfl, Guarded.size_zeros h⟩

theorem entry_zeros [Zero α] (m n i j : Nat) : (zeros m n : Grid α).entry i j = 0 := by
  simp [entry, zeros, Guarded.zeros, Array.getD]

theorem zeros_eq [Zero α] {m n : Nat} (h : m * n < 2 ^ 64) :
    (zeros m n : Grid α) = tabulate m n fun _ _ => 0 := by
  rw [zeros, tabulate, Guarded.zeros, Nat.mod_eq_of_lt h]
  congr 1
  exact Array.ext (by simp) fun i _ _ => by simp

theorem build_eq [Zero α] {m n : Nat} (h : m * n < 2 ^ 64) {f : Nat → Nat → Guarded α}
    {v : Nat → Nat → α} (hf : ∀ i < m, ∀ j < n, f i j = .ok (v i j)) :
    build m n f = .ok (tabulate m n v) :=
  revise_eq (fits_zeros h) fun i hi j hj => .inr (by rw [hf i hi j hj]; rfl)

end Grid

end MemoFlow
