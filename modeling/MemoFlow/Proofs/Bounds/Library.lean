import MemoFlow.Proofs.Bounds.Run

/-!
# Sizes for the linear algebra library

The library takes signed 32-bit words where the sizes of tensors are unsigned 64-bit words. It hears
a size as it is only below `2 ^ 31`, and it never hears more than there is.

* `Blas.Job`, `Blas.job?`: what is asked of the library, with the sizes as they are;
* `Blas.Job.compute`: the work of a job;
* `Blas.heard`, `Blas.run_job`: the library does the work of the sizes that it hears;
* **`Blas.asks_for_all_iff`**: the sizes arrive exactly when all are below `2 ^ 31`;
* `Guarded.compute`, `Guarded.library`, **`Guarded.library_eq`**: the work with checked places;
* **`Tensor.isFull_of_accepted_iff`**: payloads of accepted tensors, and what the operations do in
  them.
-/

namespace MemoFlow

variable {α : Type}

namespace Blas

/-! ## Jobs -/

/-- **What is asked of the library**, with sizes of any kind. -/
inductive Job (ι α : Type) where
  /-- Rows, columns and inner dimension of a product, the distances between the rows of its factors
  and of its result, and the three payloads. -/
  | product (m n k lda ldb ldc : ι) (a b c : Array α)
  /-- The number of elements of an update of `y` by a multiple of `x`. -/
  | update (n : ι) (k : α) (x y : Array α)

namespace Job

variable {ι κ : Type}

/-- The sizes of a job. -/
def sizes : Job ι α → List ι
  | product m n k lda ldb ldc _ _ _ => [m, n, k, lda, ldb, ldc]
  | update n _ _ _ => [n]

/-- The payload that a job writes. -/
def target : Job ι α → Array α
  | product _ _ _ _ _ _ _ _ c => c
  | update _ _ _ y => y

/-- A job with sizes of another kind. -/
def map (f : ι → κ) : Job ι α → Job κ α
  | product m n k lda ldb ldc a b c => product (f m) (f n) (f k) (f lda) (f ldb) (f ldc) a b c
  | update n k x y => update (f n) k x y

theorem map_congr {f g : ι → κ} {j : Job ι α} (h : ∀ n ∈ j.sizes, f n = g n) :
    j.map f = j.map g := by
  cases j with
  | product => simp_all [sizes, map]
  | update => simp_all [sizes, map]

/-- The number of places that a job may write. -/
def reach : Job Nat α → Nat
  | product m _ _ _ _ ldc _ _ _ => m * ldc
  | update n _ _ _ => n

/-- The work of a job, each operation rounded to the type. -/
def compute [Arith α] [Scalar α] (d : DType) : Job Nat α → Array α
  | product m n k lda ldb ldc a b c =>
    let r := Tensor.roundTo d
    c.mapIdx fun q x =>
      if q < m * ldc ∧ q % ldc < n then
        r (1 * (List.range k).foldl (fun s p =>
          r (s + r (r (a.getD (q / ldc * lda + p) 0) * r (b.getD (p * ldb + q % ldc) 0)))) 0)
      else x
  | update n k x y =>
    let r := Tensor.roundTo d
    y.mapIdx fun i b => if i < n then r (r b + r (k * r (x.getD i 0))) else b

variable [Arith α] [Scalar α]

theorem size_compute (d : DType) (j : Job Nat α) : (j.compute d).size = j.target.size := by
  cases j <;> simp [compute, target]

/-- Nothing is written beyond the reach of a job. -/
theorem compute_of_reach_le (d : DType) (j : Job Nat α) {i : Nat} (hi : j.reach ≤ i) :
    (j.compute d)[i]? = j.target[i]? := by
  cases j with
  | product m n k lda ldb ldc a b c =>
    have h : ¬(i < m * ldc ∧ i % ldc < n) := fun h => absurd h.1 (Nat.not_lt.2 hi)
    simp [compute, target, h]
  | update n k x y =>
    have h : ¬i < n := Nat.not_lt.2 hi
    simp [compute, target, h]

end Job

/-! ## Sizes on their way -/

/-- A size as the library counts: up to the word that arrives, and nothing for a negative one. -/
def heard (n : UInt64) : Nat := (dim n).toNatClampNeg

theorem toInt_dim (n : UInt64) : (dim n).toInt =
    if n.toNat % 2 ^ 32 < 2 ^ 31 then ((n.toNat % 2 ^ 32 : Nat) : Int)
    else ((n.toNat % 2 ^ 32 : Nat) : Int) - 4294967296 := by
  have hword : n.toUInt32.toBitVec.toNat = n.toNat % 2 ^ 32 := by
    rw [UInt32.toNat_toBitVec, UInt64.toNat_toUInt32]
  change n.toUInt32.toBitVec.toInt = _
  rw [BitVec.toInt_eq_toNat_cond, hword]
  split <;> split <;> omega

/-- A size arrives as it is exactly when it is below `2 ^ 31`. -/
theorem toInt_dim_eq_iff {n : UInt64} : (dim n).toInt = n.toNat ↔ n.toNat < 2 ^ 31 := by
  rw [toInt_dim]
  split <;> omega

theorem heard_eq (n : UInt64) : heard n = (dim n).toInt.toNat := rfl

theorem heard_le (n : UInt64) : heard n ≤ n.toNat := by
  rw [heard_eq, toInt_dim]
  split <;> omega

theorem heard_of_lt {n : UInt64} (h : n.toNat < 2 ^ 31) : heard n = n.toNat := by
  rw [heard_eq, toInt_dim_eq_iff.2 h, Int.toNat_natCast]

variable [Arith α] [Scalar α]

/-- The job of a matrix product. -/
def productJob (a b : Tensor α) : Job UInt64 α :=
  let m := a.shape.getD 0 0
  let k := a.shape.getD 1 0
  let n := b.shape.getD 1 0
  .product m n k k n n a.data b.data (Tensor.zeros [m, n] a.dtype).data

/-- The job of a sum or a difference. -/
def updateJob (k : α) (a b : Tensor α) : Job UInt64 α :=
  let n := numel (Tensor.meetShape a b)
  .update n k (expand n.toNat b) (expand n.toNat a)

/-- **What an operation asks of the library**; nothing when a dimension of a product is zero, or
when there are no elements to update. -/
def job? (o : Op) (args : List (Tensor α)) : Option (Job UInt64 α) :=
  match o, args with
  | .add, [a, b] => if numel (Tensor.meetShape a b) = 0 then none else some (updateJob 1 a b)
  | .sub, [a, b] => if numel (Tensor.meetShape a b) = 0 then none else some (updateJob (-1) a b)
  | .matmul, [a, b] =>
    if a.shape.getD 0 0 = 0 ∨ b.shape.getD 1 0 = 0 ∨ a.shape.getD 1 0 = 0 then none
    else some (productJob a b)
  | _, _ => none

theorem addScaled_eq_job (k : α) (a b : Tensor α) : addScaled k a b =
    ⟨a.dtype, Tensor.meetShape a b, ((updateJob k a b).map heard).compute a.dtype, .native⟩ := rfl

theorem matmul_eq_job {a b : Tensor α} (hd : a.dtype ≠ .c128)
    (h : ¬(a.shape.getD 0 0 = 0 ∨ b.shape.getD 1 0 = 0 ∨ a.shape.getD 1 0 = 0)) :
    matmul a b = ⟨a.dtype, [a.shape.getD 0 0, b.shape.getD 1 0],
      ((productJob a b).map heard).compute a.dtype, .native⟩ := by
  have hstride : Tensor.stride a.dtype = 1 := if_neg hd
  unfold matmul
  dsimp only
  rw [if_neg h]
  congr 1
  unfold gemm productJob Job.map Job.compute Tensor.zeros
  dsimp only
  rw [hstride, UInt64.mul_one]
  refine Array.ext (by simp) fun q hq hq' => ?_
  rw [Array.getElem_ofFn, Array.getElem_mapIdx, Array.getElem_replicate]
  exact if_congr ⟨fun hlt => ⟨hlt, Grid.col_lt hlt⟩, fun hlt => hlt.1⟩ rfl rfl

theorem real_of_run? {o : Op} {d : DType} {f : Routine α} (hf : run? o d = some f) : d ≠ .c128 := by
  rintro rfl
  exact nomatch hf

/-- **The library does the work of the sizes that it hears.** -/
theorem run_job {o : Op} {args : List (Tensor α)} {f : Routine α} {j : Job UInt64 α}
    (hf : run? o (Tensor.operandType args) = some f) (hj : job? o args = some j) :
    ∃ s, o.resultShapes args = [s] ∧ f args = .ok [⟨Tensor.operandType args, s,
      (j.map heard).compute (Tensor.operandType args), .native⟩] := by
  have hd := real_of_run? hf
  unfold run? at hf
  rw [if_neg hd] at hf
  unfold job? at hj
  split at hj
  · obtain ⟨-, hj⟩ := Option.ite_none_left_eq_some.1 hj
    obtain rfl := Option.some.inj hf
    obtain rfl := Option.some.inj hj
    exact ⟨_, rfl, rfl⟩
  · obtain ⟨-, hj⟩ := Option.ite_none_left_eq_some.1 hj
    obtain rfl := Option.some.inj hf
    obtain rfl := Option.some.inj hj
    exact ⟨_, rfl, rfl⟩
  · obtain ⟨h, hj⟩ := Option.ite_none_left_eq_some.1 hj
    obtain rfl := Option.some.inj hf
    obtain rfl := Option.some.inj hj
    refine ⟨_, rfl, ?_⟩
    dsimp only
    rw [matmul_eq_job hd h]
    rfl
  · exact nomatch hj

/-- **The sizes arrive as they are exactly when all of them are below `2 ^ 31`.** Then all of the
work is done; else the library does the work of the sizes that it hears, and leaves the rest of the
payload as it was. -/
theorem asks_for_all_iff {o : Op} {args : List (Tensor α)} {f : Routine α} {j : Job UInt64 α}
    (hf : run? o (Tensor.operandType args) = some f) (hj : job? o args = some j) :
    ((∀ n ∈ j.sizes, (dim n).toInt = n.toNat) ↔ ∀ n ∈ j.sizes, n.toNat < 2 ^ 31) ∧
      ∃ t, f args = .ok [t] ∧ o.resultShapes args = [t.shape] ∧
        t.data = (j.map heard).compute (Tensor.operandType args) ∧
        ((∀ n ∈ j.sizes, n.toNat < 2 ^ 31) →
          t.data = (j.map UInt64.toNat).compute (Tensor.operandType args)) ∧
        ∀ i, (j.map heard).reach ≤ i → t.data[i]? = j.target[i]? := by
  obtain ⟨s, hs, hrun⟩ := run_job hf hj
  refine ⟨forall₂_congr fun n _ => toInt_dim_eq_iff, _, hrun, hs, rfl, fun h => ?_, fun i hi => ?_⟩
  · rw [Job.map_congr fun n hn => heard_of_lt (h n hn)]
  · rw [Job.compute_of_reach_le _ _ hi]
    cases j <;> rfl

/-- Of a vector of `2 ^ 32 + 1` elements the library adds one, and of a matrix that seems to have
`2 ^ 63 + 1` rows of two elements, as the word of its size is two, it multiplies one row. -/
theorem adds_one_element_of_many :
    let t : Tensor Double := ⟨.f64, [4294967297], Array.replicate 4294967297 1, .blas⟩
    let a : Tensor Double := ⟨.f64, [9223372036854775809, 2], #[1, 2], .blas⟩
    let b : Tensor Double := ⟨.f64, [2, 2], #[1, 0, 0, 1], .blas⟩
    (Op.add.check [t, t] .blas = .ok () ∧ (dim 4294967297).toInt = 1 ∧
      ∃ r, (run? .add .f64).map (· [t, t]) = some (.ok [r]) ∧
        ∀ i, 1 ≤ i → r.data[i]? = t.data[i]?) ∧
      Op.matmul.check [a, b] .blas = .ok () ∧ (dim 9223372036854775809).toInt = 1 ∧
      ∃ r, (run? .matmul .f64).map (· [a, b]) = some (.ok [r]) ∧
        r.shape = [9223372036854775809, 2] ∧ r.data.size = 2 := by
  intro t a b
  have ht : Op.add.check [t, t] .blas = .ok () :=
    Op.check_eq_ok.2 ⟨rfl, by simp [t, Tensor.payloadSize, Tensor.count, numel, Tensor.stride], rfl⟩
  have ha : Op.matmul.check [a, b] .blas = .ok () :=
    Op.check_eq_ok.2
      ⟨rfl, by simp [a, b, Tensor.payloadSize, Tensor.count, numel, Tensor.stride], rfl⟩
  have hadd : job? .add [t, t] = some (updateJob 1 t t) := by
    unfold job?
    exact if_neg (by decide +kernel)
  have hmul : job? .matmul [a, b] = some (productJob a b) := by
    unfold job?
    exact if_neg (by decide +kernel)
  obtain ⟨-, r, hr, -, -, -, hrest⟩ := asks_for_all_iff rfl hadd
  obtain ⟨-, p, hp, hshape, hdata, -, -⟩ := asks_for_all_iff rfl hmul
  refine ⟨⟨ht, by decide +kernel, r, congrArg some hr, fun i hi => ?_⟩, ha, by decide +kernel, p,
    congrArg some hp, ?_, ?_⟩
  · have hreach : ((updateJob 1 t t).map heard).reach = 1 := by decide +kernel
    have htarget : (updateJob 1 t t).target = t.data := by
      unfold updateJob expand Job.target
      exact if_neg (by decide)
    rw [hrest i (hreach.trans_le hi), htarget]
  · exact (List.cons.inj hshape).1.symm
  · rw [hdata, Job.size_compute]
    decide +kernel

end Blas

/-! ## The library with checked places -/

/-- Each place that a job reads or writes is inside its payload. -/
def Blas.Job.Inside : Job Nat α → Prop
  | product m n k lda ldb ldc a b c =>
    k ≤ lda ∧ m * lda ≤ a.size ∧ n ≤ ldb ∧ k * ldb ≤ b.size ∧ m * ldc ≤ c.size
  | update n _ x y => n ≤ x.size ∧ n ≤ y.size

namespace Guarded

variable [Arith α] [Scalar α]

/-- The work of a job. -/
def compute (d : DType) : Blas.Job Nat α → Guarded (Array α)
  | .product m n k lda ldb ldc a b c =>
    let r := Tensor.roundTo d
    revise (m * ldc) (fun q =>
      if q % ldc < n then do
        let s ← (List.range k).foldlM (fun s p => do
          .ok (r (s + r (r (← read a (q / ldc * lda + p)) * r (← read b (p * ldb + q % ldc)))))) 0
        .ok (some (r (1 * s)))
      else .ok none) c
  | .update n k x y =>
    let r := Tensor.roundTo d
    revise n (fun i => do .ok (some (r (r (← read y i) + r (k * r (← read x i)))))) y

/-- The payload of `n` numbers, with a single number repeated. -/
def expand (n : Nat) (t : Tensor α) : Guarded (Array α) :=
  if t.rank = 0 then do .ok (Array.replicate n (← read t.data 0)) else .ok t.data

/-- **The operations of the library with checked places**, the operands among them. -/
def library (o : Op) (args : List (Tensor α)) : Guarded (List (Tensor α)) := do
  let a ← read args.toArray 0
  let b ← read args.toArray 1
  match o with
  | .matmul =>
    let m := a.shape.getD 0 0
    let n := b.shape.getD 1 0
    if m = 0 ∨ n = 0 ∨ a.shape.getD 1 0 = 0 then .ok [Tensor.zeros [m, n] a.dtype]
    else do
      let data ← compute a.dtype ((Blas.productJob a b).map Blas.heard)
      .ok [⟨a.dtype, [m, n], data, .native⟩]
  | _ =>
    let n := numel (Tensor.meetShape a b)
    let y ← expand n.toNat a
    let x ← expand n.toNat b
    let data ← compute a.dtype (.update (Blas.heard n) (if o = .sub then -1 else 1) x y)
    .ok [⟨a.dtype, Tensor.meetShape a b, data, .native⟩]

theorem compute_eq (d : DType) {j : Blas.Job Nat α} (hj : j.Inside) :
    compute d j = .ok (j.compute d) := by
  cases j with
  | product m n k lda ldb ldc a b c =>
    obtain ⟨hk, ha, hn, hb, hc⟩ := hj
    refine revise_eq_of_le hc (Blas.Job.size_compute d (.product m n k lda ldb ldc a b c))
      (fun q hq => ?_) fun i hi => Blas.Job.compute_of_reach_le d
        (.product m n k lda ldb ldc a b c) hi
    have hqc : q < c.size := hq.trans_le hc
    by_cases hcol : q % ldc < n
    · right
      have hreads : ∀ p ∈ List.range k, q / ldc * lda + p < a.size ∧ p * ldb + q % ldc < b.size :=
        fun p hp => by
          have hp' := List.mem_range.1 hp
          exact ⟨(Grid.place_lt (Grid.row_lt hq) (hp'.trans_le hk)).trans_le ha,
            (Grid.place_lt hp' (hcol.trans_le hn)).trans_le hb⟩
      rw [if_pos hcol, foldlM_eq _ fun s p hp => by
        rw [read_eq (hreads p hp).1 0, read_eq (hreads p hp).2 0]
        rfl]
      simp [Blas.Job.compute, hqc, hq, hcol]
      rfl
    · left
      rw [if_neg hcol]
      simp [Blas.Job.compute, hqc, hcol]
  | update n k x y =>
    obtain ⟨hx, hy⟩ := hj
    refine revise_eq_of_le hy (Blas.Job.size_compute d (.update n k x y)) (fun i hi => .inr ?_)
      fun i hi => Blas.Job.compute_of_reach_le d (.update n k x y) hi
    have hiy : i < y.size := hi.trans_le hy
    rw [read_eq hiy 0, read_eq (hi.trans_le hx) 0]
    simp [Blas.Job.compute, hiy, hi]
    rfl

omit [Scalar α] in
/-- The repeated operand has a number for each element of the result. -/
theorem expand_eq {t : Tensor α} (ht : t.IsFull) (hr : t.isComplex = false) {s : Shape}
    (hs : t.rank ≠ 0 → s = t.shape) (hn : s.extent < 2 ^ 64) :
    expand (numel s).toNat t = .ok (Blas.expand (numel s).toNat t) ∧
      (Blas.expand (numel s).toNat t).size = (numel s).toNat := by
  have hsize := Tensor.size_of_real ht hr
  unfold expand Blas.expand
  by_cases h : t.rank = 0
  · have hnil : t.shape = [] := List.length_eq_zero_iff.1 h
    rw [if_pos h, if_pos h, read_eq (by rw [hsize, hnil]; decide) 0]
    exact ⟨rfl, Array.size_replicate⟩
  · rw [if_neg h, if_neg h, hsize, ← hs h, toNat_numel_of_lt hn]
    exact ⟨rfl, rfl⟩

section Operations

variable {a b : Tensor α} (hr : a.isComplex = false) (ha : a.IsFull) (hb : b.IsFull)

include hr ha hb

omit [Scalar α] in
theorem inside_productJob (hc : Op.matmul.checkProduct a b = .ok ())
    (hres : Shape.extent [a.shape.getD 0 0, b.shape.getD 1 0] < 2 ^ 64) :
    ((Blas.productJob a b).map Blas.heard).Inside := by
  obtain ⟨hra, hrb, hd, hinner⟩ := Op.checkProduct_eq_ok.1 hc
  have hdtype := Tensor.isComplex_eq_false_iff.1 hr
  have hbr : b.isComplex = false := (Tensor.isComplex_congr hd).trans hr
  have hsa : a.data.size = a.rows * a.cols :=
    (Tensor.size_of_real ha hr).trans (Tensor.extent_of_rank hra)
  have hsb : b.data.size = a.cols * b.cols := by
    rw [Tensor.size_of_real hb hbr, Tensor.extent_of_rank hrb]
    exact congrArg (· * b.cols) (congrArg UInt64.toNat hinner.symm)
  have hsc : (Tensor.zeros [a.shape.getD 0 0, b.shape.getD 1 0] a.dtype : Tensor α).data.size =
      a.rows * b.cols := by
    rw [Tensor.size_data_zeros (by rwa [Tensor.toNat_stride, if_neg hdtype, Nat.mul_one]),
      if_neg hdtype, Nat.mul_one, extent_two]
    rfl
  have hm := Blas.heard_le (a.shape.getD 0 0)
  have hk := Blas.heard_le (a.shape.getD 1 0)
  have hn := Blas.heard_le (b.shape.getD 1 0)
  refine ⟨le_rfl, ?_, le_rfl, ?_, ?_⟩
  · rw [hsa]
    exact Nat.mul_le_mul hm hk
  · rw [hsb]
    exact Nat.mul_le_mul hk hn
  · rw [hsc]
    exact Nat.mul_le_mul hm hn

theorem library_matmul (hc : Op.matmul.checkProduct a b = .ok ())
    (hres : Shape.extent [a.shape.getD 0 0, b.shape.getD 1 0] < 2 ^ 64) :
    library .matmul [a, b] = .ok [Blas.matmul a b] := by
  have hinside := inside_productJob hr ha hb hc hres
  have hd := Tensor.isComplex_eq_false_iff.1 hr
  by_cases h : a.shape.getD 0 0 = 0 ∨ b.shape.getD 1 0 = 0 ∨ a.shape.getD 1 0 = 0
  · have hzeros : Blas.matmul a b = Tensor.zeros [a.shape.getD 0 0, b.shape.getD 1 0] a.dtype := by
      unfold Blas.matmul
      exact if_pos h
    rw [hzeros]
    exact if_pos h
  · have hrun : library .matmul [a, b] = (do
        let data ← compute a.dtype ((Blas.productJob a b).map Blas.heard)
        .ok [⟨a.dtype, [a.shape.getD 0 0, b.shape.getD 1 0], data, .native⟩]) := if_neg h
    rw [hrun, compute_eq _ hinside, Blas.matmul_eq_job hd h]
    rfl

theorem library_update {o : Op} (ho : o = .add ∨ o = .sub) (hc : o.checkElementwise a b = .ok ())
    (hres : (Tensor.meetShape a b).extent < 2 ^ 64) :
    library o [a, b] = .ok [Blas.addScaled (if o = .sub then -1 else 1) a b] := by
  obtain ⟨hd, hs⟩ := Op.checkElementwise_eq_ok.1 hc
  have hbr : b.isComplex = false := (Tensor.isComplex_congr hd).trans hr
  have hma : a.rank ≠ 0 → Tensor.meetShape a b = a.shape := Tensor.meetShape_left
  have hmb : b.rank ≠ 0 → Tensor.meetShape a b = b.shape := Tensor.meetShape_right hs
  obtain ⟨hy, hsy⟩ := expand_eq ha hr hma hres
  obtain ⟨hx, hsx⟩ := expand_eq hb hbr hmb hres
  have hheard := Blas.heard_le (numel (Tensor.meetShape a b))
  have hinside : (Blas.Job.update (Blas.heard (numel (Tensor.meetShape a b)))
      (if o = .sub then -1 else 1) (Blas.expand (numel (Tensor.meetShape a b)).toNat b)
      (Blas.expand (numel (Tensor.meetShape a b)).toNat a)).Inside :=
    ⟨hsx.symm ▸ hheard, hsy.symm ▸ hheard⟩
  have hrun : library o [a, b] = (do
      let y ← expand (numel (Tensor.meetShape a b)).toNat a
      let x ← expand (numel (Tensor.meetShape a b)).toNat b
      let data ← compute a.dtype (.update (Blas.heard (numel (Tensor.meetShape a b)))
        (if o = .sub then -1 else 1) x y)
      .ok [⟨a.dtype, Tensor.meetShape a b, data, .native⟩]) := by
    obtain rfl | rfl := ho <;> rfl
  rw [hrun, hy, ok_bind, hx, ok_bind, compute_eq _ hinside, Blas.addScaled_eq_job]
  rfl

end Operations

/-- **The operations of the library stay inside payloads of the true size**, whatever sizes the
library hears. -/
theorem library_eq {o : Op} {e : Engine} {args : List (Tensor α)} {f : Routine α}
    (hf : Blas.run? o (Tensor.operandType args) = some f) (hc : o.check args e = .ok ())
    (hargs : ∀ t ∈ args, t.IsFull) (hres : ∀ s ∈ o.resultShapes args,
      s.extent * (Tensor.stride (Tensor.operandType args)).toNat < 2 ^ 64) :
    library o args = lift (f args) := by
  have hd := Blas.real_of_run? hf
  obtain ⟨hlen, -, hform⟩ := Op.check_eq_ok.1 hc
  rw [Tensor.toNat_stride, if_neg hd] at hres
  simp only [Nat.mul_one] at hres
  unfold Blas.run? at hf
  rw [if_neg hd] at hf
  have hpair : o.arity = 2 → ∃ a b, args = [a, b] := fun h => List.length_eq_two.1 (hlen.trans h)
  cases o with
  | add =>
    obtain ⟨a, b, rfl⟩ := hpair rfl
    obtain rfl := Option.some.inj hf
    exact library_update (decide_eq_false hd) (hargs a (by simp))
      (hargs b (by simp)) (.inl rfl) hform (hres _ List.mem_cons_self)
  | sub =>
    obtain ⟨a, b, rfl⟩ := hpair rfl
    obtain rfl := Option.some.inj hf
    exact library_update (decide_eq_false hd) (hargs a (by simp))
      (hargs b (by simp)) (.inr rfl) hform (hres _ List.mem_cons_self)
  | matmul =>
    obtain ⟨a, b, rfl⟩ := hpair rfl
    obtain rfl := Option.some.inj hf
    exact library_matmul (decide_eq_false hd) (hargs a (by simp))
      (hargs b (by simp)) hform (hres _ List.mem_cons_self)
  | _ => exact nomatch hf

end Guarded

/-! ## Accepted tensors -/

/-- **Accepted tensors have payloads of their true size** exactly as far as the numbers that they
should hold do not wrap. On operands with such payloads, the plain loops and the library stay
inside them as long as the results do not wrap. -/
theorem Tensor.isFull_of_accepted_iff [Arith α] [Scalar α] :
    (∀ s (vs : Array α) d t, ofValues s vs d = .ok t → (t.IsFull ↔ s.extent < 2 ^ 64)) ∧
    (∀ s (zs : List (Cplx α)) t, ofComplex s zs = .ok t → (t.IsFull ↔ s.extent < 2 ^ 64)) ∧
    ∀ (o : Op) (e : Engine) (args : List (Tensor α)), o.check args e = .ok () →
      (∀ t ∈ args, t.IsFull ↔ t.extent < 2 ^ 64) ∧
      ((∀ t ∈ args, t.IsFull) →
        (∀ s ∈ o.resultShapes args, s.extent * (stride (operandType args)).toNat < 2 ^ 64) →
        Guarded.run o args = Guarded.lift (Native.run o args) ∧
        ∀ f, Blas.run? o (operandType args) = some f →
          Guarded.library o args = Guarded.lift (f args)) := by
  refine ⟨fun _ _ _ _ => isFull_ofValues_iff, fun _ _ _ => isFull_ofComplex_iff, ?_⟩
  intro o e args hc
  have hfull : ∀ t ∈ args, t.IsFull ↔ t.extent < 2 ^ 64 := fun t ht => Op.isFull_of_check_iff hc ht
  refine ⟨hfull, fun hargs hres => ⟨?_, fun f hf => Guarded.library_eq hf hc hargs hres⟩⟩
  exact (Guarded.run_sound hc (fun t ht => (hfull t ht).1 (hargs t ht)) hres).run

/-- A matrix of `2 ^ 32` rows and columns is made from no values at all, and its product with itself
is not refused and leaves the payload; that of a single number with itself does not. -/
theorem Tensor.ofValues_of_wrapped_size :
    let u : Tensor Double := ⟨.f64, [1, 1], #[2], .blas⟩
    (Op.matmul.check [u, u] .blas = .ok () ∧
      Guarded.run .matmul [u, u] = Guarded.lift (Native.run .matmul [u, u]) ∧
      ∀ f, Blas.run? .matmul .f64 = some f →
        Guarded.library .matmul [u, u] = Guarded.lift (f [u, u])) ∧
      ∃ t : Tensor Double, ofValues [4294967296, 4294967296] #[] .f64 = .ok t ∧ ¬ t.IsFull ∧
        Op.matmul.check [t, t] .native = .ok () ∧
        Guarded.run .matmul [t, t] = .error .outside := by
  intro u
  obtain ⟨hvalues, -, hchecked⟩ := isFull_of_accepted_iff (α := Double)
  have hu : Op.matmul.check [u, u] .blas = .ok () := by rfl
  have ht : ofValues [4294967296, 4294967296] (#[] : Array Double) .f64 =
      .ok (rounded ⟨.f64, [4294967296, 4294967296], #[], .native⟩) :=
    ofValues_eq_ok.2 ⟨nofun, by decide +kernel, rfl⟩
  obtain ⟨hfull, hinside⟩ := hchecked .matmul .blas [u, u] hu
  refine ⟨⟨hu, ?_⟩, _, ht, fun h => ?_, ?_, ?_⟩
  · refine hinside (fun t ht => (hfull t ht).2 ?_) ?_
    · obtain rfl : t = u := by simpa using ht
      decide +kernel
    · simp only [Op.resultShapes, List.forall_mem_singleton]
      decide +kernel
  · have hlt := (hvalues _ _ _ _ ht).1 h
    have hs : Shape.extent [4294967296, 4294967296] = 2 ^ 64 := by simp
    omega
  · exact Op.check_eq_ok.2 ⟨rfl, by simp only [List.forall_mem_cons]; decide +kernel, rfl⟩
  · exact Guarded.matmul_of_empty rfl (by decide +kernel) _

end MemoFlow
