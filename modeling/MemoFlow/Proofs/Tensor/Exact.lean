import Mathlib.Algebra.Field.Basic
import Mathlib.Algebra.Group.Nat.Defs
import Mathlib.Data.List.Basic
import MemoFlow.Tensor.Dispatch

/-!
# The library on exact numbers

Where numbers form a field, no operation rounds, and operands of full precision with dimensions that
the library can take give the same results through the library and through the plain loops.

* `Op.check_eq_ok`: what checked operands are;
* `Tensor.content`, **`Native.run_congr`**: results depend on what operands hold, not on who owns
  them;
* **`Tensor.Fits`**: the operands that the comparison is about;
* `Blas.matmul_eq`, `Blas.addScaled_eq`: products, sums and differences of the library;
* **`Blas.eq_run`**: every operation of the library is that of the plain loops.
-/

namespace MemoFlow

variable {α : Type}

/-! ## Checked operands -/

namespace Op

theorem refuseIf_eq_ok {o : Op} {bad : Bool} {detail : String} :
    o.refuseIf bad detail = .ok () ↔ bad = false := by
  cases bad <;> simp [refuseIf]

/-- A condition holds together with those that are checked after it. -/
theorem refuseIf_bind_eq_ok {o : Op} {bad : Bool} {detail : String}
    {rest : Unit → Except TensorError Unit} :
    (o.refuseIf bad detail >>= rest) = .ok () ↔ bad = false ∧ rest () = .ok () := by
  cases bad <;> simp [refuseIf, bind, Except.bind]

theorem forM_bind_eq_ok {f : Tensor α → Except TensorError Unit} {args : List (Tensor α)}
    {rest : Unit → Except TensorError Unit} :
    (args.forM f >>= rest) = .ok () ↔ (∀ t ∈ args, f t = .ok ()) ∧ rest () = .ok () := by
  induction args with
  | nil => exact ⟨fun h => ⟨nofun, h⟩, fun h => h.2⟩
  | cons t ts ih =>
    rw [List.forall_mem_cons, and_assoc, ← ih]
    change ((f t >>= fun _ => ts.forM f) >>= rest) = _ ↔ _
    cases f t <;> simp [bind, Except.bind]

theorem checkOperand_eq_ok {o : Op} {e : Engine} {t : Tensor α} :
    o.checkOperand e t = .ok () ↔ t.home = e ∧ t.data.size = t.payloadSize.toNat := by
  rw [checkOperand, refuseIf_bind_eq_ok, refuseIf_eq_ok]
  simp

/-- **Checked operands** are in number and form what the operation takes, each one is owned by the
engine and fills its shape. -/
theorem check_eq_ok [Arith α] [Scalar α] {o : Op} {e : Engine} {args : List (Tensor α)} :
    o.check args e = .ok () ↔ args.length = o.arity ∧
      (∀ t ∈ args, t.home = e ∧ t.data.size = t.payloadSize.toNat) ∧ o.checkForm args = .ok () := by
  rw [check, refuseIf_bind_eq_ok, forM_bind_eq_ok]
  simp only [decide_eq_false_iff_not, not_not, checkOperand_eq_ok]

end Op

/-! ## What operands hold -/

/-- **What a tensor holds**, whoever owns it: its type, its shape and its payload. -/
def Tensor.content (t : Tensor α) : DType × Shape × Array α := (t.dtype, t.shape, t.data)

theorem Tensor.eq_onEngine_of_content {t u : Tensor α} (h : t.content = u.content) :
    t = u.onEngine t.home := by
  obtain ⟨d, s, x, e⟩ := t
  obtain ⟨d', s', x', e'⟩ := u
  obtain ⟨rfl, rfl, rfl⟩ : d = d' ∧ s = s' ∧ x = x' := by simpa [content] using h
  rfl

/-- **Results depend on what the operands hold alone.** -/
theorem Native.run_congr [Arith α] [Scalar α] (o : Op) {args args' : List (Tensor α)}
    (h : args.map Tensor.content = args'.map Tensor.content) :
    Native.run o args = Native.run o args' := by
  have hl : args.length = args'.length := by simpa using congrArg List.length h
  match args, args', h with
  | [], [], _ => rfl
  | [a], [b], h =>
    rw [Tensor.eq_onEngine_of_content (List.cons.inj h).1]
    cases o <;> rfl
  | [a, b], [a', b'], h =>
    obtain ⟨ha, hb⟩ := List.cons.inj h
    rw [Tensor.eq_onEngine_of_content ha, Tensor.eq_onEngine_of_content (List.cons.inj hb).1]
    rfl
  | _ :: _ :: _ :: _, _ :: _ :: _ :: _, _ => rfl

/-! ## Operands that fit -/

/-- **Operands that fit**: they are of full precision, and their dimensions and their number of
elements are numbers that the library takes. -/
structure Tensor.Fits (t : Tensor α) : Prop where
  full : t.dtype ≠ .f32
  dims : ∀ n ∈ t.shape, n.toNat < 2 ^ 31
  count : t.count.toNat < 2 ^ 31

namespace Tensor

theorem Fits.of_content {t u : Tensor α} (h : t.content = u.content) (hu : u.Fits) : t.Fits := by
  rw [eq_onEngine_of_content h]
  exact ⟨hu.full, hu.dims, hu.count⟩

/-- Operands fit when they hold what operands that fit do. -/
theorem forall_fits_of_content {args args' : List (Tensor α)}
    (h : args.map content = args'.map content) (hfit : ∀ t ∈ args', t.Fits) : ∀ t ∈ args, t.Fits :=
  fun t ht => by
    obtain ⟨u, hu, he⟩ := List.mem_map.1 (h ▸ List.mem_map_of_mem ht)
    exact .of_content he.symm (hfit u hu)

theorem Fits.getD {t : Tensor α} (h : t.Fits) (i : Nat) : (t.shape.getD i 0).toNat < 2 ^ 31 := by
  rw [List.getD_eq_getElem?_getD]
  cases hi : t.shape[i]? with
  | none => decide
  | some n => exact h.dims n (List.mem_of_getElem? hi)

theorem isComplex_of_eq {t : Tensor α} (h : t.dtype = .f64) : t.isComplex = false := by
  simp [isComplex, h]

theorem roundTo_of_ne [Scalar α] {d : DType} (h : d ≠ .f32) (x : α) : roundTo d x = x := if_neg h

theorem rounded_of_ne [Scalar α] {t : Tensor α} (h : t.dtype ≠ .f32) : t.rounded = t := if_neg h

end Tensor

theorem toNat_numel_pair {m n : UInt64} (hm : m.toNat < 2 ^ 31) (hn : n.toNat < 2 ^ 31) :
    (numel [m, n]).toNat = m.toNat * n.toNat := by
  have h : m.toNat * n.toNat < 2 ^ 64 :=
    Nat.lt_of_lt_of_le (Nat.mul_lt_mul'' hm hn) (by decide)
  change ((1 : UInt64) * m * n).toNat = _
  rw [UInt64.one_mul, UInt64.toNat_mul, Nat.mod_eq_of_lt h]

theorem Blas.toNatClampNeg_dim {n : UInt64} (h : n.toNat < 2 ^ 31) :
    (dim n).toNatClampNeg = n.toNat := by
  have h1 : n.toUInt32.toBitVec.toNat = n.toNat := by
    rw [UInt32.toNat_toBitVec, UInt64.toNat_toUInt32]
    omega
  rw [dim, Int32.toNatClampNeg, Int32.toInt, UInt32.toBitVec_toInt32,
    BitVec.toInt_eq_toNat_of_lt (by omega), h1, Int.toNat_natCast]

/-! ## Products -/

section Exact

variable [Field α] [Scalar α]

theorem Native.matmul_of_real {a : Tensor α} (hd : a.dtype = .f64) (b : Tensor α) :
    matmul a b =
      let shape := [a.shape.getD 0 0, b.shape.getD 1 0]
      ⟨.f64, shape, Array.ofFn fun c : Fin (numel shape).toNat => Scalar.sumTo a.cols fun p =>
        a.get (c.val / b.cols * a.cols + p) * b.get (p * b.cols + c.val % b.cols), .native⟩ := by
  unfold matmul
  simp only [Tensor.isComplex_of_eq hd, hd, Bool.false_eq_true, if_false]
  exact Tensor.rounded_of_ne nofun

/-- A product with a dimension zero holds zeros. -/
theorem Native.matmul_of_empty {a b : Tensor α} (hd : a.dtype = .f64) (ha : a.Fits) (hb : b.Fits)
    (h : a.shape.getD 0 0 = 0 ∨ b.shape.getD 1 0 = 0 ∨ a.shape.getD 1 0 = 0) :
    matmul a b = Tensor.zeros [a.shape.getD 0 0, b.shape.getD 1 0] .f64 := by
  rw [matmul_of_real hd]
  dsimp only
  unfold Tensor.zeros
  congr 1
  refine Array.ext (by simp [Tensor.stride]) fun i h1 h2 => ?_
  rw [Array.getElem_ofFn, Array.getElem_replicate]
  rw [Array.size_ofFn, toNat_numel_pair (ha.getD 0) (hb.getD 1)] at h1
  obtain h | h | h := h
  · rw [h] at h1
    simp at h1
  · rw [h] at h1
    simp at h1
  · have hk : a.cols = 0 := congrArg UInt64.toNat h
    simp only [hk]
    rfl

namespace Blas

theorem gemm_eq {d : DType} (hd : d ≠ .f32) (m n k : Int32) (a b : Array α) {size : Nat}
    (hs : size = m.toNatClampNeg * n.toNatClampNeg) :
    gemm d m n k a b size = Array.ofFn fun c : Fin size => Scalar.sumTo k.toNatClampNeg fun p =>
      a.getD (c.val / n.toNatClampNeg * k.toNatClampNeg + p) 0 *
        b.getD (p * n.toNatClampNeg + c.val % n.toNatClampNeg) 0 := by
  unfold gemm
  dsimp only
  congr 1
  funext c
  rw [if_pos (hs ▸ c.isLt)]
  simp only [Tensor.roundTo_of_ne hd, one_mul]
  rfl

/-- **The product of the library** is that of the plain loops. -/
theorem matmul_eq {a b : Tensor α} (hd : a.dtype = .f64) (ha : a.Fits) (hb : b.Fits) :
    matmul a b = Native.matmul a b := by
  have hm := toNatClampNeg_dim (ha.getD 0)
  have hk := toNatClampNeg_dim (ha.getD 1)
  have hn := toNatClampNeg_dim (hb.getD 1)
  have hsize := toNat_numel_pair (ha.getD 0) (hb.getD 1)
  rw [← hm, ← hn] at hsize
  unfold matmul
  dsimp only
  split
  · next h => rw [hd, Native.matmul_of_empty hd ha hb h]
  · rw [Native.matmul_of_real hd, gemm_eq (by simp [hd]) _ _ _ _ _ hsize, hd, hk, hn]
    rfl

/-! ## Sums and differences -/

omit [Scalar α] in
theorem getD_expand {n i : Nat} (t : Tensor α) (hi : i < n) :
    (expand n t).getD i 0 = t.get (t.meetIndex i) := by
  unfold expand Tensor.meetIndex
  split
  · simp [Array.getD, hi]
  · rfl

omit [Scalar α] in
theorem size_expand {n : UInt64} {t : Tensor α} (hd : t.dtype = .f64)
    (ht : t.data.size = t.payloadSize.toNat) (hn : t.rank ≠ 0 → n = t.count) :
    (expand n.toNat t).size = n.toNat := by
  unfold expand
  by_cases h : t.rank = 0
  · rw [if_pos h, Array.size_replicate]
  · rw [if_neg h, ht, hn h, Tensor.payloadSize, hd]
    exact congrArg UInt64.toNat (UInt64.mul_one t.count)

theorem axpy_eq {d : DType} (hd : d ≠ .f32) {n : Int32} (k : α) (x y : Array α)
    (hn : y.size = n.toNatClampNeg) :
    axpy d n k x y = Array.ofFn fun i : Fin y.size => y.getD i.val 0 + k * x.getD i.val 0 := by
  unfold axpy
  simp only [Tensor.roundTo_of_ne hd]
  refine Array.ext (by simp) fun i h1 h2 => ?_
  have hi : i < y.size := by simpa using h1
  rw [Array.getElem_mapIdx, Array.getElem_ofFn, if_pos (hn ▸ hi)]
  simp only [Array.getD, hi, dif_pos]
  rfl

/-- **A sum or a difference of the library** is that of the plain loops. -/
theorem addScaled_eq {o : Op} {k : α} (hk : ∀ x y, x + k * y = Native.applyReal o x y)
    {a b : Tensor α} (hd : a.dtype = .f64) (ha : a.Fits) (hb : b.Fits)
    (hsize : a.data.size = a.payloadSize.toNat) :
    addScaled k a b = Native.elementwise o a b := by
  have hn : (numel (Tensor.meetShape a b)).toNat < 2 ^ 31 := by
    unfold Tensor.meetShape
    split
    · exact hb.count
    · exact ha.count
  have hsum := size_expand (n := numel (Tensor.meetShape a b)) hd hsize fun h => by
    rw [Tensor.meetShape, if_neg h]
    rfl
  unfold addScaled Native.elementwise
  dsimp only
  rw [Tensor.rounded_of_ne (by rw [hd]; nofun), Tensor.isComplex_of_eq hd, if_neg nofun,
    axpy_eq (by rw [hd]; nofun) _ _ _ (by rw [hsum, toNatClampNeg_dim hn])]
  congr 1
  refine Array.ext (by simpa using hsum) fun i h1 h2 => ?_
  have hi : i < (numel (Tensor.meetShape a b)).toNat := by simpa using h2
  rw [Array.getElem_ofFn, Array.getElem_ofFn, getD_expand a hi, getD_expand b hi, hk]

/-- **The operations of the library are those of the plain loops**, on checked operands that fit. -/
theorem eq_run {o : Op} {e : Engine} {args : List (Tensor α)} {f : Routine α}
    (hf : run? o ((args.head?.map Tensor.dtype).getD .f64) = some f)
    (hc : o.check args e = .ok ()) (hfit : ∀ t ∈ args, t.Fits) : f args = Native.run o args := by
  obtain ⟨hlen, hargs, -⟩ := Op.check_eq_ok.1 hc
  have hd : (args.head?.map Tensor.dtype).getD .f64 ≠ .c128 := fun h => by
    unfold run? at hf
    rw [if_pos h] at hf
    exact nomatch hf
  unfold run? at hf
  rw [if_neg hd] at hf
  -- The three operations take two operands; the first of them says what type both have.
  have hpair : o.arity = 2 → ∃ a b, args = [a, b] ∧ a.dtype = .f64 ∧ a.Fits ∧ b.Fits ∧
      a.data.size = a.payloadSize.toNat := fun h => by
    obtain ⟨a, b, rfl⟩ := List.length_eq_two.1 (hlen.trans h)
    have ha := hfit a (by simp)
    have hf64 : a.dtype = .f64 := by
      have hne : a.dtype ≠ .c128 := hd
      cases he : a.dtype with
      | f32 => exact absurd he ha.full
      | f64 => rfl
      | c128 => exact absurd he hne
    exact ⟨a, b, rfl, hf64, ha, hfit b (by simp), (hargs a (by simp)).2⟩
  cases o with
  | add =>
    obtain ⟨a, b, rfl, hf64, ha, hb, hsize⟩ := hpair rfl
    obtain rfl := Option.some.inj hf
    have hk : ∀ x y : α, x + 1 * y = Native.applyReal .add x y := fun x y => by
      rw [one_mul]
      rfl
    change Except.ok [addScaled 1 a b] = .ok [Native.elementwise .add a b]
    rw [addScaled_eq hk hf64 ha hb hsize]
  | sub =>
    obtain ⟨a, b, rfl, hf64, ha, hb, hsize⟩ := hpair rfl
    obtain rfl := Option.some.inj hf
    have hk : ∀ x y : α, x + -1 * y = Native.applyReal .sub x y := fun x y => by
      rw [neg_one_mul, ← sub_eq_add_neg]
      rfl
    change Except.ok [addScaled (-1) a b] = .ok [Native.elementwise .sub a b]
    rw [addScaled_eq hk hf64 ha hb hsize]
  | matmul =>
    obtain ⟨a, b, rfl, hf64, ha, hb, -⟩ := hpair rfl
    obtain rfl := Option.some.inj hf
    change Except.ok [matmul a b] = .ok [Native.matmul a b]
    rw [matmul_eq hf64 ha hb]
  | _ => nomatch hf

end Blas

end Exact

end MemoFlow
