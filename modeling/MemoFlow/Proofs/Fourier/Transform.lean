import Mathlib.Algebra.QuadraticAlgebra.Basic
import Mathlib.RingTheory.RootsOfUnity.Complex
import MemoFlow.Proofs.Fourier.Loops

/-!
# Discrete Fourier transforms

With exact complex products and exact turns the fast transform of a length that is a power of two
makes what the definition says, and over the reals each direction undoes the other one.

* **`Scalar.ExactTurn`**: numbers with exact complex products and exact turns;
* **`Fourier.Reads`**: complex numbers as the elements of a ring, `Fourier.reads_quadratic` and
  `Fourier.reads_complex`; `Fourier.root`: the root of unity of a transform;
* `Fourier.Reads.value_direct`: what the plain transform makes;
* `Fourier.strided`, **`Fourier.Staged`**: the values after some of the stages, with
  `Fourier.Staged.next` for one more and `Fourier.Staged.radix2` for all of them;
* **`Fourier.radix2_eq_direct`**: the fast transform is the plain one;
* `Fourier.sum_dual`, `Fourier.transformValues_transformValues`, **`Native.fourier_inverse`**: a
  transform and then the other one.
-/

namespace MemoFlow

namespace Scalar

/-- The point of the unit circle after a number of turns. -/
def turn {α : Type} [Arith α] [Scalar α] (x : α) : Cplx α := cis (two * pi * x)

/-- **Numbers with exact complex products and exact turns**: turns are added by multiplying, a whole
turn ends where it began, and a half turn opposite to it. -/
class ExactTurn (α : Type) [Field α] [Scalar α] : Prop where
  mulC_eq (z w : Cplx α) : mulC z w = (z.1 * w.1 - z.2 * w.2, z.1 * w.2 + z.2 * w.1)
  turn_add (x y : α) : turn (x + y) = mulC (turn x) (turn y)
  turn_one : turn (1 : α) = (1, 0)
  turn_half : turn (1 / 2 : α) = (-1, 0)

/-- Turns of the reals are exact. -/
instance : ExactTurn ℝ where
  mulC_eq _ _ := rfl
  turn_add x y := by
    rw [turn, mul_add]
    exact Prod.ext (Real.cos_add _ _) ((Real.sin_add _ _).trans (add_comm _ _))
  turn_one := by
    have hangle : (two * pi * 1 : ℝ) = 2 * Real.pi := by
      rw [mul_one, two, one_add_one_eq_two]
      rfl
    rw [turn, hangle]
    exact Prod.ext Real.cos_two_pi Real.sin_two_pi
  turn_half := by
    have hangle : (two * pi * (1 / 2) : ℝ) = Real.pi := by
      rw [two, one_add_one_eq_two, mul_one_div, mul_div_cancel_left₀ _ two_ne_zero]
      rfl
    rw [turn, hangle]
    exact Prod.ext Real.cos_pi Real.sin_pi

end Scalar

namespace Fourier

/-! ## Complex numbers in a ring -/

section Reading

variable {α : Type} [Field α] [Scalar α] {R : Type} [CommRing R]

/-- **Complex numbers as the elements of a ring.** -/
structure Reads (φ : Cplx α → R) : Prop where
  injective : Function.Injective φ
  zero : φ Cplx.zero = 0
  one : φ (1, 0) = 1
  add (z w : Cplx α) : φ (Cplx.add z w) = φ z + φ w
  sub (z w : Cplx α) : φ (Cplx.sub z w) = φ z - φ w
  mul (z w : Cplx α) : φ (Scalar.mulC z w) = φ z * φ w

variable (α) in
/-- Any numbers have such a ring: they are joined by a root of `-1`. -/
theorem reads_quadratic [Scalar.ExactTurn α] :
    Reads (fun z : Cplx α => (⟨z.1, z.2⟩ : QuadraticAlgebra α (-1) 0)) where
  injective z w h := Prod.ext (congrArg QuadraticAlgebra.re h) (congrArg QuadraticAlgebra.im h)
  zero := rfl
  one := rfl
  add _ _ := rfl
  sub _ _ := rfl
  mul z w := by
    rw [Scalar.ExactTurn.mulC_eq]
    ext
    · simp
      ring
    · simp

variable {φ : Cplx α → R} (hφ : Reads φ)

include hφ

theorem Reads.sumC (n : Nat) (f : Nat → Cplx α) :
    φ (Native.sumC n f) = ∑ t ∈ Finset.range n, φ (f t) := by
  induction n with
  | zero => exact hφ.zero
  | succ n ih =>
    rw [Native.sumC, List.range_succ, List.foldl_append, Finset.sum_range_succ, ← ih]
    exact hφ.add _ _

variable [Scalar.ExactTurn α]

theorem Reads.turn_add (x y : α) :
    φ (Scalar.turn (x + y)) = φ (Scalar.turn x) * φ (Scalar.turn y) := by
  rw [Scalar.ExactTurn.turn_add, hφ.mul]

theorem Reads.turn_one : φ (Scalar.turn (1 : α)) = 1 := by
  rw [Scalar.ExactTurn.turn_one, hφ.one]

theorem Reads.turn_zero : φ (Scalar.turn (0 : α)) = 1 := by
  have h := hφ.turn_add 1 0
  rwa [add_zero, hφ.turn_one, one_mul, eq_comm] at h

theorem Reads.turn_nat_mul (m : Nat) (x : α) : φ (Scalar.turn (m * x)) = φ (Scalar.turn x) ^ m := by
  induction m with
  | zero => rw [Nat.cast_zero, zero_mul, hφ.turn_zero, pow_zero]
  | succ m ih => rw [Nat.cast_succ, add_mul, one_mul, hφ.turn_add, ih, pow_succ]

theorem Reads.turn_half : φ (Scalar.turn (1 / 2 : α)) = -1 := by
  have h := hφ.sub Cplx.zero (1, 0)
  rw [hφ.zero, hφ.one, zero_sub] at h
  rw [Scalar.ExactTurn.turn_half, ← h]
  simp [Cplx.sub, Cplx.zero]

/-- **The root of unity of a transform** of length `n`. -/
def root (φ : Cplx α → R) (inverse : Bool) (n : Nat) : R := φ (Scalar.turn (sign inverse / n))

theorem Reads.root_mul_root (inverse : Bool) (n : Nat) :
    root φ inverse n * root φ (!inverse) n = 1 := by
  have hsum : sign inverse / (n : α) + sign (!inverse) / (n : α) = 0 := by
    cases inverse <;> simp [sign] <;> ring
  rw [root, root, ← hφ.turn_add, hsum, hφ.turn_zero]

theorem Reads.root_pow_half [CharZero α] (inverse : Bool) {h : Nat} (hh : h ≠ 0) :
    root φ inverse (2 * h) ^ h = -1 := by
  have htrue : root φ true (2 * h) ^ h = -1 := by
    have hne : (h : α) ≠ 0 := Nat.cast_ne_zero.2 hh
    rw [root, ← hφ.turn_nat_mul, ← hφ.turn_half, sign, if_pos rfl]
    congr 2
    push_cast
    field_simp
  cases inverse with
  | true => exact htrue
  | false =>
    have hone : (root φ true (2 * h) * root φ false (2 * h)) ^ h = 1 :=
      (congrArg (· ^ h) (hφ.root_mul_root true _)).trans (one_pow h)
    rw [mul_pow, htrue] at hone
    linear_combination -hone

theorem Reads.root_pow_self [CharZero α] (inverse : Bool) {n : Nat} (hn : n ≠ 0) :
    root φ inverse n ^ n = 1 := by
  have htrue : root φ true n ^ n = 1 := by
    rw [root, ← hφ.turn_nat_mul, mul_div_cancel₀ _ (Nat.cast_ne_zero.2 hn), sign, if_pos rfl,
      hφ.turn_one]
  cases inverse with
  | true => exact htrue
  | false =>
    have hone : (root φ true n * root φ false n) ^ n = 1 :=
      (congrArg (· ^ n) (hφ.root_mul_root true n)).trans (one_pow n)
    rwa [mul_pow, htrue, one_mul] at hone

theorem Reads.root_sq [CharZero α] (inverse : Bool) {h : Nat} (hh : h ≠ 0) :
    root φ inverse (2 * h) ^ 2 = root φ inverse h := by
  have hne : (h : α) ≠ 0 := Nat.cast_ne_zero.2 hh
  rw [root, root, ← hφ.turn_nat_mul]
  congr 2
  push_cast
  field_simp

theorem Reads.factor (inverse : Bool) (n k : Nat) :
    φ (factor inverse n k) = root φ inverse n ^ k := by
  rw [root, ← hφ.turn_nat_mul, Fourier.factor, Scalar.turn]
  congr 2
  ring

/-- **What the plain transform makes**, where the products of places do not wrap or wrap evenly: a
root of unity does not see multiples of the length in its exponent. -/
theorem Reads.value_direct [CharZero α] (inverse : Bool) {vs : Array (Cplx α)} {n : Nat}
    (hsize : vs.size = n)
    (hword : ∀ k < n, ∀ t < n, k * t % 2 ^ 64 % n = k * t % n) {k : Nat} (hk : k < n) :
    φ (value (direct inverse vs) k) =
      ∑ t ∈ Finset.range n, φ (value vs t) * root φ inverse n ^ (k * t) := by
  subst hsize
  have hn : vs.size ≠ 0 := by omega
  rw [value_eq_getElem?, direct, Array.getElem?_ofFn, dif_pos hk, Option.getD_some, hφ.sumC]
  refine Finset.sum_congr rfl fun t ht => ?_
  have hphase : Scalar.cis (sign inverse * Scalar.two * Scalar.pi *
      ((k * t % Nat.pow 2 64 % vs.size : Nat) : α) / (vs.size : α)) =
        Scalar.turn (((k * t % vs.size : Nat) : α) * (sign inverse / (vs.size : α))) := by
    rw [show Nat.pow 2 64 = 2 ^ 64 from rfl, hword k hk t (Finset.mem_range.1 ht), Scalar.turn]
    congr 1
    ring
  rw [hφ.mul]
  dsimp only
  rw [hphase, hφ.turn_nat_mul]
  congr 1
  exact (pow_eq_pow_mod _ (hφ.root_pow_self inverse hn)).symm

end Reading

/-- A pair of reals as a complex number. -/
def toComplex (z : Cplx ℝ) : ℂ := ⟨z.1, z.2⟩

theorem reads_complex : Reads toComplex where
  injective z w h := Prod.ext (congrArg Complex.re h) (congrArg Complex.im h)
  zero := rfl
  one := rfl
  add _ _ := rfl
  sub _ _ := rfl
  mul z w := by
    refine Complex.ext rfl ?_
    rw [Complex.mul_im]
    rfl

/-! ## The stages of the fast transform -/

section Stages

variable {R : Type} [CommRing R]

/-- **The transform of every `d`-th number from place `o` on**, `n` of them. -/
def strided (x : Nat → R) (ω : R) (n o d k : Nat) : R :=
  ∑ t ∈ Finset.range n, x (o + t * d) * ω ^ (k * t)

theorem sum_range_two_mul (f : Nat → R) (h : Nat) :
    ∑ t ∈ Finset.range (2 * h), f t =
      ∑ t ∈ Finset.range h, f (2 * t) + ∑ t ∈ Finset.range h, f (2 * t + 1) := by
  induction h with
  | zero => simp
  | succ h ih =>
    rw [Nat.mul_succ, Finset.sum_range_succ, Finset.sum_range_succ, ih, Finset.sum_range_succ,
      Finset.sum_range_succ]
    ring

/-- **Two halves make a transform**: of the numbers with even and of those with odd indices. -/
theorem strided_two_mul (x : Nat → R) (ω : R) (h o d k : Nat) :
    strided x ω (2 * h) o d k =
      strided x (ω ^ 2) h o (2 * d) k + ω ^ k * strided x (ω ^ 2) h (o + d) (2 * d) k := by
  unfold strided
  rw [sum_range_two_mul, Finset.mul_sum]
  congr 1 <;> refine Finset.sum_congr rfl fun t _ => ?_
  · rw [show o + 2 * t * d = o + t * (2 * d) by ring, ← pow_mul,
      show k * (2 * t) = 2 * (k * t) by ring]
  · rw [show o + (2 * t + 1) * d = o + d + t * (2 * d) by ring, ← pow_mul,
      show k * (2 * t + 1) = k + 2 * (k * t) by ring, pow_add]
    ring

/-- Beyond half of the length the second half is subtracted. -/
theorem strided_two_mul_add (x : Nat → R) {ω : R} {h : Nat} (hω : ω ^ h = -1) (o d k : Nat) :
    strided x ω (2 * h) o d (h + k) =
      strided x (ω ^ 2) h o (2 * d) k - ω ^ k * strided x (ω ^ 2) h (o + d) (2 * d) k := by
  have hperiod (o d : Nat) : strided x (ω ^ 2) h o d (h + k) = strided x (ω ^ 2) h o d k := by
    refine Finset.sum_congr rfl fun t _ => ?_
    have hone : (ω ^ 2) ^ (h * t) = 1 := by
      rw [← pow_mul, show 2 * (h * t) = h * (2 * t) by ring, pow_mul, hω, pow_mul, neg_one_sq,
        one_pow]
    rw [add_mul, pow_add, hone, one_mul]
  rw [strided_two_mul, hperiod, hperiod, pow_add, hω]
  ring

variable {α : Type} [Field α] [CharZero α] [Scalar α] [Scalar.ExactTurn α] {φ : Cplx α → R}

/-- **The values after `s` stages**: each block of `2 ^ s` of them is the transform of the values
whose places end with the reversed bits of its number. -/
structure Staged (φ : Cplx α → R) (inverse : Bool) (vs : Array (Cplx α)) (s r : Nat)
    (ws : Array (Cplx α)) : Prop where
  size : ws.size = 2 ^ r * 2 ^ s
  value (b k : Nat) : b < 2 ^ r → k < 2 ^ s → φ (value ws (b * 2 ^ s + k)) =
    strided (fun i => φ (Fourier.value vs i)) (root φ inverse (2 ^ s)) (2 ^ s) (reversed r b)
      (2 ^ r) k

theorem reversed_two_mul (r b : Nat) : reversed (r + 1) (2 * b) = reversed r b := by
  rw [reversed_succ, Nat.mul_mod_right, mul_zero, zero_add, Nat.mul_div_cancel_left b two_pos]

theorem reversed_two_mul_add_one (r b : Nat) :
    reversed (r + 1) (2 * b + 1) = reversed r b + 2 ^ r := by
  rw [reversed_succ, show (2 * b + 1) % 2 = 1 by omega, show (2 * b + 1) / 2 = b by omega, mul_one,
    add_comm]

omit [CharZero α] [Scalar.ExactTurn α] in
/-- **The first state** is that of the reordered values. -/
theorem staged_reorder (φ : Cplx α → R) (inverse : Bool) {vs : Array (Cplx α)} {r : Nat}
    (hsize : vs.size = 2 ^ r) : Staged φ inverse vs 0 r (reorder vs) := by
  refine ⟨by rw [size_reorder, hsize, pow_zero, mul_one], fun b k hb hk => ?_⟩
  obtain rfl : k = 0 := by simpa using hk
  have hvalue : value (reorder vs) b = value vs (reversed r b) := by
    rw [value_eq_getElem?, value_eq_getElem?, getElem?_reorder hsize hb]
  simp [strided, hvalue]

/-- **One more stage.** Blocks `2 * b` and `2 * b + 1` make block `b` of twice their length. -/
theorem Staged.next (hφ : Reads φ) {inverse : Bool} {vs ws : Array (Cplx α)} {s r : Nat}
    (h : Staged φ inverse vs s (r + 1) ws) :
    Staged φ inverse vs (s + 1) r (butterflies inverse (2 ^ (s + 1)) ws) := by
  have hlen : 2 ^ (s + 1) = 2 * 2 ^ s := by rw [Nat.pow_succ, mul_comm]
  have hstride : 2 ^ (r + 1) = 2 * 2 ^ r := by rw [Nat.pow_succ, mul_comm]
  have hpos : (2 : Nat) ^ s ≠ 0 := (Nat.two_pow_pos s).ne'
  have hsize : ws.size = 2 ^ r * 2 ^ (s + 1) := by
    rw [h.size, hstride, hlen]
    ring
  refine ⟨by rw [size_butterflies, hsize], fun b k hb hk => ?_⟩
  have hplace : b * 2 ^ (s + 1) + k < ws.size := hsize ▸ Grid.place_lt hb hk
  have hfirst (k : Nat) : b * 2 ^ (s + 1) + k = 2 * b * 2 ^ s + k := by
    rw [hlen]
    ring
  have hsecond (k : Nat) : 2 * b * 2 ^ s + (2 ^ s + k) = (2 * b + 1) * 2 ^ s + k := by ring
  -- The lower half of a block adds what the upper half subtracts.
  obtain hlow | ⟨k, rfl⟩ : k < 2 ^ s ∨ ∃ i, k = 2 ^ s + i :=
    (lt_or_ge k (2 ^ s)).imp_right Nat.exists_eq_add_of_le
  · rw [hlen, value_butterflies_low inverse hlow (hlen ▸ hplace), ← hlen, hfirst, hfirst, hsecond,
      hφ.add, hφ.mul, h.value (2 * b) k (by omega) hlow, h.value (2 * b + 1) k (by omega) hlow,
      reversed_two_mul, reversed_two_mul_add_one, hφ.factor, hlen, strided_two_mul,
      hφ.root_sq inverse hpos, hstride]
    ring
  · have hhigh : k < 2 ^ s := by omega
    rw [hlen, value_butterflies_high inverse hhigh (hlen ▸ hplace), ← hlen, hfirst, hfirst, hsecond,
      hφ.sub, hφ.mul, h.value (2 * b) k (by omega) hhigh, h.value (2 * b + 1) k (by omega) hhigh,
      reversed_two_mul, reversed_two_mul_add_one, hφ.factor, hlen,
      strided_two_mul_add _ (hφ.root_pow_half inverse hpos), hφ.root_sq inverse hpos, hstride]
    ring

/-- **All stages**, one after the other. -/
theorem Staged.radix2 (hφ : Reads φ) (inverse : Bool) {vs : Array (Cplx α)} {k : Nat}
    (hsize : vs.size = 2 ^ k) : Staged φ inverse vs k 0 (radix2 inverse vs) := by
  have hrun := foldl_range_of_step (P := fun s ws => Staged φ inverse vs s (k - s) ws) (n := k)
    (f := fun ws s => butterflies inverse (Nat.pow 2 (s + 1)) ws)
    (staged_reorder φ inverse hsize) fun s hs ws hws => by
      rw [show k - s = k - (s + 1) + 1 by omega] at hws
      exact hws.next hφ
  rw [Nat.sub_self] at hrun
  rwa [Fourier.radix2, hsize, Nat.log2_two_pow]

omit [CharZero α] [Scalar.ExactTurn α] in
theorem size_direct (inverse : Bool) (vs : Array (Cplx α)) :
    (direct inverse vs).size = vs.size := by
  simp [direct]

/-- **The fast transform is the plain one.** -/
theorem radix2_eq (hφ : Reads φ) (inverse : Bool) {vs : Array (Cplx α)} {k : Nat}
    (hsize : vs.size = 2 ^ k) (hword : vs.size < 2 ^ 64) :
    Fourier.radix2 inverse vs = direct inverse vs := by
  have hstaged := Staged.radix2 hφ inverse hsize
  have hle : k ≤ 64 := ((Nat.pow_lt_pow_iff_right one_lt_two).1 (hsize ▸ hword)).le
  have hwrap : ∀ i < 2 ^ k, ∀ t < 2 ^ k, i * t % 2 ^ 64 % 2 ^ k = i * t % 2 ^ k :=
    fun _ _ _ _ => Nat.mod_mod_of_dvd _ (Nat.pow_dvd_pow 2 hle)
  refine ext_value ?_ fun i hi => hφ.injective ?_
  · rw [hstaged.size, size_direct, hsize, pow_zero, one_mul]
  · rw [hstaged.size, pow_zero, one_mul] at hi
    -- One block is left, and the reversed bits of its number are `0`.
    have hvalue := hstaged.value 0 i (by simp) hi
    rw [zero_mul, zero_add, pow_zero, reversed_zero] at hvalue
    rw [hvalue, hφ.value_direct inverse hsize hwrap hi]
    simp [strided]

end Stages

/-! ## The fast transform and the plain one -/

section Radix

variable {α : Type} [Field α] [CharZero α] [Scalar α] [Scalar.ExactTurn α]

/-- **The fast transform leaves what the plain one makes**, in both directions. It exchanges each
place with the one of the reversed bits, the loop that moves the reversed index on comes to an end
each time, and the stages are made in place. -/
theorem radix2_eq_direct (inverse : Bool) {vs : Array (Cplx α)} {k : Nat}
    (hsize : vs.size = 2 ^ k) (hword : vs.size < 2 ^ 64) :
    radix2 inverse vs = direct inverse vs ∧
      radix2 inverse vs = (List.range k).foldl (fun ws s => stage inverse (2 ^ (s + 1)) ws)
        ((exchanges (2 ^ k)).foldl exchange vs) ∧
      exchanges (2 ^ k) =
        ((List.range (2 ^ k)).filter fun i => i < reversed k i).map (fun i => (i, reversed k i)) ∧
      (∀ i < 2 ^ k, ((exchanges (2 ^ k)).foldl exchange vs)[i]? = vs[reversed k i]?) ∧
      ∀ i, i + 1 < 2 ^ k →
        ∃ p < k, Carries p (reversed k i) (2 ^ k >>> 1) (reversed k (i + 1)) := by
  have hreorder : reorder vs = (exchanges (2 ^ k)).foldl exchange vs := by
    rw [reorder_eq_foldl, hsize]
  refine ⟨radix2_eq (reads_quadratic α) inverse hsize hword, ?_, exchanges_two_pow k,
    fun i hi => hreorder ▸ getElem?_reorder hsize hi, fun i => carries_reversed⟩
  rw [← hreorder, ← radix2_eq_stages inverse hsize]

/-- A vector of four values. -/
theorem radix2_eq_direct_four :
    let vs : Array (Cplx ℝ) := #[(1, 0), (2, 0), (3, 0), (4, 0)]
    vs.size = 2 ^ 2 ∧ vs.size < 2 ^ 64 ∧ radix2 false vs = direct false vs ∧
      exchanges 4 = [(1, 2)] := by
  intro vs
  obtain ⟨heq, -, hex, -⟩ := radix2_eq_direct false (show vs.size = 2 ^ 2 from rfl) (by decide)
  exact ⟨rfl, by decide, heq, hex⟩

end Radix

/-! ## Both directions one after the other -/

theorem isPrimitiveRoot_root (inverse : Bool) {n : Nat} (hn : n ≠ 0) :
    IsPrimitiveRoot (root toComplex inverse n) n := by
  have htrue : root toComplex true n = Complex.exp (2 * Real.pi * Complex.I / n) := by
    have hangle : 2 * (Real.pi : ℂ) * Complex.I / n =
        ((2 * Real.pi * (1 / n) : ℝ) : ℂ) * Complex.I := by
      push_cast
      ring
    rw [hangle, Complex.exp_mul_I, ← Complex.ofReal_cos, ← Complex.ofReal_sin, root, Scalar.turn,
      sign, if_pos rfl, Scalar.two, one_add_one_eq_two]
    exact Complex.mk_eq_add_mul_I _ _
  have hprimitive : IsPrimitiveRoot (root toComplex true n) n :=
    htrue ▸ Complex.isPrimitiveRoot_exp n hn
  cases inverse with
  | true => exact hprimitive
  | false =>
    have hinv : root toComplex false n = (root toComplex true n)⁻¹ :=
      (inv_eq_of_mul_eq_one_right (reads_complex.root_mul_root true n)).symm
    exact hinv ▸ hprimitive.inv

section Dual

variable {R : Type} [CommRing R] [IsDomain R] {ω ω' : R} {n : Nat} (hω : IsPrimitiveRoot ω n)
  (h : ω * ω' = 1)

include hω h

/-- The powers of a root of unity and those of its inverse are orthogonal. -/
theorem sum_pow_dual {t i : Nat} (ht : t < n) (hi : i < n) :
    ∑ k ∈ Finset.range n, (ω ^ t * ω' ^ i) ^ k = if t = i then (n : R) else 0 := by
  by_cases hti : t = i
  · rw [if_pos hti, hti, ← mul_pow, h, one_pow]
    simp
  · have hne : ω ^ t * ω' ^ i ≠ 1 := fun hone => hti <| hω.pow_inj ht hi <| by
      rw [← mul_one (ω ^ t), ← one_pow i, ← h, mul_comm ω ω', mul_pow, ← mul_assoc, hone, one_mul]
    have hdual : ω' ^ n = 1 := by
      rw [← one_mul (ω' ^ n), ← hω.pow_eq_one, ← mul_pow, h, one_pow, hω.pow_eq_one]
    have hpow : (ω ^ t * ω' ^ i) ^ n = 1 := by
      rw [mul_pow, pow_right_comm, pow_right_comm ω', hω.pow_eq_one, hdual, one_pow, one_pow,
        one_mul]
    rw [if_neg hti]
    refine (mul_eq_zero.1 ?_).resolve_right (sub_ne_zero.2 hne)
    rw [geom_sum_mul, hpow, sub_self]

/-- **The plain transform with a root of unity and then with its inverse** makes `n` times each
number. -/
theorem sum_dual (x : Nat → R) {i : Nat} (hi : i < n) :
    ∑ k ∈ Finset.range n, (∑ t ∈ Finset.range n, x t * ω ^ (k * t)) * ω' ^ (i * k) = n * x i :=
  calc ∑ k ∈ Finset.range n, (∑ t ∈ Finset.range n, x t * ω ^ (k * t)) * ω' ^ (i * k)
      = ∑ t ∈ Finset.range n, x t * ∑ k ∈ Finset.range n, (ω ^ t * ω' ^ i) ^ k := by
        simp only [Finset.sum_mul, Finset.mul_sum]
        rw [Finset.sum_comm]
        refine Finset.sum_congr rfl fun t _ => Finset.sum_congr rfl fun k _ => ?_
        rw [mul_pow, ← pow_mul, ← pow_mul, mul_comm t k, mul_assoc]
    _ = ∑ t ∈ Finset.range n, if t = i then x t * n else 0 := by
        refine Finset.sum_congr rfl fun t ht => ?_
        rw [sum_pow_dual hω h (Finset.mem_range.1 ht) hi, mul_ite, mul_zero]
    _ = n * x i := by
        rw [Finset.sum_ite_eq', if_pos (Finset.mem_range.2 hi), mul_comm]

end Dual

/-- The scale of a transform. -/
noncomputable def scale (inverse : Bool) (n : Nat) : ℂ := if inverse then (n : ℂ)⁻¹ else 1

theorem scale_mul_scale (inverse : Bool) {n : Nat} (hn : n ≠ 0) :
    scale (!inverse) n * (scale inverse n * n) = 1 := by
  have hne : (n : ℂ) ≠ 0 := Nat.cast_ne_zero.2 hn
  cases inverse <;> simp [scale, hne]

theorem toComplex_divReal (z : Cplx ℝ) (n : Nat) :
    toComplex (Cplx.divReal z n) = (n : ℂ)⁻¹ * toComplex z := by
  rw [← Complex.ofReal_natCast, ← Complex.ofReal_inv]
  refine Complex.ext ?_ ?_
  · rw [Complex.re_ofReal_mul]
    exact div_eq_inv_mul _ _
  · rw [Complex.im_ofReal_mul]
    exact div_eq_inv_mul _ _

theorem value_map {ws : Array (Cplx ℝ)} (f : Cplx ℝ → Cplx ℝ) {k : Nat} (hk : k < ws.size) :
    value (ws.map f) k = f (value ws k) := by
  rw [value_eq_getElem?, value_eq_getElem?, Array.getElem?_map, Array.getElem?_eq_getElem hk,
    Option.map_some, Option.getD_some, Option.getD_some]

section Values

variable {vs : Array (Cplx ℝ)} (hword : (vs.size - 1) ^ 2 < 2 ^ 64)

include hword

/-- The products of places are 64-bit words. -/
theorem mul_lt_of_sq {k t : Nat} (hk : k < vs.size) (ht : t < vs.size) : k * t < 2 ^ 64 :=
  calc k * t ≤ (vs.size - 1) * (vs.size - 1) := Nat.mul_le_mul (by omega) (by omega)
    _ < 2 ^ 64 := sq (vs.size - 1) ▸ hword

/-- The length does not matter to what is transformed. -/
theorem transformValues_eq (inverse : Bool) : transformValues inverse vs =
    if inverse then (direct inverse vs).map fun z => Cplx.divReal z (vs.size : ℝ)
    else direct inverse vs := by
  have hdirect : (if isPowerOfTwo vs.size then radix2 inverse vs else direct inverse vs) =
      direct inverse vs := by
    split_ifs with hpow
    · obtain ⟨r, hr⟩ := exists_of_isPowerOfTwo hpow
      refine radix2_eq reads_complex inverse hr ?_
      have hlt : vs.size - 1 < 2 ^ 32 := lt_of_pow_lt_pow_left₀ 2 (by decide) (by simpa using hword)
      omega
    · rfl
  rw [transformValues, hdirect]

/-- **What a transform makes**, whatever the length. -/
theorem toComplex_transformValues (inverse : Bool) {k : Nat} (hk : k < vs.size) :
    toComplex (value (transformValues inverse vs) k) = scale inverse vs.size *
      ∑ t ∈ Finset.range vs.size, toComplex (value vs t) *
        root toComplex inverse vs.size ^ (k * t) := by
  have hvalue := reads_complex.value_direct inverse (Eq.refl vs.size)
    (fun k hk t ht => by rw [Nat.mod_eq_of_lt (mul_lt_of_sq hword hk ht)]) hk
  rw [← hvalue, transformValues_eq hword]
  cases inverse with
  | false => rw [if_neg Bool.false_ne_true, scale, if_neg Bool.false_ne_true, one_mul]
  | true =>
    rw [if_pos rfl, scale, if_pos rfl, value_map _ (by rwa [size_direct]), toComplex_divReal]

/-- **A transform in one direction and then in the other one leaves the values.** -/
theorem transformValues_transformValues (inverse : Bool) :
    transformValues (!inverse) (transformValues inverse vs) = vs := by
  have hsize := size_transformValues inverse vs
  refine ext_value (by rw [size_transformValues, hsize]) fun i hi => reads_complex.injective ?_
  rw [size_transformValues, hsize] at hi
  have hn : vs.size ≠ 0 := by omega
  calc toComplex (value (transformValues (!inverse) (transformValues inverse vs)) i)
      = scale (!inverse) vs.size * ∑ k ∈ Finset.range vs.size,
          toComplex (value (transformValues inverse vs) k) *
            root toComplex (!inverse) vs.size ^ (i * k) := by
        rw [toComplex_transformValues (by rwa [hsize]) _ (by rwa [hsize]), hsize]
    _ = scale (!inverse) vs.size * (scale inverse vs.size * ∑ k ∈ Finset.range vs.size,
          (∑ t ∈ Finset.range vs.size, toComplex (value vs t) *
            root toComplex inverse vs.size ^ (k * t)) *
              root toComplex (!inverse) vs.size ^ (i * k)) := by
        congr 1
        rw [Finset.mul_sum]
        refine Finset.sum_congr rfl fun k hk => ?_
        rw [toComplex_transformValues hword _ (Finset.mem_range.1 hk), mul_assoc]
    _ = scale (!inverse) vs.size * (scale inverse vs.size * vs.size) * toComplex (value vs i) := by
        rw [sum_dual (isPrimitiveRoot_root inverse hn) (reads_complex.root_mul_root inverse _) _ hi]
        ring
    _ = toComplex (value vs i) := by rw [scale_mul_scale inverse hn, one_mul]

end Values

/-! ## The elements of a vector -/

section Elements

variable {α : Type} [Arith α]

/-- The elements of a vector. -/
def elements (a : Tensor α) : Array (Cplx α) :=
  Array.ofFn fun i : Fin a.count.toNat => a.complexAt i

theorem size_elements (a : Tensor α) : (elements a).size = a.count.toNat :=
  Array.size_ofFn

theorem value_elements (a : Tensor α) {i : Nat} (hi : i < a.count.toNat) :
    value (elements a) i = a.complexAt i := by
  rw [value_eq_getElem?, elements, Array.getElem?_ofFn, dif_pos hi, Option.getD_some]

theorem complexAt_interleave {n : Nat} (f : Nat → Cplx α) (s : Shape)
    (e : Engine) {i : Nat} (hi : i < n) :
    (⟨.c128, s, Native.interleave n f, e⟩ : Tensor α).complexAt i = f i := by
  have hget (q : Nat) (hq : q < n * 2) :
      (⟨.c128, s, Native.interleave n f, e⟩ : Tensor α).get q =
        if q % 2 = 0 then (f (q / 2)).1 else (f (q / 2)).2 := by
    rw [Tensor.get, Guarded.interleave_eq, Array.getD_eq_getD_getElem?, Array.getElem?_ofFn,
      dif_pos hq, Option.getD_some]
  rw [Tensor.complexAt, if_pos (by simp [Tensor.isComplex]), hget _ (by omega), hget _ (by omega),
    if_pos (by omega), if_neg (by omega), Nat.mul_div_cancel _ two_pos,
    show (i * 2 + 1) / 2 = i by omega]

omit [Arith α] in
theorem interleave_congr {n : Nat} {f g : Nat → Cplx α} (h : ∀ i < n, f i = g i) :
    Native.interleave n f = Native.interleave n g := by
  refine congrArg List.toArray (List.flatMap_congr fun i hi => ?_)
  rw [h i (List.mem_range.1 hi)]

theorem interleave_complexAt {a : Tensor α} {n : Nat} (hc : a.dtype = .c128)
    (hsize : a.data.size = n * 2) : Native.interleave n a.complexAt = a.data := by
  rw [Guarded.interleave_eq]
  refine Array.ext (by rw [Array.size_ofFn, hsize]) fun q _ hq => ?_
  have hget : a.get q = a.data[q] := by
    rw [Tensor.get, Array.getD_eq_getD_getElem?, Array.getElem?_eq_getElem hq, Option.getD_some]
  have hcomplex (i : Nat) : a.complexAt i = (a.get (i * 2), a.get (i * 2 + 1)) :=
    if_pos (decide_eq_true hc)
  rw [Array.getElem_ofFn, hcomplex, ← hget]
  dsimp only
  split_ifs with heven
  · rw [Nat.div_mul_cancel (Nat.dvd_of_mod_eq_zero heven)]
  · rw [show q / 2 * 2 + 1 = q by omega]

theorem elements_transform [Scalar α] (inverse : Bool) (a : Tensor α) :
    elements (transform inverse a) = transformValues inverse (elements a) := by
  have hcount :
      (transform inverse a).count.toNat = (transformValues inverse (elements a)).size := by
    rw [size_transformValues, size_elements]
    simp [transform, Tensor.count, numel]
  refine ext_value (by rw [size_elements, hcount]) fun i hi => ?_
  rw [size_elements] at hi
  rw [value_elements _ hi]
  exact complexAt_interleave _ _ _ (hcount ▸ hi)

end Elements

/-- **The other transform of a transform** holds the elements of the vector. -/
theorem transform_transform (inverse : Bool) {a : Tensor ℝ}
    (hword : (a.count.toNat - 1) ^ 2 < 2 ^ 64) : transform (!inverse) (transform inverse a) =
      ⟨.c128, [a.count], Native.interleave a.count.toNat a.complexAt, .native⟩ := by
  have hvalues : transformValues (!inverse) (elements (transform inverse a)) = elements a := by
    rw [elements_transform, transformValues_transformValues (by rwa [size_elements])]
  have hcount : (transform inverse a).count = a.count := by simp [transform, Tensor.count, numel]
  have hdata : Native.interleave (elements a).size (value (elements a)) =
      Native.interleave a.count.toNat a.complexAt := by
    rw [size_elements]
    exact interleave_congr fun i hi => value_elements a hi
  change (⟨.c128, [(transform inverse a).count], Native.interleave
    (transformValues (!inverse) (elements (transform inverse a))).size
    (value (transformValues (!inverse) (elements (transform inverse a)))), .native⟩ : Tensor ℝ) = _
  rw [hvalues, hcount, hdata]

end Fourier

namespace Native

/-- **Each transform undoes the other one**: of a vector of real or of complex numbers, the inverse
transform of its transform and the transform of its inverse one are the vector of complex numbers
with its elements. -/
theorem fourier_inverse {a : Tensor ℝ} {n : UInt64} (hshape : a.shape = [n])
    (hword : (n.toNat - 1) ^ 2 < 2 ^ 64) :
    ∃ b c d : Tensor ℝ, run .fft [a] = .ok [b] ∧ run .ifft [b] = .ok [d] ∧
      run .ifft [a] = .ok [c] ∧ run .fft [c] = .ok [d] ∧
      d.dtype = .c128 ∧ d.shape = [n] ∧ d.IsFull ∧ d.home = .native ∧
      (∀ i < n.toNat, d.complexAt i = a.complexAt i) ∧
      (a.dtype = .c128 → a.IsFull → d.data = a.data) := by
  have hcount : a.count = n := by simp [Tensor.count, hshape, numel]
  have hrun (o : Op) (inverse : Bool) (ho : run o [Fourier.transform inverse a] =
      .ok [Fourier.transform (!inverse) (Fourier.transform inverse a)]) :
      run o [Fourier.transform inverse a] =
        .ok [⟨.c128, [n], interleave n.toNat a.complexAt, .native⟩] := by
    rw [ho, Fourier.transform_transform inverse (by rwa [hcount]), hcount]
  have hsize : (interleave n.toNat a.complexAt).size = n.toNat * 2 := by
    rw [Guarded.interleave_eq, Array.size_ofFn]
  refine ⟨_, _, _, rfl, hrun .ifft false rfl, rfl, hrun .fft true rfl, rfl, rfl, ?_, rfl,
    fun i hi => Fourier.complexAt_interleave _ _ _ hi, fun hc hfull => ?_⟩
  · rw [Tensor.IsFull, Tensor.extent, extent_one]
    exact hsize
  · refine Fourier.interleave_complexAt hc ?_
    rw [hfull, Tensor.extent, hshape, hc, extent_one]
    rfl

/-- Three complex numbers, whose transforms are made from the definition. -/
theorem fourier_inverse_three :
    let a : Tensor ℝ := ⟨.c128, [3], #[1, 2, 3, 4, 5, 6], .native⟩
    a.shape = [3] ∧ ((3 : UInt64).toNat - 1) ^ 2 < 2 ^ 64 ∧
      ∃ b c d : Tensor ℝ, run .fft [a] = .ok [b] ∧ run .ifft [b] = .ok [d] ∧
        run .ifft [a] = .ok [c] ∧ run .fft [c] = .ok [d] ∧ d.shape = [3] ∧
        d.data = #[1, 2, 3, 4, 5, 6] := by
  intro a
  obtain ⟨b, c, d, hb, hbd, hc, hcd, -, hshape, -, -, -, hdata⟩ :=
    fourier_inverse (a := a) (n := 3) rfl (by decide)
  exact ⟨rfl, by decide, b, c, d, hb, hbd, hc, hcd, hshape, hdata rfl rfl⟩

end Native

end MemoFlow
