import MemoFlow.Tensor.Op

/-!
# Elementwise operations, products, reductions and transforms

* `Native.elementwise`, `Native.matmul`: sums run from the left, each product is added in turn;
* `Native.reduce`: sums are accumulated with an extended significand;
* `Fourier.direct`: the discrete Fourier transform from its definition;
* `Fourier.radix2`: the fast transform for powers of two, with `Fourier.carry` and
  `Fourier.reorder` for the order of the inputs and `Fourier.butterflies` for one stage;
* **`Fourier.transform`**: the transform of a vector in either direction.
-/

/-! ## Operations on payloads -/

namespace MemoFlow.Native

variable {α : Type} [Arith α] [Scalar α]

/-- An elementwise operation on reals. -/
def applyReal : Op → α → α → α
  | .sub, a, b => a - b
  | .mul, a, b => a * b
  | .div, a, b => a / b
  | _, a, b => a + b

/-- An elementwise operation on complex numbers. -/
def applyComplex : Op → Cplx α → Cplx α → Cplx α
  | .sub, a, b => Cplx.sub a b
  | .mul, a, b => Scalar.mulC a b
  | .div, a, b => Scalar.divC a b
  | _, a, b => Cplx.add a b

/-- The payload of `n` complex numbers. -/
def interleave (n : Nat) (f : Nat → Cplx α) : Array α :=
  ((List.range n).flatMap fun i => let z := f i; [z.1, z.2]).toArray

/-- **An elementwise operation**; a single number meets every element. -/
def elementwise (o : Op) (a b : Tensor α) : Tensor α :=
  let s := Tensor.meetShape a b
  let n := (numel s).toNat
  let data :=
    if a.isComplex then
      interleave n fun i =>
        applyComplex o (a.complexAt (a.meetIndex i)) (b.complexAt (b.meetIndex i))
    else
      Array.ofFn fun i : Fin n =>
        applyReal o (a.get (a.meetIndex i)) (b.get (b.meetIndex i))
  Tensor.rounded ⟨a.dtype, s, data, .native⟩

/-- The sum of `n` complex numbers, added from the left to zero. -/
def sumC (n : Nat) (f : Nat → Cplx α) : Cplx α :=
  (List.range n).foldl (fun s i => Cplx.add s (f i)) Cplx.zero

/-- **The matrix product.** -/
def matmul (a b : Tensor α) : Tensor α :=
  let k := a.cols
  let n := b.cols
  let shape := [a.shape.getD 0 0, b.shape.getD 1 0]
  let size := (numel shape).toNat
  let data :=
    if a.isComplex then
      interleave size fun c => sumC k fun p =>
        Scalar.mulC (a.complexAt (c / n * k + p)) (b.complexAt (p * n + c % n))
    else
      Array.ofFn fun c : Fin size => Scalar.sumTo k fun p =>
        a.get (c.val / n * k + p) * b.get (p * n + c.val % n)
  Tensor.rounded ⟨a.dtype, shape, data, .native⟩

/-! ## Reductions -/

/-- The sum of the elements. -/
def total (a : Tensor α) : Cplx α :=
  let zs := (List.range a.count.toNat).map a.complexAt
  (Scalar.sum (zs.map Prod.fst), if a.isComplex then Scalar.sum (zs.map Prod.snd) else 0)

/-- The mean of the elements. -/
def mean (a : Tensor α) : Cplx α := Cplx.divReal (total a) (a.count.toNat : α)

/-- The root of the mean squared distance from the mean. -/
def deviation (a : Tensor α) : α :=
  let μ := mean a
  let squares := (List.range a.count.toNat).map fun i =>
    Cplx.normSq (Cplx.sub (a.complexAt i) μ)
  Scalar.sqrt (Scalar.sum squares / (a.count.toNat : α))

/-- The least or the greatest element; the first one that is not a number wins. -/
def extreme (pick : α → α → α) (a : Tensor α) : α :=
  let xs := (List.range a.count.toNat).map a.get
  match xs.find? Scalar.isNaN with
  | some x => x
  | none => xs.foldl pick (a.get 0)

/-- A number as a tensor of a type without dimensions. -/
def single (z : Cplx α) (d : DType) : Tensor α :=
  if d = .c128 then ⟨.c128, [], #[z.1, z.2], .native⟩ else Tensor.scalar z.1 d

/-- **A reduction.** -/
def reduce (o : Op) (a : Tensor α) : Tensor α :=
  match o with
  | .mean => single (mean a) a.dtype
  | .std => Tensor.scalar (deviation a) (Op.std.resultType a.dtype)
  | .min => Tensor.scalar (extreme Scalar.min a) a.dtype
  | .max => Tensor.scalar (extreme Scalar.max a) a.dtype
  | _ => single (total a) a.dtype

end MemoFlow.Native

/-! ## Discrete Fourier transforms -/

namespace MemoFlow.Fourier

variable {α : Type} [Arith α] [Scalar α]

/-- Whether a length is a power of two. -/
def isPowerOfTwo (n : Nat) : Bool := n ≠ 0 && n &&& (n - 1) = 0

/-- Add one to a number whose bits are read from `bit` downwards. -/
def carry (j bit : Nat) : Nat :=
  if j &&& bit ≠ 0 then carry (j ^^^ bit) (bit >>> 1) else j ^^^ bit
termination_by bit
decreasing_by
  have hb : bit ≠ 0 := fun h => by simp_all
  rw [Nat.shiftRight_eq_div_pow]
  omega

/-- The value at a place. -/
def value (vs : Array (Cplx α)) (i : Nat) : Cplx α := vs.getD i Cplx.zero

/-- One step of the reordering: the reversed index moves on and a pair is exchanged once. -/
def reorderStep (n : Nat) (s : Nat × Array (Cplx α)) (i : Nat) : Nat × Array (Cplx α) :=
  let j := carry s.1 (n >>> 1)
  (j, if i < j then s.2.swapIfInBounds i j else s.2)

/-- The values in the order of their reversed indices. -/
def reorder (vs : Array (Cplx α)) : Array (Cplx α) :=
  let n := vs.size
  ((List.range' 1 (n - 1)).foldl (reorderStep n) (0, vs)).2

/-- The direction of a transform as a sign. -/
def sign (inverse : Bool) : α := if inverse then 1 else -1

/-- One stage: blocks of length `len` are formed from their halves. -/
def butterflies (inverse : Bool) (len : Nat) (vs : Array (Cplx α)) : Array (Cplx α) :=
  let angle : α := Scalar.two * Scalar.pi / (len : α) * sign inverse
  let half := len / 2
  Array.ofFn fun p : Fin vs.size =>
    let k := p.val % len
    if k < half then
      Cplx.add (value vs p) (Scalar.mulC (value vs (p + half)) (Scalar.cis (angle * (k : α))))
    else
      Cplx.sub (value vs (p - half))
        (Scalar.mulC (value vs p) (Scalar.cis (angle * ((k - half : Nat) : α))))

/-- **The fast transform**, for a length that is a power of two. -/
def radix2 (inverse : Bool) (vs : Array (Cplx α)) : Array (Cplx α) :=
  (List.range vs.size.log2).foldl (fun vs s => butterflies inverse (Nat.pow 2 (s + 1)) vs)
    (reorder vs)

/-- **The transform from its definition**; the product of the indices is a 64-bit word. -/
def direct (inverse : Bool) (vs : Array (Cplx α)) : Array (Cplx α) :=
  let n := vs.size
  Array.ofFn fun k : Fin n => Native.sumC n fun t =>
    let phase : α := ((k.val * t % Nat.pow 2 64 % n : Nat) : α)
    Scalar.mulC (value vs t)
      (Scalar.cis (sign inverse * Scalar.two * Scalar.pi * phase / (n : α)))

/-- The transform of a list of values; the inverse one is scaled. -/
def transformValues (inverse : Bool) (vs : Array (Cplx α)) : Array (Cplx α) :=
  let ws := if isPowerOfTwo vs.size then radix2 inverse vs else direct inverse vs
  if inverse then ws.map fun z => Cplx.divReal z (vs.size : α) else ws

/-- **The transform of a vector.** -/
def transform (inverse : Bool) (a : Tensor α) : Tensor α :=
  let vs := Array.ofFn fun i : Fin a.count.toNat => a.complexAt i
  let ws := transformValues inverse vs
  ⟨.c128, [a.count], Native.interleave ws.size (value ws), .native⟩

end MemoFlow.Fourier
