import MemoFlow.Number.Datum
import MemoFlow.Number.Scalar

/-!
# Doubles as numbers of tensors

A double that a tensor holds is a bit pattern, since what is not a number has a sign that its text
shows. An operation hands on the first operand that is not a number; where there is none, a result
that is not a number is negative.

The instance of `Scalar` for doubles. Complex products and quotients keep infinities: where the
plain formula gives two values that are not numbers, an infinite operand still makes the result
infinite, and a quotient by zero is infinite.

* **`Double`**, `Double.unary`, `Double.binary`: doubles and how operations on them are made;
* `Double.mulC`, `Double.divC`: the complex product and quotient;
* `Double.prescale`, `Double.ratio`: the quotient by a divisor with a dominant part, guarded
  against overflow.
-/

namespace MemoFlow

/-- **A double**, as its bit pattern. -/
structure Double where
  /-- The bit pattern. -/
  bits : UInt64
deriving DecidableEq, Repr, Inhabited

namespace Double

/-- A floating-point number as a double. -/
def ofFloat (x : Float) : Double := ⟨x.toBits⟩

/-- A double as a floating-point number, where the sign of what is not a number is lost. -/
def toFloat (x : Double) : Float := Float.ofBits x.bits

/-- Positive infinity. -/
def infinity : Double := ⟨0x7ff0000000000000⟩

/-- What is not a number, with a positive sign. -/
def notANumber : Double := ⟨0x7ff8000000000000⟩

/-- What an operation without a result gives. -/
def invalid : Double := ⟨0xfff8000000000000⟩

/-- Whether the value is not a number. -/
def isNaN (x : Double) : Bool := x.toFloat.isNaN

/-- Whether the value is an infinity. -/
def isInf (x : Double) : Bool := x.toFloat.isInf

/-- Whether the value is a number. -/
def isFinite (x : Double) : Bool := x.toFloat.isFinite

/-- Whether the sign bit is set. -/
def isNegative (x : Double) : Bool := decide (0x8000000000000000 ≤ x.bits)

/-- The opposite sign. -/
def neg (x : Double) : Double := ⟨x.bits ^^^ 0x8000000000000000⟩

/-- The absolute value. -/
def abs (x : Double) : Double := ⟨x.bits &&& 0x7fffffffffffffff⟩

/-- The result of an operation on numbers. -/
def result (x : Float) : Double := if x.isNaN then invalid else ofFloat x

/-- An operation on one double. -/
def unary (f : Float → Float) (x : Double) : Double := if x.isNaN then x else result (f x.toFloat)

/-- An operation on two doubles. -/
def binary (f : Float → Float → Float) (x y : Double) : Double :=
  if x.isNaN then x else if y.isNaN then y else result (f x.toFloat y.toFloat)

instance : Add Double := ⟨binary (· + ·)⟩
instance : Sub Double := ⟨binary (· - ·)⟩
instance : Mul Double := ⟨binary (· * ·)⟩
instance : Div Double := ⟨binary (· / ·)⟩
instance : Neg Double := ⟨neg⟩
instance : Zero Double := ⟨ofFloat 0.0⟩
instance : One Double := ⟨ofFloat 1.0⟩
instance : NatCast Double := ⟨fun n => ofFloat (Float.ofNat n)⟩

/-- Strictly less as numbers. -/
def lt (x y : Double) : Bool := x.toFloat < y.toFloat

/-- Less or equal as numbers. -/
def le (x y : Double) : Bool := x.toFloat ≤ y.toFloat

/-- Equal as numbers. -/
def eq (x y : Double) : Bool := x.toFloat == y.toFloat

/-- At most `p` significant digits. -/
def general (p : Nat) (x : Double) : String := (Decimal.Reading.ofBits x.bits).general p

/-- The same with a plus sign in front of what is not negative. -/
def signedGeneral (p : Nat) (x : Double) : String := (Decimal.Reading.ofBits x.bits).signedGeneral p

/-! ## Complex products and quotients -/

/-- The absolute value of `x` with the sign of `s`. -/
def withSign (x s : Double) : Double := if s.isNegative then -x.abs else x.abs

/-- One for an infinity and zero else, with the sign kept. -/
def unitOf (x : Double) : Double := withSign (if x.isInf then 1 else 0) x

/-- Zero with the sign kept for what is not a number. -/
def zeroNaN (x : Double) : Double := if x.isNaN then withSign 0 x else x

/-- The complex product. -/
def mulC (z w : Cplx Double) : Cplx Double :=
  let a := z.1
  let b := z.2
  let c := w.1
  let d := w.2
  let ac := a * c
  let bd := b * d
  let ad := a * d
  let bc := b * c
  let x := ac - bd
  let y := ad + bc
  let again (a b c d : Double) : Cplx Double :=
    (infinity * (a * c - b * d), infinity * (a * d + b * c))
  if x.isNaN && y.isNaN then
    let left := a.isInf || b.isInf
    let right := c.isInf || d.isInf
    if left || right then
      let (a, b, c, d) :=
        if left then (unitOf a, unitOf b, zeroNaN c, zeroNaN d) else (a, b, c, d)
      let (a, b, c, d) :=
        if right then (zeroNaN a, zeroNaN b, unitOf c, unitOf d) else (a, b, c, d)
      again a b c d
    else if ac.isInf || bd.isInf || ad.isInf || bc.isInf then
      again (zeroNaN a) (zeroNaN b) (zeroNaN c) (zeroNaN d)
    else (x, y)
  else (x, y)

/-- One half. -/
def half : Double := ofFloat 0.5

/-- The least positive normal double. -/
def leastNormal : Double := ⟨0x0010000000000000⟩

/-- The distance from one to the next double. -/
def ulpOne : Double := ⟨0x3cb0000000000000⟩

/-- Half of the greatest double. -/
def halfGreatest : Double := ⟨0x7fdfffffffffffff⟩

/-- The operands of a quotient `(a + b i) / (c + d i)` whose divisor has the dominant part `top`:
large divisors are halved, small operands scaled up. -/
def prescale (a b c d top : Double) : Double × Double × Double × Double :=
  let modest (x : Double) : Bool := lt x.abs (halfGreatest * ulpOne)
  let tiny (x : Double) : Bool := lt x.abs leastNormal
  let k := if le halfGreatest top.abs then half else 1
  let (a, b, c, d, top) := (a * k, b * k, c * k, d * k, top * k)
  let up := lt top.abs ulpOne ||
    (tiny a && modest b && modest top) || (tiny b && modest a && modest top)
  let k := if up then 1 / ulpOne else 1
  (a * k, b * k, c * k, d * k)

/-- `(a + b i) / (c + d i)` for `|d| ≤ |c|`; a ratio that underflows is not formed. -/
def ratio (a b c d : Double) : Cplx Double :=
  let r := d / c
  let den := d * r + c
  if lt leastNormal r.abs then ((b * r + a) / den, (b - a * r) / den)
  else ((a + d * (b / c)) / den, (b - d * (a / c)) / den)

/-- The complex quotient. -/
def divC (z w : Cplx Double) : Cplx Double :=
  let steep : Bool := lt w.1.abs w.2.abs
  let (a, b, c, d) := prescale z.1 z.2 w.1 w.2 (if steep then w.2 else w.1)
  -- `(a + b i) / (c + d i) = (b - a i) / (d - c i)`
  let (x, y) := if steep then ratio b (-a) d (-c) else ratio a b c d
  if x.isNaN && y.isNaN then
    if eq c 0 && eq d 0 && (!a.isNaN || !b.isNaN) then
      (withSign infinity c * a, withSign infinity c * b)
    else if (a.isInf || b.isInf) && c.isFinite && d.isFinite then
      let a := unitOf a
      let b := unitOf b
      (infinity * (a * c + b * d), infinity * (b * c - a * d))
    else if (c.isInf || d.isInf) && a.isFinite && b.isFinite then
      let c := unitOf c
      let d := unitOf d
      (0 * (a * c + b * d), 0 * (b * c - a * d))
    else (x, y)
  else (x, y)

/-! ## The instance -/

/-- The nearest number of single precision. -/
def single : Double → Double := unary fun x => x.toFloat32.toFloat

/-- The sum of a list, kept in extended precision. -/
def sum (xs : List Double) : Double := ⟨(Datum.total (xs.map fun x => .ofBits x.bits)).toBits⟩

instance : Scalar Double where
  lt := lt
  le := le
  eq := eq
  isNaN := isNaN
  abs := abs
  sqrt := unary Float.sqrt
  single := single
  sum := sum
  pi := ⟨0x400921fb54442d18⟩
  cis x := (unary Float.cos x, unary Float.sin x)
  mulC := mulC
  divC := divC
  epsilon := ulpOne
  tolerance := ofFloat (Float.ofScientific 1 true 9)

end Double

end MemoFlow
