/-!
# Numbers that tensors hold

The numerical algorithms are written once, for any type of numbers with the operations of
`Arith` and `Scalar`; the running instance is the double.

* `Arith`: the four operations, zero, one and the natural numbers;
* `Scalar`: order, root, sums, angles and rounding;
* `Cplx`: complex numbers as pairs, with `Cplx.add`, `Cplx.sub` and division by a real.
-/

namespace MemoFlow

/-- The arithmetic operations. -/
class abbrev Arith (α : Type) :=
  Add α, Sub α, Mul α, Div α, Neg α, Zero α, One α, NatCast α

/-- A complex number as its real and its imaginary part. -/
abbrev Cplx (α : Type) : Type := α × α

/-- **What the numerical algorithms need beside arithmetic.** -/
class Scalar (α : Type) where
  /-- Strictly less; false for what is not a number. -/
  lt : α → α → Bool
  /-- Less or equal; false for what is not a number. -/
  le : α → α → Bool
  /-- Equal as numbers. -/
  eq : α → α → Bool
  /-- Whether the value is not a number. -/
  isNaN : α → Bool
  /-- The absolute value. -/
  abs : α → α
  /-- The square root. -/
  sqrt : α → α
  /-- The nearest number of single precision. -/
  single : α → α
  /-- The sum of a list, accumulated from the left and rounded at the end. -/
  sum : List α → α
  /-- Half a turn, as an angle. -/
  pi : α
  /-- The point of the unit circle at an angle. -/
  cis : α → Cplx α
  /-- The complex product. -/
  mulC : Cplx α → Cplx α → Cplx α
  /-- The complex quotient. -/
  divC : Cplx α → Cplx α → Cplx α
  /-- The distance from one to the next number. -/
  epsilon : α
  /-- How far a symmetric matrix may be from its transpose, relative to its entries. -/
  tolerance : α

namespace Scalar

variable {α : Type} [Arith α] [Scalar α]

/-- The number two. -/
def two : α := 1 + 1

/-- The larger of two numbers, the first one when they do not compare. -/
def max (a b : α) : α := if lt a b then b else a

/-- The smaller of two numbers, the first one when they do not compare. -/
def min (a b : α) : α := if lt b a then b else a

/-- The sum of `f 0`, …, `f (n - 1)`, added from the left to zero. -/
def sumTo (n : Nat) (f : Nat → α) : α := (List.range n).foldl (fun s i => s + f i) 0

end Scalar

namespace Cplx

variable {α : Type} [Arith α]

/-- The complex number zero. -/
def zero : Cplx α := (0, 0)

/-- The sum of complex numbers. -/
def add (a b : Cplx α) : Cplx α := (a.1 + b.1, a.2 + b.2)

/-- The difference of complex numbers. -/
def sub (a b : Cplx α) : Cplx α := (a.1 - b.1, a.2 - b.2)

/-- A complex number divided by a real one. -/
def divReal (a : Cplx α) (d : α) : Cplx α := (a.1 / d, a.2 / d)

/-- The squared absolute value. -/
def normSq (a : Cplx α) : α := a.1 * a.1 + a.2 * a.2

end Cplx

end MemoFlow
