/-!
# Decimal text of doubles

Doubles are written from their exact rational value, so every digit is the correctly rounded one.

* `Reading`, `Reading.ofBits`: a double as a sign with an infinity, a fraction or what is not a
  number;
* `roundDiv`: a quotient rounded to the nearest integer, a tie to the even one;
* `significant`: the first `p` significant digits of a fraction and their decimal exponent;
* **`general`**: at most `p` significant digits without trailing zeros, positional when the exponent
  is at least `-4` and below `p`;
* `ofDigits`: the double nearest to a decimal.
-/

namespace MemoFlow.Decimal

/-- What a double stands for. -/
inductive Reading where
  /-- Not a number, with a sign. -/
  | nan (neg : Bool)
  /-- An infinity, negative when the flag is set. -/
  | infinite (neg : Bool)
  /-- The number of absolute value `num / den`, negative when the flag is set. -/
  | finite (neg : Bool) (num den : Nat)
deriving DecidableEq, Repr

/-- The reading of a binary64 bit pattern. -/
def Reading.ofBits (bits : UInt64) : Reading :=
  let b := bits.toNat
  let neg := Nat.pow 2 63 ≤ b
  let expo := b / Nat.pow 2 52 % Nat.pow 2 11
  let frac := b % Nat.pow 2 52
  if expo = 2047 then
    if frac = 0 then .infinite neg else .nan neg
  else
    let m := if expo = 0 then frac else frac + Nat.pow 2 52
    let e := if expo = 0 then 1 else expo
    -- the value is `m * 2 ^ (e - 1075)`
    if 1075 ≤ e then .finite neg (m * Nat.pow 2 (e - 1075)) 1
    else .finite neg m (Nat.pow 2 (1075 - e))

/-- The reading of a double. -/
def Reading.ofFloat (x : Float) : Reading := .ofBits x.toBits

/-! ## Digits -/

/-- `num / den` rounded to the nearest integer, a tie to the even neighbour. -/
def roundDiv (num den : Nat) : Nat :=
  let q := num / den
  let r := num % den
  if 2 * r < den then q
  else if den < 2 * r then q + 1
  else if q % 2 = 0 then q else q + 1

/-- `num / den * 10 ^ k`, as a numerator and a denominator. -/
def scale (num den : Nat) (k : Int) : Nat × Nat :=
  if 0 ≤ k then (num * Nat.pow 10 k.toNat, den) else (num, den * Nat.pow 10 (-k).toNat)

/-- The number of decimal digits of `n`. -/
def width (n : Nat) : Nat := (Nat.toDigits 10 n).length

/-- The decimal exponent of a positive fraction: the `e` with `10 ^ e ≤ num / den < 10 ^ (e + 1)`.
-/
def exponent (num den : Nat) : Int :=
  let d : Int := width num - width den
  let s := scale num den (-d)
  if s.2 ≤ s.1 then d else d - 1

/-- The first `p` significant digits of a positive fraction, correctly rounded, and the decimal
exponent of the first of them. -/
def significant (p num den : Nat) : Nat × Int :=
  let e := exponent num den
  let s := scale num den ((p : Int) - 1 - e)
  let q := roundDiv s.1 s.2
  if q < Nat.pow 10 p then (q, e) else (q / 10, e + 1)

/-- The digits of `q`, with zeros in front up to `p` of them. -/
def padded (p q : Nat) : List Char :=
  let ds := Nat.toDigits 10 q
  List.replicate (p - ds.length) '0' ++ ds

/-- A list without the zeros at its end. -/
def dropTrailingZeros (ds : List Char) : List Char :=
  (ds.reverse.dropWhile (· = '0')).reverse

/-- An exponent with its sign and at least two digits. -/
def exponentText (e : Int) : String :=
  (if e < 0 then "e-" else "e+") ++ String.ofList (padded 2 e.natAbs)

/-- A point and the digits after it, nothing when there are none. -/
def fraction (ds : List Char) : String :=
  if ds.isEmpty then "" else "." ++ String.ofList ds

/-- The text of a positive fraction with at most `p` significant digits. -/
def positive (p num den : Nat) : String :=
  let (q, e) := significant p num den
  let ds := padded p q
  if -4 ≤ e ∧ e < p then
    if 0 ≤ e then
      let k := e.toNat + 1
      String.ofList (ds.take k) ++ fraction (dropTrailingZeros (ds.drop k))
    else
      "0" ++ fraction (dropTrailingZeros (List.replicate ((-e).toNat - 1) '0' ++ ds))
  else
    String.ofList (ds.take 1) ++ fraction (dropTrailingZeros (ds.drop 1)) ++ exponentText e

/-- The text of a reading with at most `p` significant digits. -/
def Reading.general (p : Nat) : Reading → String
  | .nan neg => if neg then "-nan" else "nan"
  | .infinite neg => if neg then "-inf" else "inf"
  | .finite neg num den =>
    (if neg then "-" else "") ++ (if num = 0 then "0" else positive p num den)

/-- **A double with at most `p` significant digits.** -/
def general (p : Nat) (x : Float) : String := (Reading.ofFloat x).general p

/-- The same with a plus sign in front of what is not negative. -/
def Reading.signedGeneral (p : Nat) (r : Reading) : String :=
  let t := r.general p
  if t.startsWith "-" then t else "+" ++ t

/-- Seventeen significant digits tell every two doubles apart. -/
def exact (x : Float) : String := general 17 x

/-- A finite double with `places` digits after the point. -/
def fixed (places : Nat) (x : Float) : String :=
  match Reading.ofFloat x with
  | .finite neg num den =>
    let ds := padded (places + 1) (roundDiv (num * Nat.pow 10 places) den)
    (if neg then "-" else "") ++ String.ofList (ds.take (ds.length - places)) ++
      fraction (ds.drop (ds.length - places))
  | r => r.general 17

/-! ## Reading -/

/-- The double nearest to `m * 10 ^ e`; beyond the range it is an infinity or zero. -/
def ofDigits (m : Nat) (e : Int) : Float :=
  if m = 0 then 0.0
  else
    let top : Int := e + width m
    if 310 < top then Float.ofBits 0x7ff0000000000000
    else if top < -330 then 0.0
    else if 0 ≤ e then Float.ofScientific m false e.toNat
    else Float.ofScientific m true (-e).toNat

end MemoFlow.Decimal
