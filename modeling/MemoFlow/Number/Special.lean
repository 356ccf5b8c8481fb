import MemoFlow.Number.Datum

/-!
# Special functions on doubles

Functions of the mathematical library that are computed here. Each of them gives the double nearest
to the exact value.

A fixed-point number is an integer that counts parts of `2 ^ 256`. The elementary functions are
summed from their series, with far more places than a double has.

* `Fixed.mul`, `Fixed.div`, `Fixed.ofScaled`, `Fixed.nearest`: arithmetic and rounding to doubles;
* `Fixed.ln2`, `Fixed.rootPi`: two constants;
* **`Fixed.exp`**, **`Fixed.log`**: the exponential function and the logarithm;
* **`Fixed.erf`**, **`Fixed.erfcScaled`**: the error function and its complement far out;
* `Special.trunc`, `Special.least`, `Special.greatest`, `Special.remainder`: exact functions;
* `Special.hypot`, `Special.expm1`, `Special.log1p`;
* **`Special.erf`**, **`Special.erfc`**: the error function and its complement.
-/

/-! ## Fixed-point numbers -/

namespace MemoFlow.Fixed

/-- The number of places. -/
def places : Nat := 256

/-- One. -/
def one : Int := Int.pow 2 places

/-- The product. -/
def mul (a b : Int) : Int := a * b / one

/-- The quotient. -/
def div (a b : Int) : Int := a * one / b

/-- The number `± m * 2 ^ e`. -/
def ofScaled (neg : Bool) (m : Nat) (e : Int) : Int :=
  let k := e + places
  Datum.signed neg (Datum.shiftUp m k / Nat.pow 2 (-k).toNat)

/-- The double nearest to `v * 2 ^ e`. -/
def nearest (v e : Int) : Float :=
  (Datum.nearest .double (v < 0) v.natAbs 1 (e - places)).toFloat

/-! ## Series -/

/-- The sum `1 + x/a (1 + x/(a+1) (⋯))` of `n` terms. -/
def falling (x : Int) : Nat → Nat → Int
  | 0, _ => one
  | n + 1, a => one + mul x (falling x n (a + 1)) / a

/-- The sum `x + x³/3 + x⁵/5 + ⋯` of `n` terms from the `k`-th on, where `p` is the power that is
at hand. -/
def oddPowers (sq : Int) : Nat → Nat → Int → Int
  | 0, _, _ => 0
  | n + 1, k, p => p / (2 * k + 1) + oddPowers sq n (k + 1) (mul p sq)

/-- The inverse hyperbolic tangent of a number up to one third. -/
def artanh (x : Int) : Int := oddPowers (mul x x) 90 0 x

/-- The inverse tangent of `1 / n`. -/
def arctanInverse (n : Int) : Int := oddPowers (-(one / (n * n))) 120 0 (one / n)

/-! ## Constants -/

/-- The logarithm of two. -/
def ln2 : Int := 2 * artanh (one / 3)

/-- Half a turn. -/
def pi : Int := 16 * arctanInverse 5 - 4 * arctanInverse 239

/-- The square root of half a turn. -/
def rootPi : Int := Datum.root (pi * one).toNat

/-! ## Elementary functions -/

/-- **The exponential function**, as a number between one and two and a power of two. -/
def exp (x : Int) : Int × Int :=
  let k := x / ln2
  (falling (x - k * ln2) 70 1, k)

/-- **The logarithm** of a positive number. -/
def log (x : Int) : Int :=
  let k : Int := (x.toNat.log2 : Int) - places
  let t := if 0 ≤ k then x / Int.pow 2 k.toNat else x * Int.pow 2 (-k).toNat
  k * ln2 + 2 * artanh (div (t - one) (t + one))

/-! ## The error function -/

/-- The sum of `2ⁿ x²ⁿ⁺¹ / (1 · 3 ⋯ (2 n + 1))` over `n` terms, where `q` is `2 x²`. -/
def doubleFactorials (q : Int) : Nat → Nat → Int → Int
  | 0, _, _ => 0
  | n + 1, k, term => term + doubleFactorials q n (k + 1) (mul term q / (2 * k + 3))

/-- **The error function** of a number that is not negative and at most eight. -/
def erf (x : Int) : Int :=
  let sq := mul x x
  let (m, k) := exp (-sq)
  2 * div (mul (m / Int.pow 2 (-k).toNat) (doubleFactorials (2 * sq) 420 0 x)) rootPi

/-- The continued fraction `1 + (k/q) / (1 + ((k+1)/q) / ⋯)`, from the inside out. -/
def fraction (q : Int) : Nat → Int → Int
  | 0, t => t
  | k + 1, t => fraction q k (one + div (div ((k + 1) * one) q) t)

/-- **The complementary error function** of a number that is at least eight, as a number and a
power of two. -/
def erfcScaled (x : Int) : Int × Int :=
  let sq := mul x x
  let (m, k) := exp (-sq)
  (div m (mul (mul x rootPi) (fraction (2 * sq) 120 one)), k)

end MemoFlow.Fixed

/-! ## Special functions on doubles -/

namespace MemoFlow.Special

/-- Positive infinity. -/
def infinity : Float := Float.ofBits 0x7ff0000000000000

/-- The value that is not a number. -/
def notANumber : Float := Float.ofBits 0x7ff8000000000000

/-! ## Exact functions -/

/-- The integer next to `x` towards zero. -/
def trunc (x : Float) : Float := if x < 0.0 then x.ceil else x.floor

/-- The smaller number, the second one of two that are equal; what is not a number gives way. -/
def least (x y : Float) : Float :=
  if x.isNaN then y else if y.isNaN then x else if x < y then x else y

/-- The larger number, the second one of two that are equal; what is not a number gives way. -/
def greatest (x y : Float) : Float :=
  if x.isNaN then y else if y.isNaN then x else if y < x then x else y

/-- The remainder of a division that rounds towards zero, with the sign of `x`. -/
def remainder (x y : Float) : Float :=
  match Datum.ofFloat x, Datum.ofFloat y with
  | .finite s m e, .finite _ n g =>
    if n = 0 then notANumber
    else
      let low := min e g
      (Datum.finite s (Datum.shiftUp m (e - low) % Datum.shiftUp n (g - low)) low).toFloat
  | .finite _ _ _, .infinite _ => x
  | _, _ => notANumber

/-! ## Functions without loss for small arguments -/

/-- The length of a vector; an infinite part makes it infinite. -/
def hypot (x y : Float) : Float :=
  match Datum.ofFloat x, Datum.ofFloat y with
  | .infinite _, _ | _, .infinite _ => infinity
  | .finite _ m e, .finite _ n g =>
    let low := min e g
    let a := Datum.shiftUp m (e - low)
    let b := Datum.shiftUp n (g - low)
    (Datum.sqrt .double (.finite false (a * a + b * b) (2 * low))).toFloat
  | _, _ => notANumber

/-- Whether a number is so small that a function with slope one at zero leaves it as it is. -/
def isTiny (x : Float) : Bool := x.abs < Float.ofScientific 1 true 17

/-- `exp x - 1`. -/
def expm1 (x : Float) : Float :=
  match Datum.ofFloat x with
  | .finite s m e =>
    if isTiny x then x
    else if 710.0 < x then infinity
    else if x < -60.0 then -1.0
    else
      let (v, k) := Fixed.exp (Fixed.ofScaled s m e)
      if 0 ≤ k then Fixed.nearest (v * Int.pow 2 k.toNat - Fixed.one) 0
      else Fixed.nearest (v / Int.pow 2 (-k).toNat - Fixed.one) 0
  | .infinite s => if s then -1.0 else x
  | .nan _ => x

/-- `log (1 + x)`. -/
def log1p (x : Float) : Float :=
  match Datum.ofFloat x with
  | .finite s m e =>
    if isTiny x then x
    else if x < -1.0 then notANumber
    else if x == -1.0 then -infinity
    else Fixed.nearest (Fixed.log (Fixed.one + Fixed.ofScaled s m e)) 0
  | .infinite s => if s then notANumber else x
  | .nan _ => x

/-! ## The error function -/

/-- The error function of a number whose value has few digits: the number and what its slope at
zero adds are summed sixteen times as large. -/
def erfLow (x : Float) : Float :=
  let slope := Float.ofScientific 128379167095512586316 true 21
  0.0625 * (16.0 * x + (16.0 * slope) * x)

/-- **The error function.** -/
def erf (x : Float) : Float :=
  match Datum.ofFloat x with
  | .finite s m e =>
    if x.abs < Float.ofScientific 1 true 305 then erfLow x
    else if x.abs < Float.ofScientific 1 true 18 then
      -- the slope at zero is two over the square root of half a turn
      Fixed.nearest (Datum.signed s m * Fixed.div (2 * Fixed.one) Fixed.rootPi) e
    else if 6.0 < x.abs then if s then -1.0 else 1.0
    else
      let v := Fixed.erf (Fixed.ofScaled false m e)
      Fixed.nearest (if s then -v else v) 0
  | .infinite s => if s then -1.0 else 1.0
  | .nan _ => x

/-- The complementary error function of a number so large that its value has few digits: a rounded
exponential of the leading digits of the number, times what is missing, over the number. -/
def erfcLow (x : Float) : Float :=
  let fixed (y : Float) : Int :=
    match Datum.ofFloat y with
    | .finite s m e => Fixed.ofScaled s m e
    | _ => 0
  let z := fixed (Float.ofBits (x.toBits &&& 0xffffffff00000000))
  let (v, k) := Fixed.exp (-(Fixed.mul z z) - fixed 0.5625)
  let (w, j) := Fixed.erfcScaled (fixed x)
  Fixed.nearest v k * Fixed.nearest (Fixed.div (Fixed.mul w (fixed x)) v) (j - k) / x

/-- **The complementary error function.** -/
def erfc (x : Float) : Float :=
  match Datum.ofFloat x with
  | .finite s m e =>
    let v := Fixed.ofScaled false m e
    if s then if 6.0 < x.abs then 2.0 else Fixed.nearest (Fixed.one + Fixed.erf v) 0
    else if x < 8.0 then Fixed.nearest (Fixed.one - Fixed.erf v) 0
    else if 26.0 < x then if x < 28.0 then erfcLow x else 0.0
    else
      let (w, k) := Fixed.erfcScaled v
      Fixed.nearest w k
  | .infinite s => if s then 2.0 else 0.0
  | .nan _ => x

end MemoFlow.Special
