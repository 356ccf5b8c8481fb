import MemoFlow.Text.Decimal

/-!
# Numbers of floating formats

A number of a floating format is held exactly, as a sign, an integer and a power of the radix, two
or ten. Every operation computes the exact result and rounds it once.

* **`Format`** and the formats in use: the radix, how many significant digits, which exponents;
* **`Datum`**: an infinity, a number, or what is not a number, each with a sign;
* **`Datum.nearest`**: a fraction rounded to a format, a tie to the even neighbour;
* `Datum.add`, `Datum.mul`, `Datum.div`, `Datum.sqrt`, `Datum.mulAdd`, `Datum.compare?`:
  arithmetic and order;
* `Datum.ofBits`, `Datum.toBits`: the bit patterns of doubles;
* `Datum.total`: a sum of doubles that is kept in a wider format.
-/

namespace MemoFlow

/-! ## Formats -/

/-- **A floating format.** -/
structure Format where
  /-- The radix, two or ten. -/
  radix : Nat
  /-- The number of significant digits. -/
  precision : Nat
  /-- The exponent of the last place of the least positive number. -/
  least : Int
  /-- Finite numbers are below the radix to this power. -/
  top : Int
deriving DecidableEq, Repr, Inhabited

namespace Format

/-- Half precision. -/
def half : Format := ⟨2, 11, -24, 16⟩

/-- The short format with the range of single precision. -/
def brief : Format := ⟨2, 8, -133, 128⟩

/-- Single precision. -/
def single : Format := ⟨2, 24, -149, 128⟩

/-- Double precision. -/
def double : Format := ⟨2, 53, -1074, 1024⟩

/-- Extended precision, with a significand of 64 bits. -/
def extended : Format := ⟨2, 64, -16445, 16384⟩

/-- Quadruple precision. -/
def quad : Format := ⟨2, 113, -16494, 16384⟩

/-- Seven decimal digits. -/
def decimal32 : Format := ⟨10, 7, -101, 97⟩

/-- Sixteen decimal digits. -/
def decimal64 : Format := ⟨10, 16, -398, 385⟩

/-- Thirty-four decimal digits. -/
def decimal128 : Format := ⟨10, 34, -6176, 6145⟩

/-- `n` times the radix to the power `k` for `k` that is not negative, and `n` else. -/
def raise (f : Format) (n : Nat) (k : Int) : Nat := n * Nat.pow f.radix k.toNat

/-- The exponent of the greatest power of the radix that is at most a positive integer. -/
def magnitude (f : Format) (n : Nat) : Int :=
  if f.radix = 2 then n.log2 else (Decimal.width n : Int) - 1

/-- The same for the positive fraction `num / den`. -/
def exponent (f : Format) (num den : Nat) : Int :=
  let d := f.magnitude num - f.magnitude den
  if f.raise num (-d) < f.raise den d then d - 1 else d

end Format

/-- **A number of a format**, or what stands in its place. -/
inductive Datum where
  /-- Not a number. -/
  | nan (neg : Bool)
  /-- An infinity. -/
  | infinite (neg : Bool)
  /-- The number of the integer `m` and the exponent `e`, negative when the flag is set. -/
  | finite (neg : Bool) (m : Nat) (e : Int)
deriving DecidableEq, Repr, Inhabited

namespace Datum

/-! ## Rounding -/

/-- `n * 2 ^ k` for `k` that is not negative, and `n` else. -/
def shiftUp (n : Nat) (k : Int) : Nat := n * Nat.pow 2 k.toNat

/-- **The number of a format nearest to `num / den` with an exponent**, a tie to the even
neighbour; an infinity beyond the range. -/
def nearest (f : Format) (neg : Bool) (num den : Nat) (e : Int) : Datum :=
  if num = 0 then .finite neg 0 0
  else
    let last := max (f.exponent num den + e + 1 - f.precision) f.least
    let q := Decimal.roundDiv (f.raise num (e - last)) (f.raise den (last - e))
    if f.top ≤ f.magnitude q + last then .infinite neg else .finite neg q last

/-- A number in another format with its radix. -/
def round (f : Format) : Datum → Datum
  | .finite neg m e => nearest f neg m 1 e
  | x => x

/-! ## Signs -/

/-- Whether the sign is negative. -/
def isNegative : Datum → Bool
  | .nan neg | .infinite neg | .finite neg _ _ => neg

/-- The same with another sign. -/
def withSign (neg : Bool) : Datum → Datum
  | .nan _ => .nan neg
  | .infinite _ => .infinite neg
  | .finite _ m e => .finite neg m e

/-- The opposite sign. -/
def neg (x : Datum) : Datum := x.withSign !x.isNegative

/-- Whether the value is not a number. -/
def isNaN : Datum → Bool
  | .nan _ => true
  | _ => false

/-- Whether the value is an infinity. -/
def isInfinite : Datum → Bool
  | .infinite _ => true
  | _ => false

/-- Whether the value is zero. -/
def isZero : Datum → Bool
  | .finite _ m _ => m = 0
  | _ => false

/-! ## Arithmetic -/

/-- An integer with a sign of its own. -/
def signed (neg : Bool) (m : Nat) : Int := if neg then -(m : Int) else m

/-- The sum. What is not a number goes first; infinities of opposite signs have no sum. -/
def add (f : Format) : Datum → Datum → Datum
  | .nan s, _ => .nan s
  | _, .nan s => .nan s
  | .infinite s, .infinite t => if s = t then .infinite s else .nan true
  | .infinite s, _ => .infinite s
  | _, .infinite t => .infinite t
  | .finite s m e, .finite t n g =>
    let low := min e g
    let v := signed s (f.raise m (e - low)) + signed t (f.raise n (g - low))
    if v = 0 then .finite (s && t) 0 0 else nearest f (v < 0) v.natAbs 1 low

/-- The difference. -/
def sub (f : Format) (x y : Datum) : Datum :=
  match y with
  | .nan _ => add f x y
  | y => add f x y.neg

/-- The product. -/
def mul (f : Format) : Datum → Datum → Datum
  | .nan s, _ => .nan s
  | _, .nan s => .nan s
  | .infinite s, y => if y.isZero then .nan true else .infinite (s != y.isNegative)
  | x, .infinite t => if x.isZero then .nan true else .infinite (x.isNegative != t)
  | .finite s m e, .finite t n g => nearest f (s != t) (m * n) 1 (e + g)

/-- The quotient. -/
def div (f : Format) : Datum → Datum → Datum
  | .nan s, _ => .nan s
  | _, .nan s => .nan s
  | .infinite _, .infinite _ => .nan true
  | .infinite s, y => .infinite (s != y.isNegative)
  | x, .infinite t => .finite (x.isNegative != t) 0 0
  | .finite s m e, .finite t n g =>
    if n = 0 then if m = 0 then .nan true else .infinite (s != t)
    else nearest f (s != t) m n (e - g)

/-- The product without any loss. -/
def exactMul (f : Format) : Datum → Datum → Datum
  | .finite s m e, .finite t n g => .finite (s != t) (m * n) (e + g)
  | x, y => mul f x y

/-- The sum of a product and a number, rounded once. -/
def mulAdd (f : Format) (x y z : Datum) : Datum := add f (exactMul f x y) z

/-- The integer square root, by Newton's method from above. -/
def rootFrom (n : Nat) : Nat → Nat → Nat
  | 0, r => r
  | k + 1, r =>
    let s := (r + n / r) / 2
    if s < r then rootFrom n k s else r

/-- The integer square root. -/
def root (n : Nat) : Nat :=
  if n = 0 then 0 else rootFrom n (n.log2 + 2) (Nat.pow 2 (n.log2 / 2 + 1))

/-- The square root of a binary number. -/
def sqrt (f : Format) : Datum → Datum
  | .nan s => .nan s
  | .infinite s => if s then .nan true else .infinite s
  | .finite s m e =>
    if m = 0 then .finite s 0 0
    else if s then .nan true
    else
      -- the root of `m * 2 ^ (2 * k)` has more bits than the format, and one more tells whether it
      -- is exact
      let k : Nat := f.precision + 2
      let (m, e) : Nat × Int := if e % 2 = 0 then (m, e) else (2 * m, e - 1)
      let n := m * Nat.pow 2 (2 * k)
      let r := root n
      nearest f false (2 * r + if r * r = n then 0 else 1) 1 (e / 2 - k - 1)

/-- The order of two numbers, none when one of them is not a number. -/
def compare? (f : Format) : Datum → Datum → Option Ordering
  | .nan _, _ | _, .nan _ => none
  | .infinite s, .infinite t => some (compare (signed s 1) (signed t 1))
  | .infinite s, _ => some (if s then .lt else .gt)
  | _, .infinite t => some (if t then .gt else .lt)
  | .finite s m e, .finite t n g =>
    let low := min e g
    some (compare (signed s (f.raise m (e - low))) (signed t (f.raise n (g - low))))

/-! ## Integers -/

/-- The number nearest to an integer. -/
def ofInt (f : Format) (n : Int) : Datum := nearest f (n < 0) n.natAbs 1 0

/-- The integer next to a number towards zero, none when there is none. -/
def toInt? (f : Format) : Datum → Option Int
  | .finite s m e => some (signed s (f.raise m e / Nat.pow f.radix (-e).toNat))
  | _ => none

/-- A number of one format in another one. -/
def convert (f g : Format) : Datum → Datum
  | .finite s m e =>
    if f.radix = g.radix then nearest g s m 1 e
    else nearest g s (f.raise m e) (f.raise 1 (-e)) 0
  | x => x

/-! ## Doubles -/

/-- The value of a bit pattern. -/
def ofBits (bits : UInt64) : Datum :=
  let b := bits.toNat
  let neg : Bool := decide (Nat.pow 2 63 ≤ b)
  let expo : Nat := b / Nat.pow 2 52 % Nat.pow 2 11
  let frac : Nat := b % Nat.pow 2 52
  if expo = 2047 then
    if frac = 0 then .infinite neg else .nan neg
  else if expo = 0 then .finite neg frac (-1074)
  else .finite neg (frac + Nat.pow 2 52) ((expo : Int) - 1075)

/-- The bit pattern of the nearest double. -/
def toBits (x : Datum) : UInt64 :=
  let sign := if x.isNegative then Nat.pow 2 63 else 0
  match round .double x with
  | .nan _ => UInt64.ofNat (sign + 0x7ff8000000000000)
  | .infinite _ => UInt64.ofNat (sign + 0x7ff0000000000000)
  | .finite _ m e => UInt64.ofNat (sign + if m = 0 then 0 else (e + 1074).toNat * Nat.pow 2 52 + m)

/-- A double as it is. -/
def ofFloat (x : Float) : Datum := ofBits x.toBits

/-- The nearest double. -/
def toFloat (x : Datum) : Float := Float.ofBits x.toBits

/-- One more summand of a running sum; of two that are not numbers a positive one stays. -/
def accumulate (s x : Datum) : Datum :=
  match s, x with
  | .nan a, .nan b => .nan (a && b)
  | s, x => add .extended s x

/-- **The sum of a list**, from the left, in extended precision. -/
def total (xs : List Datum) : Datum := xs.foldl accumulate (.finite false 0 0)

end Datum

end MemoFlow
