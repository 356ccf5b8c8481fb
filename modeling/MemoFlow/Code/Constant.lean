import MemoFlow.Code.Kind
import MemoFlow.Code.Remark
import MemoFlow.Text.Decimal

/-!
# Numeric constants

* **`Constant`**: a number with its type; it may be imaginary;
* `Suffix.ofBytes?`: the type that the letters behind the digits give;
* `Suffixes`: types that are chosen from outside;
* **`Constant.ofBytes?`**: the constant of a numeric token, none when it is no number.
-/

namespace MemoFlow.Code

open Ascii

/-- **A numeric constant**, `num / den`. -/
structure Constant where
  /-- Its type. -/
  number : Number
  /-- Whether it is imaginary. -/
  imaginary : Bool
  /-- The numerator. -/
  num : Nat
  /-- The denominator. -/
  den : Nat
  /-- What the compiler remarks. -/
  remarks : List Remark := []
deriving DecidableEq, Repr, Inhabited

/-! ## Suffixes -/

/-- The letters behind the digits of a floating constant. -/
structure Suffix where
  /-- The type that they name. -/
  number : Option Number
  /-- Whether they mark the constant as imaginary. -/
  imaginary : Bool := false
deriving DecidableEq, Repr

namespace Suffix

/-- The suffixes of decimal types, whose letters are all of one case. -/
def decimals : List (String × Number) :=
  [("df", .decimal32), ("DF", .decimal32), ("dd", .decimal64), ("DD", .decimal64),
    ("dl", .decimal128), ("DL", .decimal128)]

/-- The suffixes of binary types, a longer one in front of its beginnings. The mark of a wider type
is a small letter in both cases. -/
def binaries : List (String × Number) :=
  [("f16", "F16", .half), ("f32x", "F32x", .double), ("f32", "F32", .single),
    ("f64x", "F64x", .extended), ("f64", "F64", .double), ("f128", "F128", .quad),
    ("bf16", "BF16", .brief), ("f", "F", .single), ("d", "D", .double), ("l", "L", .extended),
    ("w", "W", .extended), ("q", "Q", .quad)].flatMap fun p => [(p.1, p.2.2), (p.2.1, p.2.2)]

/-- The suffix of a binary type at the start of some letters, and the rest. -/
def binary? (s : Bytes) : Option (Number × Bytes) :=
  binaries.findSome? fun p =>
    let t := Bytes.ofString p.1
    -- digits behind a type belong to it
    let rest := s.drop t.length
    if t.isPrefixOf s && !(rest.head?.map isDigit).getD false then some (p.2, rest) else none

/-- The letters of imaginary constants. -/
def isImaginary (b : UInt8) : Bool :=
  b = byte 'i' || b = byte 'I' || b = byte 'j' || b = byte 'J'

/-- The suffix of some letters: a type, and in front of it or behind it the mark of imaginary
constants. -/
def ofBytes? (s : Bytes) : Option Suffix :=
  match decimals.find? fun p => Bytes.ofString p.1 = s with
  | some p => some ⟨some p.2, false⟩
  | none =>
    let front : Bool := (s.head?.map isImaginary).getD false
    let s := if front then s.drop 1 else s
    let (number, s) : Option Number × Bytes := match binary? s with
      | some (n, s) => (some n, s)
      | none => (none, s)
    match s with
    | [] => some ⟨number, front⟩
    | [b] => if isImaginary b && !front then some ⟨number, true⟩ else none
    | _ => none

/-- The suffixes of the language itself. -/
def standard : List String := ["", "f", "F", "l", "L"]

/-- What the compiler remarks on a suffix. -/
def remarks (s : Bytes) (x : Suffix) : List Remark :=
  let extension : Bool := !standard.any fun t => Bytes.ofString t = s.filter fun b => !isImaginary b
  (if x.imaginary || extension then [.extension "pedantic"] else []) ++
    if s.isEmpty then [.chosen "unsuffixed-float-constants"] else []

end Suffix

/-- The types that stand for letters with no type of their own. -/
structure Suffixes where
  /-- The type of constants without a suffix. -/
  bare : Number := .double
  /-- The type of the suffix for the longest type of the language itself. -/
  long : Number := .extended
deriving DecidableEq, Repr

/-- The type of a constant with some letters behind its digits. -/
def Suffixes.number (t : Suffixes) (s : Bytes) (x : Suffix) : Number :=
  let isLong : Bool := s.contains (byte 'l') || s.contains (byte 'L')
  match x.number with
  | some n => if n = .extended && isLong then t.long else n
  | none => t.bare

/-! ## Digits -/

/-- The value of a digit in a radix up to sixteen. -/
def digitValue? (radix : Nat) (b : UInt8) : Option Nat :=
  let n := b.toNat
  let v :=
    if isDigit b then n - 48
    else if 97 ≤ n && n ≤ 102 then n - 87
    else if 65 ≤ n && n ≤ 70 then n - 55
    else 16
  if v < radix then some v else none

/-- Whether a byte is a digit in a radix. -/
def isDigitOf (radix : Nat) (b : UInt8) : Bool := (digitValue? radix b).isSome

/-- The number of a run of digits. -/
def digitsValue (radix : Nat) (ds : Bytes) : Nat :=
  ds.foldl (fun n b => radix * n + (digitValue? radix b).getD 0) 0

/-- An exponent behind its mark, and the rest. -/
def exponent? (r : Bytes) : Option (Int × Bytes) :=
  let (neg, r) : Bool × Bytes := match r with
    | s :: t => if s = byte '-' then (true, t) else if s = byte '+' then (false, t) else (false, r)
    | [] => (false, [])
  let ds := r.takeWhile isDigit
  let n : Int := digitsValue 10 ds
  if ds.isEmpty then none else some (if neg then -n else n, r.dropWhile isDigit)

/-- No type reaches ten to this power. -/
def beyond : Nat := 7000

/-- `m * radix ^ e` as a fraction; one that no type can hold is pulled nearer to one. -/
def scaled (radix : Nat) (m : Nat) (e : Int) : Nat × Nat :=
  let top := e + Decimal.width m
  if m = 0 then (0, 1)
  else if radix = 10 && (beyond : Int) < top then (Nat.pow 10 beyond, 1)
  else if radix = 10 && top < -(beyond : Int) then (1, Nat.pow 10 beyond)
  else
    let e := max (-40000) (min 40000 e)
    (m * Nat.pow radix e.toNat, Nat.pow radix (-e).toNat)

/-! ## Constants -/

namespace Constant

/-- The fraction of a format that is nearest to the constant. -/
def datumIn (c : Constant) (f : Format) : Datum := .nearest f false c.num c.den 0

/-- The fraction of its own type that is nearest to the constant. -/
def datum (c : Constant) : Datum := c.datumIn c.number.format

/-- What the compiler remarks on a constant that its type cannot hold. -/
def rangeRemarks (c : Constant) : List Remark :=
  let d := c.datumIn c.number.keptFormat
  if d.isInfinite || (d.isZero && c.num ≠ 0) then [.usual "overflow"] else []

/-- A floating constant with a suffix. -/
def floating? (t : Suffixes) (fraction : Nat × Nat) (s : Bytes) : Option Constant :=
  (Suffix.ofBytes? s).map fun x =>
    let c : Constant :=
      { number := t.number s x, imaginary := x.imaginary,
        num := fraction.1, den := fraction.2 }
    { c with remarks := Suffix.remarks s x ++ c.rangeRemarks }

/-- The first type that holds an integer. -/
def integerType (decimal unsigned wide : Bool) (v : Nat) : Number :=
  if !wide && !unsigned && v < Nat.pow 2 31 then .int
  else if !wide && (unsigned || !decimal) && v < Nat.pow 2 32 then .unsigned
  else if !unsigned && v < Nat.pow 2 63 then .long
  else .unsignedLong

/-- An integer constant with the letters behind its digits. -/
def integer? (decimal : Bool) (v : Nat) (s : Bytes) : Option Constant :=
  let low := s.map fun b => if 65 ≤ b && b ≤ 90 then b + 32 else b
  let wide := low.contains (byte 'l')
  let unsigned := low.contains (byte 'u')
  if ["", "u", "l", "ul", "lu", "ll", "ull", "llu"].any fun t => Bytes.ofString t = low then
    some { number := integerType decimal unsigned wide v, imaginary := false, num := v, den := 1 }
  else none

/-- Digits with a point and an exponent in a radix, up to the suffix. -/
def inRadix? (t : Suffixes) (radix : Nat) (l : Bytes) : Option Constant :=
  let whole := l.takeWhile (isDigitOf radix)
  let r := l.dropWhile (isDigitOf radix)
  let point : Bool := r.head? = some (byte '.')
  let frac := if point then (r.drop 1).takeWhile (isDigitOf radix) else []
  let r := if point then (r.drop 1).dropWhile (isDigitOf radix) else r
  let isMark (b : UInt8) : Bool :=
    if radix = 10 then b = byte 'e' || b = byte 'E' else b = byte 'p' || b = byte 'P'
  let m := digitsValue radix (whole ++ frac)
  let places : Int := if radix = 10 then frac.length else 4 * frac.length
  let base := if radix = 10 then 10 else 2
  if whole.isEmpty && frac.isEmpty then none
  else
    match r with
    | [] => if point then floating? t (scaled base m (-places)) [] else integer? true m []
    | b :: rest =>
      if isMark b then
        match exponent? rest with
        | some (e, s) => floating? t (scaled base m (e - places)) s
        | none => none
      else if point then
        if radix = 10 then floating? t (scaled base m (-places)) r else none
      else integer? (radix = 10) m r

/-- **The constant of a numeric token**, by the types of suffixes. -/
def ofBytes? (t : Suffixes) (l : Bytes) : Option Constant :=
  let isFloating := l.any fun b => b = byte '.' || b = byte 'e' || b = byte 'E'
  match l with
  | z :: x :: r =>
    if z = byte '0' && (x = byte 'x' || x = byte 'X') then inRadix? t 16 r
    else if z = byte '0' && (x = byte 'b' || x = byte 'B') && !isFloating then
      integer? false (digitsValue 2 (r.takeWhile (isDigitOf 2))) (r.dropWhile (isDigitOf 2))
    else if z = byte '0' && isDigit x && !isFloating then
      integer? false (digitsValue 8 (l.takeWhile (isDigitOf 8))) (l.dropWhile (isDigitOf 8))
    else inRadix? t 10 l
  | _ => inRadix? t 10 l

/-- The integer of a numeric token in the widest type. -/
def wide? (l : Bytes) : Option Constant :=
  match ofBytes? { } l with
  | some c =>
    if c.number = .int then some { c with number := .long }
    else if c.number = .unsigned then some { c with number := .unsignedLong }
    else if c.number.isInteger then some c
    else none
  | none => none

end Constant

end MemoFlow.Code
