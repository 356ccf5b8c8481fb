import MemoFlow.Number.Datum
import MemoFlow.Text.Ascii

/-!
# Types of expressions and machines

Machines differ in the precision that a result has before it is stored.

* **`Number`**: the arithmetic types, with their formats and the type in which two of them meet;
* **`Kind`**: the types of expressions;
* `Kind.ofWords?`: the arithmetic type that a list of words names;
* `Excess`: whether operations keep more digits than their type has;
* **`Machine`**, `Machine.format`: how a machine computes with fractions.
-/

/-! ## Types of expressions -/

namespace MemoFlow.Code

/-- **The arithmetic types**, each one wider than those before it; decimal types stand apart. -/
inductive Number where
  | truth | char | byte | short | unsignedShort
  | int | unsigned | long | unsignedLong
  | brief | half | single | double | extended | quad
  | decimal32 | decimal64 | decimal128
deriving DecidableEq, Repr, Inhabited

namespace Number

/-- The place in the order of the types. -/
def rank : Number → Nat
  | .truth | .char | .byte | .short | .unsignedShort => 0
  | .int => 1
  | .unsigned => 2
  | .long => 3
  | .unsignedLong => 4
  | .brief => 5
  | .half => 6
  | .single => 7
  | .double => 8
  | .extended => 9
  | .quad => 10
  | .decimal32 => 11
  | .decimal64 => 12
  | .decimal128 => 13

/-- Whether the type holds integers. -/
def isInteger (n : Number) : Bool := n.rank < 5

/-- Whether the type holds decimal fractions. -/
def isDecimal (n : Number) : Bool := 11 ≤ n.rank

/-- Whether the type holds binary fractions. -/
def isBinary (n : Number) : Bool := !n.isInteger && !n.isDecimal

/-- The format in which fractions are computed; the two short types compute in single precision. -/
def format : Number → Format
  | .brief | .half | .single => .single
  | .extended => .extended
  | .quad => .quad
  | .decimal32 => .decimal32
  | .decimal64 => .decimal64
  | .decimal128 => .decimal128
  | _ => .double

/-- The format in which fractions are kept. -/
def keptFormat : Number → Format
  | .brief => .brief
  | .half => .half
  | n => n.format

/-- The integer that an integer type holds for `v`. -/
def wrap (n : Number) (v : Int) : Int :=
  match n with
  | .truth => if v = 0 then 0 else 1
  | .char => Int.bmod v (Nat.pow 2 8)
  | .byte => v % Int.pow 2 8
  | .short => Int.bmod v (Nat.pow 2 16)
  | .unsignedShort => v % Int.pow 2 16
  | .int => Int.bmod v (Nat.pow 2 32)
  | .unsigned => v % Int.pow 2 32
  | .long => Int.bmod v (Nat.pow 2 64)
  | .unsignedLong => v % Int.pow 2 64
  | _ => v

/-- The type in which an operation on a number takes place: short integers become usual ones. -/
def promote (n : Number) : Number := if n.rank = 0 then .int else n

/-- The type in which an operation on two numbers takes place; binary and decimal fractions do not
meet. -/
def meet? (a b : Number) : Option Number :=
  if (a.isBinary && b.isDecimal) || (a.isDecimal && b.isBinary) then none
  else some (if a.rank < b.rank then b.promote else a.promote)

/-- The bytes that a number takes. -/
def size : Number → Nat
  | .truth | .char | .byte => 1
  | .short | .unsignedShort | .brief | .half => 2
  | .int | .unsigned | .single | .decimal32 => 4
  | .long | .unsignedLong | .double | .decimal64 => 8
  | .extended | .quad | .decimal128 => 16

end Number

/-- **The types of expressions.** -/
inductive Kind where
  /-- No value. -/
  | void
  /-- A number. -/
  | number (n : Number)
  /-- A complex number. -/
  | complex (n : Number)
  /-- An address of values of a type. -/
  | pointer (k : Kind)
  /-- A function of numbers. -/
  | function (args : List Number) (result : Number)
  /-- A function of other values, by its name. -/
  | routine (w : Bytes)
  /-- A record, by its tag. -/
  | record (tag : Bytes)
deriving DecidableEq, Repr, Inhabited

namespace Kind

/-- Integers. -/
def int : Kind := .number .int

/-- Doubles. -/
def double : Kind := .number .double

/-- Whether values are numbers, complex ones among them. -/
def isArithmetic : Kind → Bool
  | .number _ | .complex _ => true
  | _ => false

/-- Whether values are integers. -/
def isInteger : Kind → Bool
  | .number n => n.isInteger
  | _ => false

/-- The type of a value: a function stands for its address. -/
def decay : Kind → Kind
  | .function args result => .pointer (.function args result)
  | .routine w => .pointer (.routine w)
  | k => k

/-- What the address leads to, for an address. -/
def target? (k : Kind) : Option Kind :=
  match k.decay with
  | .pointer t => some t
  | _ => none

/-- Whether a value can be tested. -/
def isScalar (k : Kind) : Bool := k.isArithmetic || k.target?.isSome

/-- The bytes that a value takes, as far as its type tells. -/
def size : Kind → Nat
  | .number n => n.size
  | .complex n => 2 * n.size
  | .pointer _ => 8
  | _ => 1

/-- The type in which an operation on a value takes place. -/
def promote : Kind → Kind
  | .number n => .number n.promote
  | k => k

/-- The type in which an operation on two arithmetic values takes place. -/
def meet? : Kind → Kind → Option Kind
  | .number a, .number b => (a.meet? b).map .number
  | .complex a, .number b | .number a, .complex b | .complex a, .complex b =>
    if a.isDecimal || b.isDecimal then none else (a.meet? b).map .complex
  | _, _ => none

/-! ## Names of types -/

/-- Words that say how a value may be used. -/
def qualifiers : List String :=
  ["const", "volatile", "restrict", "__restrict", "__restrict__", "__const", "__const__",
    "__volatile", "__volatile__", "_Atomic"]

/-- The words that name a type, without those that say how its values may be used. -/
def plainWords (ws : List String) : List String := ws.filter fun w => !qualifiers.contains w

/-- Whether some words name integers, signed ones. -/
def isSigned (ws : List String) : Bool :=
  [["int"], ["long"], ["long", "int"], ["long", "long"], ["long", "long", "int"]].any fun t =>
    ws ≠ [] && (ws.isPerm t || ws.isPerm ("signed" :: t) || ws = ["signed"])

/-- Whether some words name integers without a sign. -/
def isUnsigned (ws : List String) : Bool :=
  [[], ["int"], ["long"], ["long", "int"], ["long", "long"], ["long", "long", "int"]].any fun t =>
    ws.isPerm ("unsigned" :: t)

/-- The type of short integers that some words name. -/
def short? (ws : List String) : Option Number :=
  let names (t : List String) (n : Number) : Option Number := if ws.isPerm t then some n else none
  (names ["char"] .char).or <| (names ["signed", "char"] .char).or <|
    (names ["unsigned", "char"] .byte).or <|
      [["short"], ["signed", "short"], ["short", "int"], ["signed", "short", "int"]].findSome?
          (fun t => names t .short) |>.or <|
        [["unsigned", "short"], ["unsigned", "short", "int"]].findSome? fun t =>
          names t .unsignedShort

/-- The type of fractions that some words name. -/
def fraction? (ws : List String) : Option Number :=
  if ws.isPerm ["long", "double"] then some .extended
  else
    match ws with
    | ["float"] | ["_Float32"] => some .single
    | ["double"] | ["_Float64"] | ["_Float32x"] => some .double
    | ["_Float64x"] | ["__float80"] => some .extended
    | ["_Float128"] | ["__float128"] => some .quad
    | ["_Float16"] => some .half
    | ["__bf16"] => some .brief
    | ["_Decimal32"] => some .decimal32
    | ["_Decimal64"] => some .decimal64
    | ["_Decimal128"] => some .decimal128
    | _ => none

/-- The type that some words name, in any order. -/
def ofWords? (ws : List String) : Option Kind :=
  let ws := plainWords ws
  let wide := ws.contains "long"
  if ws = ["void"] then some .void
  else if ws = ["_Bool"] then some (.number .truth)
  else if ws.contains "char" || ws.contains "short" then (short? ws).map .number
  else if isSigned ws then some (.number (if wide then .long else .int))
  else if isUnsigned ws then some (.number (if wide then .unsignedLong else .unsigned))
  else if ws.contains "_Complex" then
    let rest := ws.erase "_Complex"
    if rest.isEmpty then some (.complex .double)
    else (fraction? rest).bind fun n => if n.isBinary then some (.complex n) else none
  else (fraction? ws).map .number

end Kind

end MemoFlow.Code

/-! ## Machines -/

namespace MemoFlow.Code

/-- Whether operations keep more digits than their type has. -/
inductive Excess where
  /-- Every result is rounded to its type. -/
  | none
  /-- Results and constants keep extended precision until they are converted. -/
  | standard
  /-- Results keep extended precision, but for those that are known without operands. -/
  | fast
deriving DecidableEq, Repr, Inhabited

/-- **How a machine computes with fractions.** -/
structure Machine where
  /-- Whether operations keep more digits than their type has. -/
  excess : Excess := .none
  /-- Whether a product and the sum that it stands in are rounded once. -/
  isFused : Bool := false
deriving DecidableEq, Repr, Inhabited

namespace Machine

/-- The format in which numbers of a type are computed. -/
def format (m : Machine) (n : Number) : Format :=
  if m.excess = .none then n.format
  else
    match n with
    | .brief | .half | .single | .double => .extended
    | n => n.format

/-- The format of constants of a type. -/
def constantFormat (m : Machine) (n : Number) : Format :=
  if m.excess = .standard then m.format n else n.format

/-- The machine on which an expression without operands is computed. -/
def beforehand (m : Machine) : Machine :=
  if m.excess = .fast then { m with excess := .none } else m

end Machine

end MemoFlow.Code
