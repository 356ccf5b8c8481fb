import MemoFlow.Code.Kind
import MemoFlow.Number.Special

/-!
# Functions at hand

* **`Library.signature?`**, **`Library.apply`**: the functions of the mathematical library;
* `Test`, `Test.ofNumber`, `Test.ofOrder`: questions about numbers, of any type of fractions.
-/

namespace MemoFlow.Code

/-! ## The mathematical library -/

namespace Library

/-- The integer nearest to a number, a tie to the even one. -/
def nearestEven (x : Float) : Float :=
  if !x.isFinite || 4503599627370496.0 ≤ x.abs then x
  else
    let r := (x.abs + 4503599627370496.0) - 4503599627370496.0
    if x.toBits < 0x8000000000000000 then r else -r

/-- The exponent of a number. -/
def logb (x : Float) : Float :=
  match Datum.ofFloat x with
  | .finite _ m e => if m = 0 then -Special.infinity else Float.ofInt (e + m.log2)
  | .infinite _ => Special.infinity
  | .nan _ => x

/-- The first number with the sign of the second one. -/
def withSign (x y : Float) : Float :=
  (Datum.ofFloat x |>.withSign (Datum.ofFloat y).isNegative).toFloat

/-- The difference when it is positive, and else zero. -/
def excess (x y : Float) : Float :=
  if x.isNaN then x else if y.isNaN then y else if x ≤ y then 0.0 else x - y

/-- The functions of one number. -/
def ofOne : List (String × (Float → Float)) :=
  [("sin", Float.sin), ("cos", Float.cos), ("tan", Float.tan), ("asin", Float.asin),
    ("acos", Float.acos), ("atan", Float.atan), ("sinh", Float.sinh), ("cosh", Float.cosh),
    ("tanh", Float.tanh), ("asinh", Float.asinh), ("acosh", Float.acosh), ("atanh", Float.atanh),
    ("exp", Float.exp), ("exp2", Float.exp2), ("expm1", Special.expm1), ("log", Float.log),
    ("log2", Float.log2), ("log10", Float.log10), ("log1p", Special.log1p), ("logb", logb),
    ("sqrt", Float.sqrt), ("cbrt", Float.cbrt), ("fabs", Float.abs), ("floor", Float.floor),
    ("ceil", Float.ceil), ("round", Float.round), ("trunc", Special.trunc), ("rint", nearestEven),
    ("nearbyint", nearestEven), ("erf", Special.erf), ("erfc", Special.erfc)]

/-- The functions of two numbers. -/
def ofTwo : List (String × (Float → Float → Float)) :=
  [("atan2", Float.atan2), ("pow", Float.pow), ("fmin", Special.least),
    ("fmax", Special.greatest), ("fmod", Special.remainder), ("hypot", Special.hypot),
    ("copysign", withSign), ("fdim", excess)]

/-- Functions that the library has beside those that are computed here, with the number of their
arguments. -/
def others : List (String × Nat) :=
  [("lgamma", 1), ("tgamma", 1), ("nextafter", 2), ("remainder", 2), ("fma", 3)]

/-- The number of arguments of a function on doubles. -/
def arity? (w : Bytes) : Option Nat :=
  if ofOne.any fun p => Bytes.ofString p.1 = w then some 1
  else if ofTwo.any fun p => Bytes.ofString p.1 = w then some 2
  else (others.find? fun p => Bytes.ofString p.1 = w).map Prod.snd

/-- The name of a function without the mark that the compiler itself knows it. -/
def plainName (w : Bytes) : Bytes :=
  let mark := Bytes.ofString "__builtin_"
  if mark.isPrefixOf w then w.drop mark.length else w

/-- A function by its name on doubles, and the type on which it works: a letter behind the name
stands for another type. -/
def base? (w : Bytes) : Option (Bytes × Number) :=
  let w := plainName w
  if (arity? w).isSome then some (w, .double)
  else if (arity? w.dropLast).isSome then
    if w.getLast? = some (Ascii.byte 'f') then some (w.dropLast, .single)
    else if w.getLast? = some (Ascii.byte 'l') then some (w.dropLast, .extended)
    else none
  else none

/-- **The types of arguments and result of a function.** -/
def signature? (w : Bytes) : Option (List Number × Number) :=
  match base? w with
  | some (b, n) => (arity? b).map fun k => (List.replicate k n, n)
  | none => none

/-- The value of a function on doubles. -/
def applyDouble (w : Bytes) : List Float → Float
  | [x] =>
    match ofOne.find? fun p => Bytes.ofString p.1 = w with
    | some p => p.2 x
    | none => Special.notANumber
  | [x, y] =>
    match ofTwo.find? fun p => Bytes.ofString p.1 = w with
    | some p => p.2 x y
    | none => Special.notANumber
  | _ => Special.notANumber

/-- **The value of a function**; functions of other types are computed on doubles. -/
def apply (w : Bytes) (args : List Datum) : Datum :=
  match base? w, args with
  | some (b, n), args =>
    match decide (b = Bytes.ofString "fma"), args with
    | true, [x, y, z] => .mulAdd n.format x y z
    | _, args => (Datum.ofFloat (applyDouble b (args.map Datum.toFloat))).round n.format
  | none, _ => .nan true

end Library

/-! ## Questions -/

/-- **Questions about one number or two.** -/
inductive Test where
  | isNaN | isInf | isFinite | isNormal | hasSign | classify
  | less | lessEq | greater | greaterEq | lessGreater | unordered
deriving DecidableEq, Repr

namespace Test

/-- The words of the questions. -/
def words : List (String × Test) :=
  [("__builtin_isnan", .isNaN), ("__builtin_isinf_sign", .isInf),
    ("__builtin_isfinite", .isFinite), ("__builtin_isnormal", .isNormal),
    ("__builtin_signbit", .hasSign), ("__builtin_fpclassify", .classify),
    ("__builtin_isless", .less), ("__builtin_islessequal", .lessEq),
    ("__builtin_isgreater", .greater), ("__builtin_isgreaterequal", .greaterEq),
    ("__builtin_islessgreater", .lessGreater), ("__builtin_isunordered", .unordered)]

/-- The question of a word. -/
def ofWord? (w : Bytes) : Option Test :=
  (words.find? fun p => Bytes.ofString p.1 = w).map Prod.snd

/-- How many numbers it is about. -/
def arity : Test → Nat
  | .isNaN | .isInf | .isFinite | .isNormal | .hasSign => 1
  | .classify => 6
  | _ => 2

/-- Whether a number has all digits of its format. -/
def isNormalIn (f : Format) : Datum → Bool
  | .finite _ m e => m ≠ 0 && decide (f.least + f.precision ≤ e + f.magnitude m + 1)
  | _ => false

/-- The answer about one number of a format. -/
def ofNumber (t : Test) (f : Format) (x : Datum) : Int :=
  match t with
  | .isNaN => if x.isNaN then 1 else 0
  | .isInf => if x.isInfinite then if x.isNegative then -1 else 1 else 0
  | .isFinite => if x.isNaN || x.isInfinite then 0 else 1
  | .isNormal => if isNormalIn f x then 1 else 0
  | .hasSign => if x.isNegative then 1 else 0
  | _ => 0

/-- The answer about the order of two numbers. -/
def ofOrder (t : Test) (o : Option Ordering) : Bool :=
  match t with
  | .less => o = some .lt
  | .lessEq => o = some .lt || o = some .eq
  | .greater => o = some .gt
  | .greaterEq => o = some .gt || o = some .eq
  | .lessGreater => o = some .lt || o = some .gt
  | _ => o = none

/-- The class of a number: the place of its answer among the first five arguments. -/
def classOf (f : Format) (x : Datum) : Nat :=
  if x.isNaN then 0
  else if x.isInfinite then 1
  else if x.isZero then 4
  else if isNormalIn f x then 2
  else 3

end Test

end MemoFlow.Code
