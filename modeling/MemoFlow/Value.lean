import MemoFlow.Number.Double
import MemoFlow.Tensor.Basic
import MemoFlow.Text.Basic

/-!
# Values

The strings in a value are texts; where no type is named, they are strings of characters.

* **`Value`**: what names are bound to;
* `Tensor.text`: type, shape, a preview of the elements and the engine of a tensor;
* `Value.text`, `Value.ofInteger`, `Value.number?`: text and numeric reading;
* **`Value.same`**: comparison; numbers of different kinds compare as doubles.
-/

namespace MemoFlow

/-- The text of a tensor: type, shape, the first eight elements and the engine. -/
def Tensor.text (t : Tensor Double) : String :=
  let item (i : Nat) : String :=
    if t.isComplex then
      let z := t.complexAt i
      z.1.general 6 ++ z.2.signedGeneral 6 ++ "j"
    else (t.realAt i).general 6
  let n := t.count.toNat
  "tensor<" ++ t.dtype.name ++ t.shape.text ++ ">[" ++
    String.intercalate ", " ((List.range (min n 8)).map item) ++
    (if 8 < n then ", ..." else "") ++ "]@" ++ t.home.name

/-- **A value of the evaluator.** -/
inductive Value (σ : Type := String) where
  /-- No value. -/
  | nil
  /-- A 64-bit integer. -/
  | int (n : Int64)
  /-- A double. -/
  | dbl (x : Float)
  /-- A truth value. -/
  | bool (b : Bool)
  /-- A string. -/
  | str (s : σ)
  /-- A list. -/
  | list (vs : List (Value σ))
  /-- A tensor, or the lack of one. -/
  | tensor (t : Option (Tensor Double))
  /-- A handle of the evaluator with a tag; handles are told apart by number. -/
  | handle (tag : σ) (id : Option Nat)
deriving Repr, Inhabited

namespace Value

/-! ## Text -/

/-- A double in text: at most seventeen significant digits, and a point in every number. -/
def doubleText (x : Float) : String :=
  let t := Decimal.exact x
  if x.isNaN || x.isInf || t.any (fun c => c = '.' || c = 'e') then t else t ++ ".0"

mutual

/-- The text of a value. -/
def text : Value → String
  | .nil => "nil"
  | .int n => toString n.toInt
  | .dbl x => doubleText x
  | .bool b => if b then "true" else "false"
  | .str s => s
  | .list vs => "[" ++ String.intercalate ", " (texts vs) ++ "]"
  | .tensor (some t) => t.text
  | .tensor none => "tensor(null)"
  | .handle tag _ => "<" ++ tag ++ ">"

/-- The texts of a list of values. -/
def texts : List Value → List String
  | [] => []
  | v :: vs => text v :: texts vs

end

/-! ## Numbers -/

variable {σ : Type}

/-- Whether the value is an integer or a double. -/
def isNumeric : Value σ → Bool
  | .int _ | .dbl _ => true
  | _ => false

/-- The double nearest to an integer. -/
def ofInteger (n : Int64) : Float :=
  if n < 0 then -(-n).toUInt64.toFloat else n.toUInt64.toFloat

/-- The number that a value stands for. -/
def number? : Value σ → Option Float
  | .int n => some (ofInteger n)
  | .dbl x => some x
  | .bool b => some (if b then 1.0 else 0.0)
  | _ => none

/-! ## Comparison -/

/-- Comparison of tensors; two missing ones are the same. -/
def sameTensor : Option (Tensor Double) → Option (Tensor Double) → Bool
  | none, none => true
  | some a, some b => a.same b
  | _, _ => false

mutual

/-- **Whether two values are the same.** -/
def same [IsText σ] : Value σ → Value σ → Bool
  | .nil, .nil => true
  | .int a, .int b => a = b
  | .int a, .dbl y => ofInteger a == y
  | .dbl x, .int b => x == ofInteger b
  | .dbl x, .dbl y => x == y
  | .bool a, .bool b => a = b
  | .str a, .str b => a = b
  | .list as, .list bs => sameList as bs
  | .tensor a, .tensor b => sameTensor a b
  | .handle _ a, .handle _ b => a = b
  | _, _ => false

/-- Whether two lists of values have the same items. -/
def sameList [IsText σ] : List (Value σ) → List (Value σ) → Bool
  | [], [] => true
  | a :: as, b :: bs => same a b && sameList as bs
  | _, _ => false

end

/-- Whether two values are of one kind. -/
def sameKind : Value σ → Value σ → Bool
  | .nil, .nil | .int _, .int _ | .dbl _, .dbl _ | .bool _, .bool _ | .str _, .str _
  | .list _, .list _ | .tensor _, .tensor _ | .handle _ _, .handle _ _ => true
  | _, _ => false

end Value

end MemoFlow
