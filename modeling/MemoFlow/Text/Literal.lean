import MemoFlow.Number.Double
import MemoFlow.Text.Decimal

/-!
# Reading doubles

* **`Decimal.ofText?`**: the double nearest to a number in decimal text, with an optional sign,
  fraction and exponent; infinities and what is not a number are written as words.
-/

namespace MemoFlow.Decimal

/-- A sign and the text behind it; whether the sign is negative. -/
def splitSign : List Char → Bool × List Char
  | '-' :: r => (true, r)
  | '+' :: r => (false, r)
  | r => (false, r)

/-- The digits of a fraction and the text behind it. -/
def splitFraction : List Char → List Char × List Char
  | '.' :: r => (r.takeWhile Char.isDigit, r.dropWhile Char.isDigit)
  | r => ([], r)

/-- The exponent that the rest of a number gives, when it gives one. -/
def exponentOf? : List Char → Option Int
  | [] => some 0
  | c :: r =>
    if c = 'e' ∨ c = 'E' then
      let (neg, ds) := splitSign r
      (String.ofList ds).toNat?.map fun n => if neg then -(n : Int) else n
    else none

/-- The double of a number without a sign. -/
def unsignedOfText? (t : List Char) : Option Double :=
  let digits := t.takeWhile Char.isDigit
  let (places, rest) := splitFraction (t.dropWhile Char.isDigit)
  match exponentOf? rest, (String.ofList (digits ++ places)).toNat? with
  | some e, some m => some (.ofFloat (ofDigits m (e - places.length)))
  | _, _ => none

/-- **The double of a text.** -/
def ofText? (s : String) : Option Double :=
  let (neg, t) := splitSign s.toList
  let sign (x : Double) : Double := if neg then -x else x
  match String.ofList t with
  | "nan" => some (sign .notANumber)
  | "inf" | "infinity" => some (sign .infinity)
  | _ => (unsignedOfText? t).map sign

end MemoFlow.Decimal
