import MemoFlow.Text.Decimal

/-!
# Decimal fractions in texts

* `Real.ofStart`: the double at the start of some characters, and what follows it;
* **`Real.text`**: a double in one of the usual forms.
-/

namespace MemoFlow.Shell

namespace Real

open Decimal

/-- The double of digits before and behind a point and an exponent. -/
def ofParts (whole places : List Char) (e : Int) : Float :=
  match (String.ofList (whole ++ places)).toNat? with
  | some m => ofDigits m (e - places.length)
  | none => 0.0

/-- An exponent at the start of some characters, and what follows it. -/
def exponentAt (cs : List Char) : Int × List Char :=
  match cs with
  | e :: r =>
    if e = 'e' || e = 'E' then
      let (neg, ds) : Bool × List Char := match r with
        | '-' :: r => (true, r)
        | '+' :: r => (false, r)
        | r => (false, r)
      match (String.ofList (ds.takeWhile Char.isDigit)).toNat? with
      | some n => (if neg then -(n : Int) else n, ds.dropWhile Char.isDigit)
      | none => (0, cs)
    else (0, cs)
  | [] => (0, [])

/-- A double without a sign at the start of some characters, and what follows it. -/
def unsignedAt? (cs : List Char) : Option (Float × List Char) :=
  let lower := cs.map Char.toLower
  if "infinity".toList.isPrefixOf lower then some (1.0 / 0.0, cs.drop 8)
  else if "inf".toList.isPrefixOf lower then some (1.0 / 0.0, cs.drop 3)
  else if "nan".toList.isPrefixOf lower then some (0.0 / 0.0, cs.drop 3)
  else
    let isHex (c : Char) : Bool := c.isDigit || "abcdef".contains c
    let hex := (lower.drop 2).takeWhile isHex
    if "0x".toList.isPrefixOf lower && !hex.isEmpty then
      let n := hex.foldl (fun n c =>
        16 * n + (if c.isDigit then c.toNat - 48 else c.toNat - 87)) 0
      some (Float.ofNat n, cs.drop (2 + hex.length))
    else
      let whole := cs.takeWhile Char.isDigit
      let r := cs.dropWhile Char.isDigit
      let (places, r) : List Char × List Char := match r with
        | '.' :: r' =>
          let ds := r'.takeWhile Char.isDigit
          if whole.isEmpty && ds.isEmpty then ([], r) else (ds, r'.dropWhile Char.isDigit)
        | r => ([], r)
      if whole.isEmpty && places.isEmpty then none
      else
        let (e, r) := exponentAt r
        some (ofParts whole places e, r)

/-- The double at the start of some characters, and what follows it; zero when there is none. -/
def ofStart (cs : List Char) : Float × List Char :=
  let body := cs.dropWhile fun c => " \t\n\x0b\x0c\r".contains c
  let (neg, r) : Bool × List Char := match body with
    | '-' :: r => (true, r)
    | '+' :: r => (false, r)
    | r => (false, r)
  match unsignedAt? r with
  | some (x, r) => (if neg then -x else x, r)
  | none => (0.0, cs)

/-- Digits with a point before the last `places` of them. -/
def pointed (places : Nat) (always : Bool) (ds : List Char) : String :=
  let k := ds.length - places
  String.ofList (ds.take k) ++ (if places = 0 && !always then "" else ".") ++
    String.ofList (ds.drop k)

/-- A fraction with `p` digits behind the point and an exponent. -/
def scientific (p : Nat) (always : Bool) (num den : Nat) : String :=
  let (q, e) := if num = 0 then (0, 0) else significant (p + 1) num den
  pointed p always (padded (p + 1) q) ++ exponentText e

/-- A fraction with at most `p` significant digits; with zeros at its end when `always` holds. -/
def general (p : Nat) (always : Bool) (num den : Nat) : String :=
  let p := max p 1
  if !always then if num = 0 then "0" else positive p num den
  else if num = 0 then pointed (p - 1) true (padded p 0)
  else
    let (q, e) := significant p num den
    if -4 ≤ e && e < p then
      pointed (p - 1 - e).toNat true (padded (max p ((p : Int) - e).toNat) q)
    else pointed (p - 1) true (padded p q) ++ exponentText e

/-- **A double in a form**: `f` with digits behind the point, `e` with an exponent as well, `g` with
significant digits; capital letters give capitals. -/
def text (letter : Char) (precision : Nat) (always : Bool) (x : Float) : String :=
  let t := match Reading.ofFloat x with
    | .nan neg => if neg then "-nan" else "nan"
    | .infinite neg => if neg then "-inf" else "inf"
    | .finite neg num den =>
      (if neg then "-" else "") ++
        (match letter.toLower with
        | 'f' => pointed precision always
            (padded (precision + 1) (roundDiv (num * Nat.pow 10 precision) den))
        | 'e' => scientific precision always num den
        | _ => general precision always num den)
  if letter.isUpper then t.map Char.toUpper else t

end Real

end MemoFlow.Shell
