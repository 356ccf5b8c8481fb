import MemoFlow.Shell.Given

/-!
# Numbers in a row

The program `seq`.

* `Sequence.Fraction`: decimal fractions;
* `Sequence.row`: the fractions from one to another in steps of the same length;
* **`Shell.sequence`**: the program.
-/

namespace MemoFlow.Shell

namespace Sequence

/-- A decimal fraction: its digits, with those behind the point counted. -/
structure Fraction where
  /-- The digits as a number. -/
  digits : Int
  /-- How many of them stand behind the point. -/
  places : Nat

namespace Fraction

/-- The digits of a fraction with more places. -/
def scaled (f : Fraction) (places : Nat) : Int := f.digits * Int.pow 10 (places - f.places)

/-- A fraction as it is written. -/
def ofString? (s : String) : Option Fraction :=
  let (neg, cs) : Bool × List Char := match s.toList with
    | '-' :: r => (true, r)
    | '+' :: r => (false, r)
    | r => (false, r)
  let whole := cs.takeWhile Char.isDigit
  let (places, rest) : List Char × List Char := match cs.dropWhile Char.isDigit with
    | '.' :: r => (r.takeWhile Char.isDigit, r.dropWhile Char.isDigit)
    | r => ([], r)
  let (e, rest) := Real.exponentAt rest
  match (String.ofList (whole ++ places)).toNat?, rest with
  | some n, [] =>
    let n : Int := if neg then -(n : Int) else n
    let p : Int := (places.length : Int) - e
    some (if p < 0 then ⟨n * Int.pow 10 (-p).toNat, 0⟩ else ⟨n, p.toNat⟩)
  | _, _ => none

/-- The text of a number of which some digits stand behind the point. -/
def text (places : Nat) (n : Int) : String :=
  let ds := Nat.toDigits 10 n.natAbs
  let ds := List.replicate (places + 1 - ds.length) '0' ++ ds
  (if n < 0 then "-" else "") ++ Real.pointed places false ds

/-- A text with zeros behind its sign. -/
def wide (width : Nat) (s : String) : String :=
  let zeros := String.ofList (List.replicate (width - s.length) '0')
  if s.startsWith "-" then "-" ++ zeros ++ String.ofList (s.toList.drop 1) else zeros ++ s

end Fraction

/-- The numbers from `a` to `b` in steps of some length. -/
def row (a step b : Int) : List Int :=
  let k := ((b - a).fdiv step + 1).toNat
  (List.range k).map fun i : Nat => a + step * (i : Int)

/-- Whether an argument is no option. -/
def isNoOption (s : String) : Bool :=
  match s.toList with
  | '-' :: c :: _ => c.isDigit || c = '.'
  | _ => !s.startsWith "-" || s = "-"

/-- What is wrong with a format, if anything is. -/
def formatFault? (format : String) : Option String :=
  let said (t : String) : Option String := some ("format " ++ inQuotes format ++ " has " ++ t)
  let marks (cs : List Char) : Nat := (cs.filter (· = '%')).length
  let behind := format.toList.dropWhile (· ≠ '%')
  match behind.drop 1 with
  | [] => said (if behind.isEmpty then "no % directive" else "unknown % directive")
  | r =>
    match r.dropWhile fun c => c.isDigit || "-+ #0.'".contains c with
    | [] => some ("format " ++ inQuotes format ++ " ends in %")
    | c :: r =>
      if !"eEfFgGaA".contains c then said ("unknown %" ++ String.singleton c ++ " directive")
      else if 0 < marks r then said "too many % directives"
      else none

end Sequence

open Sequence in
/-- **The program `seq`.** -/
def sequence (args : List String) : Reply :=
  let hint := refuseWithHint 1 "seq"
  let numbers := args.dropWhile fun s => !isNoOption s
  let before := args.take (args.length - numbers.length)
  let known : Known :=
    ⟨"w", "fs", [("separator", 's'), ("format", 'f'), ("equal-width", 'w')], true⟩
  -- A separator or format that stands alone takes the argument behind it.
  let takesMore := before.getLast?.any fun s => s = "-s" || s = "-f"
  let options := if takesMore then before ++ numbers.take 1 else before
  let numbers := if takesMore then numbers.drop 1 else numbers
  let (options, numbers) : List String × List String :=
    let more := numbers.takeWhile fun s => !isNoOption s
    (options ++ more, numbers.drop more.length)
  match Given.ofList? known (options.filter (· ≠ "--")) with
  | .error e => hint e
  | .ok g =>
    let texts := g.rest ++ numbers
    match texts, texts.find? fun s => (Fraction.ofString? s).isNone with
    | [], _ => hint "missing operand"
    | _ :: _ :: _ :: t :: _, _ => hint ("extra operand " ++ inQuotes t)
    | _, some t => hint ("invalid floating point argument: " ++ inQuotes t)
    | _, none =>
      let one : Fraction := ⟨1, 0⟩
      let (a, step, b) : Fraction × Fraction × Fraction :=
        match texts.filterMap Fraction.ofString? with
        | [b] => (one, one, b)
        | [a, b] => (a, one, b)
        | a :: s :: b :: _ => (a, s, b)
        | [] => (one, one, one)
      if step.digits = 0 then
        hint ("invalid Zero increment value: " ++ inQuotes ((texts.drop 1).head?.getD "0"))
      else
        let shown := max a.places step.places
        let p := max shown b.places
        let unit : Int := Int.pow 10 (p - shown)
        let ns := (row (a.scaled p) (step.scaled p) (b.scaled p)).map (· / unit)
        let texts := ns.map (Fraction.text shown)
        let width := max (Fraction.text shown (a.scaled p / unit)).length
          (Fraction.text shown (b.scaled p / unit)).length
        let end' := (g.value? 's').getD "\n"
        let out (ts : List String) : Reply :=
          if ts.isEmpty then { } else { out := String.intercalate end' ts ++ "\n" }
        match g.value? 'f' with
        | some format =>
          if g.has 'w' then
            hint "format string may not be specified when printing equal width strings"
          else
            match formatFault? format with
            | some t => refuse 1 "seq" t
            | none => out (texts.map fun t => (printed format [t]).1)
        | none => out (if g.has 'w' then texts.map (Fraction.wide width) else texts)

end MemoFlow.Shell
