import MemoFlow.Shell.Format
import MemoFlow.Shell.Match

/-!
# Values of programs over records

* **`Record.Value`**: numbers, texts, and texts that may be numbers because they were read;
* `Value.toFloat`, `Value.toText`, `Value.holds`, `Value.toInt`: what values are taken for;
* `Record.expression`, `Record.firstMatch?`: regular expressions and their matches;
* `Record.split`: the parts of a text;
* `Record.inFormat`: values in a format.
-/

namespace MemoFlow.Shell.Record

/-- A value. -/
inductive Value where
  /-- Nothing yet: zero, and the empty text. -/
  | nothing
  /-- A number. -/
  | number (x : Float)
  /-- A text. -/
  | text (s : String)
  /-- A text that was read. -/
  | read (s : String)
deriving Repr

namespace Value

/-! ## Numbers and texts -/

/-- Whether a text is a number as a whole, blanks around it apart. -/
def isNumeric (s : String) : Bool :=
  let (_, rest) := Real.ofStart s.toList
  let blank (cs : List Char) : Bool := cs.all isSpace
  !blank s.toList && rest.length < s.length && blank rest

/-- The number for which a value is taken. -/
def toFloat : Value → Float
  | .nothing => 0.0
  | .number x => x
  | .text s | .read s => (Real.ofStart s.toList).1

/-- The text of a number, with a format for those that are not whole. -/
def ofFloat (format : String) (x : Float) : String :=
  if x.isNaN then "-nan"
  else if x == x.floor && -9223372036854775808.0 ≤ x && x ≤ 18446744073709551616.0 then
    let n := (Float.abs x).toUInt64
    if x < 0.0 then "-" ++ toString n else toString n
  else
    match format.toList with
    | '%' :: cs =>
      let (f, _, _, rest) := Format.fieldAt cs []
      match f.letter with
      | some c =>
        if "eEfFgG".contains c then Format.showReal f c x ++ String.ofList rest
        else if "di".contains c then toString x.toInt64 ++ String.ofList rest else format
      | none => format
    | _ => format

/-- The text for which a value is taken. -/
def toText (format : String) : Value → String
  | .nothing => ""
  | .number x => ofFloat format x
  | .text s | .read s => s

/-- Whether a value is compared as a number. -/
def isNumber : Value → Bool
  | .nothing | .number _ => true
  | .text _ => false
  | .read s => isNumeric s

/-- Whether a value holds. -/
def holds : Value → Bool
  | .nothing => false
  | .number x => x != 0.0
  | .text s => s ≠ ""
  | .read s => if isNumeric s then (Real.ofStart s.toList).1 != 0.0 else s ≠ ""

/-- One for what holds and zero for what does not. -/
def ofBool (b : Bool) : Value := .number (if b then 1.0 else 0.0)

/-- The value of a natural number. -/
def ofNat (n : Nat) : Value := .number (Float.ofNat n)

/-- The integer part of a value. -/
def toInt (v : Value) : Int := v.toFloat.toInt64.toInt

/-- The natural number of a value. -/
def toNat (v : Value) : Nat := v.toInt.toNat

end Value

/-! ## Regular expressions -/

/-- The signs of an expression with characters in place of their names. -/
def unnamed : List Char → List Char
  | '\\' :: 't' :: r => '\t' :: unnamed r
  | '\\' :: 'n' :: r => '\n' :: unnamed r
  | '\\' :: '"' :: r => '"' :: unnamed r
  | '\\' :: '/' :: r => '/' :: unnamed r
  | '\\' :: c :: r => '\\' :: c :: unnamed r
  | c :: r => c :: unnamed r
  | [] => []

/-- The expression that a text stands for. -/
def expression (s : String) : Regex :=
  match Regex.ofText? ⟨true, true, true⟩ (unnamed s.toList) with
  | .ok r => r
  | .error _ => .within false []

/-- The matches of an expression in a text. -/
def matchesIn (pattern : String) (text : List Char) : List (Regex.Place × Regex.Place) :=
  Regex.allIn (Regex.longest? false (fun _ _ => true) text (expression pattern)) text

/-- The first match of an expression in a text. -/
def firstMatch? (pattern : String) (text : List Char) : Option (Regex.Place × Regex.Place) :=
  Regex.find? (Regex.longest? false (fun _ _ => true) text (expression pattern))
    (Regex.Place.before text)

/-! ## Parts -/

/-- The parts of a text between matches that are not empty. -/
def between (text : List Char) (start : Nat) : List (Regex.Place × Regex.Place) → List (List Char)
  | [] => [text.drop start]
  | (a, b) :: ms =>
    if a.index < b.index then (text.take a.index).drop start :: between text b.index ms
    else between text start ms

/-- **The parts of a text** between separators; a blank stands for all white space. -/
def split (separator : String) (s : String) : List String :=
  let cs := s.toList
  if cs.isEmpty then []
  else
    let parts : List (List Char) :=
      match separator.toList with
      | [' '] => (cs.splitOnP isSpace).filter fun p => !p.isEmpty
      | [] => cs.map fun c => [c]
      | [c] => cs.splitOnP (· = c)
      | _ => between cs 0 (matchesIn separator cs)
    parts.map String.ofList

/-! ## Formats -/

/-- **Values in a format**, and whether there are enough of them; `toText` makes texts of values and
`fuel` bounds the signs. -/
def inFormat (toText : Value → String) : Nat → List Char → List Value → String × Bool
  | 0, _, _ | _, [], _ => ("", true)
  | n + 1, '%' :: '%' :: r, vs =>
    let more := inFormat toText n r vs
    ("%" ++ more.1, more.2)
  | n + 1, '%' :: r, vs =>
    let (f, args, _, rest) := Format.fieldAt r (vs.map toText)
    let vs := vs.drop (vs.length - args.length)
    let isLong := f.letter = some 'l' || f.letter = some 'h'
    let rest := if isLong then rest.dropWhile fun c => c = 'l' || c = 'h' else rest
    let (letter, rest) : Option Char × List Char :=
      if isLong then (rest.head?, rest.drop 1) else (f.letter, rest)
    match letter, vs with
    | some c, v :: vs =>
      let left := f.flags.contains '-'
      let short (s : String) : String := match f.precision with
        | some k => String.ofList (s.toList.take k)
        | none => s
      let x := v.toFloat
      let shown : Option String :=
        if c = 's' then some (Format.pad left ' ' f.width (short (toText v)))
        else if c = 'c' then
          let d := match v with
            | .number x => Char.ofNat (x.toUInt64.toNat % 256)
            | v => ((toText v).toList.head?).getD '\x00'
          some (Format.pad left ' ' f.width (String.singleton d))
        else if "diouxX".contains c then
          let n : Int := if x < 0.0 then x.toInt64.toInt else x.toUInt64.toNat
          some (Format.showNumber { f with letter := some c } c n)
        else if "eEfFgG".contains c then some (Format.showReal f c x)
        else none
      match shown with
      | some t =>
        let more := inFormat toText n rest vs
        (t ++ more.1, more.2)
      | none => ("", false)
    | _, _ => ("", false)
  | n + 1, c :: r, vs =>
    let more := inFormat toText n r vs
    (String.singleton c ++ more.1, more.2)

end MemoFlow.Shell.Record
