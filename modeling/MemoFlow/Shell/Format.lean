import MemoFlow.Shell.Real
import MemoFlow.Shell.State

/-!
# Formatted output

The commands `echo` and `printf`.

* `Format.escapes`: the escapes of a string undone;
* `Format.showNumber`, `Format.showReal`: numbers in fields;
* **`Shell.echoed`**: what `echo` writes;
* **`Shell.printed`**: what `printf` writes, and its complaints.
-/

namespace MemoFlow.Shell

namespace Format

/-- Whether a character is a digit in base eight. -/
def isOctal (c : Char) : Bool := '0' ≤ c && c ≤ '7'

/-- The byte that digits in base eight stand for. -/
def octal (cs : List Char) : Char :=
  Char.ofNat (cs.foldl (fun n c => n * 8 + (c.toNat - 48)) 0 % 256)

/-- What a letter stands for behind a backslash. -/
def letter? : Char → Option Char
  | '\\' => some '\\'
  | 'a' => some '\x07'
  | 'b' => some '\x08'
  | 'f' => some '\x0c'
  | 'n' => some '\n'
  | 'r' => some '\r'
  | 't' => some '\t'
  | 'v' => some '\x0b'
  | _ => none

/-- The escapes of a string undone, and whether the output goes on behind it: `\c` ends it. Numbers
start with a zero when `zero`. -/
def escapes (zero : Bool) : Nat → List Char → List Char × Bool
  | 0, _ | _, [] => ([], true)
  | n + 1, '\\' :: c :: r =>
    let after (x : Char) (r : List Char) := ((x :: (escapes zero n r).1), (escapes zero n r).2)
    if c = 'c' && zero then ([], false)
    else
      match letter? c with
      | some x => after x r
      | none =>
        if zero && c = '0' then
          let ds := (r.take 3).takeWhile isOctal
          after (octal ds) (r.drop ds.length)
        else if isOctal c then
          let ds := ((c :: r).take 3).takeWhile isOctal
          after (octal ds) ((c :: r).drop ds.length)
        else ('\\' :: (escapes zero n (c :: r)).1, (escapes zero n (c :: r)).2)
  | n + 1, c :: r => (c :: (escapes zero n r).1, (escapes zero n r).2)

/-- A string with its escapes undone. -/
def unescape (zero : Bool) (s : String) : String × Bool :=
  let (cs, more) := escapes zero (s.length + 1) s.toList
  (String.ofList cs, more)

/-- A string in a field of some width. -/
def pad (left : Bool) (fill : Char) (width : Nat) (s : String) : String :=
  let gap := String.ofList (List.replicate (width - s.length) fill)
  if left then s ++ gap else gap ++ s

/-- The number that an argument stands for, and a complaint about it. -/
def numeral (s : String) : Int × Option String :=
  match s.toList with
  | '"' :: r | '\'' :: r => ((r.head?.map Char.toNat).getD 0, none)
  | cs =>
    let cs := cs.dropWhile isSpace
    let (negative, cs) : Bool × List Char :=
      match cs with
      | '-' :: r => (true, r)
      | '+' :: r => (false, r)
      | r => (false, r)
    let value (base : Nat) (cs : List Char) : Int × List Char :=
      let isDigit (c : Char) : Bool :=
        if base = 16 then c.isDigit || "abcdefABCDEF".contains c
        else decide (c.toNat - 48 < base) &&
          c.isDigit
      let digit (c : Char) : Nat := if c.isDigit then c.toNat - 48 else (c.toNat ||| 32) - 87
      ((cs.takeWhile isDigit).foldl (fun n c => n * base + digit c) 0, cs.dropWhile isDigit)
    let (n, rest) := match cs with
      | '0' :: 'x' :: r | '0' :: 'X' :: r => value 16 r
      | '0' :: r => value 8 ('0' :: r)
      | cs => value 10 cs
    let n := if negative then -n else n
    if s.isEmpty then (0, none)
    else if rest.length = cs.length then (0, some (s ++ ": expected numeric value"))
    else if rest.isEmpty then (n, none)
    else (n, some (s ++ ": not completely converted"))

/-- A field of a format. -/
structure Field where
  /-- The flags. -/
  flags : List Char
  /-- The width. -/
  width : Nat
  /-- The precision, if there is one. -/
  precision : Option Nat
  /-- The letter, if there is one. -/
  letter : Option Char
  /-- The field as it stands. -/
  text : String

/-- The field behind a percent sign; widths can be arguments. The arguments that are left,
complaints about those that are used, and what follows the field come with it. -/
def fieldAt (cs : List Char) (args : List String) :
    Field × List String × List String × List Char :=
  let flags := cs.takeWhile fun c => "#-+ 0".contains c
  let size (cs : List Char) (args : List String) :
      Option Nat × List String × List String × List Char :=
    match cs with
    | '*' :: r =>
      let (n, wrong) := numeral (args.head?.getD "")
      (some n.toNat, args.drop 1, wrong.toList, r)
    | cs => ((digitsAt cs).1, args, [], (digitsAt cs).2)
  let (width, args, wrong, r) := size (cs.drop flags.length) args
  let (precision, args, wrong, r) :=
    match r with
    | '.' :: r =>
      let (p, args, more, r) := size r args
      (some (p.getD 0), args, more ++ wrong, r)
    | r => (none, args, wrong, r)
  let used := cs.take (cs.length - r.length + 1)
  (⟨flags, width.getD 0, precision, r.head?, "%" ++ String.ofList used⟩, args, wrong, r.drop 1)

/-- The digits of a number in base eight or sixteen. -/
def inBase (base : Nat) (upper : Bool) (n : Int) : String :=
  let ds := Nat.toDigits base (n % Int.pow 2 64).toNat
  String.ofList (if upper then ds.map Char.toUpper else ds)

/-- A number in a field. -/
def showNumber (f : Field) (letter : Char) (n : Int) : String :=
  let digits := match letter with
    | 'o' => inBase 8 false n
    | 'x' => (if f.flags.contains '#' && n ≠ 0 then "0x" else "") ++ inBase 16 false n
    | 'X' => (if f.flags.contains '#' && n ≠ 0 then "0X" else "") ++ inBase 16 true n
    | 'u' => toString (n % Int.pow 2 64)
    | _ => toString n.natAbs
  let sign := if letter = 'd' || letter = 'i' then
      if n < 0 then "-" else if f.flags.contains '+' then "+"
      else if f.flags.contains ' ' then " " else ""
    else ""
  let digits := pad false '0' (f.precision.getD 0) digits
  if f.flags.contains '0' && !f.flags.contains '-' && f.precision.isNone then
    sign ++ pad false '0' (f.width - sign.length) digits
  else pad (f.flags.contains '-') ' ' f.width (sign ++ digits)

/-- The double that an argument stands for, and a complaint about it. -/
def real (s : String) : Float × Option String :=
  match s.toList with
  | '"' :: r | '\'' :: r => (Float.ofNat ((r.head?.map Char.toNat).getD 0), none)
  | cs =>
    let (x, rest) := Real.ofStart cs
    if s.isEmpty then (0.0, none)
    else if rest.length = cs.length then (0.0, some (s ++ ": expected numeric value"))
    else if rest.isEmpty then (x, none)
    else (x, some (s ++ ": not completely converted"))

/-- A double in a field. -/
def showReal (f : Field) (letter : Char) (x : Float) : String :=
  let t := Real.text letter (f.precision.getD 6) (f.flags.contains '#') x
  let (sign, body) : String × String :=
    if t.startsWith "-" then ("-", String.ofList (t.toList.drop 1))
    else (if f.flags.contains '+' then "+" else if f.flags.contains ' ' then " " else "", t)
  if f.flags.contains '0' && !f.flags.contains '-' && x.isFinite then
    sign ++ pad false '0' (f.width - sign.length) body
  else pad (f.flags.contains '-') ' ' f.width (sign ++ body)

/-- What a format has written so far. -/
structure Printed where
  /-- The output. -/
  out : String := ""
  /-- The arguments that are left. -/
  args : List String
  /-- Complaints, the last one first. -/
  complaints : List String := []
  /-- Whether there is more to come. -/
  goesOn : Bool := true
  /-- Whether the format is not understood. -/
  invalid : Bool := false

/-- One pass over a format. -/
def pass : Nat → List Char → Printed → Printed
  | 0, _, p => p
  | _, [], p => p
  | n + 1, '%' :: '%' :: r, p => pass n r { p with out := p.out.push '%' }
  | n + 1, '%' :: r, p =>
    let (f, args, wrong, r) := fieldAt r p.args
    let p := { p with complaints := wrong ++ p.complaints }
    let next := args.head?.getD ""
    let short (s : String) := match f.precision with
      | some k => String.ofList (s.toList.take k)
      | none => s
    let string (s : String) := pad (f.flags.contains '-') ' ' f.width (short s)
    match f.letter with
    | some 's' => pass n r { p with out := p.out ++ string next, args := args.drop 1 }
    | some 'c' =>
      let c := next.toList.head?.getD '\x00'
      let s := pad (f.flags.contains '-') ' ' f.width (String.singleton c)
      pass n r { p with out := p.out ++ s, args := args.drop 1 }
    | some 'b' =>
      let (t, more) := unescape true next
      let p := { p with out := p.out ++ string t, args := args.drop 1 }
      if more then pass n r p else { p with goesOn := false }
    | some c =>
      if "diouxX".contains c then
        let (v, wrong) := numeral next
        pass n r { p with
          out := p.out ++ showNumber f c v
          args := args.drop 1
          complaints := wrong.toList ++ p.complaints }
      else if "eEfFgG".contains c then
        let (v, wrong) := real next
        pass n r { p with
          out := p.out ++ showReal f c v
          args := args.drop 1
          complaints := wrong.toList ++ p.complaints }
      else { p with
        goesOn := false, invalid := true
        complaints := (f.text ++ ": invalid directive") :: p.complaints }
    | none => { p with
        goesOn := false, invalid := true
        complaints := "missing format character" :: p.complaints }
  | n + 1, c :: r, p => pass n r { p with out := p.out.push c }

/-- Passes over a format as long as there are arguments left. -/
def passes (format : List Char) : Nat → Printed → Printed
  | 0, p => p
  | n + 1, p =>
    let q := pass (format.length + 1) format p
    if q.goesOn && !q.args.isEmpty && q.args.length < p.args.length then passes format n q else q

end Format

/-- **What `echo` writes.** -/
def echoed (args : List String) : String :=
  let (args, newline) := match args with
    | "-n" :: r => (r, false)
    | args => (args, true)
  let (t, more) := Format.unescape true (String.intercalate " " args)
  if more && newline then t ++ "\n" else t

/-- **What `printf` writes**, with its complaints and its status. -/
def printed (format : String) (args : List String) : String × List String × Nat :=
  let f := (Format.unescape false format).1.toList
  let p := Format.passes f (args.length + 1) { args := args }
  let status := if p.invalid then 2 else if p.complaints.isEmpty then 0 else 1
  (p.out, p.complaints.reverse, status)

end MemoFlow.Shell
