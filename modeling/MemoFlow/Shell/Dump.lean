import MemoFlow.Shell.Given
import MemoFlow.Shell.Regex

/-!
# Bytes as text

The programs `od` and `base64`.

* `Dump.Form`, `Dump.shown`: how bytes are written;
* `Dump.rows`: rows of bytes with their places;
* **`Shell.dumped`**: the program `od`;
* `Dump.encoded`, `Dump.decoded`, `Shell.recoded`: the program `base64`.
-/

namespace MemoFlow.Shell

namespace Dump

/-- How bytes are written: a letter and how many bytes make a number. -/
structure Form where
  /-- The letter. -/
  letter : Char
  /-- The number of bytes. -/
  size : Nat
deriving DecidableEq

/-- How wide a number is written. -/
def Form.width (f : Form) : Nat :=
  match f.letter with
  | 'x' => 2 * f.size
  | 'o' => if f.size = 1 then 3 else if f.size = 2 then 6 else if f.size = 4 then 11 else 22
  | 'u' => if f.size = 1 then 3 else if f.size = 2 then 5 else if f.size = 4 then 10 else 20
  | 'd' => if f.size = 1 then 4 else if f.size = 2 then 6 else if f.size = 4 then 11 else 20
  | _ => 3

/-- The number that bytes make, the lowest one first. -/
def number (bs : List Nat) : Nat := bs.foldr (fun b n => b + 256 * n) 0

/-- The names of characters that cannot be seen. -/
def charNames : List String :=
  ["nul", "soh", "stx", "etx", "eot", "enq", "ack", "bel", "bs", "ht", "nl", "vt", "ff", "cr", "so",
    "si", "dle", "dc1", "dc2", "dc3", "dc4", "nak", "syn", "etb", "can", "em", "sub", "esc", "fs",
    "gs", "rs", "us", "sp"]

/-- Digits with zeros before them. -/
def padded (width : Nat) (ds : List Char) : String :=
  String.ofList (List.replicate (width - ds.length) '0' ++ ds)

/-- Bytes in a form. -/
def shown (f : Form) (bs : List Nat) : String :=
  let n := number bs
  match f.letter with
  | 'x' => padded f.width (Nat.toDigits 16 n)
  | 'o' => padded f.width (Nat.toDigits 8 n)
  | 'd' =>
    toString (if 2 * n < Nat.pow 256 f.size then (n : Int) else (n : Int) - Int.pow 256 f.size)
  | 'a' =>
    let n := n % 128
    match charNames[n]? with
    | some t => t
    | none => if n = 127 then "del" else String.singleton (Char.ofNat n)
  | 'c' =>
    match n with
    | 0 => "\\0"
    | 7 => "\\a"
    | 8 => "\\b"
    | 9 => "\\t"
    | 10 => "\\n"
    | 11 => "\\v"
    | 12 => "\\f"
    | 13 => "\\r"
    | n => if 32 ≤ n && n < 127 then String.singleton (Char.ofNat n)
      else padded 3 (Nat.toDigits 8 n)
  | _ => toString n

/-- A list in parts of some length; `fuel` bounds their number. -/
def chunks {α : Type} (n : Nat) : Nat → List α → List (List α)
  | 0, _ | _, [] => []
  | fuel + 1, xs => xs.take n :: chunks n fuel (xs.drop n)

/-- A row of bytes in a form. -/
def rowText (f : Form) (bs : List Nat) : String :=
  (chunks f.size (bs.length + 1) bs).foldl (fun s b =>
    s ++ " " ++ Format.pad false ' ' f.width (shown f b)) ""

/-- A place in a base; none when places are left out. -/
def placeText (base : Char) (n : Nat) : String :=
  match base with
  | 'x' => padded 6 (Nat.toDigits 16 n)
  | 'd' => padded 7 (Nat.toDigits 10 n)
  | 'o' => padded 7 (Nat.toDigits 8 n)
  | _ => ""

/-- Rows with their places. Rows that are the same as the one before are left out when `squeeze`
holds; `starred` holds when one has been. -/
def rows (base : Char) (forms : List Form) (squeeze starred : Bool) (last : Option (List Nat))
    (place : Nat) : List (List Nat) → List String
  | [] => []
  | bs :: r =>
    if squeeze && last = some bs && !r.isEmpty then
      (if starred then [] else ["*"]) ++
        rows base forms squeeze true last (place + bs.length) r
    else
      let texts := forms.map fun f => rowText f bs
      let at' := placeText base place
      let gap := String.ofList (List.replicate at'.length ' ')
      let lines := (texts.take 1).map (at' ++ ·) ++ (texts.drop 1).map (gap ++ ·)
      lines ++ rows base forms squeeze false (some bs) (place + bs.length) r

/-- A form as it is written. -/
def form? (s : String) : Except String Form :=
  match s.toList with
  | [] => .error "invalid type string ''"
  | c :: r =>
    if c = 'a' || c = 'c' then .ok ⟨c, 1⟩
    else if "xoud".contains c then
      match r with
      | ['C'] => .ok ⟨c, 1⟩
      | ['S'] => .ok ⟨c, 2⟩
      | ['I'] => .ok ⟨c, 4⟩
      | ['L'] => .ok ⟨c, 8⟩
      | r => .ok ⟨c, ((Regex.number r).1).getD 4⟩
    else .error ("invalid character " ++ inQuotes (String.singleton c) ++ " in type string " ++
      inQuotes s)

/-- The options of the program `od`. -/
def known : Known :=
  { plain := "abcdDefFhHiIlLoOsvxX", valued := "AjNtwS"
    long := [("address-radix", 'A'), ("format", 't'), ("read-bytes", 'N'), ("skip-bytes", 'j'),
      ("output-duplicates", 'v'), ("width", 'w')] }

/-- The form of a letter alone. -/
def plainForm? (c : Char) : Option Form :=
  match c with
  | 'a' => some ⟨'a', 1⟩
  | 'b' => some ⟨'o', 1⟩
  | 'c' => some ⟨'c', 1⟩
  | 'd' => some ⟨'u', 2⟩
  | 'i' => some ⟨'d', 4⟩
  | 'l' => some ⟨'d', 8⟩
  | 'o' => some ⟨'o', 2⟩
  | 's' => some ⟨'d', 2⟩
  | 'x' => some ⟨'x', 2⟩
  | _ => none

end Dump

open Dump in
/-- **The program `od`.** -/
def dumped (v : View) (args : List String) : Start :=
  match Given.ofList? known args with
  | .error e => .reply (refuseWithHint 1 "od" e)
  | .ok g =>
    let forms := g.options.mapM fun o =>
      if o.1 = 't' then (form? o.2).map fun f => some f else .ok (plainForm? o.1)
    match forms with
    | .error e => .reply (refuse 1 "od" e)
    | .ok fs => readAll v g.rest fun ss =>
      let err := Source.complaints (fun p e => "od: " ++ p ++ ": " ++ e) ss
      let number (c : Char) : Option Nat := (g.value? c).bind String.toNat?
      let forms := fs.filterMap id
      let forms := if forms.isEmpty then [⟨'o', 2⟩] else forms
      let base := ((g.value? 'A').bind fun a => a.toList.head?).getD 'o'
      let skip := (number 'j').getD 0
      let all := (Source.all ss).toList.map Char.toNat
      let bs := all.drop skip
      let bs := match number 'N' with | some n => bs.take n | none => bs
      let width := (number 'w').getD 16
      let body := rows base forms (!g.has 'v') false none skip (chunks width (bs.length + 1) bs)
      let last := placeText base (skip + bs.length)
      { out := unlines (body ++ if base = 'n' then [] else [last])
        err := err
        status := if err.isEmpty then 0 else 1
        early := true }

/-! ## Six bits to a character -/

namespace Dump

/-- The characters for six bits. -/
def alphabet : String := "ABCDEFGHIJKLMNOPQRSTUVWXYZabcdefghijklmnopqrstuvwxyz0123456789+/"

/-- The character for six bits. -/
def sextet (n : Nat) : Char := ((alphabet.toList)[n % 64]?).getD 'A'

/-- Bytes with six bits to a character. -/
def encoded : List Nat → List Char
  | a :: b :: c :: r =>
    let n := 65536 * a + 256 * b + c
    [sextet (n / 262144), sextet (n / 4096), sextet (n / 64), sextet n] ++ encoded r
  | [a, b] =>
    let n := 65536 * a + 256 * b
    [sextet (n / 262144), sextet (n / 4096), sextet (n / 64), '=']
  | [a] => [sextet (a / 4), sextet (16 * a), '=', '=']
  | [] => []

/-- The six bits of a character. -/
def bits? (c : Char) : Option Nat :=
  let i := alphabet.toList.findIdx (· = c)
  if i < 64 then some i else none

/-- The bytes of characters with six bits each, and whether all of them were understood. -/
def decoded : List Char → List Nat × Bool
  | a :: b :: c :: d :: r =>
    match bits? a, bits? b, bits? c, bits? d with
    | some w, some x, some y, some z =>
      let n := 262144 * w + 4096 * x + 64 * y + z
      let (bs, ok) := decoded r
      (n / 65536 :: n / 256 % 256 :: n % 256 :: bs, ok)
    | some w, some x, some y, none =>
      let n := 262144 * w + 4096 * x + 64 * y
      ([n / 65536, n / 256 % 256], d = '=' && r.isEmpty)
    | some w, some x, none, _ => ([4 * w + x / 16], c = '=' && d = '=' && r.isEmpty)
    | _, _, _, _ => ([], false)
  | [] => ([], true)
  | _ => ([], false)

end Dump

open Dump in
/-- The program `base64`. -/
def recoded (v : View) (args : List String) : Start :=
  match Given.ofList? ⟨"di", "w", [("decode", 'd'), ("wrap", 'w'), ("ignore-garbage", 'i')], false⟩
    args with
  | .error e => .reply (refuseWithHint 1 "base64" e)
  | .ok g => readAll v g.rest fun ss =>
    let err := Source.complaints (fun p e => "base64: " ++ p ++ ": " ++ e) ss
    let t := Source.all ss
    if !err.isEmpty then { err := err, status := 1 }
    else if g.has 'd' then
      let cs := t.toList.filter fun c => c ≠ '\n' && (!g.has 'i' || (bits? c).isSome || c = '=')
      let (bs, ok) := decoded cs
      { out := String.ofList (bs.map Char.ofNat)
        err := if ok then "" else "base64: invalid input\n"
        status := if ok then 0 else 1 }
    else
      let cs := encoded (t.toList.map Char.toNat)
      let width := ((g.value? 'w').bind String.toNat?).getD 76
      if width = 0 then { out := String.ofList cs }
      else { out := unlines ((chunks width (cs.length + 1) cs).map String.ofList) }

end MemoFlow.Shell
