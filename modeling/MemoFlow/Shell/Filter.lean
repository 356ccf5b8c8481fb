import MemoFlow.Shell.Columns
import MemoFlow.Shell.Difference
import MemoFlow.Shell.Dump
import MemoFlow.Shell.Editor
import MemoFlow.Shell.Given
import MemoFlow.Shell.Letters
import MemoFlow.Shell.Order
import MemoFlow.Shell.Search

/-!
# Filters

Programs that make a text of a text, or commands; the programs `dd` and `cksum` among them.

* `Blocks.size?`: a number of bytes as it is written;
* **`Shell.blockwise`**: the program `dd`;
* `Blocks.check`, `Shell.checked`: the program `cksum`;
* `Shell.copied`: the program `tee`;
* `Shell.argumentsOf`, `Shell.batches`, `Shell.collected`: the program `xargs`;
* `Shell.factors`: the program `factor`;
* **`Shell.filter?`**: the filters by their names.
-/

/-! ## Blocks of bytes -/

namespace MemoFlow.Shell

namespace Blocks

/-- A number of bytes, perhaps with a unit. -/
def size? (s : String) : Option Nat :=
  let ds := s.toList.takeWhile Char.isDigit
  let unit : Option Nat := match String.ofList (s.toList.drop ds.length) with
    | "" | "c" | "B" => some 1
    | "w" => some 2
    | "b" => some 512
    | "K" | "k" | "KiB" => some 1024
    | "kB" | "KB" => some 1000
    | "M" | "MiB" => some 1048576
    | _ => none
  match (String.ofList ds).toNat?, unit with
  | some n, some u => some (n * u)
  | _, _ => none

/-- How many whole blocks there are, and whether a part of one is left. -/
def count (size bytes : Nat) : String :=
  toString (bytes / size) ++ "+" ++ (if bytes % size = 0 then "0" else "1")

/-- The names of operands. -/
def operands : List String :=
  ["if", "of", "bs", "ibs", "obs", "count", "skip", "seek", "status", "conv", "iflag", "oflag"]

/-- What `dd` makes of a text. -/
def copied (v : View) (given : List (String × String)) (text : Option String) : Reply :=
  let number (k : String) (other : Nat) : Nat := ((given.lookup k).bind size?).getD other
  let size := max 1 (number "bs" 512)
  let wanted := (given.lookup "count").bind size? |>.map (· * size)
  let all : List Char := match text, given.lookup "if" with
    | some t, some p =>
      if p = "/dev/zero" then List.replicate (wanted.getD 4096) '\x00'
      else t.toList.drop (number "skip" 0 * size)
    | some t, none => t.toList.drop (number "skip" 0 * size)
    | none, _ => []
  let cs := match wanted with
    | some n => all.take n
    | none => all
  let cs := if (given.lookup "conv").any fun c => occurs "ucase".toList c.toList then
      cs.map Char.toUpper
    else if (given.lookup "conv").any fun c => occurs "lcase".toList c.toList then
      cs.map Char.toLower
    else cs
  let t := String.ofList cs
  let n := cs.length
  let records := count size n ++ " records in\n" ++ count size n ++ " records out\n"
  let copied := toString n ++ (if n = 1 then " byte" else " bytes") ++ " copied, 0.0001 s, 0 B/s\n"
  let err := match given.lookup "status" with
    | some "none" => ""
    | some "noxfer" => records
    | _ => records ++ copied
  match given.lookup "of" with
  | some p =>
    let before := (number "seek" 0 * size)
    let old := ((v.contents? p).getD "").toList.take before
    let gap := List.replicate (before - old.length) '\x00'
    { files := [(p, String.ofList (old ++ gap) ++ t)], err := err }
  | none => { out := t, err := err }

/-- One step of the check: a byte goes into a remainder of 32 bits. -/
def step (r : Nat) (byte : Nat) : Nat :=
  (List.range 8).foldl (fun r i =>
    let bit := (byte >>> (7 - i)) &&& 1
    let top := (r >>> 31) &&& 1
    let r := (r <<< 1) % 4294967296
    if top != bit then r ^^^ 0x04c11db7 else r) r

/-- The bytes of a length, the lowest one first; `fuel` bounds their number. -/
def lengthBytes : Nat → Nat → List Nat
  | 0, _ => []
  | fuel + 1, n => if n = 0 then [] else n % 256 :: lengthBytes fuel (n / 256)

/-- The remainder of bytes and their length. -/
def check (bs : List Nat) : Nat := ((bs ++ lengthBytes 8 bs.length).foldl step 0) ^^^ 4294967295

end Blocks

open Blocks in
/-- **The program `dd`.** -/
def blockwise (v : View) (args : List String) : Start :=
  let given := args.map fun s =>
    let k := s.toList.takeWhile (· ≠ '=')
    (String.ofList k, String.ofList (s.toList.drop (k.length + 1)))
  let bad := args.find? fun s =>
    !operands.contains (String.ofList (s.toList.takeWhile (· ≠ '='))) || !s.contains '='
  match bad with
  | some s => .reply (refuseWithHint 1 "dd" ("unrecognized operand " ++ inQuotes s))
  | none =>
    let numbers := given.filter fun p => ["bs", "count", "skip", "seek"].contains p.1
    match numbers.find? fun p => (size? p.2).isNone with
    | some p => .reply (refuse 1 "dd" ("invalid number: " ++ inQuotes p.2))
    | none =>
      match given.lookup "if" with
      | none => .reads fun t => Blocks.copied v given (some t)
      | some p =>
        match v.contents? p with
        | some t => .reply (Blocks.copied v given (some t))
        | none =>
          if v.kind? p = some .device then .reply (Blocks.copied v given none)
          else .reply (refuse 1 "dd" ("failed to open " ++ inQuotes p ++ ": " ++ noFile))

open Blocks in
/-- The program `cksum`. -/
def checked (v : View) (args : List String) : Start :=
  readAll v (partOptions args).2 fun ss =>
    let err := Source.complaints (fun p e => "cksum: " ++ p ++ ": " ++ e) ss
    let rows := ss.filterMap fun s =>
      s.text.toOption.map fun t =>
        let bs := t.toUTF8.toList.map UInt8.toNat
        toString (check bs) ++ " " ++ toString bs.length ++
          (if (partOptions args).2.isEmpty then "" else " " ++ s.name)
    { out := unlines rows, err := err, status := if err.isEmpty then 0 else 1 }

end MemoFlow.Shell

/-! ## Filters -/

namespace MemoFlow.Shell

/-- The program `tee`. -/
def copied (v : View) (args : List String) : Start :=
  match Given.ofList? { plain := "aip" } args with
  | .error e => .reply (refuseWithHint 1 "tee" e)
  | .ok g => .reads fun t =>
    let homeOk (p : String) : Bool :=
      let home := joinParts (parts p).dropLast
      !p.contains '/' || v.kind? (home ++ "/") = some .folder
    let old (p : String) : String := if g.has 'a' then (v.contents? p).getD "" else ""
    let isFolder (p : String) : Bool := v.kind? p = some .folder
    let (good, bad) := g.rest.partition fun p => homeOk p && !isFolder p
    { out := t
      err := bad.foldl (fun s p => s ++ "tee: " ++ p ++ ": " ++
        (if isFolder p then "Is a directory" else noFile) ++ "\n") ""
      early := true
      files := good.map fun p => (p, old p ++ t)
      status := if bad.isEmpty then 0 else 1 }

/-! ## Commands from a text -/

/-- The arguments in some characters, each with whether a line ends behind it; `word` is the one at
hand, in reverse. -/
def argumentsOf (word : Option (List Char)) (quote : Option Char) :
    List Char → Except String (List (String × Bool))
  | [] =>
    match quote with
    | some c => .error ("unmatched " ++ (if c = '"' then "double" else "single") ++
        " quote; by default quotes are special to xargs unless you use the -0 option")
    | none => .ok (match word with | some w => [(String.ofList w.reverse, true)] | none => [])
  | c :: r =>
    let more (d : Char) : Option (List Char) := some (d :: word.getD [])
    match quote with
    | some q =>
      if c = q then argumentsOf (some (word.getD [])) none r else argumentsOf (more c) quote r
    | none =>
      if c = '\'' || c = '"' then argumentsOf (some (word.getD [])) (some c) r
      else if c = '\\' then
        match r with
        | d :: r => argumentsOf (more d) none r
        | [] => argumentsOf word none []
      else if c = ' ' || c = '\t' || c = '\n' then
        match word with
        | some w =>
          (argumentsOf none none r).map fun ws => (String.ofList w.reverse, c = '\n') :: ws
        | none => argumentsOf none none r
      else argumentsOf (more c) none r

/-- A list in parts of at most `n` elements; `fuel` bounds their number. -/
def batches {α : Type} (n : Nat) : Nat → List α → List (List α)
  | 0, _ | _, [] => []
  | fuel + 1, xs => xs.take n :: batches n fuel (xs.drop n)

/-- Arguments by the lines on which they stand. -/
def byLines : List (String × Bool) → List (List String)
  | [] => []
  | (a, ends) :: r =>
    if ends then [a] :: byLines r
    else
      match byLines r with
      | l :: ls => (a :: l) :: ls
      | [] => [[a]]

/-- A string with one part replaced by another wherever it stands; `n` bounds their number. -/
def substituted (old new : List Char) : Nat → List Char → List Char
  | 0, cs => cs
  | _, [] => []
  | n + 1, c :: r =>
    if !old.isEmpty && old.isPrefixOf (c :: r) then
      new ++ substituted old new n ((c :: r).drop old.length)
    else c :: substituted old new n r

/-- The program `xargs`. -/
def collected (args : List String) : Start :=
  let spelt := args.map fun s => if s = "-i" then "-I\x7b\x7d" else s
  let known : Known := ⟨"rtx0po", "nILPsdEa", [("null", '0'), ("no-run-if-empty", 'r'),
    ("max-args", 'n'), ("max-procs", 'P'), ("delimiter", 'd'), ("max-lines", 'L'),
    ("replace", 'I'), ("verbose", 't')], true⟩
  let bad (t : String) : Start := .reply (refuseWithHint 1 "xargs" t)
  match Given.ofList? known spelt with
  | .error e => bad e
  | .ok g =>
    let number (c : Char) : Option Nat := (g.value? c).bind String.toNat?
    match ['n', 'L', 'P', 's'].find? fun c => g.has c && (number c).isNone with
    | some c => bad ("invalid number \"" ++ (g.value? c).getD "" ++ "\" for -" ++
        String.singleton c ++ " option")
    | none =>
      let command := if g.rest.isEmpty then ["echo"] else g.rest
      let sign : Option Char :=
        if g.has '0' then some '\x00'
        else (g.value? 'd').map fun d => ((Format.unescape false d).1.toList.head?).getD '\x00'
      let given (t : String) : Except String (List (String × Bool)) :=
        match sign with
        | some c =>
          let ws := (t.toList.splitOnP (· = c)).map String.ofList
          let ws := if ws.getLast? = some "" then ws.dropLast else ws
          .ok (ws.map fun w => (w, true))
        | none =>
          if g.has 'I' then
            .ok (((linesOf t).map fun l => (String.ofList (l.toList.dropWhile fun c =>
              c = ' ' || c = '\t'), true)).filter fun l => l.1 ≠ "")
          else argumentsOf none none t.toList
      .feeds fun t =>
        match given t with
        | .error e => .error e
        | .ok ws =>
          match g.value? 'I' with
          | some sign => .ok (ws.map fun w => command.map fun a =>
              String.ofList (substituted sign.toList w.1.toList a.length a.toList))
          | none =>
            if ws.isEmpty then .ok (if g.has 'r' then [] else [command])
            else
              match number 'n', number 'L' with
              | some n, _ => .ok ((batches n (ws.length + 1) (ws.map Prod.fst)).map (command ++ ·))
              | none, some k =>
                .ok ((batches k (ws.length + 1) (byLines ws)).map fun ls => command ++ ls.flatten)
              | none, none => .ok [command ++ ws.map Prod.fst]

/-! ## Numbers -/

/-- The factors of a number from some one on; `fuel` bounds their number and the numbers tried. -/
def factorsFrom (d : Nat) : Nat → Nat → List Nat
  | 0, n => [n]
  | fuel + 1, n =>
    if n ≤ 1 then []
    else if n < d * d then [n]
    else if n % d = 0 then d :: factorsFrom d fuel (n / d)
    else factorsFrom (d + 1) fuel n

/-- The program `factor`. -/
def factors (args : List String) : Reply :=
  let rows := args.map fun a =>
    match a.toNat? with
    | some n =>
      let fs := factorsFrom 2 100000 n
      (some (toString n ++ ":" ++ fs.foldl (fun s f => s ++ " " ++ toString f) ""), "")
    | none => (none, "factor: " ++ quoted a ++ " is not a valid positive integer\n")
  let err := rows.foldl (fun s r => s ++ r.2) ""
  { out := unlines (rows.filterMap Prod.fst), err := err, status := if err.isEmpty then 0 else 1 }

/-- **The filters** by their names. -/
def filter? (v : View) (name : String) (args : List String) : Option Start :=
  let files := (partOptions args).2
  match name with
  | "cat" => some (concatenated v args)
  | "grep" | "egrep" | "fgrep" => some (grep v name args)
  | "sed" => some (edited v args)
  | "tr" => some (translated args)
  | "cut" => some (columns v args)
  | "paste" => some (pasted v args)
  | "nl" => some (numberedLines v args)
  | "fold" => some (folded v args)
  | "sort" => some (sorted v args)
  | "uniq" => some (repeated v args)
  | "comm" => some (common v args)
  | "cmp" => some (compared v args)
  | "diff" => some (differences v args)
  | "od" => some (dumped v args)
  | "dd" => some (blockwise v args)
  | "cksum" => some (checked v args)
  | "expand" | "unexpand" => some (withTabs v name args)
  | "base64" => some (recoded v args)
  | "wc" => some (wordCount v args)
  | "head" | "tail" => some (excerpt v name args)
  | "tee" => some (copied v args)
  | "xargs" => some (collected args)
  | "factor" =>
    if args.isEmpty then some (.reads fun t => factors (wordsIn t))
    else some (.reply (factors args))
  | "tac" => some (readAll v files fun ss =>
      let err := Source.complaints (fun p e => if e = noFile then
        "tac: failed to open " ++ inQuotes p ++ " for reading: " ++ e
        else "tac: " ++ p ++ ": read error: Invalid argument") ss
      { out := ss.foldl (fun t s =>
          t ++ Excerpt.glue (Excerpt.pieces (s.text.toOption.getD "")).reverse) ""
        err := err
        status := if err.isEmpty then 0 else 1 })
  | "rev" =>
    let turned (t : String) : String :=
      unlines ((linesOf t).map fun l => String.ofList l.toList.reverse)
    if files.isEmpty then some (.reads fun t => { out := turned t })
    else
      let ss := sources v "" files
      let lost := ss.filter fun s => s.text.toOption.isNone
      some (.reply
        { out := turned (Source.all ss)
          err := Source.complaints (fun p e => "rev: cannot open " ++ p ++ ": " ++ e) ss
          status := if lost.isEmpty then 0 else 1 })
  | _ => none

end MemoFlow.Shell
