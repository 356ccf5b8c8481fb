import MemoFlow.Shell.Given

/-!
# Parts of texts

The programs `cat`, `head`, `tail` and `wc`.

* `Excerpt.Amount`: how much of a text is wanted;
* `Excerpt.pieces`: the lines of a text with their ends;
* `Shell.concatenated`: the program `cat`;
* **`Shell.excerpt`**: the programs `head` and `tail`;
* `Shell.wordCount`: the program `wc`.
-/

namespace MemoFlow.Shell

namespace Excerpt

/-- How much of a text is wanted: a sign and a number. -/
structure Amount where
  /-- The sign before the number. -/
  sign : Option Char
  /-- The number. -/
  number : Nat

/-- What a letter behind a number multiplies it with. -/
def factor? : List Char → Option Nat
  | [] => some 1
  | ['b'] => some 512
  | ['k'] | ['K'] | ['K', 'i', 'B'] => some 1024
  | ['k', 'B'] | ['K', 'B'] => some 1000
  | ['M'] | ['m'] => some 1048576
  | ['M', 'B'] => some 1000000
  | _ => none

/-- An amount. -/
def Amount.ofText? (s : String) : Option Amount :=
  let (sign, cs) : Option Char × List Char :=
    match s.toList with
    | '+' :: r => (some '+', r)
    | '-' :: r => (some '-', r)
    | r => (none, r)
  let n := (String.ofList (cs.takeWhile Char.isDigit)).toNat?
  match n, factor? (cs.dropWhile Char.isDigit) with
  | some n, some k => some ⟨sign, n * k⟩
  | _, _ => none

/-- The lines of some characters, each with its end; `line` is the last one so far, in reverse. -/
def piecesFrom (line : List Char) : List Char → List String
  | [] => if line.isEmpty then [] else [String.ofList line.reverse]
  | '\n' :: r => String.ofList ('\n' :: line).reverse :: piecesFrom [] r
  | c :: r => piecesFrom (c :: line) r

/-- The lines of a text, each with its end. -/
def pieces (t : String) : List String := piecesFrom [] t.toList

/-- A text of pieces. -/
def glue (ps : List String) : String := ps.foldl (· ++ ·) ""

/-- The start of a list that is wanted. -/
def Amount.start {α : Type} (a : Amount) (xs : List α) : List α :=
  if a.sign = some '-' then xs.take (xs.length - a.number) else xs.take a.number

/-- The end of a list that is wanted. -/
def Amount.finish {α : Type} (a : Amount) (xs : List α) : List α :=
  if a.sign = some '+' then xs.drop (a.number - 1) else xs.drop (xs.length - a.number)

/-- The part of a text that is wanted. -/
def part (fromEnd bytes : Bool) (a : Amount) (t : String) : String :=
  if bytes then
    String.ofList (if fromEnd then a.finish t.toList else a.start t.toList)
  else glue (if fromEnd then a.finish (pieces t) else a.start (pieces t))

/-- An amount that is written without its letter. -/
def spelt (fromEnd : Bool) (s : String) : List String :=
  match s.toList with
  | '-' :: d :: r =>
    if !d.isDigit then [s]
    else
      let ds := (d :: r).takeWhile Char.isDigit
      let more := (d :: r).dropWhile Char.isDigit
      let unit := if more.contains 'c' then "-c" else "-n"
      let others := more.filter fun c => c ≠ 'c'
      [unit, String.ofList ds] ++
        (if others.isEmpty then [] else [String.ofList ('-' :: others)])
  | '+' :: d :: r =>
    if fromEnd && (d :: r).all Char.isDigit then ["-n", s] else [s]
  | _ => [s]

/-- The arguments with the first one spelt out. -/
def spelled (fromEnd : Bool) : List String → List String
  | [] => []
  | s :: r => spelt fromEnd s ++ r

/-- The options of the programs. -/
def known : Known :=
  { plain := "qvzfF", valued := "nc"
    long := [("lines", 'n'), ("bytes", 'c'), ("quiet", 'q'), ("silent", 'q'), ("verbose", 'v')] }

/-- What stands before the parts of several files. -/
def heading (first : Bool) (name : String) : String :=
  (if first then "" else "\n") ++ "==> " ++ (if name = "-" then "standard input" else name) ++
    " <==\n"

/-- The parts of several files; `first` holds before the first heading. -/
def parted (headed : Bool) (f : String → String) (first : Bool) : List Source → String
  | [] => ""
  | s :: r =>
    match s.text with
    | .error e =>
      if e = noFile then parted headed f first r
      else (if headed then heading first s.name else "") ++ parted headed f false r
    | .ok t =>
      (if headed then heading first s.name else "") ++ f t ++ parted headed f false r

end Excerpt

open Excerpt in
/-- **The programs `head` and `tail`.** -/
def excerpt (v : View) (name : String) (args : List String) : Start :=
  let fromEnd := name = "tail"
  match Given.ofList? known (spelled fromEnd args) with
  | .error e => .reply (refuseWithHint 1 name e)
  | .ok g =>
    let wanted := (g.options.filter fun o => o.1 = 'n' || o.1 = 'c')
    let bad := wanted.find? fun o => (Amount.ofText? o.2).isNone
    match bad with
    | some (c, s) =>
      let what := if c = 'n' then "lines" else "bytes"
      .reply (refuse 1 name ("invalid number of " ++ what ++ ": " ++ quoted s))
    | none =>
      let last := wanted.getLast?.getD ('n', "10")
      let amount := (Amount.ofText? last.2).getD ⟨none, 10⟩
      let nothing := amount.number = 0 && (if fromEnd then amount.sign ≠ some '+'
        else amount.sign ≠ some '-' && g.rest.all fun p => v.kind? p ≠ none)
      if nothing then .reply { } else readAll v g.rest fun ss =>
        let headed := (1 < ss.length && !g.has 'q') || g.has 'v'
        let err := Source.complaints (fun p e =>
          if e = noFile then name ++ ": cannot open " ++ inQuotes p ++ " for reading: " ++ e
          else name ++ ": error reading " ++ inQuotes p ++ ": " ++ e) ss
        { out := parted headed (part fromEnd (last.1 = 'c') amount) true ss
          err := err
          early := Source.startsBad ss
          status := if err.isEmpty then 0 else 1 }

/-! ## Whole texts -/

namespace Excerpt

/-- A character as `cat` makes it visible. -/
def visible (g : Given) (c : Char) : String :=
  if c = '\t' then (if g.has 'T' || g.has 'A' || g.has 't' then "^I" else "\t")
  else if !(g.has 'v' || g.has 'A' || g.has 'e' || g.has 't') then String.singleton c
  else if c.toNat < 32 then "^" ++ String.singleton (Char.ofNat (c.toNat + 64))
  else if c.toNat = 127 then "^?"
  else String.singleton c

/-- Lines as `cat` shows them, with the number of the last one and whether it was blank. -/
def displayed (g : Given) (n : Nat) (blank : Bool) : List String → String
  | [] => ""
  | p :: ps =>
    let isBlank := p = "\n"
    if g.has 's' && blank && isBlank then displayed g n true ps
    else
      let counts := if g.has 'b' then !isBlank else g.has 'n'
      let n' := if counts then n + 1 else n
      let number := if counts then Format.pad false ' ' 6 (toString n') ++ "\t" else ""
      let shown := p.toList.foldl (fun s c =>
        if c = '\n' then s ++ (if g.has 'E' || g.has 'A' || g.has 'e' then "$\n" else "\n")
        else s ++ visible g c) ""
      number ++ shown ++ displayed g n' isBlank ps

/-- The options of the program `cat`. -/
def shows : Known :=
  { plain := "AbeEnstTuv"
    long := [("number", 'n'), ("number-nonblank", 'b'), ("squeeze-blank", 's'), ("show-all", 'A'),
      ("show-ends", 'E'), ("show-tabs", 'T'), ("show-nonprinting", 'v')] }

/-- The options of the program `wc`. -/
def counted : Known :=
  { plain := "clmwL"
    long := [("lines", 'l'), ("words", 'w'), ("bytes", 'c'), ("chars", 'm'),
      ("max-line-length", 'L')] }

/-- The counts of a text that are wanted: lines, words, characters and the longest line. -/
def countsOf (g : Given) (t : String) : List Nat :=
  let all := g.options.isEmpty
  let longest := (linesOf t).foldl (fun n l => max n l.length) 0
  (if all || g.has 'l' then [t.toList.count '\n'] else []) ++
    (if all || g.has 'w' then [(wordsIn t).length] else []) ++
    (if g.has 'm' then [t.length] else []) ++
    (if all || g.has 'c' then [t.utf8ByteSize] else []) ++
    (if g.has 'L' then [longest] else [])

/-- A row of counts and a name. -/
def countRow (width : Nat) (ns : List Nat) (name : Option String) : String :=
  String.intercalate " " (ns.map fun n => Format.pad false ' ' width (toString n)) ++
    (match name with | some n => " " ++ n | none => "")

end Excerpt

open Excerpt in
/-- The program `cat`. -/
def concatenated (v : View) (args : List String) : Start :=
  match Given.ofList? shows args with
  | .error e => .reply (refuseWithHint 1 "cat" e)
  | .ok g =>
    let shown (t : String) : String :=
      if g.options.isEmpty then t else displayed g 0 false (pieces t)
    readAll v g.rest fun ss =>
      let err := Source.complaints (fun p e => "cat: " ++ p ++ ": " ++ e) ss
      { out := shown (Source.all ss), err := err, status := if err.isEmpty then 0 else 1
        early := Source.startsBad ss }

open Excerpt in
/-- The program `wc`. -/
def wordCount (v : View) (args : List String) : Start :=
  match Given.ofList? counted args with
  | .error e => .reply (refuseWithHint 1 "wc" e)
  | .ok g => readAll v g.rest fun ss =>
    let rows : List (Source × List Nat) := ss.map fun s => (s, countsOf g (s.text.toOption.getD ""))
    let shown := rows.filter fun r =>
      match r.1.text with
      | .ok _ => true
      | .error e => e ≠ noFile
    let width : Nat :=
      if ss.length = 1 && (rows.all fun r => r.2.length = 1) then 1
      else if ss.any fun s => s.name = "-" || (s.text.toOption.isNone && ss.length = 1) then 7
      else
        let bytes := ss.foldl (fun n s => n + (s.text.toOption.getD "").utf8ByteSize) 0
        (toString bytes).length
    let named (n : String) : Option String := if g.rest.isEmpty then none else some n
    let total := rows.foldl (fun ns r => List.zipWith (· + ·) ns r.2) (countsOf g "")
    let err := Source.complaints (fun p e => "wc: " ++ p ++ ": " ++ e) ss
    { out := unlines ((shown.map fun r => countRow width r.2 (named r.1.name)) ++
        (if 1 < ss.length then [countRow width total (some "total")] else []))
      err := err
      early := Source.startsBad ss
      status := if err.isEmpty then 0 else 1 }

end MemoFlow.Shell
