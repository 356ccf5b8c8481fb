import MemoFlow.Shell.Given
import MemoFlow.Shell.Match

/-!
# Searching for lines

The program `grep`.

* `Search.expression?`: the expression of its patterns;
* `Search.longest?`: the match at a place of a line; `Search.chosen`: the lines with a match;
* `Search.shown`: what is shown of the lines of a file;
* **`Shell.grep`**: the program.
-/

namespace MemoFlow.Shell

namespace Search

/-- The options of the program. -/
def known : Known :=
  { plain := "EFGPivwxcqsnoblLhHyazrRIUTZ", valued := "efmABCdD"
    long := [("count", 'c'), ("quiet", 'q'), ("silent", 'q'), ("ignore-case", 'i'),
      ("invert-match", 'v'), ("word-regexp", 'w'), ("line-regexp", 'x'), ("no-messages", 's'),
      ("line-number", 'n'), ("only-matching", 'o'), ("byte-offset", 'b'),
      ("extended-regexp", 'E'), ("fixed-strings", 'F'), ("basic-regexp", 'G'),
      ("perl-regexp", 'P'), ("regexp", 'e'), ("file", 'f'), ("files-with-matches", 'l'),
      ("files-without-match", 'L'), ("with-filename", 'H'), ("no-filename", 'h'), ("text", 'a'),
      ("max-count", 'm'), ("after-context", 'A'), ("before-context", 'B'), ("context", 'C'),
      ("recursive", 'r'), ("color", 'U'), ("colour", 'U'), ("line-buffered", 'U')] }

/-- The expression for a text that stands for itself. -/
def plain (cs : List Char) : Regex := cs.foldl (fun r c => .cat r (.one c)) .blank

/-- A text in which signs of a related way of writing are spelt out. -/
def spelt : List Char → List Char
  | '\\' :: 'd' :: r => "[0-9]".toList ++ spelt r
  | '\\' :: 'D' :: r => "[^0-9]".toList ++ spelt r
  | '\\' :: c :: r => '\\' :: c :: spelt r
  | '(' :: '?' :: ':' :: r => '(' :: spelt r
  | '*' :: '?' :: r => '*' :: spelt r
  | '+' :: '?' :: r => '+' :: spelt r
  | c :: r => c :: spelt r
  | [] => []

/-- The expression of the patterns, one to a line. -/
def expression? (g : Given) (patterns : List String) : Except String (List Regex) :=
  patterns.mapM fun p =>
    if g.has 'F' then .ok (plain p.toList)
    else if g.has 'P' then Regex.ofText? ⟨true, true, false⟩ (spelt p.toList)
    else
      let style : Regex.Style := ⟨g.has 'E', false, g.has 'E'⟩
      if p.startsWith "[:" && p.endsWith ":]" then
        .error "character class syntax is [[:space:]], not [:space:]"
      else Regex.ofText? style p.toList

/-- Whether a match may have some bounds. -/
def allowed (g : Given) (a b : Regex.Place) : Bool :=
  if g.has 'x' then a.last.isNone && b.rest.isEmpty
  else if g.has 'w' then !a.last.any Regex.isWordly && !b.rest.head?.any Regex.isWordly
  else true

/-- The longest match of some expressions at a place of a line. -/
def longest? (g : Given) (rs : List Regex) (line : List Char) (p : Regex.Place) :
    Option Regex.Place :=
  Regex.furthest? (rs.filterMap fun r =>
    Regex.longest? (g.has 'i' || g.has 'y') (allowed g) line r p)

/-- Whether a line is chosen. -/
def isChosen (g : Given) (rs : List Regex) (line : String) : Bool :=
  (Regex.find? (longest? g rs line.toList) (Regex.Place.before line.toList)).isSome != g.has 'v'

/-- A number among the options. -/
def number? (g : Given) (c : Char) : Option Nat := (g.value? c).bind String.toNat?

/-- The lines that are chosen, as many as wanted. -/
def chosen (g : Given) (rs : List Regex) (lines : List (Nat × String)) : List (Nat × String) :=
  let ls := lines.filter fun l => isChosen g rs l.2
  match number? g 'm' with
  | some n => ls.take n
  | none => ls

/-- What stands before a line: the name of its file, its number and its place. -/
def label (g : Given) (name : Option String) (sign : String) (number place : Nat) : String :=
  (match name with | some n => n ++ sign | none => "") ++
    (if g.has 'n' then toString number ++ sign else "") ++
    (if g.has 'b' then toString place ++ sign else "")

/-- The lines of a text with their numbers. -/
def numbered (t : String) : List (Nat × String) :=
  (linesOf t).zipIdx.map fun p => (p.2 + 1, p.1)

/-- The number of characters before a line. -/
def placeOf (lines : List (Nat × String)) (n : Nat) : Nat :=
  (lines.take (n - 1)).foldl (fun k l => k + l.2.length + 1) 0

/-- Lines around the chosen ones, with what stands before them; `last` is the number of the line
that was shown last. -/
def withContext (g : Given) (name : Option String) (before after : Nat) (chosen : List Nat)
    (lines : List (Nat × String)) : Option Nat → List (Nat × String) → List String
  | _, [] => []
  | last, (n, l) :: r =>
    let asked := g.has 'A' || g.has 'B' || g.has 'C'
    let here := chosen.contains n
    let near := chosen.any fun k => k ≤ n + before && n ≤ k + after
    if !here && !near then withContext g name before after chosen lines last r
    else
      let gap := if asked && last.any fun k => k + 1 < n then ["--"] else []
      let sign := if here then ":" else "-"
      gap ++ (label g name sign n (placeOf lines n) ++ l) ::
        withContext g name before after chosen lines (some n) r

/-- What is shown of the lines of a file. -/
def shown (g : Given) (rs : List Regex) (name : Option String) (file : String)
    (lines : List (Nat × String)) : List String :=
  let ls := chosen g rs lines
  let around := number? g 'C'
  let before := (number? g 'B').getD (around.getD 0)
  let after := (number? g 'A').getD (around.getD 0)
  if g.has 'q' then []
  else if g.has 'l' then (if ls.isEmpty then [] else [file])
  else if g.has 'L' then (if ls.isEmpty then [file] else [])
  else if g.has 'c' then
    [(match name with | some n => n ++ ":" | none => "") ++ toString ls.length]
  else if g.has 'o' then
    if g.has 'v' then []
    else ls.flatMap fun (n, l) =>
      let ms := (Regex.allIn (longest? g rs l.toList) l.toList).filter fun m =>
        m.1.index < m.2.index
      ms.map fun m => label g name ":" n (placeOf lines n + m.1.index) ++
        String.ofList (Regex.part l.toList m 0)
  else withContext g name before after (ls.map Prod.fst) lines none lines

/-- A complaint with what the program expects. -/
def refusal (t : String) : Reply :=
  { status := 2
    err := (if t.isEmpty then "" else "grep: " ++ t ++ "\n") ++
      "Usage: grep [OPTION]... PATTERNS [FILE]...\n" ++
      "Try 'grep --help' for more information.\n" }

/-- An option for lines around, such as `-3`, in letters. -/
def withLetters (s : String) : List String :=
  match s.toList with
  | '-' :: cs => if !cs.isEmpty && cs.all Char.isDigit then ["-C", String.ofList cs] else [s]
  | _ => [s]

/-- What the program leaves behind when it has read some files. -/
def reply (g : Given) (rs : List Regex) (ss : List Source) : Reply :=
  let named := (g.options.filter fun o => o.1 = 'h' || o.1 = 'H').getLast?
  let many : Bool := match named with
    | some o => o.1 = 'H'
    | none => 1 < ss.length
  let success := ss.any fun s => (s.text.toOption).any fun t => !(chosen g rs (numbered t)).isEmpty
  let failed := ss.any fun s => s.text.toOption.isNone
  let out := ss.flatMap fun s =>
    match s.text with
    | .error e =>
      if e = noFile then [] else shown g rs (if many then some s.name else none) s.name []
    | .ok t =>
      let name := if s.name = "-" then "(standard input)" else s.name
      shown g rs (if many then some name else none) name (numbered t)
  let first := if g.has 'q' then ss.takeWhile fun s =>
      (s.text.toOption).all fun t => (chosen g rs (numbered t)).isEmpty else ss
  let err := Source.complaints (fun p e => "grep: " ++ p ++ ": " ++ e) first
  { out := unlines out
    err := if g.has 's' then "" else err
    early := Source.startsBad ss
    status := if success && g.has 'q' then 0 else if failed then 2 else if success then 0 else 1 }

/-- The search for patterns. -/
def start (v : View) (g : Given) (patterns files : List String) : Start :=
  match expression? g patterns with
  | .error e => .reply (refuse 2 "grep" e)
  | .ok rs => readAll v files (reply g rs)

end Search

/-- **The program `grep`** under one of its names. -/
def grep (v : View) (name : String) (args : List String) : Start :=
  match Given.ofList? Search.known (args.flatMap Search.withLetters) with
  | .error e => .reply (Search.refusal e)
  | .ok g =>
    let more := if name = "egrep" then [('E', "")] else if name = "fgrep" then [('F', "")] else []
    let g := { g with options := more ++ g.options }
    let split (s : String) : List String := (s.toList.splitOnP (· = '\n')).map String.ofList
    let count (c : Char) : Bool := (g.value? c).all fun s => (s.toNat?).isSome
    let given := (g.values 'e').flatMap split ++
      (g.values 'f').flatMap fun p => linesOf ((v.contents? p).getD "")
    match ['A', 'B', 'C'].find? fun c => !count c with
    | some c =>
      .reply (refuse 2 "grep" ((g.value? c).getD "" ++ ": invalid context length argument"))
    | none =>
      if !count 'm' then .reply (refuse 2 "grep" "invalid max count")
      else if g.has 'E' && (g.has 'F' || g.has 'P') || g.has 'F' && g.has 'P' then
        .reply (refuse 2 "grep" "conflicting matchers specified")
      else if g.has 'e' || g.has 'f' then Search.start v g given g.rest
      else
        match g.rest with
        | [] => .reply (Search.refusal "")
        | p :: files => Search.start v g (split p) files

end MemoFlow.Shell
