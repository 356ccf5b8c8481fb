import MemoFlow.Shell.Editing
import MemoFlow.Shell.Excerpt

/-!
# Editing lines

The program `sed`.

* `Editor.Sheet`: the lines, what is held and what has been printed;
* `Editor.isHere`: whether a step is done on a line;
* `Editor.changed`: a line with matches changed;
* `Editor.perform`, **`Editor.run`**: a step, and a script on all lines;
* `Shell.edited`: the program.
-/

namespace MemoFlow.Shell

namespace Editor

open Editing

/-- The lines, what is held and what has been printed. -/
structure Sheet where
  /-- The line at hand. -/
  line : List Char := []
  /-- What is held. -/
  held : List Char := []
  /-- The number of the line. -/
  number : Nat := 0
  /-- The lines that follow. -/
  rest : List (List Char)
  /-- Whether the end of the last line is missing. -/
  open' : Bool := false
  /-- What has been printed. -/
  out : String := ""
  /-- Whether the end of what has been printed is missing. -/
  lacks : Bool := false
  /-- What is printed behind the line. -/
  later : List String := []
  /-- Whether matches have been changed. -/
  changed : Bool := false
  /-- The expression that was used last. -/
  used : Option Regex := none
  /-- The ranges that have started, by their steps; with the number of their last line, if it is
  known. -/
  ranges : List (Nat × Option Nat) := []
  /-- Files with what has been written to them. -/
  files : List (String × String) := []
  /-- The status at the end. -/
  status : Nat := 0
  /-- Whether an expression was asked for before there was one. -/
  failed : Bool := false

/-- Where a script goes on. -/
inductive Course where
  /-- With the next step. -/
  | next
  /-- With the step of a number. -/
  | to (i : Nat)
  /-- With the next line, after printing this one. -/
  | cycle
  /-- With the next line. -/
  | drop
  /-- With what is left of this line. -/
  | again
  /-- Nowhere, after printing or without. -/
  | stop (prints : Bool)

namespace Sheet

/-- A text is printed. -/
def print (t : String) (s : Sheet) : Sheet :=
  { s with out := s.out ++ (if s.lacks then "\n" else "") ++ t, lacks := false }

/-- Some characters are printed as a line. -/
def printLine (cs : List Char) (s : Sheet) : Sheet :=
  if s.open' && s.rest.isEmpty then { s.print (String.ofList cs) with lacks := true }
  else s.print (String.ofList cs ++ "\n")

/-- What was to be printed behind the line is printed. -/
def flush (s : Sheet) : Sheet :=
  let s' := s.later.foldl (fun s t => s.print t) s
  { s' with later := [] }

/-- The next line takes the place of this one. -/
def advance? (s : Sheet) : Option Sheet :=
  match s.rest with
  | [] => none
  | l :: r => some { s with line := l, rest := r, number := s.number + 1 }

/-- The expression of a search, which is used from now on. -/
def regex (q : Search) (s : Sheet) : Option Regex × Sheet :=
  match q.regex with
  | some r => (some r, { s with used := some r })
  | none => (s.used, { s with failed := s.failed || s.used.isNone })

/-- Whether a line matches. -/
def found (q : Search) (s : Sheet) : Bool × Sheet :=
  match s.regex q with
  | (some r, s) =>
    let longest := Regex.longest? q.fold (fun _ _ => true) s.line r
    ((Regex.find? longest (Regex.Place.before s.line)).isSome, s)
  | (none, s) => (false, s)

/-- Whether a line is at an address. -/
def isAt (a : Address) (s : Sheet) : Bool × Sheet :=
  match a with
  | .line n => (s.number = n, s)
  | .last => (s.rest.isEmpty, s)
  | .every first step => (first ≤ s.number && (s.number - first) % step = 0, s)
  | .found q => s.found q

end Sheet

/-! ## Where steps are done -/

/-- Whether a range that has started holds a line, and what becomes of it. -/
def goesOn (i : Nat) (f : Limit) (known : Option Nat) (s : Sheet) : Bool × Sheet :=
  let ended (s : Sheet) : Sheet := { s with ranges := s.ranges.filter fun r => r.1 ≠ i }
  match known, f with
  | some n, _ => (s.number ≤ n, if n ≤ s.number then ended s else s)
  | none, .at a =>
    let (yes, s) := s.isAt a
    (true, if yes then ended s else s)
  | none, _ => (true, ended s)

/-- Whether a line starts a range, and what becomes of the range. -/
def starts (i : Nat) (a : Address) (f : Limit) (s : Sheet) : Bool × Sheet :=
  let (yes, s) := s.isAt a
  let open' (known : Option Nat) : Sheet := { s with ranges := (i, known) :: s.ranges }
  if !yes then (false, s)
  else
    match f with
    | .at (.line n) => (true, if s.number < n then open' (some n) else s)
    | .more n => (true, if n = 0 then s else open' (some (s.number + n)))
    | .multiple n => (true, if n = 0 then s else open' (some ((s.number / n + 1) * n)))
    | .at .last => (true, if s.rest.isEmpty then s else open' none)
    | .at _ => (true, open' none)

/-- Whether a step is done on a line. -/
def isHere (i : Nat) (p : Step) (s : Sheet) : Bool × Sheet :=
  let (yes, s) : Bool × Sheet :=
    match p.first, p.last with
    | none, _ => (true, s)
    | some a, none => s.isAt a
    | some a, some f =>
      match s.ranges.lookup i with
      | some known =>
        let (yes, s') := goesOn i f known s
        if yes then (yes, s') else starts i a f s'
      | none =>
        match a with
        | .line 0 => if s.number = 1 then goesOn i f none { s with ranges := (i, none) :: s.ranges }
          else (false, s)
        | a => starts i a f s
  (yes != p.inverted, s)

/-! ## Changes -/

/-- How letters are changed: until further notice, and the next one. -/
structure Case where
  /-- Until further notice. -/
  always : Char := 'E'
  /-- The next one. -/
  next : Char := 'E'

/-- Some characters in a case. -/
def Case.apply (k : Case) (cs : List Char) : List Char × Case :=
  let all := if k.always = 'U' then cs.map Char.toUpper
    else if k.always = 'L' then cs.map Char.toLower else cs
  match all with
  | [] => ([], k)
  | c :: r =>
    let c := if k.next = 'u' then c.toUpper else if k.next = 'l' then c.toLower else c
    (c :: r, { k with next := 'E' })

/-- What takes the place of a match. -/
def filled (text : List Char) (m : Regex.Place × Regex.Place) (k : Case) : List Part → List Char
  | [] => []
  | .char c :: ps => let (cs, k) := k.apply [c]; cs ++ filled text m k ps
  | .group n :: ps =>
    let (cs, k) := k.apply (Regex.part text m n)
    cs ++ filled text m k ps
  | .case c :: ps =>
    let k : Case := if c = 'u' || c = 'l' then { k with next := c } else ⟨c, 'E'⟩
    filled text m k ps

/-- A text with matches changed, from some place on. -/
def replaced (text : List Char) (parts : List Part) (from' : Nat) :
    List (Regex.Place × Regex.Place) → List Char
  | [] => text.drop from'
  | m :: ms =>
    (text.take m.1.index).drop from' ++ filled text m { } parts ++ replaced text parts m.2.index ms

/-- A line with matches changed, if there are any. -/
def changed (c : Change) (s : Sheet) : Option (List Char) × Sheet :=
  match s.regex c.search with
  | (none, s) => (none, s)
  | (some r, s) =>
    let longest := Regex.longest? c.search.fold (fun _ _ => true) s.line r
    let ms := (Regex.allIn longest s.line).drop (c.first - 1)
    let ms := if c.all then ms else ms.take 1
    (if ms.isEmpty then none else some (replaced s.line c.parts 0 ms), s)

/-! ## Steps -/

/-- A line is added to a file. -/
def written (file : String) (s : Sheet) : Sheet :=
  if file = "/dev/stdout" then s.printLine s.line
  else
    let old := (s.files.lookup file).getD ""
    { s with files := (file, old ++ String.ofList s.line ++ "\n") ::
      s.files.filter fun f => f.1 ≠ file }

/-- A character that can be told apart from all others. -/
def distinct (c : Char) : List Char :=
  match c with
  | '\\' => ['\\', '\\']
  | '\x07' => ['\\', 'a']
  | '\x08' => ['\\', 'b']
  | '\x0c' => ['\\', 'f']
  | '\n' => ['\\', 'n']
  | '\r' => ['\\', 'r']
  | '\t' => ['\\', 't']
  | '\x0b' => ['\\', 'v']
  | c => [c]

/-- The number of the step behind the end of a block; `depth` blocks are open. -/
def behindBlock (depth i : Nat) : List Step → Nat
  | [] => i
  | p :: ps =>
    match p.verb with
    | .opening => behindBlock (depth + 1) (i + 1) ps
    | .closing => if depth = 0 then i + 1 else behindBlock (depth - 1) (i + 1) ps
    | _ => behindBlock depth (i + 1) ps

/-- The number of the step with a label. -/
def labelled (name : String) (ps : List Step) : Nat :=
  ps.findIdx fun p => match p.verb with | .label n => n = name | _ => false

/-- What a step with a letter does. -/
def simple (quiet : Bool) (c : Char) (s : Sheet) : Sheet × Course :=
  let first := s.line.takeWhile (· ≠ '\n')
  let behind := s.line.drop (first.length + 1)
  match c with
  | '=' => (s.print (toString s.number ++ "\n"), .next)
  | 'd' => (s, .drop)
  | 'D' =>
    if s.line.contains '\n' then ({ s with line := behind }, .again) else (s, .drop)
  | 'g' => ({ s with line := s.held }, .next)
  | 'G' => ({ s with line := s.line ++ '\n' :: s.held }, .next)
  | 'h' => ({ s with held := s.line }, .next)
  | 'H' => ({ s with held := s.held ++ '\n' :: s.line }, .next)
  | 'x' => ({ s with held := s.line, line := s.held }, .next)
  | 'z' => ({ s with line := [] }, .next)
  | 'p' => (s.printLine s.line, .next)
  | 'P' => (s.print (String.ofList first ++ "\n"), .next)
  | 'F' => (s.print "-\n", .next)
  | 'l' => (s.print (String.ofList (s.line.flatMap distinct) ++ "$\n"), .next)
  | 'n' =>
    if s.rest.isEmpty then (s, .stop true)
    else
      let s := (if quiet then s else s.printLine s.line).flush
      ((s.advance?).getD s, .next)
  | 'N' =>
    if s.rest.isEmpty then (s, .stop true)
    else
      let s := s.flush
      let s' := (s.advance?).getD s
      ({ s' with line := s.line ++ '\n' :: s'.line }, .next)
  | _ => (s, .next)

/-- What a step does; `ends` holds on the last line of its range. -/
def perform (quiet : Bool) (steps : List Step) (p : Step) (ends : Bool) (s : Sheet) :
    Sheet × Course :=
  let go (name : String) : Course :=
    if name = "" then .cycle else .to (labelled name steps)
  match p.verb with
  | .opening | .closing | .label _ => (s, .next)
  | .change c =>
    match changed c s with
    | (none, s) => (s, .next)
    | (some cs, s) =>
      let s := { s with line := cs, changed := true }
      let s := if c.prints then s.printLine s.line else s
      (match c.file with | some f => written f s | none => s, .next)
  | .translate pairs =>
    ({ s with line := s.line.map fun c => (pairs.lookup c).getD c }, .next)
  | .append t => ({ s with later := s.later ++ [t] }, .next)
  | .insert t => (s.print t, .next)
  | .replace t => (if ends then s.print t else s, .drop)
  | .branch none name => (s, go name)
  | .branch (some true) name =>
    if s.changed then ({ s with changed := false }, go name) else (s, .next)
  | .branch (some false) name =>
    if s.changed then ({ s with changed := false }, .next) else (s, go name)
  | .quit prints status => ({ s with status := status % 256 }, .stop prints)
  | .read _ => (s, .next)
  | .write f => (written f s, .next)
  | .simple c => simple quiet c s

/-! ## Scripts -/

/-- A script on all lines from step `i` on; each of `n` steps of the program takes one of them. -/
def run (quiet : Bool) (read : String → String) (steps : List Step) : Nat → Nat → Sheet → Sheet
  | 0, _, s => s
  | n + 1, i, s =>
    let print (s : Sheet) : Sheet := if quiet then s else s.printLine s.line
    let next (s : Sheet) : Sheet :=
      match s.advance? with
      | some s => run quiet read steps n 0 { s with changed := false }
      | none => s
    if s.failed then s
    else
      match steps[i]? with
      | none => next (print s).flush
      | some p =>
        let (yes, s) := isHere i p s
        if s.failed then s
        else if !yes then
          match p.verb with
          | .opening => run quiet read steps n (behindBlock 0 (i + 1) (steps.drop (i + 1))) s
          | _ => run quiet read steps n (i + 1) s
        else
          let ends := p.last.isNone || p.inverted || (s.ranges.lookup i).isNone
          let s := match p.verb with
            | .read f =>
              let t := read f
              { s with later := if t = "" then s.later else s.later ++ [t] }
            | _ => s
          let (s, course) := perform quiet steps p ends s
          match course with
          | .next => run quiet read steps n (i + 1) s
          | .to i => run quiet read steps n i s
          | .cycle => next (print s).flush
          | .drop => next s.flush
          | .again => run quiet read steps n 0 s.flush
          | .stop prints => (if prints then print s else s).flush

/-- A script on a text. -/
def onText (quiet : Bool) (read : String → String) (steps : List Step) (t : String) : Sheet :=
  let ps := Excerpt.pieces t
  let s : Sheet :=
    { rest := (linesOf t).map String.toList
      open' := ps.getLast?.any fun p => !p.endsWith "\n" }
  match s.advance? with
  | none => s
  | some s => run quiet read steps 100000 0 s

/-! ## The program -/

/-- The options of the program. -/
def known : Known :=
  { plain := "nErsuzi", valued := "efl"
    long := [("quiet", 'n'), ("silent", 'n'), ("regexp-extended", 'E'), ("expression", 'e'),
      ("file", 'f'), ("separate", 's'), ("unbuffered", 'u'), ("null-data", 'z'), ("in-place", 'i'),
      ("line-length", 'l')] }

/-- Where a character stands among some texts, a line apart: the number of the text, and the
number of characters in it. -/
def located (i k : Nat) : List String → Nat × Nat
  | [] => (i, k)
  | [_] => (i, k)
  | t :: ts =>
    if k ≤ t.length + 1 then (i, min k t.length) else located (i + 1) (k - t.length - 1) ts

/-- A complaint about a script. -/
def complaint (expressions : List String) (f : Flaw) : Reply :=
  let script := String.intercalate "\n" expressions
  let (i, k) := match f.left with
    | some left => located 1 (script.length - left) expressions
    | none => (1, 0)
  refuse 1 "sed" ("-e expression #" ++ toString i ++ ", char " ++ toString k ++ ": " ++ f.text)

/-- A place that a script goes to and does not have. -/
def missing? (steps : List Step) : Option String :=
  (steps.filterMap fun p => match p.verb with
    | .branch _ name => if name ≠ "" && labelled name steps = steps.length then some name else none
    | _ => none).head?

/-- Arguments in which a backup of edited files is not asked for. -/
def withoutBackup (s : String) : String :=
  if s.startsWith "-i" then "-i" else if s.startsWith "--in-place" then "-i" else s

/-- What the program does with a script. -/
def reply (v : View) (g : Given) (expressions files : List String) : Start :=
  let script := String.intercalate "\n" expressions
  match steps? (g.has 'E' || g.has 'r') script with
  | .error f => .reply (complaint expressions f)
  | .ok steps =>
    match missing? steps with
    | some name => .reply (refuse 4 "sed" ("can't find label for jump to \x60" ++ name ++ "'"))
    | none =>
      let quiet := g.has 'n' || script = "#n" || script.startsWith "#n\n"
      let read (p : String) : String := (v.contents? p).getD ""
      let swap (t : String) : String :=
        if g.has 'z' then t.map fun c => if c = '\n' then '\x00' else if c = '\x00' then '\n' else c
        else t
      let done (s : Sheet) (t : String) : Reply :=
        if s.failed then
          complaint expressions ⟨"no previous regular expression", none⟩
        else { out := swap t, files := s.files, status := s.status }
      if g.has 'i' then
        match files with
        | [] => .reply (refuse 4 "sed" "no input files")
        | _ => readAll v files fun ss =>
          let err := Source.complaints (fun p e => "sed: can't read " ++ p ++ ": " ++ e) ss
          let made := ss.filterMap fun s => s.text.toOption.map fun t =>
            (s.name, swap (onText quiet read steps (swap t)).out)
          { err := err, files := made, status := if err.isEmpty then 0 else 2 }
      else readAll v files fun ss =>
        let err := Source.complaints (fun p e =>
          if e = noFile then "sed: can't read " ++ p ++ ": " ++ e
          else "sed: read error on " ++ p ++ ": " ++ e) ss
        let broken := ss.any fun s =>
          match s.text with
          | .ok _ => false
          | .error e => e ≠ noFile
        let texts := ss.filterMap fun s => s.text.toOption
        let ends (t : String) : String := if t.isEmpty || t.endsWith "\n" then t else t ++ "\n"
        let t := (texts.dropLast.map ends).foldl (· ++ ·) "" ++ texts.getLast?.getD ""
        let s := onText quiet read steps (swap t)
        let r := done s s.out
        { r with
          err := err ++ r.err
          early := true
          status := if broken then 4 else if r.status = 0 && !err.isEmpty then 2 else r.status }

end Editor

open Editor in
/-- **The program `sed`.** -/
def edited (v : View) (args : List String) : Start :=
  match Given.ofList? known (args.map withoutBackup) with
  | .error e => .reply (refuse 1 "sed" e)
  | .ok g =>
    let lost := (g.values 'f').find? fun p => (v.kind? p).isNone
    match lost with
    | some p => .reply (refuse 4 "sed" ("couldn't open file " ++ p ++ ": " ++ noFile))
    | none =>
      let given := g.options.filterMap fun o =>
        if o.1 = 'e' then some o.2
        else if o.1 = 'f' then some ((v.contents? o.2).getD "") else none
      if given.isEmpty then
        match g.rest with
        | [] => .reply { status := 1 }
        | t :: files => reply v g [t] files
      else reply v g given g.rest

end MemoFlow.Shell
