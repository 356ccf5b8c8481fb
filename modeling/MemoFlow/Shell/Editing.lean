import MemoFlow.Shell.Match

/-!
# Scripts that edit lines

* `Editing.Address`, `Editing.Verb`, **`Editing.Step`**: a step of a script, where it is done and
  what it does;
* `Editing.Flaw`: what is wrong with a script, and where;
* `Editing.upTo`: a text up to the sign that ends it;
* `Editing.replacement`: what takes the place of a match;
* **`Editing.steps?`**: the steps of a script.
-/

namespace MemoFlow.Shell

namespace Editing

/-- An expression; none stands for the one that was used last. -/
structure Search where
  /-- The expression. -/
  regex : Option Regex
  /-- Whether case does not matter. -/
  fold : Bool := false

/-- Lines where a step is done, or where it starts to be done. -/
inductive Address where
  /-- A line by its number. -/
  | line (n : Nat)
  /-- The last line. -/
  | last
  /-- A line and every so many after it. -/
  | every (first step : Nat)
  /-- Lines that match. -/
  | found (s : Search)

/-- The last line of a range. -/
inductive Limit where
  /-- A line. -/
  | at (a : Address)
  /-- So many lines further on. -/
  | more (n : Nat)
  /-- The next line whose number is a multiple. -/
  | multiple (n : Nat)

/-- A part of what takes the place of a match. -/
inductive Part where
  /-- A character. -/
  | char (c : Char)
  /-- A part that is remembered; number 0 is the whole match. -/
  | group (n : Nat)
  /-- A change of case for what follows. -/
  | case (c : Char)

/-- A change of matches. -/
structure Change where
  /-- What is searched. -/
  search : Search
  /-- What takes its place. -/
  parts : List Part
  /-- The number of the first match that is changed. -/
  first : Nat := 1
  /-- Whether all matches behind it are changed. -/
  all : Bool := false
  /-- Whether a changed line is printed. -/
  prints : Bool := false
  /-- A file that gets changed lines. -/
  file : Option String := none

/-- What a step does. -/
inductive Verb where
  /-- Start a block. -/
  | opening
  /-- End a block. -/
  | closing
  /-- Change matches. -/
  | change (c : Change)
  /-- Change single characters. -/
  | translate (pairs : List (Char × Char))
  /-- Print a text later. -/
  | append (t : String)
  /-- Print a text at once. -/
  | insert (t : String)
  /-- Print a text in place of lines. -/
  | replace (t : String)
  /-- A place that can be gone to. -/
  | label (name : String)
  /-- Go to a place, or to the end: always, after a change, or without one. -/
  | branch (when' : Option Bool) (name : String)
  /-- End with a status, after printing or without. -/
  | quit (prints : Bool) (status : Nat)
  /-- Print a file later. -/
  | read (file : String)
  /-- Write the line to a file. -/
  | write (file : String)
  /-- Another step by its letter. -/
  | simple (c : Char)

/-- A step of a script. -/
structure Step where
  /-- Where it is done, or starts to be done. -/
  first : Option Address
  /-- Where it ends. -/
  last : Option Limit
  /-- Whether it is done everywhere else. -/
  inverted : Bool
  /-- What it does. -/
  verb : Verb

/-- What is wrong with a script, and how many characters are left there. -/
structure Flaw where
  /-- What is wrong. -/
  text : String
  /-- The number of characters that are left; none when the place does not matter. -/
  left : Option Nat

/-- A flaw at some place. -/
def flaw {α : Type} (t : String) (left : List Char) : Except Flaw α := .error ⟨t, some left.length⟩

/-! ## Texts -/

/-- What is read of brackets. -/
inductive Inside where
  /-- Nothing. -/
  | outside
  /-- Their first character is next. -/
  | first
  /-- Their first character after a sign that inverts them is next. -/
  | second
  /-- Some of their characters. -/
  | later
  /-- The name of a class, up to a character. -/
  | named (c : Char)
deriving DecidableEq

/-- What is read of brackets behind one more character; `next` is the one after it. -/
def Inside.step (c : Char) (next : Option Char) (i : Inside) : Inside :=
  let within : Inside :=
    if c = '[' && (next = some ':' || next = some '.' || next = some '=') then
      .named (next.getD ':')
    else .later
  match i with
  | .outside => if c = '[' then .first else .outside
  | .first => if c = '^' then .second else within
  | .second => within
  | .later => if c = ']' then .outside else within
  | .named k => if c = k && next = some ']' then .later else .named k

/-- A text up to the sign that ends it, and what follows it; what is left when there is none. In an
expression a sign in brackets stands for itself. -/
def upTo (sign : Char) (regex : Bool) (inside : Inside) :
    List Char → Except (List Char) (List Char × List Char)
  | [] => .error []
  | '\n' :: r => .error ('\n' :: r)
  | '\\' :: c :: r => do
    let next : Inside :=
      if inside = .outside || c = ']' then .outside else .later
    let (t, r) ← upTo sign regex next r
    if c = sign && inside = .outside && (regex || c ≠ '&') then return (c :: t, r)
    else if c = 'n' && regex then return ('\n' :: t, r)
    else return ('\\' :: c :: t, r)
  | c :: r => do
    if c = sign && inside = .outside then return ([], r)
    else
      let next := if regex then inside.step c r.head? else .outside
      let (t, r) ← upTo sign regex next r
      return (c :: t, r)

/-- The value of a digit. -/
def digit (c : Char) : Nat :=
  if c.isDigit then c.toNat - 48 else (c.toLower.toNat - 87)

/-- A character by its number in some base, after a letter behind a backslash. -/
def numbered? (c : Char) (r : List Char) : Option (Char × List Char) :=
  let (base, most, isDigit) : Nat × Nat × (Char → Bool) :=
    match c with
    | 'x' => (16, 2, inClass "xdigit")
    | 'd' => (10, 3, Char.isDigit)
    | 'o' => (8, 3, fun c => decide ('0' ≤ c) && decide (c ≤ '7'))
    | _ => (1, 0, fun _ => false)
  let ds := (r.take most).takeWhile isDigit
  if ds.isEmpty then none
  else some (Char.ofNat (ds.foldl (fun n d => base * n + digit d) 0 % 256), r.drop ds.length)

/-- A text with signs for characters spelt out; signs in `special` get a backslash. -/
def spelt (special : String) : Nat → List Char → List Char
  | 0, cs => cs
  | n + 1, '\\' :: c :: r =>
    match c with
    | 't' => '\t' :: spelt special n r
    | 'f' => '\x0c' :: spelt special n r
    | 'v' => '\x0b' :: spelt special n r
    | 'a' => '\x07' :: spelt special n r
    | 'r' => '\r' :: spelt special n r
    | c =>
      match numbered? c r with
      | some (d, r) =>
        (if special.contains d then ['\\', d] else [d]) ++ spelt special n r
      | none => '\\' :: c :: spelt special n r
  | n + 1, c :: r => c :: spelt special n r
  | _, [] => []

/-- What takes the place of a match. -/
def replacement : List Char → List Part
  | '\\' :: c :: r =>
    (if c.isDigit then .group (c.toNat - 48)
      else if c = 'n' then .char '\n'
      else if "LUEul".contains c then .case c
      else .char c) :: replacement r
  | '&' :: r => .group 0 :: replacement r
  | c :: r => .char c :: replacement r
  | [] => []

/-- The characters of a text for single changes. -/
def letters : List Char → List Char
  | '\\' :: c :: r => (if c = 'n' then '\n' else c) :: letters r
  | c :: r => c :: letters r
  | [] => []

/-- The text behind a step that prints it, up to the end of a line without a backslash. -/
def textLine : List Char → List Char × List Char
  | [] => ([], [])
  | '\n' :: r => ([], r)
  | '\\' :: c :: r => let (t, r) := textLine r; (c :: t, r)
  | ['\\'] => ([], [])
  | c :: r => let (t, r) := textLine r; (c :: t, r)

/-- Whether a character is a blank in a line. -/
def isBlank (c : Char) : Bool := c = ' ' || c = '\t'

/-! ## Addresses -/

/-- An expression with signs spelt out; an empty one stands for the last one. -/
def search? (extended fold : Bool) (cs left : List Char) : Except Flaw Search :=
  if cs.isEmpty then .ok ⟨none, fold⟩
  else
    match Regex.ofText? ⟨extended, false, extended⟩ (spelt ".*[]^$\\/" cs.length cs) with
    | .ok r => .ok ⟨some r, fold⟩
    | .error e => flaw e left

/-- An address, when there is one. -/
def address? (extended : Bool) (cs : List Char) : Except Flaw (Option Address × List Char) := do
  let searched (sign : Char) (r : List Char) : Except Flaw (Option Address × List Char) :=
    match upTo sign true .outside r with
    | .error left => flaw "unterminated address regex" left
    | .ok (t, r) => do
      let flags := r.takeWhile fun c => c = 'I' || c = 'M'
      let r := r.drop flags.length
      return (some (.found (← search? extended (flags.contains 'I') t r)), r)
  match cs with
  | '/' :: r => searched '/' r
  | '\\' :: c :: r => searched c r
  | '$' :: r => return (some .last, r)
  | cs =>
    match Regex.number cs with
    | (none, _) => return (none, cs)
    | (some n, r) =>
      match r.dropWhile isBlank with
      | '~' :: r =>
        let (k, r) := Regex.number (r.dropWhile isBlank)
        return (some (if k.getD 0 = 0 then .line n else .every n (k.getD 0)), r)
      | _ => return (some (.line n), r)

/-- The end of a range. -/
def finish? (extended : Bool) (cs : List Char) : Except Flaw (Limit × List Char) := do
  let counted (f : Nat → Limit) (r : List Char) : Limit × List Char :=
    let (n, r) := Regex.number r
    (f (n.getD 0), r)
  match cs with
  | '+' :: r => return counted .more r
  | '~' :: r => return counted .multiple r
  | cs =>
    match ← address? extended cs with
    | (some a, r) => return (.at a, r)
    | (none, r) => flaw "unexpected \x60,'" (r.drop 1)

/-! ## Steps -/

/-- What follows a step: the end of a line, another step or the end of a block. -/
def ended? (cs : List Char) : Except Flaw (List Char) :=
  match cs.dropWhile isBlank with
  | [] => .ok []
  | '\n' :: r | ';' :: r => .ok r
  | c :: r => if c = '}' || c = '#' then .ok (c :: r) else flaw "extra characters after command" r

/-- The letters behind a change. -/
def flags? (c : Change) (fold : Bool) (counted : Bool) :
    Nat → List Char → Except Flaw (Change × Bool × List Char)
  | 0, cs => .ok (c, fold, cs)
  | n + 1, cs =>
    match cs with
    | [] => .ok (c, fold, [])
    | '\n' :: r | ';' :: r => .ok (c, fold, r)
    | '}' :: _ | '#' :: _ => .ok (c, fold, cs)
    | 'i' :: r | 'I' :: r => flags? c true counted n r
    | 'm' :: r | 'M' :: r | 'e' :: r | ' ' :: r => flags? c fold counted n r
    | 'g' :: r =>
      if c.all then flaw "multiple \x60g' options to \x60s' command" r
      else flags? { c with all := true } fold counted n r
    | 'p' :: r =>
      if c.prints then flaw "multiple \x60p' options to \x60s' command" r
      else flags? { c with prints := true } fold counted n r
    | 'w' :: r =>
      let name := (r.dropWhile isBlank).takeWhile (· ≠ '\n')
      if name.isEmpty then flaw "missing filename in r/R/w/W commands" []
      else .ok ({ c with file := some (String.ofList name) }, fold,
        ((r.dropWhile isBlank).dropWhile (· ≠ '\n')).drop 1)
    | d :: r =>
      match Regex.number (d :: r) with
      | (none, _) => flaw "unknown option to \x60s'" r
      | (some k, r) =>
        if counted then flaw "multiple number options to \x60s' command" r
        else if k = 0 then flaw "number option to \x60s' command may not be zero" r
        else flags? { c with first := k } fold true n r

/-- The largest number of a part that is remembered. -/
def highest (ps : List Part) : Nat :=
  ps.foldl (fun n p => match p with | .group k => max n k | _ => n) 0

/-- A change behind its letter. -/
def change? (extended : Bool) : List Char → Except Flaw (Verb × List Char)
  | [] => flaw "unterminated \x60s' command" []
  | sign :: r => do
    let open' {α : Type} (left : List Char) : Except Flaw α :=
      flaw "unterminated \x60s' command" left
    match upTo sign true .outside r with
    | .error left => open' left
    | .ok (t, r) =>
      match upTo sign false .outside r with
      | .error left => open' (if left.isEmpty then [] else left)
      | .ok (u, r) =>
        let parts := replacement (spelt "&\\" u.length u)
        let (c, fold, r) ← flags? ⟨⟨none, false⟩, parts, 1, false, false, none⟩ false false
          (r.length + 1) r
        let s ← search? extended fold t r
        let groups := match s.regex with | some e => e.groups | none => 9
        if groups < highest parts then
          flaw ("invalid reference \\" ++ toString (highest parts) ++ " on \x60s' command's RHS") r
        return (.change { c with search := s }, r)

/-- Changes of single characters behind their letter. -/
def translate? : List Char → Except Flaw (Verb × List Char)
  | [] => flaw "unterminated \x60y' command" []
  | sign :: r => do
    let open' {α : Type} (left : List Char) : Except Flaw α :=
      flaw "unterminated \x60y' command" left
    match upTo sign false .outside r with
    | .error left => open' left
    | .ok (t, r) =>
      match upTo sign false .outside r with
      | .error left => open' left
      | .ok (u, r) =>
        let a := letters (spelt "\\" t.length t)
        let b := letters (spelt "\\" u.length u)
        if a.length ≠ b.length then
          flaw "strings for \x60y' command are different lengths" r
        return (.translate (a.zip b), ← ended? r)

/-- A text that is printed, behind the letter of its step. -/
def text? (verb : String → Verb) (cs : List Char) : Except Flaw (Verb × List Char) :=
  match cs.dropWhile isBlank with
  | [] => flaw "expected \\ after \x60a', \x60c' or \x60i'" []
  | '\\' :: r =>
    let r := match r.dropWhile isBlank with
      | '\n' :: r => r
      | _ => r
    done r
  | r => done r
where
  done (r : List Char) : Except Flaw (Verb × List Char) :=
    let (t, left) := textLine r
    .ok (verb (if r.isEmpty then "" else String.ofList t ++ "\n"), left)

/-- The name of a place, and what follows it. -/
def name (cs : List Char) : String × List Char :=
  let r := cs.dropWhile isBlank
  let n := r.takeWhile fun c => !(c = ';' || c = '\n' || isBlank c || c = '}')
  (String.ofList n, r.drop n.length)

/-- What a step does, by its letter and what is behind it. -/
def verb? (extended addressed : Bool) (c : Char) (r : List Char) :
    Except Flaw (Verb × List Char) := do
  let simple : Except Flaw (Verb × List Char) := do return (.simple c, ← ended? r)
  let branch (when' : Option Bool) : Except Flaw (Verb × List Char) := do
    let (n, r) := name r
    return (.branch when' n, r)
  let filed (f : String → Verb) : Except Flaw (Verb × List Char) := do
    let r := r.dropWhile isBlank
    let n := r.takeWhile (· ≠ '\n')
    if n.isEmpty then flaw "missing filename in r/R/w/W commands" r
    return (f (String.ofList n), r.drop (n.length + 1))
  let quit (prints : Bool) : Except Flaw (Verb × List Char) := do
    let (n, r) := Regex.number (r.dropWhile isBlank)
    return (.quit prints (n.getD 0), ← ended? r)
  match c with
  | '\x7b' => return (.opening, r)
  | '\x7d' => return (.closing, ← ended? r)
  | 's' => change? extended r
  | 'y' => translate? r
  | 'a' => text? .append r
  | 'i' => text? .insert r
  | 'c' => text? .replace r
  | ':' =>
    if addressed then flaw ": doesn't want any addresses" r
    let n := (r.dropWhile isBlank).takeWhile fun c => !(c = ';' || c = '\n' || isBlank c)
    if n.isEmpty then flaw "\":\" lacks a label" r
    return (.label (String.ofList n), (r.dropWhile isBlank).drop n.length)
  | 'b' => branch none
  | 't' => branch (some true)
  | 'T' => branch (some false)
  | 'q' => quit true
  | 'Q' => quit false
  | 'r' => filed .read
  | 'w' => filed .write
  | 'l' => return (.simple c, ← ended? (Regex.number (r.dropWhile isBlank)).2)
  | c =>
    if "=dDgGhHnNpPxzF".contains c then simple
    else flaw ("unknown command: \x60" ++ String.singleton c ++ "'") r

/-- Where a step is done, and what follows that. -/
def place? (extended : Bool) (cs : List Char) :
    Except Flaw (Option Address × Option Limit × List Char) := do
  let (a, r) ← address? extended cs
  match a with
  | none =>
    match cs with
    | '+' :: r | '~' :: r =>
      flaw "invalid usage of +N or ~N as first address" (Regex.number r).2
    | _ => return (none, none, cs)
  | some a =>
    match r.dropWhile isBlank with
    | ',' :: r =>
      let (f, r) ← finish? extended (r.dropWhile isBlank)
      return (some a, some f, r)
    | r => return (some a, none, r)

/-- Whether an address is line 0, where nothing can be done but start a range that matches end. -/
def isZero (a : Option Address) (f : Option Limit) : Bool :=
  match a, f with
  | some (.line 0), some (.at (.found _)) => false
  | some (.line 0), _ => true
  | _, _ => false

/-- The steps of a script; `depth` blocks are open. -/
def stepsFrom (extended : Bool) (depth : Nat) : Nat → List Char → Except Flaw (List Step)
  | 0, _ => .ok []
  | n + 1, cs => do
    match cs.dropWhile fun c => c = ';' || isBlank c || c = '\n' with
    | [] => if depth = 0 then return [] else throw ⟨"unmatched \x60\x7b'", none⟩
    | '#' :: r => stepsFrom extended depth n (r.dropWhile (· ≠ '\n'))
    | cs =>
      let (a, f, r) ← place? extended cs
      let r := r.dropWhile isBlank
      if isZero a f then flaw "invalid usage of line address 0" (r.drop 1)
      let inverted := r.head? = some '!'
      let r := if inverted then (r.drop 1).dropWhile isBlank else r
      match r with
      | [] => flaw "missing command" []
      | c :: r =>
        if c = '!' then flaw "multiple \x60!'s" r
        if c = '}' && depth = 0 then flaw "unexpected \x60\x7d'" r
        if c = '}' && a.isSome then flaw "\x7d doesn't want any addresses" r
        if f.isSome && (c = 'q' || c = 'Q') then flaw "command only uses one address" r
        let (v, r) ← verb? extended a.isSome c r
        let depth := if c = '\x7b' then depth + 1 else if c = '}' then depth - 1 else depth
        return ⟨a, f, inverted, v⟩ :: (← stepsFrom extended depth n r)

/-- **The steps of a script**, or what is wrong with it. -/
def steps? (extended : Bool) (script : String) : Except Flaw (List Step) :=
  stepsFrom extended 0 (2 * script.length + 2) script.toList

end Editing

end MemoFlow.Shell
