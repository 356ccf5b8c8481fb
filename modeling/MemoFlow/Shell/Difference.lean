import MemoFlow.Shell.Excerpt

/-!
# Differences of files

The programs `cmp` and `diff`.

* `Difference.table`: the lengths of the longest common parts of two lists of lines;
* `Difference.Edit`, `Difference.edits`: lines that stay, go and come;
* `Difference.hunks`: the edits in the usual form;
* **`Shell.compared`**, `Shell.differences`: the programs.
-/

namespace MemoFlow.Shell

namespace Difference

/-! ## Lines -/

/-- What becomes of a line. -/
inductive Edit where
  /-- It stays. -/
  | keep (l : String)
  /-- It goes. -/
  | drop (l : String)
  /-- It comes. -/
  | add (l : String)

/-- The lengths of longest common parts of a list behind a line and the ends of another list, from
those of the list itself. -/
def nextRow (a : String) : List String → List Nat → List Nat
  | b :: bs, here :: diagonal :: r =>
    let rest := nextRow a bs (diagonal :: r)
    let best := if a = b then diagonal + 1 else max here (rest.head?.getD 0)
    best :: rest
  | _, _ => [0]

/-- For each end of a list, the lengths of its longest common parts with the ends of another. -/
def table (bs : List String) : List String → List (List Nat)
  | [] => [List.replicate (bs.length + 1) 0]
  | a :: as =>
    let t := table bs as
    nextRow a bs (t.head?.getD []) :: t

/-- The edits that make one list of another, by the table of common lengths. -/
def editsFrom : Nat → List (List Nat) → List String → List String → List Edit
  | 0, _, _, _ => []
  | _, _, [], bs => bs.map .add
  | _, _, as, [] => as.map .drop
  | n + 1, t, a :: as, b :: bs =>
    let below := (t.drop 1).map id
    let beside := t.map (List.drop 1)
    if a = b then .keep a :: editsFrom n (below.map (List.drop 1)) as bs
    else
      let down := (below.head?.bind List.head?).getD 0
      let right := (beside.head?.bind List.head?).getD 0
      if right ≤ down then .drop a :: editsFrom n below as (b :: bs)
      else .add b :: editsFrom n beside (a :: as) bs

/-- The edits that make one list of another. -/
def edits (as bs : List String) : List Edit :=
  editsFrom (as.length + bs.length + 1) (table bs as) as bs

/-! ## The usual form -/

/-- The numbers of some lines. -/
def span (first count : Nat) : String :=
  if count ≤ 1 then toString first else toString first ++ "," ++ toString (first + count - 1)

/-- A line with a sign before it, and a note when its end is missing. -/
def row (sign : String) (l : String) : String :=
  if l.endsWith "\n" then sign ++ l
  else sign ++ l ++ "\n\\ No newline at end of file\n"

/-- One change: lines that go and come, behind some numbers of lines. -/
def hunk (i j : Nat) (gone come : List String) : String :=
  if gone.isEmpty && come.isEmpty then ""
  else
    let letter := if gone.isEmpty then "a" else if come.isEmpty then "d" else "c"
    let left := if gone.isEmpty then toString i else span (i + 1) gone.length
    let right := if come.isEmpty then toString j else span (j + 1) come.length
    left ++ letter ++ right ++ "\n" ++ Excerpt.glue (gone.map (row "< ")) ++
      (if gone.isEmpty || come.isEmpty then "" else "---\n") ++
      Excerpt.glue (come.map (row "> "))

/-- The changes, behind `i` and `j` lines, with those lines that go and come so far. -/
def hunks (i j : Nat) (gone come : List String) : List Edit → String
  | [] => hunk i j gone.reverse come.reverse
  | .drop l :: es => hunks i j (l :: gone) come es
  | .add l :: es => hunks i j gone (l :: come) es
  | .keep _ :: es =>
    hunk i j gone.reverse come.reverse ++
      hunks (i + gone.length + 1) (j + come.length + 1) [] [] es

/-! ## Characters -/

/-- Where two texts differ: how many characters and lines come before, and whether one of them ends
there. -/
def place (n line : Nat) : List Char → List Char → Option (Nat × Nat × Option Bool)
  | [], [] => none
  | [], _ :: _ => some (n, line, some true)
  | _ :: _, [] => some (n, line, some false)
  | a :: as, b :: bs =>
    if a = b then place (n + 1) (if a = '\n' then line + 1 else line) as bs
    else some (n, line, none)

/-- The options of the program `diff`. -/
def known : Known :=
  { plain := "abBcdeinNpqrsTtuwyZEl", valued := "CUWxI"
    long := [("brief", 'q'), ("report-identical-files", 's'), ("unified", 'u'), ("recursive", 'r'),
      ("ignore-case", 'i'), ("ignore-all-space", 'w'), ("ignore-space-change", 'b'),
      ("ignore-blank-lines", 'B'), ("new-file", 'N'), ("text", 'a')] }

/-- A line as it is compared. -/
def ready (g : Given) (l : String) : String :=
  let cs := l.toList
  let cs := if g.has 'w' then cs.filter fun c => !(isSpace c && c ≠ '\n') else cs
  String.ofList (if g.has 'i' then cs.map Char.toLower else cs)

end Difference

open Difference in
/-- **The program `cmp`.** -/
def compared (v : View) (args : List String) : Start :=
  let hint (t : String) : Start :=
    .reply { status := 2, err := "cmp: " ++ t ++ "\ncmp: Try 'cmp --help' for more information.\n" }
  match Given.ofList? ⟨"bls", "in", [("silent", 's'), ("quiet", 's')], false⟩ args with
  | .error e => hint e
  | .ok g =>
    let paths := match g.rest with
      | [p] => [p, "-"]
      | ps => ps
    match paths with
    | [p, q] => readAll v [p, q] fun ss =>
      let err := Source.complaints (fun p e => "cmp: " ++ p ++ ": " ++ e) ss
      let texts := ss.map fun s => (s.text.toOption.getD "").toList
      let short (cs : List Char) : List Char :=
        match (g.value? 'n').bind String.toNat? with
        | some n => cs.take n
        | none => cs
      match err.isEmpty, texts with
      | true, [a, b] =>
        match place 0 1 (short a) (short b) with
        | none => { }
        | some (n, line, none) =>
          { status := 1
            out := if g.has 's' then "" else
              p ++ " " ++ q ++ " differ: char " ++ toString (n + 1) ++
              ", line " ++ toString line ++ "\n" }
        | some (n, line, some first) =>
          let t := if first then a else b
          let where' := if t.isEmpty then " which is empty"
            else " after byte " ++ toString n ++ ", " ++
              (if t.getLast? = some '\n' then "line " ++ toString (line - 1)
                else "in line " ++ toString line)
          { status := 1
            err := if g.has 's' then "" else
              "cmp: EOF on " ++ (if first then p else q) ++ where' ++ "\n" }
      | _, _ => { status := 2, err := if g.has 's' then "" else err }
    | [] => hint "missing operand after 'cmp'"
    | _ :: _ :: c :: _ => hint ("extra operand " ++ inQuotes c)
    | _ => hint "missing operand"

open Difference in
/-- The program `diff`. -/
def differences (v : View) (args : List String) : Start :=
  let hint (t : String) : Start :=
    .reply
      { status := 2, err := "diff: " ++ t ++ "\ndiff: Try 'diff --help' for more information.\n" }
  match Given.ofList? known args with
  | .error e => hint e
  | .ok g =>
    match g.rest with
    | [] => hint "missing operand after 'diff'"
    | [p] => hint ("missing operand after " ++ inQuotes p)
    | [p, q] =>
      let isFolder (p : String) : Bool := v.kind? p = some .folder
      let inside (home p : String) : String := home ++ "/" ++ baseName p
      let p' := if isFolder p && !isFolder q then inside p q else p
      let q' := if isFolder q && !isFolder p then inside q p else q
      readAll v [p', q'] fun ss =>
        if isFolder p && isFolder q then { }
        else
          let err := Source.complaints (fun p e => "diff: " ++ p ++ ": " ++ e) ss
          match err.isEmpty, ss.map fun s => s.text.toOption.getD "" with
          | true, [a, b] =>
            let as := Excerpt.pieces a
            let bs := Excerpt.pieces b
            if as.map (ready g) = bs.map (ready g) then
              { out :=
                  if g.has 's' then "Files " ++ p ++ " and " ++ q ++ " are identical\n" else "" }
            else if g.has 'q' then
              { status := 1, out := "Files " ++ p ++ " and " ++ q ++ " differ\n" }
            else { status := 1, out := hunks 0 0 [] [] (edits as bs) }
          | _, _ => { status := 2, err := err }
    | _ :: _ :: c :: _ => hint ("extra operand " ++ inQuotes c)

end MemoFlow.Shell
