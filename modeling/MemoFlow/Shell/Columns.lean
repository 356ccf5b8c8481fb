import MemoFlow.Shell.Excerpt

/-!
# Columns of lines

The programs `cut`, `paste`, `nl`, `fold`, `expand` and `unexpand`.

* `Columns.Span`, `Columns.spans?`: positions in a line;
* `Columns.fields`: the fields of a line;
* **`Shell.columns`**: the program `cut`;
* `Shell.pasted`, `Shell.numberedLines`, `Shell.folded`, `Shell.withTabs`: the other programs.
-/

namespace MemoFlow.Shell

namespace Columns

/-- Positions from one to another, or to the end; they count from one. -/
structure Span where
  /-- The first position. -/
  first : Nat
  /-- The last position. -/
  last : Option Nat

/-- Whether some positions contain one. -/
def holds (spans : List Span) (i : Nat) : Bool :=
  spans.any fun s => s.first ≤ i && s.last.all fun l => i ≤ l

/-- Positions as they are written; `fields` holds for fields. -/
def span? (fields : Bool) (s : String) : Except String Span := do
  let zero := if fields then "fields are numbered from 1"
    else "byte/character positions are numbered from 1"
  let number (cs : List Char) : Except String Nat :=
    match (String.ofList cs).toNat? with
    | some 0 => .error zero
    | some n => .ok n
    | none =>
      .error ("invalid " ++ (if fields then "field value " else "byte or character position ")
        ++ quoted (String.ofList (cs.dropWhile Char.isDigit)))
  let a := s.toList.takeWhile (· ≠ '-')
  match s.toList.drop a.length with
  | [] => if a.isEmpty then throw zero else
    let n ← number a
    return ⟨n, some n⟩
  | _ :: b =>
    if a.isEmpty && b.isEmpty then throw "invalid range with no endpoint: -"
    let first ← if a.isEmpty then pure 1 else number a
    let last ← if b.isEmpty then pure none else (number b).map some
    if last.any fun l => l < first then throw "invalid decreasing range"
    return ⟨first, last⟩

/-- A list of positions. -/
def spans? (fields : Bool) (s : String) : Except String (List Span) :=
  (((s.toList.splitOnP fun c => c = ',' || c = ' ' || c = '\t').map String.ofList)).mapM
    (span? fields)

/-- The fields of a line. -/
def fields (sign : Char) (l : String) : List String :=
  (l.toList.splitOnP (· = sign)).map String.ofList

/-- The items of a list at some positions. -/
def kept {α : Type} (inverse : Bool) (spans : List Span) (xs : List α) : List α :=
  (xs.zipIdx.filter fun p => holds spans (p.2 + 1) != inverse).map Prod.fst

/-- The options of the program `cut`; long names without a letter are told apart by their own. -/
def known : Known :=
  { plain := "nszI", valued := "bcdfO"
    long := [("bytes", 'b'), ("characters", 'c'), ("fields", 'f'), ("delimiter", 'd'),
      ("only-delimited", 's'), ("complement", 'I'), ("output-delimiter", 'O')] }

/-- What is left of a line. -/
def cutLine (g : Given) (spans : List Span) (l : String) : Option String :=
  if g.has 'f' then
    let sign := ((g.value? 'd').bind fun d => d.toList.head?).getD
      (if g.has 'd' then '\x00' else '\t')
    if !l.toList.contains sign then (if g.has 's' then none else some l)
    else
      let sep := (g.value? 'O').getD (String.singleton sign)
      some (String.intercalate sep (kept (g.has 'I') spans (fields sign l)))
  else some (String.ofList (kept (g.has 'I') spans l.toList))

end Columns

open Columns in
/-- **The program `cut`.** -/
def columns (v : View) (args : List String) : Start :=
  let bad (t : String) : Start := .reply (refuseWithHint 1 "cut" t)
  match Given.ofList? known args with
  | .error e => bad e
  | .ok g =>
    let lists := g.options.filter fun o => o.1 = 'b' || o.1 = 'c' || o.1 = 'f'
    match lists with
    | [] => bad "you must specify a list of bytes, characters, or fields"
    | _ :: _ :: _ => bad "only one list may be specified"
    | [(c, list)] =>
      if (g.value? 'd').any fun d => 1 < d.length then
        bad "the delimiter must be a single character"
      else if c ≠ 'f' && g.has 'd' then
        bad "an input delimiter may be specified only when operating on fields"
      else if c ≠ 'f' && g.has 's' then
        bad "suppressing non-delimited lines makes sense\n\tonly when operating on fields"
      else
        match spans? (c = 'f') list with
        | .error e => bad e
        | .ok spans => overFiles v "cut" g.rest fun t =>
          unlines ((linesOf t).filterMap (cutLine g spans))

/-! ## Other programs -/

namespace Columns

/-- Strings with signs between them, which take turns. -/
def interleaved (signs : List Char) : Nat → List String → String
  | _, [] => ""
  | _, [s] => s
  | i, s :: r =>
    let sign := match signs[i % signs.length]? with
      | some c => String.singleton c
      | none => ""
    s ++ sign ++ interleaved signs (i + 1) r

/-- Rows of the lines of several files, as long as one of them has more. -/
def rows : Nat → List (List String) → List (List String)
  | 0, _ => []
  | n + 1, files =>
    if files.all List.isEmpty then []
    else (files.map fun f => f.head?.getD "") :: rows n (files.map (List.drop 1))

/-- The lines of some list dealt to `n` places in turn. -/
def dealt (n : Nat) (ls : List String) : List (List String) :=
  (List.range n).map fun i => (ls.zipIdx.filter fun p => p.2 % n = i).map Prod.fst

/-- A line in parts of some width; parts end behind blanks where they can when `words` holds. -/
def wrapped (words : Bool) (width : Nat) : Nat → List Char → List (List Char)
  | 0, cs => [cs]
  | n + 1, cs =>
    if cs.length ≤ width then [cs]
    else
      let part := cs.take width
      let short := (part.reverse.dropWhile fun c => !(c = ' ' || c = '\t')).reverse
      let part := if words && !short.isEmpty then short else part
      part :: wrapped words width n (cs.drop part.length)

/-- Lines with their numbers; blank ones have none unless `all` holds. -/
def withNumbers (all : Bool) (width : Nat) (sep : String) (step : Nat) :
    Nat → List String → List String
  | _, [] => []
  | n, l :: r =>
    if l.isEmpty && !all then
      String.ofList (List.replicate (width + sep.length) ' ') :: withNumbers all width sep step n r
    else
      (Format.pad false ' ' width (toString n) ++ sep ++ l) ::
        withNumbers all width sep step (n + step) r

end Columns

open Columns in
/-- The program `paste`. -/
def pasted (v : View) (args : List String) : Start :=
  match Given.ofList? ⟨"sz", "d", [("serial", 's'), ("delimiters", 'd')], false⟩ args with
  | .error e => .reply (refuseWithHint 1 "paste" e)
  | .ok g => readAll v g.rest fun ss =>
    let signs := (Format.unescape false ((g.value? 'd').getD "\t")).1.toList
    let err := Source.complaints (fun p e => "paste: " ++ p ++ ": " ++ e) ss
    if !err.isEmpty then { err := err, status := 1 }
    else
      let inputs := (ss.filter fun s => s.name = "-").length
      let shared := ((ss.find? fun s => s.name = "-").bind fun s => s.text.toOption).getD ""
      let hands := dealt inputs (linesOf shared)
      let (files, _) := ss.foldl (fun (p : List (List String) × Nat) s =>
        if s.name = "-" && !g.has 's' then (p.1 ++ [(hands[p.2]?).getD []], p.2 + 1)
        else (p.1 ++ [linesOf (s.text.toOption.getD "")], p.2)) ([], 0)
      let most := files.foldl (fun n f => max n f.length) 0
      { out := unlines (if g.has 's' then files.map (interleaved signs 0)
          else (rows most files).map (interleaved signs 0)) }

open Columns in
/-- The program `nl`. -/
def numberedLines (v : View) (args : List String) : Start :=
  match Given.ofList? { plain := "p", valued := "bdfhilnsvw" } args with
  | .error e => .reply (refuseWithHint 1 "nl" e)
  | .ok g =>
    let number (c : Char) (d : Nat) : Nat := ((g.value? c).bind String.toNat?).getD d
    overFiles v "nl" g.rest fun t =>
      unlines (withNumbers (g.value? 'b' = some "a") (number 'w' 6) ((g.value? 's').getD "\t")
        (number 'i' 1) (number 'v' 1) (linesOf t))

open Columns in
/-- The program `fold`. -/
def folded (v : View) (args : List String) : Start :=
  match Given.ofList? ⟨"bs", "w", [("width", 'w'), ("spaces", 's'), ("bytes", 'b')], false⟩
    args with
  | .error e => .reply (refuseWithHint 1 "fold" e)
  | .ok g =>
    let width := ((g.value? 'w').getD "80").toNat?.getD 0
    if width = 0 then
      let asked := (g.value? 'w').getD ""
      .reply (refuse 1 "fold" ("invalid number of columns: " ++ quoted asked ++
        (if asked.toNat?.isSome then ": Numerical result out of range" else "")))
    else overFiles v "fold" g.rest fun t =>
      Excerpt.glue ((Excerpt.pieces t).map fun p =>
        let cs := p.toList
        let ends := cs.getLast? = some '\n'
        let body := if ends then cs.dropLast else cs
        String.intercalate "\n" ((wrapped (g.has 's') width cs.length body).map String.ofList) ++
          (if ends then "\n" else ""))

/-! ## Tabs -/

/-- A line with blanks in place of tabs, at some distance from its start. -/
def expandedFrom (width column : Nat) : List Char → List Char
  | [] => []
  | '\t' :: r =>
    let n := width - column % width
    List.replicate n ' ' ++ expandedFrom width (column + n) r
  | c :: r => c :: expandedFrom width (if c = '\n' then 0 else column + 1) r

/-- Blanks at the start of a line as tabs and blanks. -/
def unexpanded (width : Nat) (l : String) : String :=
  let blanks := l.toList.takeWhile fun c => c = ' ' || c = '\t'
  let n := (expandedFrom width 0 blanks).length
  String.ofList (List.replicate (n / width) '\t' ++ List.replicate (n % width) ' ' ++
    l.toList.drop blanks.length)

/-- The programs `expand` and `unexpand`. -/
def withTabs (v : View) (name : String) (args : List String) : Start :=
  match Given.ofList? ⟨"ai", "t", [("tabs", 't'), ("all", 'a'), ("initial", 'i')], false⟩ args with
  | .error e => .reply (refuseWithHint 1 name e)
  | .ok g =>
    let width := max 1 (((g.value? 't').bind String.toNat?).getD 8)
    overFiles v name g.rest fun t =>
      if name = "expand" then String.ofList (expandedFrom width 0 t.toList)
      else unlines ((linesOf t).map (unexpanded width))

end MemoFlow.Shell
