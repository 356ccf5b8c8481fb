import MemoFlow.Code.Header
import MemoFlow.Code.Parser
import MemoFlow.Code.Remarks

/-!
# Directives

A line that begins with a number sign tells how the lines behind it are read.

* `Group`: lines that are read under a condition;
* **`Draft`**: what has been read of a text;
* `Draft.condition?`: whether a condition holds;
* `Draft.define?`, `Draft.include?`: macros and headers;
* **`Draft.line?`**, `Draft.finish?`: a line, and the end of the text.
-/

namespace MemoFlow.Code

open Ascii

/-- Whether a token is a word. -/
def Token.isWord (t : Token) (s : String) : Bool := t = .word (Bytes.ofString s)

/-- The lines of a text. -/
def linesOf (ls : List Lexeme) : List (List Lexeme) := ls.splitOnP fun l => l.token = .newline

/-- Lines that are read under a condition. -/
structure Group where
  /-- Whether the lines are read. -/
  isRead : Bool
  /-- Whether another part may still be read. -/
  isOpen : Bool
  /-- Whether the last part has begun. -/
  isLast : Bool := false
deriving DecidableEq, Repr

/-- **What has been read of a text.** -/
structure Draft where
  /-- The version of the language. -/
  dialect : Dialect
  /-- The macros that are defined. -/
  macros : Macros
  /-- The groups of lines that have not ended, the inner ones first. -/
  groups : List Group := []
  /-- Tokens whose macros have not been replaced yet, in parts, the last one first. -/
  pending : List (List Lexeme) := []
  /-- The other tokens, in parts, the last one first. -/
  parts : List (List Token) := []
  /-- Words that must not be used any more. -/
  poisoned : List Bytes := []
  /-- What the compiler remarks. -/
  remarks : List Remark := []

namespace Draft

/-- Nothing of a text. -/
def new (d : Dialect) : Draft := { dialect := d, macros := d.predefined }

/-- Add remarks. -/
def remark (d : Draft) (rs : List Remark) : Draft := { d with remarks := d.remarks ++ rs }

/-- Whether lines are read. -/
def isRead (d : Draft) : Bool := d.groups.all Group.isRead

/-- Whether there are words that must not be used. -/
def isPoisoned (d : Draft) (ls : List Lexeme) : Bool :=
  !d.poisoned.isEmpty && ls.any fun l =>
    match l.token with
    | .word w => d.poisoned.contains w
    | _ => false

/-- Replace the macros in the tokens that were read. -/
def settle? (d : Draft) : Option Draft :=
  if d.pending.isEmpty then some d
  else
    (d.macros.replace? d.pending.reverse.flatten).map fun ls =>
      { d with pending := [], parts := ls.map Lexeme.token :: d.parts }

/-! ## Conditions -/

/-- Macros that are always defined. -/
def alwaysDefined : List String :=
  ["__has_include", "__has_include_next", "__has_attribute", "__has_c_attribute",
    "__has_cpp_attribute", "__has_builtin", "_Pragma"]

/-- Whether a word is a macro. -/
def isDefined (d : Draft) (w : Bytes) : Bool := d.macros.contains w || isOneOf alwaysDefined w

/-- The token of a truth value. -/
def truth (b : Bool) : Lexeme := ⟨.number (Bytes.ofString (if b then "1" else "0")), true⟩

/-- The name of a header between its marks, and what stands behind it. -/
def headerName? : List Lexeme → Option (String × List Lexeme)
  | ⟨.quote t, _⟩ :: r =>
    if t.head? = some (byte '"') then some (Bytes.toText (t.drop 1).dropLast, r) else none
  | ⟨.punct "<", _⟩ :: r =>
    match r.dropWhile fun l => l.token ≠ .punct ">" with
    | _ :: rest =>
      some ((Piece.text ((r.takeWhile fun l => l.token ≠ .punct ">").map fun l => ⟨l, []⟩)).toText,
        rest)
    | [] => none
  | _ => none

/-- Questions about macros and headers replaced by their answers, of which there are at most `n`. -/
def answered? (d : Draft) : Nat → List Lexeme → Option (List Lexeme)
  | 0, ls => some ls
  | _ + 1, [] => some []
  | n + 1, l :: r =>
    if l.token.isWord "defined" then
      match r with
      | ⟨.word w, _⟩ :: r => (answered? d n r).map (truth (d.isDefined w) :: ·)
      | ⟨.punct "(", _⟩ :: ⟨.word w, _⟩ :: ⟨.punct ")", _⟩ :: r =>
        (answered? d n r).map (truth (d.isDefined w) :: ·)
      | _ => none
    else if l.token.isWord "__has_include" then
      match r with
      | ⟨.punct "(", _⟩ :: r =>
        match headerName? r with
        | some (h, ⟨.punct ")", _⟩ :: r) =>
          (answered? d n r).map (truth (Header.find? d.dialect h).isSome :: ·)
        | _ => none
      | _ => none
    else (answered? d n r).map (l :: ·)

/-- A token of a condition: words that are no macros stand for zero. -/
def conditionToken (d : Draft) : Token → Token
  | .word w =>
    .number (Bytes.ofString (if 2023 ≤ d.dialect.year && isOneOf ["true"] w then "1" else "0"))
  | t => t

/-- **Whether a condition holds**, and whether it asks for words that are no macros. -/
def condition? (d : Draft) (ls : List Lexeme) : Option (Bool × Bool) := do
  let ls ← d.answered? ls.length ls
  let ls ← d.macros.replace? ls
  let ls ← d.answered? ls.length ls
  let ts := ls.map Lexeme.token
  let isWord (t : Token) : Bool := match t with
    | .word _ => true
    | _ => false
  let scope : Scope := { operands := [] }
  match expr? { constant := Constant.wide? } (ts.map d.conditionToken) with
  | some (e, []) =>
    if ((e.kind? scope).map Kind.isInteger).getD false &&
        !(e.remarks scope).contains (.usual "div-by-zero") then
      e.closed?.map fun v => (v ≠ 0, ts.any isWord)
    else none
  | _ => none

/-! ## Macros and headers -/

/-- Whether two definitions say the same. -/
def isSame (a b : Macro) : Bool :=
  let words (m : Macro) : List Lexeme :=
    match m.body with
    | [] => []
    | l :: r => { l with spaced := false } :: r
  a.params = b.params && a.isOpen = b.isOpen && words a = words b

/-- **Define a macro.** -/
def define? (d : Draft) (ls : List Lexeme) : Option Draft :=
  match Macro.ofDefinition? ls, d.settle? with
  | some (w, m), some d =>
    let again : Bool := match d.macros[w]? with
      | some m' => !isSame m m'
      | none => isOneOf alwaysDefined w
    some { (if again then d.remark [.required ""] else d) with macros := d.macros.insert w m }
  | _, _ => none

/-- Remove a macro. -/
def undefine? (d : Draft) : List Lexeme → Option Draft
  | ⟨.word w, _⟩ :: r =>
    if isOneOf ["defined"] w then none
    else
      d.settle?.map fun d =>
        { (if r.isEmpty then d else d.remark [.required ""]) with macros := d.macros.erase w }
  | _ => none

/-- **Read a header.** -/
def include? (d : Draft) (name : String) : Option Draft := do
  let d ← d.settle?
  let h ← Header.find? d.dialect name
  if !h.guard.isEmpty && d.macros.contains (Bytes.ofString h.guard) then return d
  let words := if h.guard.isEmpty then h.words else h.guard :: h.words
  let d := { d with macros := (d.macros.defineWords words).defineAll h.definitions }
  let text := Bytes.ofString h.declarations
  let ls := lexemesUpTo false text.length text
  if d.isPoisoned ls then none
  let ls ← d.macros.replace? ls
  return { d with parts := ls.map Lexeme.token :: d.parts }

/-- The header that a directive names. -/
def includeNamed? (d : Draft) (ls : List Lexeme) : Option Draft :=
  let named := (headerName? ls).or ((d.macros.replace? ls).bind headerName?)
  match named with
  | some (h, r) => (d.include? h).map fun d => if r.isEmpty then d else d.remark [.required ""]
  | none => none

/-! ## Lines -/

/-- Begin a group of lines. -/
def enter (d : Draft) (b : Bool) : Draft :=
  { d with groups := { isRead := d.isRead && b, isOpen := d.isRead && !b } :: d.groups }

/-- Begin a group of lines that are read when a word is a macro or when it is none. -/
def enterDefined? (d : Draft) (b : Bool) : List Lexeme → Option Draft
  | ⟨.word w, _⟩ :: r =>
    some ((if r.isEmpty then d else d.remark [.required ""]).enter (d.isDefined w == b))
  | _ => if d.isRead then none else some (d.enter false)

/-- The next part of a group of lines: without a condition it is the last one. -/
def turn? (d : Draft) (condition : Option (Draft → Option (Bool × Bool))) : Option Draft :=
  match d.groups with
  | [] => none
  | g :: gs =>
    if g.isLast then none
    else
      match g.isOpen, condition with
      | false, c => some { d with groups := ⟨false, false, c.isNone⟩ :: gs }
      | true, none => some { d with groups := ⟨true, false, true⟩ :: gs }
      | true, some c =>
        (c d).map fun (b, word) =>
          let d := { d with groups := ⟨b, !b, false⟩ :: gs }
          if word then d.remark [.chosen "undef"] else d

/-- The end of a group of lines. -/
def leave? (d : Draft) (r : List Lexeme) : Option Draft :=
  match d.groups with
  | [] => none
  | _ :: gs =>
    some { (if r.isEmpty then d else d.remark [.required "endif-labels"]) with groups := gs }

/-- A directive that is followed whether lines are read or not; none for other words. -/
def grouping? (d : Draft) (w : String) (r : List Lexeme) : Option (Option Draft) :=
  match w with
  | "if" =>
    some (if d.isRead then (d.condition? r).map fun (b, word) =>
      (if word then d.remark [.chosen "undef"] else d).enter b else some (d.enter false))
  | "ifdef" => some (d.enterDefined? true r)
  | "ifndef" => some (d.enterDefined? false r)
  | "elif" => some (d.turn? (some fun d => d.condition? r))
  | "else" =>
    some ((d.turn? none).map fun d => if r.isEmpty then d else d.remark [.required "endif-labels"])
  | "endif" => some (d.leave? r)
  | "elifdef" | "elifndef" =>
    if d.dialect.isStrict && d.dialect.year < 2023 then none
    else
      match r with
      | ⟨.word x, _⟩ :: _ =>
        some (d.turn? (some fun d => some (d.isDefined x == (w == "elifdef"), false)))
      | _ => some none
  | _ => none

/-- The number of a line. -/
def isLineNumber : List Lexeme → Bool
  | ⟨.number l, _⟩ :: _ => l.all isDigit
  | _ => false

/-- A directive; none when it is unknown or wrong. -/
def directive? (d : Draft) (w : String) (r : List Lexeme) : Option Draft :=
  match w with
  | "define" => d.define? r
  | "undef" => d.undefine? r
  | "include" => d.includeNamed? r
  | "include_next" | "import" => (d.includeNamed? r).map fun d => d.remark [.required ""]
  | "warning" => some (d.remark [.usual "cpp"])
  | "line" =>
    if ((d.macros.replace? r).map isLineNumber).getD false then some d else none
  | "pragma" =>
    match r with
    | ⟨a, _⟩ :: ⟨b, _⟩ :: r =>
      if a.isWord "GCC" && b.isWord "error" then none
      else if a.isWord "GCC" && b.isWord "poison" then
        some { d with poisoned := d.poisoned ++ r.map fun l => l.token.spelling }
      else some d
    | _ => some d
  | "ident" | "sccs" =>
    match r with
    | [⟨.quote _, _⟩] => some (d.remark [.extension "pedantic"])
    | _ => none
  | "assert" | "unassert" => some (d.remark [.extension "pedantic"])
  | _ => none

/-- Tokens that stand on a line of their own. -/
def text (d : Draft) : List Lexeme → Draft
  | [] => d
  | l :: r => { d with pending := ({ l with spaced := true } :: r) :: d.pending }

/-- **Read a line.** -/
def line? (d : Draft) : List Lexeme → Option Draft
  | ⟨.punct "#", _⟩ :: r =>
    if d.isRead && d.isPoisoned r then none else
    match r with
    | [] => some d
    | ⟨.word w, _⟩ :: r =>
      match d.grouping? w.toText r with
      | some d => d
      | none => if d.isRead then d.directive? w.toText r else some d
    | r => if !d.isRead || isLineNumber r then some d else none
  | ls => if d.isRead then if d.isPoisoned ls then none else some (d.text ls) else some d

/-- Leave out remarks to the compiler. -/
def withoutPragmas : List Token → List Token
  | [] => []
  | t :: r =>
    match t.isWord "_Pragma", r with
    | true, .punct "(" :: .quote _ :: .punct ")" :: r => withoutPragmas r
    | _, r => t :: withoutPragmas r

/-- **The tokens of a text** that has ended. -/
def finish? (d : Draft) : Option (List Token) :=
  if d.groups.isEmpty then d.settle?.map fun d => withoutPragmas d.parts.reverse.flatten
  else none

end Draft

end MemoFlow.Code
