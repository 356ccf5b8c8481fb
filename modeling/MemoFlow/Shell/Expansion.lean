import MemoFlow.Shell.Arithmetic
import MemoFlow.Shell.Pattern

/-!
# Words and their values

* `Shell.Atom`: a part of the value of a word;
* `Shell.splitFields`, `Shell.joinAtoms`: the fields of a value, and the value as one string;
* `Shell.expandPieces`: the value of a word, where `capture` gives the output of a command;
* **`Shell.fields`**, `Shell.single`, `Shell.pattern`: a word as fields, as one string and as a
  pattern.
-/

namespace MemoFlow.Shell

/-- A part of the value of a word. -/
inductive Atom where
  /-- A character; a `loose` one can part fields. -/
  | char (m : Mark) (loose : Bool)
  /-- The end of a field. -/
  | gap
  /-- A field, even if it is empty. -/
  | present
deriving DecidableEq, Repr

/-- The atoms of a string. -/
def atoms (quoted loose : Bool) (s : String) : List Atom :=
  let cs := s.toList.map fun c => Atom.char ⟨c, quoted⟩ loose
  if quoted then .present :: cs else cs

/-- Fields of atoms: `now` is the field that has been begun, and `spaced` holds behind spaces that
have ended one. -/
def splitFrom (separators : List Char) :
    Option (List Mark) → Bool → List Atom → List (List Mark)
  | now, _, [] => now.toList
  | now, spaced, .present :: r => splitFrom separators (some (now.getD [])) spaced r
  | now, _, .gap :: r => now.toList ++ splitFrom separators none false r
  | now, spaced, .char m loose :: r =>
    if loose && separators.contains m.char then
      if " \t\n".contains m.char then
        now.toList ++ splitFrom separators none (spaced || now.isSome) r
      else
        (if spaced then now.toList else [now.getD []]) ++ splitFrom separators none false r
    else splitFrom separators (some (now.getD [] ++ [m])) false r

/-- The fields of a value. -/
def splitFields (separators : List Char) (as : List Atom) : List (List Mark) :=
  splitFrom separators none false as

/-- The characters of marks. -/
def plain (ms : List Mark) : String := String.ofList (ms.map Mark.char)

/-- The marks of a value as one string; a space stands between two fields. -/
def marks (as : List Atom) : List Mark :=
  as.filterMap fun a =>
    match a with
    | .char m _ => some m
    | .gap => some ⟨' ', false⟩
    | .present => none

/-- A value as one string. -/
def joinAtoms (as : List Atom) : String := plain (marks as)

/-- A string without ends of lines at its end. -/
def trimLines (s : String) : String :=
  String.ofList (s.toList.reverse.dropWhile (· = '\n')).reverse

/-- Parts of a list with a part between each two of them. -/
def between {α : Type} (x : List α) : List (List α) → List α
  | [] => []
  | [p] => p
  | p :: r => p ++ x ++ between x r

/-- The value of a parameter as atoms, if it has one. -/
def valueOf (s : State) (quoted : Bool) (name : String) : Option (List Atom) :=
  let each := s.arguments.map (atoms quoted !quoted)
  if name = "@" || name = "*" then
    if s.arguments.isEmpty then none
    else if name = "*" && quoted then
      let sep := match s.value? "IFS" with
        | none => [' ']
        | some t => t.toList.take 1
      some (between (sep.map fun c => .char ⟨c, true⟩ false) each)
    else some (between [.gap] each)
  else (s.parameter? name).map (atoms quoted !quoted)

/-- Whether a parameter counts as having a value. -/
def counts (filled : Bool) : Option (List Atom) → Bool
  | none => false
  | some as => !filled || !(joinAtoms as).isEmpty

/-- The value of a parameter that must have one where options say so. -/
def required (s : State) (quoted : Bool) (name : String) : Act (List Atom) :=
  match valueOf s quoted name with
  | some as => return as
  | none =>
    if s.has 'u' && name ≠ "@" && name ≠ "*" then giveUp (name ++ ": parameter not set")
    else return if quoted && name ≠ "@" then [.present] else []

/-- The value of a parameter in its use, where `word` is what belongs to the use. -/
def useOf (quoted : Bool) (name : String) (use : Use) (word : Act (List Atom)) :
    Act (List Atom) := do
  let s ← get
  let value := valueOf s quoted name
  let nothing : List Atom := if quoted then [.present] else []
  match use with
  | .value => required s quoted name
  | .length =>
    if name = "@" || name = "*" then
      return atoms quoted (!quoted) (toString s.arguments.length)
    let as ← required s quoted name
    return atoms quoted (!quoted) (toString (joinAtoms as).length)
  | .orElse filled => if counts filled value then return value.getD [] else word
  | .orSet filled =>
    if counts filled value then return value.getD []
    let t := joinAtoms (← word)
    if isName name then assign name t else giveUp (name ++ ": bad variable name")
    return atoms quoted (!quoted) t
  | .orFail filled =>
    if counts filled value then return value.getD []
    let t := joinAtoms (← word)
    giveUp (name ++ ": " ++
      (if t.isEmpty then "parameter not set" ++ (if filled then " or null" else "") else t))
  | .instead filled => if counts filled value then word else return nothing
  | .dropStart longest =>
    let as ← required s quoted name
    let p := marks (← word)
    return atoms quoted (!quoted)
      (String.ofList (dropStart longest p ((marks as).map Mark.char)))
  | .dropEnd longest =>
    let as ← required s quoted name
    let p := marks (← word)
    return atoms quoted (!quoted)
      (String.ofList (dropEnd longest p ((marks as).map Mark.char)))
  | .unknown => giveUp "Bad substitution"

mutual

/-- The value of a piece; its own characters can part fields when `loose`. -/
def expandPiece (capture : Command → Act String) (loose : Bool) : Piece → Act (List Atom)
  | .text q s => return atoms q (loose && !q) s
  | .parameter q name use word => useOf q name use (expandPieces capture (!q) word)
  | .output q c => do return atoms q (!q) (trimLines (← capture c))
  | .number q e => do
    let t := joinAtoms (← expandPieces capture false e)
    return atoms q (!q) (toString (← evaluate t).toInt)

/-- The value of some pieces. -/
def expandPieces (capture : Command → Act String) (loose : Bool) : List Piece → Act (List Atom)
  | [] => return []
  | p :: ps => do
    let a ← expandPiece capture loose p
    return a ++ (← expandPieces capture loose ps)

end

/-- A word whose start can name the folder of a user. -/
def homely (s : State) (w : Word) : Word :=
  match w with
  | .text false t :: ps =>
    let user := t.toList.takeWhile (· ≠ '/')
    let rest := String.ofList (t.toList.dropWhile (· ≠ '/'))
    if user = ['~'] && (rest ≠ "" || ps.isEmpty) then
      match s.value? "HOME" with
      | some h => .text true h :: .text false rest :: ps
      | none => w
    else if user = "~root".toList && (rest ≠ "" || ps.isEmpty) then
      .text true "/root" :: .text false rest :: ps
    else w
  | w => w

/-- **The fields of a word.** -/
def fields (capture : Command → Act String) (w : Word) : Act (List String) := do
  let as ← expandPieces capture false (homely (← get) w)
  return (splitFields (← get).separators as).map plain

/-- The fields of some words. -/
def allFields (capture : Command → Act String) : List Word → Act (List String)
  | [] => return []
  | w :: ws => do
    let fs ← fields capture w
    return fs ++ (← allFields capture ws)

/-- A word as one string. -/
def single (capture : Command → Act String) (w : Word) : Act String := do
  return joinAtoms (← expandPieces capture false (homely (← get) w))

/-- A word as a pattern. -/
def pattern (capture : Command → Act String) (w : Word) : Act (List Mark) := do
  return marks (← expandPieces capture false (homely (← get) w))

end MemoFlow.Shell
