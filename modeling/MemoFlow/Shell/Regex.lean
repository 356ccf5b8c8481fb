import MemoFlow.Shell.Pattern

/-!
# Regular expressions

* **`Shell.Regex`**: a regular expression;
* `Regex.Style`: the basic and the extended way of writing one;
* `Regex.Sign`, `Regex.signs`: the signs that a text consists of;
* `Regex.Level`, `Regex.joined`: the expression that signs stand for;
* **`Regex.ofText?`**: the expression that a text stands for, or what is wrong with it.
-/

namespace MemoFlow.Shell

/-- Characters between two ones, or those of a class. -/
inductive Regex.Range where
  /-- From one character to another. -/
  | between (a b : Char)
  /-- The characters of a class. -/
  | named (name : String)
deriving DecidableEq, Repr

/-- Whether a character lies in a range. -/
def Regex.Range.holds (c : Char) : Regex.Range → Bool
  | .between a b => decide (a ≤ c) && decide (c ≤ b)
  | .named name => inClass name c

/-- Places between characters. -/
inductive Regex.Edge where
  /-- Before all characters. -/
  | start
  /-- Behind all characters. -/
  | finish
  /-- Before a word. -/
  | wordStart
  /-- Behind a word. -/
  | wordFinish
  /-- Before or behind a word. -/
  | word
  /-- Neither before nor behind a word. -/
  | noWord
deriving DecidableEq, Repr

/-- **A regular expression.** -/
inductive Regex where
  /-- Nothing at all. -/
  | blank
  /-- A character. -/
  | one (c : Char)
  /-- Any character. -/
  | any
  /-- A character inside, or when `inverted` outside, some ranges. -/
  | within (inverted : Bool) (ranges : List Regex.Range)
  /-- A place between characters. -/
  | edge (e : Regex.Edge)
  /-- One expression and then another. -/
  | cat (a b : Regex)
  /-- One of two expressions. -/
  | alt (a b : Regex)
  /-- An expression several times. -/
  | times (a : Regex) (least : Nat) (most : Option Nat)
  /-- An expression whose part of the text is remembered under a number. -/
  | group (n : Nat) (a : Regex)
  /-- The part of the text that is remembered under a number. -/
  | again (n : Nat)
deriving Repr

namespace Regex

/-- A way of writing regular expressions. -/
structure Style where
  /-- Whether `+`, `?`, `|`, braces and parentheses are signs without a backslash. -/
  extended : Bool := false
  /-- Whether a backslash in brackets is a sign. -/
  escaping : Bool := false
  /-- Whether a parenthesis that closes nothing stands for itself. -/
  lenient : Bool := false

/-- What is wrong with brackets that are not closed. -/
def openBrackets : String := "Unmatched [, [^, [:, [., or [="

/-- The names of classes. -/
def classNames : List String :=
  ["alpha", "digit", "alnum", "upper", "lower", "space", "blank", "cntrl", "print", "graph",
    "punct", "xdigit"]

/-- Whether a character belongs to words. -/
def isWordly (c : Char) : Bool := c.isAlphanum || c = '_'

/-! ## Brackets -/

/-- The characters up to a sign before a closing bracket, and what follows both. -/
def untilClosed? (sign : Char) : List Char → Option (List Char × List Char)
  | a :: b :: r =>
    if a = sign && b = ']' then some ([], r)
    else (untilClosed? sign (b :: r)).map fun p => (a :: p.1, p.2)
  | _ => none

/-- An element of brackets: a character or a class. -/
def element? (style : Style) : List Char → Except String ((Char ⊕ String) × List Char)
  | '[' :: ':' :: r =>
    match untilClosed? ':' r with
    | none => .error openBrackets
    | some (name, r) =>
      if classNames.contains (String.ofList name) then .ok (.inr (String.ofList name), r)
      else .error "Invalid character class name"
  | '[' :: c :: r =>
    if c = '.' || c = '=' then
      match untilClosed? c r with
      | none => .error openBrackets
      | some ([x], r) => .ok (.inl x, r)
      | some _ => .error "Invalid collation character"
    else .ok (.inl '[', c :: r)
  | '\\' :: c :: r => if style.escaping then .ok (.inl c, r) else .ok (.inl '\\', c :: r)
  | c :: r => .ok (.inl c, r)
  | [] => .error openBrackets

/-- The ranges in brackets and what follows them; `first` holds where a closing bracket stands for
itself. -/
def ranges? (style : Style) (first : Bool) :
    Nat → List Char → Except String (List Range × List Char)
  | 0, _ | _, [] => .error openBrackets
  | n + 1, c :: r =>
    if c = ']' && !first then .ok ([], r)
    else do
      let (a, r) ← element? style (c :: r)
      match a, r with
      | .inl a, '-' :: t :: r' =>
        if t = ']' then
          let (rs, r) ← ranges? style false n r
          return (.between a a :: rs, r)
        else
          match ← element? style (t :: r') with
          | (.inr _, _) => throw "Invalid range end"
          | (.inl b, r) =>
            if b < a then throw "Invalid range end"
            let (rs, r) ← ranges? style false n r
            return (.between a b :: rs, r)
      | .inl a, r =>
        let (rs, r) ← ranges? style false n r
        return (.between a a :: rs, r)
      | .inr name, '-' :: t :: r' =>
        if t ≠ ']' then throw "Invalid range end"
        let (rs, r) ← ranges? style false n ('-' :: t :: r')
        return (.named name :: rs, r)
      | .inr name, r =>
        let (rs, r) ← ranges? style false n r
        return (.named name :: rs, r)

/-- The expression in brackets behind the opening one, and what follows it. -/
def brackets? (style : Style) (cs : List Char) : Except String (Regex × List Char) := do
  if cs.isEmpty || cs = ['^'] then throw "Invalid regular expression"
  let inverted := cs.head? = some '^'
  let cs := if inverted then cs.drop 1 else cs
  let (rs, r) ← ranges? style true (cs.length + 1) cs
  return (.within inverted rs, r)

/-! ## Signs -/

/-- A sign of a text. -/
inductive Sign where
  /-- An expression. -/
  | leaf (r : Regex)
  /-- An opening parenthesis. -/
  | left
  /-- A closing parenthesis. -/
  | right
  /-- A sign between alternatives. -/
  | bar
  /-- How often what stands before is repeated. -/
  | count (least : Nat) (most : Option Nat)

/-- Some digits at the start, as a number, and what follows. -/
def number (cs : List Char) : Option Nat × List Char :=
  ((String.ofList (cs.takeWhile Char.isDigit)).toNat?, cs.dropWhile Char.isDigit)

/-- Bounds in braces behind the opening one, up to the closing ones. -/
def bounds? (close : List Char) (cs : List Char) : Option (Nat × Option Nat × List Char) :=
  let (least, r) := number cs
  match r with
  | ',' :: r =>
    let (most, r) := number r
    if close.isPrefixOf r then some (least.getD 0, most, r.drop close.length) else none
  | r =>
    match least with
    | some n => if close.isPrefixOf r then some (n, some n, r.drop close.length) else none
    | none => none

/-- Bounds in braces as a sign, with what is wrong with them. -/
def counted (least : Nat) (most : Option Nat) : Except String Sign :=
  if most.any fun m => m < least then .error "Invalid content of \\\x7b\\\x7d"
  else if 32767 < max least (most.getD 0) then .error "Regular expression too big"
  else .ok (.count least most)

/-- What a letter behind a backslash stands for in both ways of writing. -/
def letter? (c : Char) : Option Regex :=
  match c with
  | 'w' => some (.within false [.named "alnum", .between '_' '_'])
  | 'W' => some (.within true [.named "alnum", .between '_' '_'])
  | 's' => some (.within false [.named "space"])
  | 'S' => some (.within true [.named "space"])
  | 'b' => some (.edge .word)
  | 'B' => some (.edge .noWord)
  | '<' => some (.edge .wordStart)
  | '>' => some (.edge .wordFinish)
  | '`' => some (.edge .start)
  | '\'' => some (.edge .finish)
  | c => if c.isDigit && c ≠ '0' then some (.again (c.toNat - 48)) else none

/-- Whether a text that is written in the basic way ends here, or an expression in it. -/
def endsHere : List Char → Bool
  | [] => true
  | '\\' :: c :: _ => c = ')' || c = '|'
  | _ => false

/-- The signs of a text; `fresh` holds where an expression starts. -/
def signs (style : Style) (fresh : Bool) : Nat → List Char → Except String (List Sign)
  | 0, _ | _, [] => .ok []
  | n + 1, c :: r => do
    let go (fresh : Bool) (s : Sign) (r : List Char) : Except String (List Sign) := do
      return s :: (← signs style fresh n r)
    let plain := go false (.leaf (.one c)) r
    let bounded (close : List Char) (start : List Char) : Except String (List Sign) :=
      match bounds? close start with
      | some (least, most, r) => do go false (← counted least most) r
      | none =>
        if style.extended then plain
        else if start.any (· = '\\') then .error "Invalid content of \\\x7b\\\x7d"
        else .error "Unmatched \\\x7b"
    if c = '\\' then
      match r with
      | [] => throw "Trailing backslash"
      | d :: r' =>
        if let some e := letter? d then go false (.leaf e) r'
        else if style.extended then go false (.leaf (.one d)) r'
        else
          match d with
          | '(' => go true .left r'
          | ')' => go false .right r'
          | '|' => go true .bar r'
          | '+' => if fresh then go false (.leaf (.one d)) r' else go false (.count 1 none) r'
          | '?' => if fresh then go false (.leaf (.one d)) r' else go false (.count 0 (some 1)) r'
          | '\x7b' => if fresh then go false (.leaf (.one d)) r' else bounded ['\\', '\x7d'] r'
          | d => go false (.leaf (.one d)) r'
    else if c = '[' then
      let (e, r) ← brackets? style r
      go false (.leaf e) r
    else if c = '.' then go false (.leaf .any) r
    else if style.extended then
      match c with
      | '^' => go fresh (.leaf (.edge .start)) r
      | '$' => go false (.leaf (.edge .finish)) r
      | '(' => go true .left r
      | ')' => go false .right r
      | '|' => go true .bar r
      | '*' => if fresh then signs style true n r else go false (.count 0 none) r
      | '+' => if fresh then signs style true n r else go false (.count 1 none) r
      | '?' => if fresh then signs style true n r else go false (.count 0 (some 1)) r
      | '\x7b' =>
        if fresh then
          match bounds? ['\x7d'] r with
          | some (_, _, r) => signs style true n r
          | none => plain
        else bounded ['\x7d'] r
      | _ => plain
    else if c = '*' then if fresh then plain else go false (.count 0 none) r
    else if c = '^' && fresh then
      match r with
      | '*' :: r => do return .leaf (.edge .start) :: (← go false (.leaf (.one '*')) r)
      | r => go false (.leaf (.edge .start)) r
    else if c = '$' && endsHere r then go false (.leaf (.edge .finish)) r
    else plain

/-! ## Expressions -/

/-- What has been read of an expression inside one pair of parentheses. -/
structure Level where
  /-- The number of the pair. -/
  number : Nat
  /-- The alternatives before the last one, in reverse. -/
  before : List Regex := []
  /-- The parts of the last one, in reverse. -/
  parts : List Regex := []

/-- Parts in reverse, as one expression. -/
def row : List Regex → Regex
  | [] => .blank
  | [r] => r
  | r :: rs => .cat (row rs) r

/-- The expression of a level. -/
def Level.whole (l : Level) : Regex := l.before.foldl (fun a b => .alt b a) (row l.parts)

/-- The expression that signs stand for, with the pairs of parentheses that are open. -/
def joined (style : Style) (count : Nat) (l : Level) (outer : List Level) :
    List Sign → Except String Regex
  | [] => if outer.isEmpty then .ok l.whole else .error "Unmatched ( or \\("
  | .leaf (.again n) :: ss =>
    if n ≤ count && !((l :: outer).any fun l => l.number = n) then
      joined style count { l with parts := .again n :: l.parts } outer ss
    else .error "Invalid back reference"
  | .leaf r :: ss => joined style count { l with parts := r :: l.parts } outer ss
  | .left :: ss => joined style (count + 1) ⟨count + 1, [], []⟩ (l :: outer) ss
  | .right :: ss =>
    match outer with
    | [] =>
      if style.lenient then joined style count { l with parts := .one ')' :: l.parts } [] ss
      else .error "Unmatched ) or \\)"
    | o :: outer =>
      joined style count { o with parts := .group l.number l.whole :: o.parts } outer ss
  | .bar :: ss =>
    joined style count { l with before := row l.parts :: l.before, parts := [] } outer ss
  | .count least most :: ss =>
    match l.parts with
    | [] => joined style count l outer ss
    | p :: ps => joined style count { l with parts := .times p least most :: ps } outer ss

/-- The number of parts that an expression remembers. -/
def groups : Regex → Nat
  | .cat a b | .alt a b => groups a + groups b
  | .times a _ _ => groups a
  | .group _ a => groups a + 1
  | _ => 0

/-- **The expression that a text stands for**, or what is wrong with it. -/
def ofText? (style : Style) (cs : List Char) : Except String Regex := do
  joined style 0 ⟨0, [], []⟩ [] (← signs style true (cs.length + 1) cs)

end Regex

end MemoFlow.Shell
