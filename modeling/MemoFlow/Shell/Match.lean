import MemoFlow.Shell.Regex

/-!
# Matches of regular expressions

* `Regex.Place`: a place in a text, with the parts that have been remembered;
* **`Regex.ends`**: the places to which an expression leads;
* `Regex.longest?`, `Regex.find?`: the longest match at a place, and the first one from it on;
* `Regex.allIn`: all matches in a text.
-/

namespace MemoFlow.Shell

namespace Regex

/-- A place in a text. -/
structure Place where
  /-- The number of characters before it. -/
  index : Nat := 0
  /-- The character before it. -/
  last : Option Char := none
  /-- The characters behind it. -/
  rest : List Char
  /-- The parts that have been remembered: numbers, starts and ends. -/
  marks : List (Nat × Nat × Nat) := []
deriving DecidableEq

namespace Place

/-- The place one character further on. -/
def step? (p : Place) : Option (Char × Place) :=
  match p.rest with
  | [] => none
  | c :: r => some (c, { p with index := p.index + 1, last := some c, rest := r })

/-- Whether a word stands before a place, and whether one stands behind it. -/
def words (p : Place) : Bool × Bool := (p.last.any isWordly, p.rest.head?.any isWordly)

/-- Whether a place is an edge. -/
def isEdge (p : Place) : Edge → Bool
  | .start => p.last.isNone
  | .finish => p.rest.isEmpty
  | .wordStart => !p.words.1 && p.words.2
  | .wordFinish => p.words.1 && !p.words.2
  | .word => p.words.1 != p.words.2
  | .noWord => p.words.1 == p.words.2

/-- A place with a part remembered. -/
def remember (n start : Nat) (p : Place) : Place :=
  { p with marks := (n, start, p.index) :: p.marks.filter fun m => m.1 ≠ n }

/-- The place behind some characters, if they follow. -/
def skip? (same : Char → Char → Bool) : List Char → Place → Option Place
  | [], p => some p
  | c :: cs, p =>
    match p.step? with
    | some (d, p) => if same c d then skip? same cs p else none
    | none => none

end Place

/-- Places without those that have come before. -/
def distinct (ps : List Place) : List Place :=
  ps.foldr (fun p qs => p :: qs.filter fun q => q.index ≠ p.index || q.marks ≠ p.marks) []

/-- The places to which several steps lead, the last ones first; `n` bounds their number. -/
def sweep (step : Place → List Place) (n least : Nat) (most : Option Nat) (ps : List Place) :
    List Place :=
  match n with
  | 0 => if least = 0 then ps else []
  | n + 1 =>
    if ps.isEmpty || most = some 0 then ps
    else if least = 0 then
      let next := ps.flatMap fun p => (step p).filter fun q => p.index < q.index
      sweep step n 0 (most.map (· - 1)) (distinct next) ++ ps
    else sweep step n (least - 1) (most.map (· - 1)) (distinct (ps.flatMap step))

/-- Whether two characters are the same, except perhaps for case. -/
def same (fold : Bool) (c d : Char) : Bool := c = d || fold && c.toLower = d.toLower

/-- **The places to which an expression leads** in a text, the preferred ones first. -/
def ends (fold : Bool) (text : List Char) : Regex → Place → List Place
  | .blank, p => [p]
  | .one c, p => ((Place.skip? (same fold) [c] p).map fun q => [q]).getD []
  | .any, p => (p.step?.map fun q => [q.2]).getD []
  | .within inverted rs, p =>
    match p.step? with
    | some (c, q) =>
      let holds := rs.any fun r =>
        r.holds c || fold && (r.holds c.toLower || r.holds c.toUpper)
      if holds != inverted then [q] else []
    | none => []
  | .edge e, p => if p.isEdge e then [p] else []
  | .cat a b, p => distinct ((ends fold text a p).flatMap (ends fold text b))
  | .alt a b, p => distinct (ends fold text a p ++ ends fold text b p)
  | .times a least most, p =>
    distinct (sweep (ends fold text a) (p.rest.length + least + 1) least most [p])
  | .group n a, p => (ends fold text a p).map (Place.remember n p.index)
  | .again n, p =>
    match p.marks.lookup n with
    | some (s, e) =>
      ((Place.skip? (same fold) ((text.take e).drop s) p).map fun q => [q]).getD []
    | none => []

/-- The place that is furthest on. -/
def furthest? (ps : List Place) : Option Place :=
  ps.foldl (fun best p => if best.any fun b => p.index ≤ b.index then best else some p) none

/-- The longest match at a place of a text whose bounds are allowed. -/
def longest? (fold : Bool) (allowed : Place → Place → Bool) (text : List Char) (r : Regex)
    (p : Place) : Option Place :=
  furthest? ((ends fold text r { p with marks := [] }).filter (allowed p))

/-- The first place from some place on where a function has a value, and that value. -/
def firstFrom? {α : Type} (f : Place → Option α) (index : Nat) (last : Option Char) :
    List Char → Option (Place × α)
  | [] => (f ⟨index, last, [], []⟩).map fun q => (⟨index, last, [], []⟩, q)
  | c :: r =>
    match f ⟨index, last, c :: r, []⟩ with
    | some q => some (⟨index, last, c :: r, []⟩, q)
    | none => firstFrom? f (index + 1) (some c) r

/-- The first match from a place on: where it starts and where it ends. -/
def find? (longest? : Place → Option Place) (p : Place) : Option (Place × Place) :=
  firstFrom? longest? p.index p.last p.rest

/-- All matches from a place on, without empty ones right behind another; `n` bounds their
number. -/
def allFrom (longest? : Place → Option Place) (behind : Option Nat) :
    Nat → Place → List (Place × Place)
  | 0, _ => []
  | n + 1, p =>
    match find? longest? p with
    | none => []
    | some (a, b) =>
      let step (q : Place) : List (Place × Place) :=
        match q.step? with
        | some (_, q) => allFrom longest? behind n q
        | none => []
      if a.index < b.index then (a, b) :: allFrom longest? (some b.index) n b
      else if behind = some a.index then step b
      else (a, b) :: step b

/-- The place before a text. -/
def Place.before (text : List Char) : Place := ⟨0, none, text, []⟩

/-- All matches in a text. -/
def allIn (longest? : Place → Option Place) (text : List Char) : List (Place × Place) :=
  allFrom longest? none (2 * text.length + 2) (Place.before text)

/-- The part of a text that is remembered under a number; number 0 is the whole match. -/
def part (text : List Char) (m : Place × Place) (n : Nat) : List Char :=
  if n = 0 then (text.take m.2.index).drop m.1.index
  else
    match m.2.marks.lookup n with
    | some (s, e) => (text.take e).drop s
    | none => []

end Regex

end MemoFlow.Shell
