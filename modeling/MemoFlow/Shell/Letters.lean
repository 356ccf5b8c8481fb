import MemoFlow.Shell.Given
import MemoFlow.Shell.Regex

/-!
# Changing single characters

The program `tr`.

* `Letters.Item`, `Letters.items`: the items of a set of characters;
* `Letters.Item.chars`, `Letters.expanded`: the characters of a set, in order;
* **`Letters.changed`**: a text with characters changed, taken out and squeezed;
* `Shell.translated`: the program.
-/

namespace MemoFlow.Shell

namespace Letters

/-- What a letter behind a backslash stands for. -/
def letter (c : Char) : Char :=
  match c with
  | 'a' => '\x07'
  | 'b' => '\x08'
  | 'f' => '\x0c'
  | 'n' => '\n'
  | 'r' => '\r'
  | 't' => '\t'
  | 'v' => '\x0b'
  | c => c

/-- Whether a character is a digit below eight. -/
def isOctal (c : Char) : Bool := decide ('0' ≤ c) && decide (c ≤ '7')

/-- The number that digits below eight stand for. -/
def octal (ds : List Char) : Nat := ds.foldl (fun n d => 8 * n + (d.toNat - 48)) 0

/-- The characters of a set, with whether a backslash stands before them; `n` bounds their
number. -/
def marks : Nat → List Char → List (Char × Bool)
  | 0, _ | _, [] => []
  | n + 1, '\\' :: a :: r =>
    let ds := ((a :: r).take 3).takeWhile isOctal
    if ds.isEmpty then (letter a, true) :: marks n r
    else (Char.ofNat (octal ds % 256), true) :: marks n ((a :: r).drop ds.length)
  | n + 1, c :: r => (c, false) :: marks n r

/-- An item of a set. -/
inductive Item where
  /-- A character. -/
  | one (c : Char)
  /-- The characters between two ones. -/
  | between (a b : Char)
  /-- A class of characters. -/
  | named (name : String)
  /-- All that counts as the same character. -/
  | alike (c : Char)
  /-- A character some times, or as often as there is room for it. -/
  | fill (c : Char) (n : Option Nat)
deriving DecidableEq

/-- A class or an item in brackets behind the opening one, and what follows it. -/
def bracketed? (ms : List (Char × Bool)) : Option (Item × List (Char × Bool)) :=
  let cs := ms.map Prod.fst
  match ms with
  | (':', false) :: _ =>
    (Regex.untilClosed? ':' (cs.drop 1)).map fun p =>
      (.named (String.ofList p.1), ms.drop (p.1.length + 3))
  | ('=', false) :: (c, _) :: ('=', false) :: (']', false) :: r => some (.alike c, r)
  | (c, _) :: ('*', false) :: r =>
    let ds := (r.map Prod.fst).takeWhile Char.isDigit
    match r.drop ds.length with
    | (']', false) :: r =>
      let n := if ds.head? = some '0' then octal ds else ((String.ofList ds).toNat?).getD 0
      some (.fill c (if n = 0 then none else some n), r)
    | _ => none
  | _ => none

/-- The items of a set; `n` bounds their number. -/
def items : Nat → List (Char × Bool) → Except String (List Item)
  | 0, _ | _, [] => .ok []
  | n + 1, m :: r => do
    match if m = ('[', false) then bracketed? r else none with
    | some (.named name, r) =>
      if !Regex.classNames.contains name then
        throw ("invalid character class " ++ quoted name)
      return .named name :: (← items n r)
    | some (i, r) => return i :: (← items n r)
    | none =>
      match r with
      | ('-', false) :: (b, _) :: r =>
        if b < m.1 then
          throw ("range-endpoints of " ++
            quoted (String.singleton m.1 ++ "-" ++ String.singleton b) ++
            " are in reverse collating sequence order")
        return .between m.1 b :: (← items n r)
      | r => return .one m.1 :: (← items n r)

/-- The items of a text. -/
def itemsOf (s : String) : Except String (List Item) :=
  let ms := marks (s.length + 1) s.toList
  items (ms.length + 1) ms

/-- The characters from one number up to another. -/
def charsBetween (a b : Nat) : List Char := (List.range' a (b + 1 - a)).map Char.ofNat

/-- The characters of an item; one that fills has `room` characters. -/
def Item.chars (room : Nat) : Item → List Char
  | .one c => [c]
  | .between a b => charsBetween a.toNat b.toNat
  | .named name => (charsBetween 0 255).filter (inClass name)
  | .alike c => [c]
  | .fill c n => List.replicate (n.getD room) c

/-- The characters of a set that is as long as another one where it can be. -/
def expanded (length : Nat) (is : List Item) : List Char :=
  let fixed := (is.flatMap (Item.chars 0)).length
  is.flatMap (Item.chars (length - fixed))

/-- Characters without those of a set that follow themselves. -/
def squeezed (inSet : Char → Bool) : Option Char → List Char → List Char
  | _, [] => []
  | last, c :: r =>
    if last = some c && inSet c then squeezed inSet last r else c :: squeezed inSet (some c) r

/-- What becomes of a character when a set takes the place of another one. -/
def moved (from' into : List Char) (c : Char) : Char :=
  match (from'.zipIdx.reverse.find? fun p => p.1 = c) with
  | some (_, i) => (into[i]?).getD ((into.getLast?).getD c)
  | none => c

/-- **A text with characters changed**, taken out or squeezed. -/
def changed (g : Given) (first : List Item) (second : Option (List Item)) (t : String) : String :=
  let inverse := g.has 'c' || g.has 'C'
  let one := expanded 0 first
  let one := if inverse then (charsBetween 0 255).filter fun c => !one.contains c else one
  let two := second.map (expanded one.length)
  let one' := if g.has 't' then one.take ((two.getD []).length) else one
  let cs := t.toList
  let cs :=
    if g.has 'd' then cs.filter fun c => !one.contains c
    else match two with
      | some into => cs.map (moved one' into)
      | none => cs
  let cs := if g.has 's' then squeezed (fun c => (two.getD one).contains c) none cs else cs
  String.ofList cs

/-- Whether an item is one of the classes of capital and small letters. -/
def Item.isCase (i : Item) : Bool := i = .named "upper" || i = .named "lower"

/-- Where the classes of capital and small letters start in a set. -/
def casePlaces (length : Nat) (is : List Item) : List Nat :=
  let room := length - (is.flatMap (Item.chars 0)).length
  (is.zipIdx.filter fun p => p.1.isCase).map fun p =>
    ((is.take p.2).flatMap (Item.chars room)).length

/-- What is wrong with a second set that takes the place of a first one. -/
def misplaced? (g : Given) (first second : List Item) : Option String :=
  let inverse := g.has 'c' || g.has 'C'
  let length := (first.flatMap (Item.chars 0)).length
  if g.has 'd' then none
  else if second.any fun i => i matches .alike _ then
    some "[=c=] expressions may not appear in string2 when translating"
  else if second.any fun i => i matches .named _ && i ≠ .named "upper" && i ≠ .named "lower" then
    some ("when translating, the only character classes that may appear in\n" ++
      "string2 are 'upper' and 'lower'")
  else if !g.has 't' && second.isEmpty && !first.isEmpty then
    some "when not truncating set1, string2 must be non-empty"
  else if inverse && second.getLast?.any Item.isCase then
    some ("when translating with string1 longer than string2,\n" ++
      "the latter string must not end with a character class")
  else if inverse && (first.any fun i => i matches .named _) &&
      ((expanded 2 second).eraseDups.length ≠ 1) then
    some ("when translating with complemented character classes,\n" ++
      "string2 must map all characters in the domain to one")
  else if !inverse && (casePlaces length second).any fun i => !(casePlaces 0 first).contains i then
    some "misaligned [:upper:] and/or [:lower:] construct"
  else if !inverse && second.getLast?.any Item.isCase &&
      (second.flatMap (Item.chars 0)).length < length && !g.has 't' then
    some ("when translating with string1 longer than string2,\n" ++
      "the latter string must not end with a character class")
  else none

/-- The options of the program. -/
def known : Known :=
  { plain := "cCdst", ordered := true
    long := [("complement", 'c'), ("delete", 'd'), ("squeeze-repeats", 's'),
      ("truncate-set1", 't')] }

end Letters

/-- **The program `tr`.** -/
def translated (args : List String) : Start :=
  match Given.ofList? Letters.known args with
  | .error e => .reply (refuseWithHint 1 "tr" e)
  | .ok g =>
    let alone := g.has 'd' && !g.has 's'
    let run (first : String) (second : Option String) : Start :=
      let sets : Except String (List Letters.Item × Option (List Letters.Item)) := do
        let a ← Letters.itemsOf first
        let b ← second.mapM Letters.itemsOf
        return (a, b)
      match sets with
      | .error e => .reply (refuse 1 "tr" e)
      | .ok (a, b) =>
        if a.any fun i => i matches .fill _ none then
          .reply (refuse 1 "tr" "the [c*] repeat construct may not appear in string1")
        else if (alone || g.has 'd') && b.any fun is => is.any fun i => i matches .fill _ none then
          .reply (refuse 1 "tr" "the [c*] construct may appear in string2 only when translating")
        else match b.bind (Letters.misplaced? g a) with
        | some e => .reply (refuse 1 "tr" e)
        | none => .reads fun t => { out := Letters.changed g a b t }
    match g.rest with
    | [] => .reply (refuseWithHint 1 "tr" "missing operand")
    | [a] =>
      if alone || g.has 's' && !g.has 'd' then run a none
      else
        let both := if g.has 'd' then "Two strings must be given when both deleting and " ++
            "squeezing repeats." else "Two strings must be given when translating."
        .reply (refuseWithHint 1 "tr" ("missing operand after " ++ quoted a ++ "\n" ++ both))
    | [a, b] =>
      if alone then
        .reply (refuseWithHint 1 "tr" ("extra operand " ++ quoted b ++ "\nOnly one string may " ++
          "be given when deleting without squeezing repeats."))
      else run a (some b)
    | _ :: b :: c :: _ =>
      .reply (refuseWithHint 1 "tr" ("extra operand " ++ quoted (if alone then b else c)))

end MemoFlow.Shell
