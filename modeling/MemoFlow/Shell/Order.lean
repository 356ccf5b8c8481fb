import MemoFlow.Shell.Excerpt
import MemoFlow.Shell.Regex

/-!
# The order of lines

The programs `sort`, `uniq` and `comm`.

* `Order.Key`, `Order.key?`: the parts of lines that decide;
* `Order.compareLines`: the order of two lines;
* **`Shell.sorted`**, `Shell.repeated`, `Shell.common`: the programs.
-/

namespace MemoFlow.Shell

namespace Order

/-- How parts of lines are compared. -/
structure Manner where
  /-- As numbers. -/
  numeric : Bool := false
  /-- The other way round. -/
  reverse : Bool := false
  /-- Without regard to case. -/
  fold : Bool := false
  /-- Without blanks before them. -/
  blanks : Bool := false
  /-- By letters, digits and blanks alone. -/
  wordly : Bool := false
  /-- As numbers with a unit behind them. -/
  units : Bool := false
  /-- As versions, in which runs of digits are numbers. -/
  version : Bool := false
deriving DecidableEq

/-- A place in a line: a field and a character in it; character 0 stands for the end. -/
structure Spot where
  /-- The field. -/
  field : Nat
  /-- The character. -/
  char : Nat

/-- The part of a line that decides. -/
structure Key where
  /-- Where it starts. -/
  first : Spot := ⟨1, 1⟩
  /-- Where it ends. -/
  last : Option Spot := none
  /-- How it is compared. -/
  manner : Manner := { }

/-- A manner with that of a letter. -/
def Manner.withLetter (m : Manner) (c : Char) : Manner :=
  match c with
  | 'n' | 'g' => { m with numeric := true }
  | 'r' => { m with reverse := true }
  | 'f' => { m with fold := true }
  | 'b' => { m with blanks := true }
  | 'd' => { m with wordly := true }
  | 'h' => { m with units := true }
  | 'V' => { m with version := true }
  | _ => m

/-- A place as it is written, the letters behind it, and whether it is one. -/
def spot? (default : Nat) (cs : List Char) : Except String (Spot × List Char) := do
  let text := quoted (String.ofList cs)
  let (f, r) := Regex.number cs
  match f with
  | none => throw ("invalid number at field start: invalid count at start of " ++ text)
  | some 0 => throw ("field number is zero: invalid field specification " ++ text)
  | some f =>
    match r with
    | '.' :: r =>
      match Regex.number r with
      | (some c, r) => return (⟨f, c⟩, r)
      | (none, _) => throw ("invalid number after '.': invalid count at start of " ++
          quoted (String.ofList r))
    | r => return (⟨f, default⟩, r)

/-- A key as it is written. -/
def key? (s : String) : Except String (Key × Bool) := do
  let cs := s.toList
  let a := cs.takeWhile (· ≠ ',')
  let (first, letters) ← spot? 1 a
  let (last, more) ← match cs.drop a.length with
    | [] => pure (none, [])
    | _ :: r => do
      let (l, ls) ← spot? 0 r
      pure (some l, ls)
  let own := letters ++ more
  if own.any fun c => !"bdfgiMhnRrV".toList.contains c then
    throw ("stray character in field spec: invalid field specification " ++ quoted s)
  return (⟨first, last, own.foldl Manner.withLetter { }⟩, !own.isEmpty)

/-- The fields of some characters: blanks start one, or a sign ends it. Each field is given by where
it starts and where it ends. -/
def bounds (sign : Option Char) (cs : List Char) : List (Nat × Nat) :=
  match sign with
  | some c =>
    (cs.splitOnP (· = c)).foldl (fun (bs : List (Nat × Nat)) f =>
      let start := match bs.getLast? with | some b => b.2 + 1 | none => 0
      bs ++ [(start, start + f.length)]) []
  | none => scan 0 0 true cs
where
  /-- The fields from some place on; `blank` holds among the blanks before a field. -/
  scan (start i : Nat) (blank : Bool) : List Char → List (Nat × Nat)
    | [] => [(start, i)]
    | c :: r =>
      if c = ' ' || c = '\t' then
        if blank then scan start (i + 1) true r else (start, i) :: scan i (i + 1) true r
      else scan start (i + 1) false r

/-- The part of a line that a key takes. -/
def taken (sign : Option Char) (k : Key) (l : String) : List Char :=
  let cs := l.toList
  let bs := bounds sign cs
  let blanksFrom (i : Nat) : Nat :=
    if k.manner.blanks then ((cs.drop i).takeWhile fun c => c = ' ' || c = '\t').length else 0
  let start := match bs[k.first.field - 1]? with
    | some (s, _) => min cs.length (s + blanksFrom s + (k.first.char - 1))
    | none => cs.length
  let finish := match k.last with
    | none => cs.length
    | some p =>
      match bs[p.field - 1]? with
      | none => cs.length
      | some (s, e) => if p.char = 0 then e else min cs.length (s + blanksFrom s + p.char)
  (cs.take finish).drop start

/-- A number at the start of some characters, in thousandths of a thousandth. -/
def amount (cs : List Char) : Int :=
  let cs := cs.dropWhile fun c => c = ' ' || c = '\t'
  let (negative, cs) : Bool × List Char := match cs with
    | '-' :: r => (true, r)
    | cs => (false, cs)
  let whole := cs.takeWhile Char.isDigit
  let part := match cs.dropWhile Char.isDigit with
    | '.' :: r => r.takeWhile Char.isDigit
    | _ => []
  let digits := whole ++ (part ++ List.replicate 6 '0').take 6
  let n := ((String.ofList digits).toNat?).getD 0
  if negative then -(n : Int) else n

/-- How much a unit behind a number multiplies it with. -/
def unit (cs : List Char) : Int :=
  let r := (cs.dropWhile fun c => c = ' ' || c = '-').dropWhile fun c => c.isDigit || c = '.'
  match r.head? with
  | some 'k' | some 'K' => 1024
  | some 'M' => Nat.pow 1024 2
  | some 'G' => Nat.pow 1024 3
  | some 'T' => Nat.pow 1024 4
  | _ => 1

/-- The runs of digits and of other characters; `n` bounds their number. -/
def runs : Nat → List Char → List (List Char × Nat)
  | 0, _ | _, [] => []
  | n + 1, cs =>
    let a := cs.takeWhile fun c => !c.isDigit
    let r := cs.dropWhile fun c => !c.isDigit
    let (d, r) := Regex.number r
    (a, d.getD 0) :: runs n r

/-- The order of two lists. -/
def compareLists {α : Type} (f : α → α → Ordering) : List α → List α → Ordering
  | [], [] => .eq
  | [], _ => .lt
  | _, [] => .gt
  | a :: as, b :: bs => (f a b).then (compareLists f as bs)

/-- Where a character stands among those of versions: letters come before all other signs. -/
def rank (c : Char) : Nat := if c.isAlpha then c.toNat else c.toNat + 256

/-- The order of two parts. -/
def compareParts (m : Manner) (a b : List Char) : Ordering :=
  let ready (cs : List Char) : List Char :=
    let cs := if m.blanks then cs.dropWhile fun c => c = ' ' || c = '\t' else cs
    let cs := if m.wordly then cs.filter fun c => c.isAlphanum || c = ' ' || c = '\t' else cs
    if m.fold then cs.map Char.toUpper else cs
  let plain (x y : List Char) : Ordering := compareLists (fun c d => compare c d) x y
  let o :=
    if m.numeric then compare (amount a) (amount b)
    else if m.units then compare (amount a * unit a) (amount b * unit b)
    else if m.version then
      compareLists (fun x y => (compareLists (fun c d => compare (rank c) (rank d)) x.1 y.1).then
          (compare x.2 y.2))
        (runs (a.length + 1) a) (runs (b.length + 1) b)
    else plain (ready a) (ready b)
  if m.reverse then o.swap else o

/-- The order of two lines by keys, and by the whole lines when `whole` holds. -/
def compareLines (sign : Option Char) (keys : List Key) (whole reverse : Bool) (a b : String) :
    Ordering :=
  let o := keys.foldl (fun (o : Ordering) k =>
    o.then (compareParts k.manner (taken sign k a) (taken sign k b))) .eq
  if whole then o.then (compareParts { reverse := reverse } a.toList b.toList) else o

/-- Sorted lines without those that count as the one before. -/
def withoutSame (f : String → String → Ordering) : Option String → List String → List String
  | _, [] => []
  | last, l :: r =>
    if last.any fun k => f k l = .eq then withoutSame f last r
    else l :: withoutSame f (some l) r

/-- The first line that is out of order, with its number. -/
def disorder? (unique : Bool) (f : String → String → Ordering) : Nat → List String →
    Option (Nat × String)
  | n, a :: b :: r =>
    if f a b = .gt || unique && f a b = .eq then some (n + 1, b)
    else disorder? unique f (n + 1) (b :: r)
  | _, _ => none

/-- The options of the program `sort`. -/
def known : Known :=
  { plain := "bdfghiMnRrVcCmsuz", valued := "koStT"
    long := [("numeric-sort", 'n'), ("reverse", 'r'), ("unique", 'u'), ("key", 'k'),
      ("field-separator", 't'), ("output", 'o'), ("ignore-case", 'f'), ("stable", 's'),
      ("ignore-leading-blanks", 'b'), ("general-numeric-sort", 'g'), ("version-sort", 'V'),
      ("human-numeric-sort", 'h'), ("check", 'c'), ("merge", 'm'), ("dictionary-order", 'd'),
      ("zero-terminated", 'z')] }

end Order

open MemoFlow.Shell.Order in
/-- **The program `sort`.** -/
def sorted (v : View) (args : List String) : Start :=
  match Given.ofList? known args with
  | .error e => .reply (refuseWithHint 2 "sort" e)
  | .ok g =>
    let manner := g.options.foldl (fun m o => Manner.withLetter m o.1) { }
    let numbers := "ghMn".toList.filter g.has
    let others := "diRV".toList.filter g.has
    let clash :=
      if 1 < numbers.length || !numbers.isEmpty && !others.isEmpty then
        "dghiMnRV".toList.filter g.has
      else "cC".toList.filter g.has
    let sign := (g.value? 't').map fun t => if t = "\\0" then '\x00' else t.toList.head?.getD ' '
    match g.value? 't' with
    | some "" => .reply (refuse 2 "sort" "empty tab")
    | some t =>
      if 1 < t.length && t ≠ "\\0" then
        .reply (refuse 2 "sort" ("multi-character tab " ++ quoted t))
      else checked g manner sign clash
    | none => checked g manner sign clash
where
  /-- The program unless options exclude each other. -/
  checked (g : Given) (manner : Manner) (sign : Option Char) (clash : List Char) : Start :=
    if 1 < clash.length then
      .reply (refuse 2 "sort" ("options " ++ inQuotes ("-" ++ String.ofList clash) ++
        " are incompatible"))
    else order g manner sign
  /-- The program with its options read. -/
  order (g : Given) (manner : Manner) (sign : Option Char) : Start :=
    match (g.values 'k').mapM key? with
    | .error e => .reply (refuse 2 "sort" e)
    | .ok ks =>
      let keys := if ks.isEmpty then [{ manner := manner }]
        else ks.map fun k => if k.2 then k.1 else { k.1 with manner := manner }
      let unique := g.has 'u'
      let f := compareLines sign keys (!(g.has 's' || unique)) manner.reverse
      let checks := g.has 'c' || g.has 'C'
      if checks && 1 < g.rest.length then
        .reply (refuse 2 "sort" ("extra operand " ++ quoted ((g.rest[1]?).getD "") ++
          " not allowed with -" ++ (if g.has 'c' then "c" else "C")))
      else readAll v g.rest fun ss =>
        match ss.find? fun s => s.text.toOption.isNone with
        | some s =>
          let e := match s.text with | .error e => e | .ok _ => ""
          let what := if e ≠ noFile then "read failed: " else if checks then "open failed: "
            else "cannot read: "
          refuse 2 "sort" (what ++ s.name ++ ": " ++ e)
        | none =>
          let ls := ss.flatMap fun s => linesOf (s.text.toOption.getD "")
          if checks then
            match disorder? unique f 1 ls with
            | none => { }
            | some (n, l) =>
              let name := (ss.head?.map Source.name).getD "-"
              if g.has 'C' then { status := 1 }
              else refuse 1 "sort" (name ++ ":" ++ toString n ++ ": disorder: " ++ l)
          else
            let ls := ls.mergeSort fun a b => f a b ≠ .gt
            let ls := if unique then withoutSame f none ls else ls
            match g.value? 'o' with
            | some p => { files := [(p, unlines ls)] }
            | none => { out := unlines ls }

/-! ## Lines that come again -/

namespace Order

/-- The options of the program `uniq`. -/
def repeatOptions : Known :=
  { plain := "cdDiuz", valued := "fsw"
    long := [("count", 'c'), ("repeated", 'd'), ("unique", 'u'), ("ignore-case", 'i'),
      ("skip-fields", 'f'), ("skip-chars", 's'), ("check-chars", 'w')] }

/-- Characters without some fields before them. -/
def withoutFields : Nat → List Char → List Char
  | 0, cs => cs
  | n + 1, cs =>
    withoutFields n ((cs.dropWhile fun c => c = ' ' || c = '\t').dropWhile fun c =>
      !(c = ' ' || c = '\t'))

/-- Runs of elements that count as the same. -/
def grouped {α : Type} (same : α → α → Bool) (xs : List α) : List (List α) :=
  xs.foldr (fun x gs =>
    match gs with
    | (y :: ys) :: gs => if same x y then (x :: y :: ys) :: gs else [x] :: (y :: ys) :: gs
    | gs => [x] :: gs) []

/-- Three columns of two sorted lists; `n` bounds the number of their lines. -/
def threeColumns (show' : Nat → String → List String) :
    Nat → List String → List String → List String
  | 0, _, _ => []
  | _, [], bs => bs.flatMap (show' 2)
  | _, as, [] => as.flatMap (show' 1)
  | n + 1, a :: as, b :: bs =>
    if a = b then show' 3 a ++ threeColumns show' n as bs
    else if a < b then show' 1 a ++ threeColumns show' n as (b :: bs)
    else show' 2 b ++ threeColumns show' n (a :: as) bs

end Order

open MemoFlow.Shell.Order in
/-- The program `uniq`. -/
def repeated (v : View) (args : List String) : Start :=
  match Given.ofList? repeatOptions args with
  | .error e => .reply (refuseWithHint 1 "uniq" e)
  | .ok g =>
    let number (c : Char) : Option Nat := (g.value? c).bind String.toNat?
    let bad (c : Char) : Bool := g.has c && (number c).isNone
    if bad 'f' then
      .reply (refuse 1 "uniq" ((g.value? 'f').getD "" ++ ": invalid number of fields to skip"))
    else if bad 's' then
      .reply (refuse 1 "uniq" ((g.value? 's').getD "" ++ ": invalid number of bytes to skip"))
    else if bad 'w' then
      .reply (refuse 1 "uniq" ((g.value? 'w').getD "" ++ ": invalid number of bytes to compare"))
    else
      let part (l : String) : List Char :=
        let cs := (withoutFields ((number 'f').getD 0) l.toList).drop ((number 's').getD 0)
        let cs := match number 'w' with | some n => cs.take n | none => cs
        if g.has 'i' then cs.map Char.toLower else cs
      let made (t : String) : String :=
        let gs := grouped (fun a b => part a = part b) (linesOf t)
        let gs := if g.has 'd' || g.has 'D' then gs.filter fun g => 1 < g.length else gs
        let gs := if g.has 'u' then gs.filter fun g => g.length = 1 else gs
        if g.has 'D' then unlines gs.flatten
        else unlines (gs.filterMap fun ls => ls.head?.map fun l =>
          if g.has 'c' then Format.pad false ' ' 7 (toString ls.length) ++ " " ++ l else l)
      match g.rest with
      | [p, q] => readAll v [p] fun ss => { files := [(q, made (Source.all ss))] }
      | _ :: _ :: c :: _ => .reply (refuseWithHint 1 "uniq" ("extra operand " ++ quoted c))
      | files => readAll v files fun ss =>
        let err := Source.complaints (fun p e => if e = noFile then "uniq: " ++ p ++ ": " ++ e
          else "uniq: error reading " ++ inQuotes p ++ ": " ++ e) ss
        { out := made (Source.all ss), err := err, status := if err.isEmpty then 0 else 1 }

open MemoFlow.Shell.Order in
/-- The program `comm`. -/
def common (v : View) (args : List String) : Start :=
  match Given.ofList? { plain := "123iz" } args with
  | .error e => .reply (refuseWithHint 1 "comm" e)
  | .ok g =>
    match g.rest with
    | [] => .reply (refuseWithHint 1 "comm" "missing operand")
    | [a] => .reply (refuseWithHint 1 "comm" ("missing operand after " ++ quoted a))
    | [a, b] => readAll v [a, b] fun ss =>
      let err := Source.complaints (fun p e => "comm: " ++ p ++ ": " ++ e) ss
      let texts := ss.map fun s => linesOf (s.text.toOption.getD "")
      let hidden (i : Nat) : Bool := g.has (Char.ofNat (48 + i))
      let show' (i : Nat) (l : String) : List String :=
        if hidden i then []
        else
          let before := ((List.range (i - 1)).filter fun j => !hidden (j + 1)).length
          [String.ofList (List.replicate before '\t') ++ l]
      let (x, y) := ((texts[0]?).getD [], (texts[1]?).getD [])
      if err.isEmpty then { out := unlines (threeColumns show' (x.length + y.length + 1) x y) }
      else { err := err, status := 1 }
    | _ :: _ :: c :: _ => .reply (refuseWithHint 1 "comm" ("extra operand " ++ quoted c))

end MemoFlow.Shell
