import MemoFlow.Shell.Files
import MemoFlow.Shell.Given
import MemoFlow.Shell.Pattern

/-!
# Files and folders

Programs that show, make, move and remove files and folders.

* `Tree.names`: what lies in a folder;
* `Tree.listing`, `Tree.find`: the programs `ls` and `find`;
* `Tree.remove`, `Tree.make`, `Tree.copy`, `Tree.link`, `Tree.setRights`: programs that change
  something;
* **`Shell.onFiles?`**: the programs by their names.
-/

namespace MemoFlow.Shell

namespace Tree

/-! ## Paths -/

/-- The folder in which a path lies. -/
def home (p : String) : String :=
  let h := joinParts (parts p).dropLast
  if p.startsWith "/" then (if h = "" then "/" else h)
  else if h = "" then "." else String.ofList (h.toList.drop 1)

/-- Whether there is a folder in which a path can lie. -/
def homeOk (v : View) (p : String) : Bool := v.kind? (home p) = some .folder

/-- Whether something is found under a path, be it a link that leads nowhere. -/
def isThere (v : View) (p : String) : Bool := (v.kind? p).isSome || (v.link? p).isSome

/-- Whether a path is that of a folder itself, not that of a link to one. -/
def isFolder (v : View) (p : String) : Bool := v.kind? p = some .folder && (v.link? p).isNone

/-- A name in a folder. -/
def under (folder name : String) : String :=
  if folder.endsWith "/" then folder ++ name else folder ++ "/" ++ name

/-- What lies in a folder, in order. -/
def names (v : View) (p : String) : List String :=
  ((v.below p).map fun q => String.ofList (q.toList.takeWhile (· ≠ '/'))).eraseDups

/-- A complaint for each of some paths that a function refuses. -/
def refusing (name : String) (status : Nat) (paths : List String)
    (f : String → Option String) : Reply :=
  let errs := paths.filterMap f
  { status := if errs.isEmpty then 0 else status
    err := errs.foldl (fun s e => s ++ name ++ ": " ++ e ++ "\n") "" }

/-- That something cannot be done to a path that is not there. -/
def lost (verb p : String) : String := "cannot " ++ verb ++ " " ++ inQuotes p ++ ": " ++ noFile

/-! ## Showing -/

/-- The options of the program `ls`. -/
def shows : Known :=
  { plain := "aAlhdF1rtsSRiLnopBcCfgGHkmNqQuUvxXZ", valued := "wIT"
    long := [("all", 'a'), ("almost-all", 'A'), ("directory", 'd'), ("color", 'G'),
      ("reverse", 'r'), ("recursive", 'R'), ("classify", 'F')] }

/-- A name with a sign for its kind. -/
def marked (v : View) (g : Given) (path name : String) : String :=
  if v.kind? path = some .folder && (g.has 'F' || g.has 'p') then name ++ "/"
  else if g.has 'F' && (v.link? path).isSome then name ++ "@"
  else if g.has 'F' && (v.mode path &&& 73) ≠ 0 then name ++ "*"
  else name

/-- What a folder is shown as. -/
def folderRows (v : View) (g : Given) (p : String) : List String :=
  let ns := names v p
  let ns := if g.has 'a' || g.has 'A' then ns else ns.filter fun n => !n.startsWith "."
  let ns := if g.has 'a' then "." :: ".." :: ns else ns
  let ns := if g.has 'r' then ns.reverse else ns
  ns.map fun n => marked v g (under p n) n

/-- The program `ls`. -/
def listing (v : View) (name : String) (args : List String) : Reply :=
  match Given.ofList? shows args with
  | .error e => refuseWithHint 2 name e
  | .ok g =>
    let paths := if g.rest.isEmpty then ["."] else g.rest.mergeSort fun a b => !decide (b < a)
    let r := refusing name 2 paths fun p =>
      if isThere v p then none else some (lost "access" p)
    let there := paths.filter (isThere v)
    let (folders, files) := there.partition fun p => v.kind? p = some .folder && !g.has 'd'
    let many := 1 < paths.length
    let blocks := folders.map fun p =>
      (if many then [p ++ ":"] else []) ++ folderRows v g p
    let first := if files.isEmpty then [] else [files.map fun p => marked v g p p]
    { r with
      out := String.intercalate "\n" ((first ++ blocks).map unlines)
      early := true }

/-- What `find` asks of a path, given with its depth. -/
inductive Test where
  /-- Its name fits a pattern, perhaps without regard to case. -/
  | name (fold : Bool) (pattern : List Mark)
  /-- All of it fits a pattern. -/
  | path (pattern : List Mark)
  /-- It is of a kind. -/
  | kind (c : Char)
  /-- It is empty. -/
  | empty
  /-- It is shown. -/
  | print (sep : String)
  /-- It is removed. -/
  | delete
  /-- Nothing. -/
  | always
  /-- Not something. -/
  | not (t : Test)
  /-- Both of two things. -/
  | both (a b : Test)
  /-- One of two things. -/
  | either (a b : Test)

/-- The marks of a pattern. -/
def marksOf (fold : Bool) : List Char → List Mark
  | '\\' :: c :: r => ⟨c, true⟩ :: marksOf fold r
  | c :: r => ⟨if fold then c.toLower else c, false⟩ :: marksOf fold r
  | [] => []

mutual

/-- Tests with `-o` between them, and what follows them. -/
def disjunction : Nat → List String → Except String (Test × List String)
  | 0, _ => .error "expression too deep"
  | n + 1, args => do
    let (a, r) ← conjunction n args
    match r with
    | "-o" :: r | "-or" :: r =>
      let (b, r) ← disjunction n r
      return (.either a b, r)
    | r => return (a, r)

/-- Tests one behind the other, and what follows them. -/
def conjunction : Nat → List String → Except String (Test × List String)
  | 0, _ => .error "expression too deep"
  | n + 1, args => do
    let (a, r) ← primary n args
    match r with
    | [] => return (a, [])
    | "-a" :: r | "-and" :: r =>
      let (b, r) ← conjunction n r
      return (.both a b, r)
    | s :: r' =>
      if s = "-o" || s = "-or" || s = ")" then return (a, s :: r')
      else
        let (b, r) ← conjunction n (s :: r')
        return (.both a b, r)

/-- A test, and what follows it. -/
def primary : Nat → List String → Except String (Test × List String)
  | 0, _ => .error "expression too deep"
  | n + 1, args => do
    match args with
    | [] => return (.always, [])
    | "!" :: r | "-not" :: r =>
      let (a, r) ← primary n r
      return (.not a, r)
    | "(" :: r =>
      let (a, r) ← disjunction n r
      match r with
      | ")" :: r => return (a, r)
      | _ => throw "invalid expression; expected to find a ')' but didn't see one."
    | "-print" :: r => return (.print "\n", r)
    | "-print0" :: r => return (.print "\x00", r)
    | "-delete" :: r => return (.delete, r)
    | "-empty" :: r => return (.empty, r)
    | "-true" :: r | "-depth" :: r | "-mount" :: r | "-xdev" :: r => return (.always, r)
    | "-false" :: r => return (.not .always, r)
    | o :: r =>
      if ["-name", "-iname", "-path", "-type", "-maxdepth", "-mindepth"].contains o then
        match r with
        | [] => throw ("missing argument to \x60" ++ o ++ "'")
        | s :: r =>
          let test : Test := match o with
            | "-name" => .name false (marksOf false s.toList)
            | "-iname" => .name true (marksOf true s.toList)
            | "-path" => .path (marksOf false s.toList)
            | "-type" => .kind (s.toList.head?.getD 'f')
            | _ => .always
          return (test, r)
      else if o.startsWith "-" then throw ("unknown predicate \x60" ++ o ++ "'")
      else throw ("paths must precede expression: \x60" ++ o ++ "'")

end

/-- Whether a test does something with a path. -/
def Test.acts : Test → Bool
  | .print _ | .delete => true
  | .not a => a.acts
  | .both a b | .either a b => a.acts || b.acts
  | _ => false

/-- Whether a path passes a test, with what is shown and what is removed on the way. -/
def Test.run (v : View) (p : String) : Test → Bool × String × List String
  | .name fold ms =>
    let b := (baseName p).toList
    (fits ms (if fold then b.map Char.toLower else b), "", [])
  | .path ms => (fits ms p.toList, "", [])
  | .kind c =>
    let isLink := (v.link? p).isSome
    let yes := match c with
      | 'l' => isLink
      | 'd' => isFolder v p
      | 'f' => !isLink && (v.kind? p = some .regular || v.kind? p = some .program)
      | 'c' => v.kind? p = some .device
      | _ => false
    (yes, "", [])
  | .empty =>
    (if v.kind? p = some .folder then (v.below p).isEmpty
      else v.kind? p = some .regular && (v.contents? p).any String.isEmpty, "", [])
  | .print sep => (true, p ++ sep, [])
  | .delete => (true, "", [p])
  | .always => (true, "", [])
  | .not a => let r := a.run v p; (!r.1, r.2)
  | .both a b =>
    let x := a.run v p
    if x.1 then
      let y := b.run v p
      (y.1, x.2.1 ++ y.2.1, x.2.2 ++ y.2.2)
    else x
  | .either a b =>
    let x := a.run v p
    if x.1 then x
    else
      let y := b.run v p
      (y.1, x.2.1 ++ y.2.1, x.2.2 ++ y.2.2)

/-- The number behind an option, if it is there. -/
def depth? (o : String) : List String → Option Nat
  | a :: b :: r => if a = o then b.toNat? else depth? o (b :: r)
  | _ => none

/-- The program `find`. -/
def find (v : View) (args : List String) : Reply :=
  let starts := args.takeWhile fun a => !(a.startsWith "-" || a = "!" || a = "(")
  let rest := args.drop starts.length
  let starts := if starts.isEmpty then ["."] else starts
  match disjunction (4 * rest.length + 8) rest with
  | .error e => refuse 1 "find" e
  | .ok (_, s :: _) => refuse 1 "find" ("paths must precede expression: \x60" ++ s ++ "'")
  | .ok (t, []) =>
    let t := if t.acts then t else .both t (.print "\n")
    let most := depth? "-maxdepth" rest
    let least := (depth? "-mindepth" rest).getD 0
    let r := refusing "find" 1 starts fun p =>
      if isThere v p then none else some (inQuotes p ++ ": " ++ noFile)
    let paths := (starts.filter (isThere v)).flatMap fun p =>
      let inside := if isFolder v p then v.below p else []
      let near := inside.filter fun q =>
        let d := (parts q).length
        most.all (fun m => d ≤ m) && least ≤ d
      (if least = 0 then [p] else []) ++ near.map (under p)
    let results := paths.map fun p => t.run v p
    { r with
      out := results.foldl (fun s x => s ++ x.2.1) ""
      removed := results.flatMap fun x => x.2.2 }

/-- What `stat` shows of a file in a format. -/
def statText (v : View) (p : String) : List Char → String
  | '%' :: c :: r =>
    let size := ((v.contents? p).getD "").length
    let kind := match v.kind? p with
      | some .folder => "directory"
      | some .device => "character special file"
      | _ => if size = 0 then "regular empty file" else "regular file"
    let mode := v.mode p
    let t := match c with
      | 'a' => String.ofList (Nat.toDigits 8 mode)
      | 's' => toString size
      | 'n' => p
      | 'F' => if (v.link? p).isSome then "symbolic link" else kind
      | 'A' => (if v.kind? p = some .folder then "d" else "-") ++ Rights.shown mode 6 ['-'] ++
          Rights.shown mode 3 ['-'] ++ Rights.shown mode 0 ['-']
      | 'U' | 'G' => "root"
      | 'u' | 'g' => "0"
      | 'h' => "1"
      | '%' => "%"
      | _ => "?"
    t ++ statText v p r
  | c :: r => String.singleton c ++ statText v p r
  | [] => ""

/-- The program `stat`, with a format. -/
def stat (v : View) (args : List String) : Reply :=
  match Given.ofList? ⟨"Lft", "c", [("format", 'c'), ("printf", 'c')], false⟩ args with
  | .error e => refuseWithHint 1 "stat" e
  | .ok g =>
    if g.rest.isEmpty then refuseWithHint 1 "stat" "missing operand"
    else
      let r := refusing "stat" 1 g.rest fun p =>
        if isThere v p then none else some ("cannot statx " ++ inQuotes p ++ ": " ++ noFile)
      let format := ((g.value? 'c').getD "").toList
      { r with out := unlines ((g.rest.filter (isThere v)).map fun p => statText v p format) }

/-! ## Changing -/

/-- The program `rm`. -/
def remove (v : View) (args : List String) : Reply :=
  match Given.ofList? ⟨"firRdvI", "", [("force", 'f'), ("recursive", 'r'), ("verbose", 'v'),
      ("dir", 'd')], false⟩ args with
  | .error e => refuseWithHint 1 "rm" e
  | .ok g =>
    if g.rest.isEmpty then
      if g.has 'f' then { } else refuseWithHint 1 "rm" "missing operand"
    else
      let deep := g.has 'r' || g.has 'R'
      let fault (p : String) : Option String :=
        if !isThere v p then (if g.has 'f' then none else some (lost "remove" p))
        else if isFolder v p && !deep && !(g.has 'd' && (v.below p).isEmpty) then
          some ("cannot remove " ++ inQuotes p ++ ": " ++
            (if g.has 'd' then "Directory not empty" else "Is a directory"))
        else none
      { refusing "rm" 1 g.rest fault with
        removed := g.rest.filter fun p => isThere v p && (fault p).isNone }

/-- The program `rmdir`. -/
def removeFolder (v : View) (args : List String) : Reply :=
  match Given.ofList? ⟨"pv", "", [("parents", 'p'), ("ignore-fail-on-non-empty", 'v')], false⟩
    args with
  | .error e => refuseWithHint 1 "rmdir" e
  | .ok g =>
    if g.rest.isEmpty then refuseWithHint 1 "rmdir" "missing operand"
    else
      let fault (p : String) : Option String :=
        let said (t : String) : Option String :=
          some ("failed to remove " ++ inQuotes p ++ ": " ++ t)
        if !isThere v p then said noFile
        else if !isFolder v p then said "Not a directory"
        else if !(v.below p).isEmpty && !g.has 'p' then said "Directory not empty"
        else none
      let chains (p : String) : List String :=
        if g.has 'p' then (List.range (parts p).length).map fun i =>
          let q := joinParts ((parts p).take (i + 1))
          if p.startsWith "/" then q else String.ofList (q.toList.drop 1)
        else [p]
      { refusing "rmdir" 1 g.rest fault with
        removed := (g.rest.filter fun p => (fault p).isNone).flatMap chains }

/-- A path and those of the folders around it, the outermost one first. -/
def ancestors (p : String) : List String :=
  (List.range (parts p).length).map fun i =>
    let q := joinParts ((parts p).take (i + 1))
    if p.startsWith "/" then q else String.ofList (q.toList.drop 1)

/-- Folders that are to be made one after the other, and complaints. -/
def newFolders (v : View) (parents : Bool) :
    List String → List String → List String × List String
  | _, [] => ([], [])
  | made, p :: ps =>
    let known (q : String) : Bool := (v.kind? q) = some .folder || made.contains (v.full q)
    let said (t : String) : String := "cannot create directory " ++ inQuotes p ++ ": " ++ t
    let go (more : List String) (err : List String) : List String × List String :=
      let r := newFolders v parents (made ++ more.map v.full) ps
      (more ++ r.1, err ++ r.2)
    if parents then
      match (ancestors p).find? fun q => (v.kind? q).isSome && !known q with
      | some q => go [] ["cannot create directory " ++ inQuotes q ++ ": " ++
          (if q = p then "File exists" else "Not a directory")]
      | none => go ((ancestors p).filter fun q => !known q) []
    else if isThere v p || known p then go [] [said "File exists"]
    else if known (home p) then go [p] []
    else go [] [said noFile]

/-- The program `mkdir`. -/
def make (v : View) (args : List String) : Reply :=
  match Given.ofList? ⟨"pvZ", "m", [("parents", 'p'), ("mode", 'm'), ("verbose", 'v')], false⟩
    args with
  | .error e => refuseWithHint 1 "mkdir" e
  | .ok g =>
    if g.rest.isEmpty then refuseWithHint 1 "mkdir" "missing operand"
    else
      let (folders, errs) := newFolders v (g.has 'p') [] g.rest
      let mode := (g.value? 'm').bind (Rights.changed? 511)
      { status := if errs.isEmpty then 0 else 1
        out := if g.has 'v' then
            unlines (folders.map fun p => "mkdir: created directory " ++ inQuotes p) else ""
        err := errs.foldl (fun s e => s ++ "mkdir: " ++ e ++ "\n") ""
        folders := folders
        modes := match mode with
          | some m => g.rest.map fun p => (p, m)
          | none => [] }

/-- The program `touch`. -/
def touch (v : View) (args : List String) : Reply :=
  match Given.ofList? ⟨"acfhm", "drt", [("no-create", 'c'), ("date", 'd'), ("reference", 'r')],
      false⟩ args with
  | .error e => refuseWithHint 1 "touch" e
  | .ok g =>
    if g.rest.isEmpty then refuseWithHint 1 "touch" "missing file operand"
    else
      let new := g.rest.filter fun p => !isThere v p && !g.has 'c'
      { refusing "touch" 1 new fun p =>
          if homeOk v p then none else some (lost "touch" p) with
        files := (new.filter (homeOk v)).map fun p => (p, "") }

/-- A copy of a file or folder: files, folders and rights. -/
def copied (v : View) (p q : String) : Reply :=
  let text (p : String) : String := (v.contents? p).getD ""
  let rights (p q : String) : List (String × Nat) :=
    if v.mode p = 420 then [] else [(q, v.mode p)]
  if v.kind? p = some .folder then
    let inside := v.below p
    let (folders, files) := inside.partition fun r => isFolder v (under p r)
    { folders := (if isThere v q then [] else [q]) ++ folders.map (under q)
      files := files.map fun r => (under q r, text (under p r)) }
  else { files := [(q, text p)], modes := rights p q }

/-- Two replies one after the other. -/
def andThen (a b : Reply) : Reply :=
  { status := max a.status b.status
    out := a.out ++ b.out
    err := a.err ++ b.err
    files := a.files ++ b.files
    folders := a.folders ++ b.folders
    removed := a.removed ++ b.removed
    moved := a.moved ++ b.moved
    links := a.links ++ b.links
    shared := a.shared ++ b.shared
    modes := a.modes ++ b.modes }

/-- The programs `cp` and `mv`. -/
def copy (v : View) (name : String) (args : List String) : Reply :=
  let move := name = "mv"
  match Given.ofList? ⟨"abdfiHlLnPpRrsTuvxZ", "tS", [("recursive", 'r'), ("force", 'f'),
      ("archive", 'a'), ("verbose", 'v'), ("no-clobber", 'n'), ("target-directory", 't')], false⟩
    args with
  | .error e => refuseWithHint 1 name e
  | .ok g =>
    let paths := match g.value? 't' with
      | some t => g.rest ++ [t]
      | none => g.rest
    match paths.reverse with
    | [] => refuseWithHint 1 name "missing file operand"
    | [p] => refuseWithHint 1 name ("missing destination file operand after " ++ inQuotes p)
    | target :: others =>
      let sources := others.reverse
      let inFolder := v.kind? target = some .folder && !g.has 'T'
      if 1 < sources.length && !inFolder then
        refuse 1 name ("target " ++ inQuotes target ++
          (if isThere v target then ": Not a directory" else ": " ++ noFile))
      else
        let deep := move || g.has 'r' || g.has 'R' || g.has 'a'
        sources.foldl (fun r p =>
          let dest := if inFolder then under target (baseName p) else target
          let one : Reply :=
            if !isThere v p then refuse 1 name (lost "stat" p)
            else if v.kind? p = some .folder && !deep then
              refuse 1 name ("-r not specified; omitting directory " ++ inQuotes p)
            else if v.full p = v.full dest && !move then
              refuse 1 name (inQuotes p ++ " and " ++ inQuotes dest ++ " are the same file")
            else if v.full p = v.full dest then
              refuse 1 name (inQuotes p ++ " and " ++ inQuotes dest ++ " are the same file")
            else if !homeOk v dest then
              refuse 1 name (if move then "cannot move " ++ inQuotes p ++ " to " ++ inQuotes dest ++
                  ": " ++ noFile
                else "cannot create regular file " ++ inQuotes dest ++ ": " ++ noFile)
            else if g.has 'n' && isThere v dest then { }
            else if move then { moved := [(p, dest)] }
            else copied v p dest
          andThen r one) { }

/-- The program `ln`. -/
def link (v : View) (args : List String) : Reply :=
  match Given.ofList? ⟨"sfnvrTLPi", "t", [("symbolic", 's'), ("force", 'f')], false⟩ args with
  | .error e => refuseWithHint 1 "ln" e
  | .ok g =>
    let symbolic := g.has 's'
    let kind := if symbolic then "symbolic link " else "hard link "
    let one (p q : String) : Reply :=
      let dest := if v.kind? q = some .folder && !(g.has 'T' || g.has 'n') then under q (baseName p)
        else q
      if !symbolic && !isThere v p then
        refuse 1 "ln" ("failed to access " ++ inQuotes p ++ ": " ++ noFile)
      else if !symbolic && v.kind? p = some .folder then
        refuse 1 "ln" (p ++ ": hard link not allowed for directory")
      else if isThere v dest && !g.has 'f' then
        refuse 1 "ln" ("failed to create " ++ kind ++ inQuotes dest ++ ": File exists")
      else if !homeOk v dest then
        refuse 1 "ln" ("failed to create " ++ kind ++ inQuotes dest ++ ": " ++ noFile)
      else
        let gone := if isThere v dest then [dest] else []
        if symbolic then { links := [(dest, p)], removed := gone }
        else { shared := [(dest, p)], removed := gone }
    match g.rest with
    | [] => refuseWithHint 1 "ln" "missing file operand"
    | [p] => one p (baseName p)
    | p :: r => (p :: r).dropLast.foldl (fun s p => andThen s (one p (r.getLast?.getD p))) { }

/-- The program `chmod`. -/
def setRights (v : View) (args : List String) : Reply :=
  let isOption (s : String) : Bool := ["-R", "-v", "-f", "-c", "--recursive", "--"].contains s
  match args.filter fun a => !isOption a with
  | [] => refuseWithHint 1 "chmod" "missing operand"
  | [m] => refuseWithHint 1 "chmod" ("missing operand after " ++ inQuotes m)
  | m :: paths =>
    if (Rights.changed? 0 m).isNone then
      refuseWithHint 1 "chmod" ("invalid mode: " ++ inQuotes m)
    else
      let deep := args.contains "-R"
      let all := paths.flatMap fun p =>
        p :: (if deep then (v.below p).map (under p) else [])
      { refusing "chmod" 1 paths fun p =>
          if (v.kind? p).isSome then none else some (lost "access" p) with
        modes := (all.filter fun p => (v.kind? p).isSome).filterMap fun p =>
          (Rights.changed? (v.mode p) m).map fun n => (p, n) }

/-- The program `readlink`. -/
def target (v : View) (args : List String) : Reply :=
  match Given.ofList? ⟨"femnqsvz", "", [("canonicalize", 'f')], false⟩ args with
  | .error e => refuseWithHint 1 "readlink" e
  | .ok g =>
    if g.rest.isEmpty then refuseWithHint 1 "readlink" "missing operand"
    else
      let found := g.rest.map fun p =>
        if g.has 'f' then (if homeOk v p then some (v.full p) else none)
        else if g.has 'e' then (if (v.kind? p).isSome then some (v.full p) else none)
        else if g.has 'm' then some (v.full p)
        else v.link? p
      let end' := if g.has 'n' then "" else "\n"
      { out := (found.filterMap id).foldl (fun s t => s ++ t ++ end') ""
        status := if found.all Option.isSome then 0 else 1 }

/-- The program `realpath`. -/
def canonical (v : View) (args : List String) : Reply :=
  match Given.ofList? ⟨"emsLPqz", "", [], false⟩ args with
  | .error e => refuseWithHint 1 "realpath" e
  | .ok g =>
    if g.rest.isEmpty then refuseWithHint 1 "realpath" "missing operand"
    else
      let ok (p : String) : Bool :=
        g.has 'm' || if g.has 'e' then (v.kind? p).isSome else homeOk v p
      { refusing "realpath" 1 g.rest fun p => if ok p then none else some (p ++ ": " ++ noFile) with
        out := unlines ((g.rest.filter ok).map v.full) }

/-- The letters that take the place of signs in a name that is new. -/
def freshLetters (k n : Nat) : List Char :=
  (List.range k).map fun i => Char.ofNat (97 + n / Nat.pow 26 i % 26)

/-- The program `mktemp`. -/
def temporary (v : View) (args : List String) : Reply :=
  match Given.ofList? ⟨"duqt", "p", [("directory", 'd'), ("dry-run", 'u'), ("quiet", 'q'),
      ("tmpdir", 'p')], false⟩ args with
  | .error e => refuseWithHint 1 "mktemp" e
  | .ok g =>
    let folder := (g.value? 'p').getD "/tmp"
    let template := match g.rest.head? with
      | some t => if g.has 't' || g.has 'p' then under folder t else t
      | none => under folder "tmp.XXXXXXXXXX"
    let cs := template.toList
    let signs := (cs.reverse.takeWhile (· = 'X')).length
    if signs < 3 then
      refuse 1 "mktemp" ("too few X's in template " ++ inQuotes template)
    else
      let p := String.ofList (cs.take (cs.length - signs) ++ freshLetters signs v.fresh)
      if !homeOk v p then
        refuse 1 "mktemp" ("failed to create " ++ (if g.has 'd' then "directory" else "file") ++
          " via template " ++ inQuotes template ++ ": " ++ noFile)
      else
        { out := p ++ "\n"
          folders := if g.has 'd' && !g.has 'u' then [p] else []
          files := if g.has 'd' || g.has 'u' then [] else [(p, "")]
          modes := if g.has 'u' then [] else [(p, if g.has 'd' then 448 else 384)] }

end Tree

open MemoFlow.Shell.Tree in
/-- **Programs on files and folders** by their names. -/
def onFiles? (v : View) (name : String) (args : List String) : Option Reply :=
  match name with
  | "ls" | "dir" | "vdir" => some (listing v name args)
  | "find" => some (find v args)
  | "stat" => some (stat v args)
  | "rm" => some (remove v args)
  | "unlink" =>
    match args with
    | [p] => some (if isThere v p && !isFolder v p then { removed := [p] }
        else refuse 1 "unlink" ("cannot unlink " ++ inQuotes p ++ ": " ++
          (if isThere v p then "Is a directory" else noFile)))
    | _ => some (refuseWithHint 1 "unlink" "missing operand")
  | "rmdir" => some (removeFolder v args)
  | "mkdir" => some (make v args)
  | "touch" => some (touch v args)
  | "cp" | "mv" => some (copy v name args)
  | "ln" => some (link v args)
  | "chmod" => some (setRights v args)
  | "readlink" => some (target v args)
  | "realpath" => some (canonical v args)
  | "mktemp" => some (temporary v args)
  | _ => none

end MemoFlow.Shell
