import MemoFlow.Shell.Format
import MemoFlow.Shell.Reply

/-!
# What programs are given

* **`Shell.Given`**: the options and other arguments of a program;
* `Given.ofList?`: the options among arguments;
* `Shell.Source`, `Shell.readAll`: the files that a program reads, or else its input;
* `Shell.linesOf`, `Shell.unlines`, `Shell.wordsIn`: the lines and words of a text.
-/

namespace MemoFlow.Shell

/-- Options, with their values, and other arguments. -/
structure Given where
  /-- The options. -/
  options : List (Char × String) := []
  /-- The other arguments. -/
  rest : List String := []

/-- The options that a program knows: letters without a value, letters with one, and long names. -/
structure Known where
  /-- Letters without a value. -/
  plain : String
  /-- Letters with a value. -/
  valued : String := ""
  /-- Long names and the letters that they stand for. -/
  long : List (String × Char) := []
  /-- Whether options stand before all other arguments. -/
  ordered : Bool := false

namespace Given

/-- Whether an option is given. -/
def has (g : Given) (c : Char) : Bool := g.options.any fun o => o.1 = c

/-- The last value of an option. -/
def value? (g : Given) (c : Char) : Option String :=
  (g.options.reverse.find? fun o => o.1 = c).map Prod.snd

/-- All values of an option. -/
def values (g : Given) (c : Char) : List String :=
  (g.options.filter fun o => o.1 = c).map Prod.snd

/-- The options in a row of letters, and the arguments behind it that they leave. -/
def letters (k : Known) :
    List Char → List String → Except String (List (Char × String) × List String)
  | [], r => .ok ([], r)
  | c :: cs, r =>
    if k.valued.contains c then
      if !cs.isEmpty then .ok ([(c, String.ofList cs)], r)
      else
        match r with
        | [] => .error ("option requires an argument -- " ++ inQuotes (String.singleton c))
        | s :: r => .ok ([(c, s)], r)
    else if k.plain.contains c then (letters k cs r).map fun p => ((c, "") :: p.1, p.2)
    else .error ("invalid option -- " ++ inQuotes (String.singleton c))

/-- An option with a long name, and the arguments behind it that it leaves. -/
def longName (k : Known) (s : String) (r : List String) :
    Except String ((Char × String) × List String) :=
  let name := String.ofList (s.toList.takeWhile (· ≠ '='))
  let value :=
    if s.contains '=' then some (String.ofList (s.toList.drop (name.length + 1))) else none
  match k.long.find? fun p => p.1.startsWith name with
  | none => .error ("unrecognized option " ++ inQuotes ("--" ++ name))
  | some (full, c) =>
    if k.valued.contains c then
      match value, r with
      | some v, r => .ok ((c, v), r)
      | none, v :: r => .ok ((c, v), r)
      | none, [] => .error ("option " ++ inQuotes ("--" ++ full) ++ " requires an argument")
    else .ok ((c, ""), r)

/-- The options among arguments; each step takes an argument at least. -/
def gather (k : Known) : Nat → List String → Except String Given
  | 0, _ | _, [] => .ok { }
  | n + 1, s :: r => do
    if s = "--" then return { rest := r }
    else
      match s.toList with
      | '-' :: '-' :: name =>
        let (o, r) ← longName k (String.ofList name) r
        let g ← gather k n r
        return { g with options := o :: g.options }
      | '-' :: c :: cs =>
        let (os, r) ← letters k (c :: cs) r
        let g ← gather k n r
        return { g with options := os ++ g.options }
      | _ =>
        if k.ordered then return { rest := s :: r }
        let g ← gather k n r
        return { g with rest := s :: g.rest }

/-- **The options among arguments**, or what is wrong with them. -/
def ofList? (k : Known) (args : List String) : Except String Given :=
  gather k (args.length + 1) args

end Given

/-! ## Sources -/

/-- A file that is read: its name, and its text or why there is none. -/
structure Source where
  /-- Its name. -/
  name : String
  /-- Its text. -/
  text : Except String String

/-- Why a file is not there. -/
def noFile : String := "No such file or directory"

/-- The files that are read, when the input is `input`. -/
def sources (v : View) (input : String) (files : List String) : List Source :=
  files.map fun p =>
    if p = "-" then ⟨p, .ok input⟩
    else
      match v.kind? p with
      | none => ⟨p, .error noFile⟩
      | some .folder => ⟨p, .error "Is a directory"⟩
      | _ => ⟨p, .ok ((v.contents? p).getD "")⟩

/-- A program that makes something of the files that it reads, or else of its input. -/
def readAll (v : View) (files : List String) (f : List Source → Reply) : Start :=
  if files.isEmpty then .reads fun t => f (sources v t ["-"])
  else if files.contains "-" then .reads fun t => f (sources v t files)
  else .reply (f (sources v "" files))

/-- The text of all sources. -/
def Source.all (ss : List Source) : String :=
  ss.foldl (fun t s => t ++ (s.text.toOption.getD "")) ""

/-- The complaints about sources that are not there. -/
def Source.complaints (said : String → String → String) (ss : List Source) : String :=
  ss.foldl (fun t s =>
    match s.text with
    | .ok _ => t
    | .error e => t ++ said s.name e ++ "\n") ""

/-- Whether the first source is not there. -/
def Source.startsBad (ss : List Source) : Bool := ss.head?.any fun s => s.text.toOption.isNone

/-- A program that makes something of the whole text of the files that it reads. -/
def overFiles (v : View) (name : String) (files : List String) (f : String → String) : Start :=
  readAll v files fun ss =>
    let err := Source.complaints (fun p e => name ++ ": " ++ p ++ ": " ++ e) ss
    { out := f (Source.all ss), err := err, status := if err.isEmpty then 0 else 1
      early := Source.startsBad ss }

/-! ## Lines and words -/

/-- The lines of a text. -/
def linesOf (s : String) : List String :=
  let ls := (s.toList.splitOnP (· = '\n')).map String.ofList
  if ls.getLast? = some "" then ls.dropLast else ls

/-- Lines as a text. -/
def unlines (ls : List String) : String := ls.foldl (fun s l => s ++ l ++ "\n") ""

/-- The words of a text. -/
def wordsIn (s : String) : List String :=
  ((s.toList.splitOnP isSpace).map String.ofList).filter (· ≠ "")

/-- Whether some characters stand inside others. -/
def occurs (p : List Char) : List Char → Bool
  | [] => p.isEmpty
  | c :: r => p.isPrefixOf (c :: r) || occurs p r

end MemoFlow.Shell
