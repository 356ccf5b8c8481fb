import MemoFlow.Shell.Files

/-!
# Replies of programs

* `Shell.Reply`: what a program leaves behind;
* **`Shell.Start`**, `Shell.Question`: what a program does first, and commands that it runs;
* `Shell.View`, `Shell.Tools`: what a program sees, and programs that are given from outside;
* `Shell.refuse`, `Shell.invalidOption?`: complaints that programs share.
-/

namespace MemoFlow.Shell

/-- What a program leaves behind. -/
structure Reply where
  /-- Its status. -/
  status : Nat := 0
  /-- Its output. -/
  out : String := ""
  /-- Its complaints. -/
  err : String := ""
  /-- Whether its complaints come before its output. -/
  early : Bool := false
  /-- Files that it makes, with their contents. -/
  files : List (String × String) := []
  /-- Folders that it makes. -/
  folders : List String := []
  /-- Files and folders that it removes. -/
  removed : List String := []
  /-- Files and folders that get another path. -/
  moved : List (String × String) := []
  /-- Links that it makes, with the paths to which they lead. -/
  links : List (String × String) := []
  /-- Second paths that it gives to files. -/
  shared : List (String × String) := []
  /-- Rights that it sets. -/
  modes : List (String × Nat) := []

/-- A command that a program runs: its text, its input, and whether its output is used. -/
structure Question where
  /-- The text. -/
  command : String
  /-- The input, if it has its own. -/
  input : Option String
  /-- Whether its output is used. -/
  captured : Bool

/-- What a program does first. -/
inductive Start where
  /-- It ends. -/
  | reply (r : Reply)
  /-- It reads its input and ends. -/
  | reads (f : String → Reply)
  /-- It reads its input and calls other programs. -/
  | feeds (f : String → Except String (List (List String)))
  /-- It calls another program, perhaps under other variables. -/
  | calls (vars : Option (List (String × String))) (command : List String)
  /-- It runs commands on its way. What it leaves behind hangs on its input, if it reads that, and
  on the statuses and outputs of those that have been run; the next one comes with it. -/
  | asks (reads : Bool) (f : String → List (Nat × String) → Reply × Option Question)
  /-- A signal ends it. -/
  | dies (signal : Nat)
  /-- It is a shell with some options that runs a text, or a file, with a name and arguments. -/
  | shell (flags : List Char) (text : String ⊕ String) (name : String) (arguments : List String)

/-- What a program sees. -/
structure View where
  /-- What is found under a path. -/
  kind? : String → Option FileKind
  /-- The contents of a file. -/
  contents? : String → Option String
  /-- The variables. -/
  vars : List (String × String)
  /-- The path to which a link leads. -/
  link? : String → Option String
  /-- The rights of a file. -/
  mode : String → Nat
  /-- What commands have made below a path, as it goes on behind that path. -/
  below : String → List String
  /-- A path without links and detours. -/
  full : String → String
  /-- A number that no file has. -/
  fresh : Nat

/-- **Programs given from outside**: a reply for a name and arguments. -/
abbrev Tools : Type := String → List String → Option Reply

/-- A complaint of a program that ends with a status. -/
def refuse (status : Nat) (name t : String) : Reply :=
  { status := status, err := name ++ ": " ++ t ++ "\n" }

/-- A complaint with a hint. -/
def refuseWithHint (status : Nat) (name t : String) : Reply :=
  { status := status
    err := name ++ ": " ++ t ++ "\nTry '" ++ name ++ " --help' for more information.\n" }

/-- A string in the quotes of complaints. -/
def inQuotes (s : String) : String := "'" ++ s ++ "'"

/-- A string in quotes in which backslashes and quotes are marked. -/
def quoted (s : String) : String :=
  inQuotes (String.ofList (s.toList.flatMap fun c =>
    if c = '\\' || c = '\'' then ['\\', c] else if c = '\n' then ['\\', 'n']
    else if c = '\t' then ['\\', 't'] else [c]))

/-- Options and other arguments. -/
def partOptions (args : List String) : List String × List String :=
  args.partition fun s => s.startsWith "-" && s ≠ "-" && s ≠ "--"

/-- The letters of options that programs know. -/
def optionLetters : List (String × String) :=
  [("tac", "br"), ("rev", ""), ("sleep", ""), ("dirname", "z"), ("yes", "")]

/-- The complaint of a program about the first letter of its options that it does not know. -/
def invalidOption? (name : String) (args : List String) : Option Reply :=
  match optionLetters.lookup name with
  | none => none
  | some known =>
    let letters := (partOptions args).1.filter (fun o => !o.startsWith "--")
    match (letters.flatMap fun o => o.toList.drop 1).find? fun c => !known.contains c with
    | some c =>
      some (refuseWithHint ((refusal? name).getD 1) name
        ("invalid option -- " ++ inQuotes (String.singleton c)))
    | none => none

end MemoFlow.Shell
