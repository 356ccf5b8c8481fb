import MemoFlow.Shell.Condition
import MemoFlow.Shell.Files
import MemoFlow.Shell.Filter
import MemoFlow.Shell.Signal

/-!
# Commands of the shell itself

The commands that a shell runs without help: those that run other commands are not among them.

* `Builtin.exit`, `Builtin.back`, `Builtin.leave`: ways out of the shell, of functions and of loops;
* `Builtin.goTo`, `Builtin.setMask`, `Builtin.setLimit`: folders, masks and limits;
* `Builtin.describe?`, `Builtin.tell`: what a name stands for;
* **`Shell.builtin?`**: the commands by their names.
-/

namespace MemoFlow.Shell

namespace Builtin

/-! ## Ways out -/

/-- End the shell. -/
def exit (args : List String) : Act Nat := do
  match args with
  | a :: _ => setStatus (← countOf a)
  | [] => pure ()
  throw .quit

/-- End a function. -/
def back (args : List String) : Act Nat := do
  match args with
  | a :: _ => setStatus (← countOf a)
  | [] => pure ()
  throw .back

/-- End loops or go on with their next turn. -/
def leave (again : Bool) (args : List String) : Act Nat := do
  let n ← match args with
    | a :: _ => do
      let n ← countOf a
      if n = 0 then giveUp ("Illegal number: " ++ a)
      pure n
    | [] => pure 1
  let depth := (← get).loops
  if depth = 0 then return 0
  setStatus 0
  let out := min n depth - 1
  throw (if again then .again out else .leave out)

/-! ## Folders and settings -/

/-- Go to a folder. -/
def goTo (args : List String) : Act Nat := do
  let (_, args) ← options "LP" args
  let s ← get
  let target := match args with
    | [] => (s.value? "HOME").getD ""
    | "-" :: _ => (s.value? "OLDPWD").getD s.folder
    | p :: _ => p
  if target.isEmpty then return 0
  let path := s.place target
  if s.kind? target = some .folder then
    assign "OLDPWD" (if s.folder = "" then "/" else s.folder)
    assign "PWD" (if path = "" then "/" else path)
    modify fun s => { s with folder := path }
    if args = ["-"] then
      let _ ← write 1 ((if path = "" then "/" else path) ++ "\n")
    return 0
  giveUp ("can't cd to " ++ target)

/-- The rights that new files do not get. -/
def setMask (args : List String) : Act Nat := do
  let (os, args) ← options "S" args
  let mask := (← get).mask
  match args with
  | [] =>
    let rights (k : Nat) : String := Rights.shown (511 - mask) k []
    let t := if os.contains 'S' then "u=" ++ rights 6 ++ ",g=" ++ rights 3 ++ ",o=" ++ rights 0
      else Format.pad false '0' 4 (String.ofList (Nat.toDigits 8 mask))
    let _ ← write 1 (t ++ "\n")
    return 0
  | a :: _ =>
    let set' (m : Nat) : Act Nat := do
      modify fun s => { s with mask := m % 512 }
      return 0
    if (a.toList.head?).any Char.isDigit then
      match Rights.octal? a with
      | some m => set' m
      | none => giveUp ("Illegal number: " ++ a)
    else
      match Rights.symbolic? (511 - mask) (a.toList.splitOnP (· = ',')) with
      | some m => set' (511 - m % 512)
      | none => giveUp ("Illegal mode: " ++ a)

/-- The limits of a process by their letters, with the words that name them and their values. -/
def limits : List (Char × String × String) :=
  [('t', "time(seconds)", "unlimited"), ('f', "file(blocks)", "unlimited"),
    ('d', "data(kbytes)", "unlimited"), ('s', "stack(kbytes)", "8192"),
    ('c', "coredump(blocks)", "0"), ('m', "memory(kbytes)", "unlimited"),
    ('l', "locked memory(kbytes)", "8192"), ('p', "process", "128604"), ('n', "nofiles", "20000"),
    ('v', "vmemory(kbytes)", "unlimited"), ('w', "locks", "unlimited"), ('r', "rtprio", "0")]

/-- A limit as it stands; the upper bound of some limits lies higher at first. -/
def limit (s : State) (upper : Bool) (c : Char) : String :=
  match s.limits.lookup (c, upper) with
  | some v => v
  | none =>
    if upper && (c = 'c' || c = 's') then "unlimited"
    else ((limits.lookup c).map Prod.snd).getD "unlimited"

/-- Show a limit or set it. -/
def setLimit (args : List String) : Act Nat := do
  let (os, args) ← options "HSatfdscmlpnvwr" args
  let c := ((os.filter fun c => !(['H', 'S', 'a'].contains c)).getLast?).getD 'f'
  let s ← get
  let upper := os.contains 'H' && !os.contains 'S'
  if os.contains 'a' then
    let _ ← write 1 (unlines (limits.map fun (c, t, _) =>
      Format.pad true ' ' 21 t ++ limit s upper c))
    return 0
  match args with
  | [] =>
    let _ ← write 1 (limit s upper c ++ "\n")
    return 0
  | [a] =>
    if a = "unlimited" || (!a.isEmpty && a.all Char.isDigit) then
      let both := !os.contains 'H' && !os.contains 'S'
      let set' (upper : Bool) (s : State) : State :=
        { s with limits := put (c, upper) a s.limits }
      modify fun s => if both then set' true (set' false s) else set' upper s
      return 0
    else giveUp "bad number"
  | _ => giveUp "too many arguments"

/-! ## Names -/

/-- Commands of the shell that are not special. -/
def ordinaryNames : List String :=
  ["[", "alias", "bg", "cd", "chdir", "command", "echo", "false", "fg", "getopts", "hash", "jobs",
    "kill", "printf", "pwd", "read", "test", "true", "type", "ulimit", "umask", "unalias", "wait"]

/-- The place of a program on the search path. -/
def place? (s : State) (name : String) : Option String :=
  let candidates := ((((s.value? "PATH").getD "").toList.splitOnP (· = ':')).map
    String.ofList).map fun d => if d.isEmpty then name else d ++ "/" ++ name
  candidates.find? fun p => s.kind? p = some .program

/-- What a name stands for: how it is shown by itself, and what is said of it. -/
def describe? (s : State) (keywords : List String) (name : String) : Option (String × String) :=
  if keywords.contains name then some (name, "is a shell keyword")
  else if specialCommands.contains name then some (name, "is a special shell builtin")
  else if (s.functions.lookup name).isSome then some (name, "is a shell function")
  else if ordinaryNames.contains name then some (name, "is a shell builtin")
  else if name.contains '/' then
    if (s.kind? name).isSome then some (name, "is " ++ name) else none
  else (place? s name).map fun p => (p, "is " ++ p)

/-- Say what names stand for. -/
def tell (keywords : List String) (brief : Bool) (names : List String) : Act Nat :=
  forEach names fun n => do
    match describe? (← get) keywords n with
    | some (short, long) =>
      let _ ← write 1 (if brief then short ++ "\n" else n ++ " " ++ long ++ "\n")
      return 0
    | none =>
      if !brief then
        let _ ← write 1 (n ++ ": not found\n")
      return 127

/-- Look up programs. -/
def hash (args : List String) : Act Nat := do
  let (_, names) ← options "rv" args
  forEach names fun n => do
    if (describe? (← get) [] n).isSome then return 0
    complain (n ++ ": not found")
    return 1

/-- Find the next option among the arguments. -/
def getOption (args : List String) : Act Nat := do
  match args with
  | spec :: var :: rest =>
    if !isName var then giveUp (var ++ ": bad variable name")
    let s ← get
    let list := if rest.isEmpty then s.arguments else rest
    let seen := (s.value? "OPTIND").getD ""
    let (place, offset) : Nat × Option Nat :=
      if seen = s.optionSeen then (s.optionPlace, s.optionOffset)
      else (max 1 ((count? seen).getD 1), none)
    let before : List Char := ((list[place - 2]?).map String.toList).getD []
    let left : List Char := match offset with
      | some n => if 1 < place then before.drop n else []
      | none => []
    -- the option, what follows it in its argument, and the number of the next argument
    let found : Option (Char × List Char × Nat) :=
      match left with
      | c :: r => some (c, r, place)
      | [] =>
        match (list[place - 1]?).map String.toList with
        | some ('-' :: c :: r) => if c = '-' && r.isEmpty then none else some (c, r, place + 1)
        | _ => none
    let finish (place : Nat) (offset : Option Nat) (value : Char) (status : Nat) : Act Nat := do
      assign "OPTIND" (toString place)
      modify fun s => { s with
        optionPlace := place
        optionOffset := offset
        optionSeen := toString place }
      assign var (String.singleton value)
      return status
    let silent := spec.startsWith ":"
    let wrong (c : Char) (said : String) : Act Unit := do
      if silent then assign "OPTARG" (String.singleton c)
      else
        writeError said
        modify fun s => { s with vars := erase "OPTARG" s.vars }
    match found with
    | none =>
      let ended := (list[place - 1]?) = some "--"
      finish (if ended then place + 1 else place) none '?' 1
    | some (c, r, next) =>
      let offset : Option Nat :=
        if r.isEmpty then none
        else some ((((list[next - 2]?).getD "").length) - r.length)
      let known := (spec.toList.dropWhile (· = ':')).contains c && c ≠ ':'
      if !known then
        wrong c ("Illegal option -" ++ String.singleton c ++ "\n")
        finish next offset '?' 0
      else if !occurs [c, ':'] spec.toList then
        assign "OPTARG" ""
        finish next offset c 0
      else if !r.isEmpty then
        assign "OPTARG" (String.ofList r)
        finish next none c 0
      else
        match list[next - 1]? with
        | some v =>
          assign "OPTARG" v
          finish (next + 1) none c 0
        | none =>
          wrong c ("No arg for -" ++ String.singleton c ++ " option\n")
          finish next none (if silent then ':' else '?') 0
  | _ => giveUp "Usage: getopts optstring var [arg...]"

/-- Show aliases or set them. -/
def nickname (args : List String) : Act Nat := do
  let show' (a : String × String) : Act Unit := do
    let _ ← write 1 (a.1 ++ "=" ++ singleQuoted a.2 ++ "\n")
  if args.isEmpty then
    (← get).aliases.forM show'
    return 0
  forEach args fun a => do
    let name := String.ofList (a.toList.takeWhile (· ≠ '='))
    if a.contains '=' && name ≠ "" then
      let text := String.ofList (a.toList.drop (name.length + 1))
      modify fun s => { s with aliases := put name text s.aliases }
      return 0
    match (← get).aliases.lookup a with
    | some text =>
      show' (a, text)
      return 0
    | none =>
      writeError ("alias: " ++ a ++ " not found\n")
      return 1

/-- Write, or complain. -/
def say (name t : String) (status : Nat) : Act Nat := do
  if ← write 1 t then return status
  complain (name ++ ": I/O error")
  return 1

/-- Formatted output. -/
def print (args : List String) : Act Nat := do
  match (← options "" args).2 with
  | [] => giveUp "usage: printf format [arg ...]"
  | f :: r =>
    let (out, complaints, status) := printed f r
    complaints.forM complain
    say "printf" out status

end Builtin

open Builtin

/-- **The commands of the shell itself** by their names. -/
def builtin? (keywords : List String) (name : String) (args : List String) : Option (Act Nat) :=
  match name with
  | ":" | "true" => some (pure 0)
  | "jobs" => some do
      let _ ← options "lp" args
      return 0
  | "ulimit" => some (setLimit args)
  | "false" => some (pure 1)
  | "exit" => some (exit args)
  | "return" => some (back args)
  | "break" => some (leave false args)
  | "continue" => some (leave true args)
  | "shift" => some (shift args)
  | "set" => some (if args.isEmpty then showVariables "" fun _ => true else setArguments args)
  | "export" => some (keep name Variable.exported (fun v => { v with exported := true }) args)
  | "readonly" => some (keep name Variable.fixed (fun v => { v with fixed := true }) args)
  | "unset" => some (unset args)
  | "local" => some (declareLocal args)
  | "read" => some (read args)
  | "cd" | "chdir" => some (goTo args)
  | "pwd" => some do
      let _ ← options "LP" args
      let folder := (← get).folder
      say "pwd" ((if folder = "" then "/" else folder) ++ "\n") 0
  | "umask" => some (setMask args)
  | "times" => some (say "times" "0m0.000000s 0m0.000000s\n0m0.000000s 0m0.000000s\n" 0)
  | "kill" => some (kill args)
  | "trap" => some (trap args)
  | "type" => some (tell keywords false args)
  | "hash" => some (hash args)
  | "getopts" => some (getOption args)
  | "test" | "[" => some (condition name args)
  | "echo" => some (say "echo" (echoed args) 0)
  | "printf" => some (print args)
  | "alias" => some (nickname args)
  | "unalias" => some do
      let (os, names) ← options "a" args
      if os.contains 'a' then
        modify fun s => { s with aliases := [] }
        return 0
      forEach names fun a => do
        if ((← get).aliases.lookup a).isSome then
          modify fun s => { s with aliases := erase a s.aliases }
          return 0
        writeError ("unalias: " ++ a ++ " not found\n")
        return 1
  | "bg" | "fg" => some (giveUp "No current job")
  | _ => none

end MemoFlow.Shell
