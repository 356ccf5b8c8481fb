import MemoFlow.Shell.Command
import MemoFlow.Shell.Files

/-!
# The state of a shell

* `Shell.World`: what all shells of a run share: streams, files, numbers of processes, signals;
* **`Shell.State`**: the state of one shell;
* `Shell.Jump`, **`Shell.Act`**: ways out of a command, and actions on the state;
* `Shell.write`, `Shell.takeInput`: output and input through descriptors;
* `Shell.complain`, `Shell.giveUp`: complaints;
* `State.parameter?`, `Shell.assign`: parameters and variables;
* `State.kind?`: files.

Strings have one character a byte.
-/

namespace MemoFlow.Shell

/-! ## Streams and processes -/

/-- Where a descriptor leads. -/
inductive Port where
  /-- Nowhere: there is nothing to read and what is written is lost. -/
  | void
  /-- A device that takes nothing. -/
  | full
  /-- A stream. -/
  | stream (n : Nat)
deriving DecidableEq, Repr

/-- How a process ends. -/
inductive Finish where
  /-- By itself, with a status. -/
  | exited (status : Nat)
  /-- By a signal. -/
  | killed (signal : Nat)
deriving DecidableEq, Repr

/-- The status of a process that has ended. -/
def Finish.status : Finish → Nat
  | .exited n => n
  | .killed n => 128 + n

/-- What is known of a process in the background. -/
inductive Progress where
  /-- It is still to run. -/
  | waiting (c : Command)
  /-- It has ended. -/
  | ended (f : Finish)

/-- **What all shells of a run share.** -/
structure World where
  /-- The contents of streams that have not been read, by their numbers. -/
  streams : List (Nat × String) := []
  /-- The number of the next stream. -/
  nextStream : Nat := 3
  /-- Files and folders that have been made. -/
  made : Made := { }
  /-- The number of the next process. -/
  nextProcess : Nat := 5001
  /-- Processes in the background. -/
  jobs : List (Nat × Progress) := []
  /-- Shells that catch signals themselves, and the signals that they catch. -/
  catching : List (Nat × Nat) := []
  /-- Signals on their way to a shell that catches them. -/
  signals : List (Nat × Nat) := []
  /-- Signals that end a shell once the command that it waits for is done. -/
  fatal : List (Nat × Nat) := []

/-! ## The state of a shell -/

/-- A variable. -/
structure Variable where
  /-- Its value, if it has one. -/
  value : Option String
  /-- Whether programs see it. -/
  exported : Bool := false
  /-- Whether it stays as it is. -/
  fixed : Bool := false
deriving DecidableEq, Repr

/-- **The state of a shell.** -/
structure State where
  /-- What it shares with others. -/
  world : World := { }
  /-- Its number. -/
  process : Nat := 5000
  /-- Whether it is a copy of the shell with that number. -/
  isCopy : Bool := false
  /-- Its name. -/
  name : String := "sh"
  /-- Its arguments, or those of a function. -/
  arguments : List String := []
  /-- Its variables. -/
  vars : List (String × Variable) := []
  /-- Its functions. -/
  functions : List (String × Command) := []
  /-- Documents of the commands that it has read. -/
  documents : List (Nat × Word) := []
  /-- The number of the next document. -/
  nextDocument : Nat := 0
  /-- Its options. -/
  flags : List Char := []
  /-- What it does on signals; zero stands for its end. -/
  traps : List (Nat × String) := []
  /-- Its descriptors. -/
  ports : List (Nat × Port) := [(0, .void), (1, .stream 1), (2, .stream 2)]
  /-- Its folder. -/
  folder : String := "/tmp"
  /-- The line of the command that runs. -/
  line : Nat := 1
  /-- The command of the shell itself that runs, in complaints. -/
  speaker : Option String := none
  /-- The status of the last command. -/
  status : Nat := 0
  /-- The status of the last command whose output was used. -/
  substituted : Nat := 0
  /-- Loops around the command. -/
  loops : Nat := 0
  /-- Variables as they were before they became local, for each function that runs. -/
  locals : List (List (String × Option Variable)) := []
  /-- The last process in the background. -/
  lastJob : Option Nat := none
  /-- The rights that new files do not get. -/
  mask : Nat := 18
  /-- Limits that have been set, by their letters; some are upper bounds of others. -/
  limits : List ((Char × Bool) × String) := []
  /-- Its aliases. -/
  aliases : List (String × String) := []
  /-- The argument whose options come next. -/
  optionPlace : Nat := 1
  /-- How many characters of the argument before that one have been read, when there are more. -/
  optionOffset : Option Nat := none
  /-- The value of `OPTIND` that these two go with. -/
  optionSeen : String := "1"

/-- Ways out of a command. -/
inductive Jump where
  /-- The shell ends with its status. -/
  | quit
  /-- Something went wrong, and it has been said. -/
  | failure
  /-- A function ends. -/
  | back
  /-- A loop ends, some loops further out. -/
  | leave (loops : Nat)
  /-- The next turn of a loop, some loops further out. -/
  | again (loops : Nat)
  /-- A process is ended by a signal. -/
  | killed (process signal : Nat)
deriving DecidableEq, Repr

/-- **An action of a shell.** -/
abbrev Act : Type → Type := ExceptT Jump (StateM State)

/-- Set the status. -/
def setStatus (n : Nat) : Act Unit := modify fun s => { s with status := n }

/-- Change what all shells share. -/
def changeWorld (f : World → World) : Act Unit := modify fun s => { s with world := f s.world }

/-! ## Lists of named things -/

/-- A list with a thing under a name. -/
def put {α β : Type} [BEq α] (k : α) (v : β) (l : List (α × β)) : List (α × β) :=
  if (l.lookup k).isSome then l.map fun p => if p.1 == k then (k, v) else p else l ++ [(k, v)]

/-- A list without a name. -/
def erase {α β : Type} [BEq α] (k : α) (l : List (α × β)) : List (α × β) :=
  l.filter fun p => !(p.1 == k)

/-! ## Output and input -/

/-- A new stream with contents. -/
def newStream (s : String) : Act Nat := do
  let n := (← get).world.nextStream
  changeWorld fun w => { w with nextStream := n + 1, streams := (n, s) :: w.streams }
  return n

/-- The contents of a stream. -/
def World.stream (w : World) (n : Nat) : String := (w.streams.lookup n).getD ""

/-- Write to a descriptor; whether that was possible. -/
def write (descriptor : Nat) (t : String) : Act Bool := do
  match (← get).ports.lookup descriptor with
  | none => return t.isEmpty
  | some .void => return true
  | some .full => return t.isEmpty
  | some (.stream n) =>
    changeWorld fun w => { w with streams := put n (w.stream n ++ t) w.streams }
    return true

/-- Write where errors go. -/
def writeError (t : String) : Act Unit := do
  let _ ← write 2 t

/-- Take what satisfies a condition from the start of the input, and one character more, if there is
one. -/
def takeInput (p : Char → Bool) : Act (String × Option Char) := do
  match (← get).ports.lookup 0 with
  | some (.stream n) =>
    let cs := ((← get).world.stream n).toList
    let rest := cs.dropWhile p
    changeWorld fun w => { w with streams := put n (String.ofList (rest.drop 1)) w.streams }
    return (String.ofList (cs.takeWhile p), rest.head?)
  | _ => return ("", none)

/-- All input. -/
def takeAll : Act String := do return (← takeInput fun _ => true).1

/-! ## Complaints -/

/-- The start of a complaint. -/
def State.complaintStart (s : State) : String :=
  s.name ++ ": " ++ toString s.line ++ ": " ++
    (match s.speaker with | some c => c ++ ": " | none => "")

/-- Complain. -/
def complain (t : String) : Act Unit := do
  writeError ((← get).complaintStart ++ t ++ "\n")

/-- Complain and give up. -/
def giveUp {α : Type} (t : String) : Act α := do
  complain t
  setStatus 2
  throw .failure

/-! ## Numbers -/

/-- A string in single quotes; such a quote itself stands between double ones. -/
def singleQuoted (s : String) : String :=
  "'" ++ String.ofList (s.toList.flatMap fun c =>
    if c = '\'' then "'\"'\"'".toList else [c]) ++ "'"

/-- The digits at the start of some characters, as a number, and what follows. -/
def digitsAt (cs : List Char) : Option Nat × List Char :=
  let ds := cs.takeWhile Char.isDigit
  ((String.ofList ds).toNat?, cs.dropWhile Char.isDigit)

/-- Whether a character is a space of some kind. -/
def isSpace (c : Char) : Bool := " \t\n\x0b\x0c\r".contains c

/-- A number with spaces around it, within the range of machine numbers. -/
def integer? (s : String) : Option Int :=
  let cs := s.toList.dropWhile isSpace
  let (negative, cs) : Bool × List Char :=
    match cs with
    | '-' :: r => (true, r)
    | '+' :: r => (false, r)
    | r => (false, r)
  match digitsAt cs with
  | (some n, r) =>
    if r.all isSpace then
      if negative then some (max (-Int.pow 2 63) (-(n : Int)))
      else some (min (Int.pow 2 63 - 1) n)
    else none
  | _ => none

/-- A number from zero on that fits a machine word. -/
def count? (s : String) : Option Nat :=
  match integer? s with
  | some n => if 0 ≤ n ∧ n < Int.pow 2 31 then some n.toNat else none
  | none => none

/-- A number, or a complaint. -/
def countOf (s : String) : Act Nat :=
  match count? s with
  | some n => return n
  | none => giveUp ("Illegal number: " ++ s)

/-! ## Parameters and variables -/

/-- The value of a variable. -/
def State.value? (s : State) (name : String) : Option String :=
  (s.vars.lookup name).bind Variable.value

/-- Whether an option is set. -/
def State.has (s : State) (c : Char) : Bool := s.flags.contains c

/-- The value of a parameter, except for the list of all arguments. -/
def State.parameter? (s : State) (name : String) : Option String :=
  match name with
  | "?" => some (toString s.status)
  | "#" => some (toString s.arguments.length)
  | "$" => some (toString s.process)
  | "!" => s.lastJob.map toString
  | "-" => some (String.ofList s.flags)
  | "0" => some s.name
  | name =>
    if isName name then s.value? name
    else (name.toNat?).bind fun n => if n = 0 then some s.name else s.arguments[n - 1]?

/-- Set a variable. -/
def assign (name value : String) : Act Unit := do
  let old := ((← get).vars.lookup name).getD ⟨none, false, false⟩
  if old.fixed then giveUp (name ++ ": is read only")
  let exported := old.exported || (← get).has 'a'
  let new := { old with value := some value, exported := exported }
  modify fun s => { s with vars := put name new s.vars }

/-- Change how a variable is kept. -/
def mark (name : String) (f : Variable → Variable) : Act Unit :=
  modify fun s =>
    let old := (s.vars.lookup name).getD ⟨none, false, false⟩
    { s with vars := put name (f old) s.vars }

/-- The variables that programs see. -/
def State.exports (s : State) : List (String × String) :=
  s.vars.filterMap fun (n, v) =>
    if v.exported then v.value.map fun t => (n, t) else none

/-- A path from the folder of the shell, without detours and with its links followed. -/
def State.place (s : State) (path : String) : String :=
  s.world.made.follow (resolve s.folder path)

/-- What is found under a path from the folder of the shell; a path that ends in a slash stands for
folders only. -/
def State.kind? (s : State) (path : String) : Option FileKind :=
  if path.isEmpty then none
  else
    let kind := s.world.made.kind? (s.place path)
    if path.endsWith "/" && kind ≠ some .folder then none else kind

/-- The characters that part words. -/
def State.separators (s : State) : List Char := ((s.value? "IFS").getD " \t\n").toList

end MemoFlow.Shell
