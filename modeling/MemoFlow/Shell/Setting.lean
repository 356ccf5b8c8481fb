import MemoFlow.Shell.Pattern
import MemoFlow.Shell.State

/-!
# Commands that set things

* `Builtin.options`, `Builtin.forEach`: options of commands, and commands that take any number of
  arguments;
* `Builtin.shift`, `Builtin.setArguments`: arguments and options of the shell;
* `Builtin.keep`, `Builtin.unset`, `Builtin.declareLocal`: how variables are kept;
* **`Builtin.read`**: a line of the input as values of variables.

A command gives its status. A complaint that ends it leaves it by `Jump.failure`.
-/

namespace MemoFlow.Shell.Builtin

/-- The options of a command, among some letters, and its other arguments. -/
def options (letters : String) : List String → Act (List Char × List String)
  | [] => return ([], [])
  | a :: r =>
    match a.toList with
    | ['-', '-'] => return ([], r)
    | '-' :: c :: cs =>
      match (c :: cs).find? fun c => !letters.contains c with
      | some c => giveUp ("Illegal option -" ++ String.singleton c)
      | none => do
        let (os, rest) ← options letters r
        return (c :: cs ++ os, rest)
    | _ => return ([], a :: r)

/-- Do something for each argument, and give the last bad status. -/
def forEach (args : List String) (f : String → Act Nat) : Act Nat :=
  match args with
  | [] => return 0
  | a :: r => do
    let n ← f a
    let m ← forEach r f
    return if m = 0 then n else m

/-! ## Arguments, options and variables -/

/-- Leave out arguments. -/
def shift (args : List String) : Act Nat := do
  let n ← match args with
    | a :: _ => countOf a
    | [] => pure 1
  if (← get).arguments.length < n then giveUp "can't shift that many"
  modify fun s => { s with arguments := s.arguments.drop n }
  return 0

/-- The options of a shell by their long names. -/
def optionNames : List (String × Char) :=
  [("errexit", 'e'), ("noglob", 'f'), ("ignoreeof", 'I'), ("interactive", 'i'), ("monitor", 'm'),
    ("noexec", 'n'), ("stdin", 's'), ("xtrace", 'x'), ("verbose", 'v'), ("vi", 'V'),
    ("emacs", 'E'), ("noclobber", 'C'), ("allexport", 'a'), ("notify", 'b'), ("nounset", 'u'),
    ("privileged", 'p'), ("nolog", 'l'), ("debug", 'g')]

/-- Set an option, or take it back. -/
def setFlag (on : Bool) (c : Char) : Act Unit :=
  modify fun s =>
    let rest := s.flags.filter (· ≠ c)
    { s with flags := if on then rest ++ [c] else rest }

/-- Show variables in order, behind a word. -/
def showVariables (word : String) (p : Variable → Bool) : Act Nat := do
  let vs := ((← get).vars.filter fun v => p v.2).mergeSort fun a b => !decide (b.1 < a.1)
  vs.forM fun (n, v) => do
    match v.value with
    | some t =>
      let _ ← write 1 (word ++ n ++ "=" ++ singleQuoted t ++ "\n")
    | none =>
      if word ≠ "" then
        let _ ← write 1 (word ++ n ++ "\n")
  return 0

/-- Show the options of the shell, as commands that set them again when `asCommands` holds. -/
def showFlags (asCommands : Bool) : Act Nat := do
  let flags := (← get).flags
  if !asCommands then
    let _ ← write 1 "Current option settings\n"
  optionNames.forM fun (n, c) => do
    let on := flags.contains c
    let t := if asCommands then "set " ++ (if on then "-o " else "+o ") ++ n
      else n ++ String.ofList (List.replicate (16 - n.length) ' ') ++ (if on then "on" else "off")
    let _ ← write 1 (t ++ "\n")
  return 0

/-- Options and arguments of the shell. -/
def setArguments : List String → Act Nat
  | [] => return 0
  | "--" :: r => do
    modify fun s => { s with arguments := r }
    return 0
  | a :: r =>
    match a.toList with
    | sign :: 'o' :: [] =>
      if sign = '-' || sign = '+' then
        match r with
        | [] => showFlags (sign = '+')
        | n :: r =>
          match optionNames.lookup n with
          | some c => do
            setFlag (sign = '-') c
            setArguments r
          | none => giveUp ("Illegal option -o " ++ n)
      else do
        modify fun s => { s with arguments := a :: r }
        return 0
    | sign :: c :: cs =>
      if sign = '-' || sign = '+' then
        match (c :: cs).find? fun c => !"aefnuvxCIimsbEV".contains c with
        | some c => giveUp ("Illegal option -" ++ String.singleton c)
        | none => do
          (c :: cs).forM (setFlag (sign = '-'))
          setArguments r
      else do
        modify fun s => { s with arguments := a :: r }
        return 0
    | _ => do
      modify fun s => { s with arguments := a :: r }
      return 0

/-- A name and a value, when an argument has the form of an assignment. -/
def assignmentOf (a : String) : String × Option String :=
  let name := a.toList.takeWhile (· ≠ '=')
  match a.toList.drop name.length with
  | _ :: v => (String.ofList name, some (String.ofList v))
  | [] => (a, none)

/-- Change how variables are kept, after setting those that come with a value. -/
def keep (word : String) (shown : Variable → Bool) (f : Variable → Variable)
    (args : List String) : Act Nat := do
  let (_, names) ← options "p" args
  if names.isEmpty then return ← showVariables (word ++ " ") shown
  forEach names fun a => do
    let (name, value) := assignmentOf a
    if !isName name then giveUp (name ++ ": bad variable name")
    match value with
    | some v => assign name v
    | none => pure ()
    mark name f
    return 0

/-- Forget variables or functions. -/
def unset (args : List String) : Act Nat := do
  let (os, names) ← options "vf" args
  forEach names fun n => do
    if os.getLast? = some 'f' then
      modify fun s => { s with functions := erase n s.functions }
    else
      if !isName n then giveUp (n ++ ": bad variable name")
      if ((← get).vars.lookup n).any Variable.fixed then giveUp (n ++ ": is read only")
      modify fun s => { s with vars := erase n s.vars }
    return 0

/-- Make variables local to a function. -/
def declareLocal (args : List String) : Act Nat := do
  if (← get).locals.isEmpty then giveUp "not in a function"
  forEach args fun a => do
    let (name, value) := assignmentOf a
    if !isName name then giveUp (name ++ ": bad variable name")
    modify fun s =>
      match s.locals with
      | now :: outer => { s with locals := ((name, s.vars.lookup name) :: now) :: outer }
      | [] => s
    match value with
    | some v => assign name v
    | none => pure ()
    return 0

/-- The characters of a line with whether they are escaped; a line that ends in a backslash goes on
with the next one. -/
def readLine (raw : Bool) : Nat → Act (List Mark × Bool)
  | 0 => return ([], false)
  | fuel + 1 => do
    let (t, e) ← takeInput fun c => c ≠ '\n'
    let rec escaped : List Char → List Mark × Bool
      | [] => ([], false)
      | ['\\'] => ([], true)
      | '\\' :: c :: r => (⟨c, true⟩ :: (escaped r).1, (escaped r).2)
      | c :: r => (⟨c, false⟩ :: (escaped r).1, (escaped r).2)
    if raw then return (t.toList.map fun c => ⟨c, false⟩, e.isSome)
    let (ms, more) := escaped t.toList
    if more && e.isSome then
      let (rest, ended) ← readLine raw fuel
      return (ms ++ rest, ended)
    return (ms, e.isSome)

/-- Values for names: each takes a field, and the last one takes the rest. -/
def distribute (separators : List Char) : List String → List Mark → List (String × String)
  | [], _ => []
  | [n], ms =>
    let parts (m : Mark) : Bool := !m.quoted && separators.contains m.char
    let spaces (m : Mark) : Bool := parts m && isSpace m.char
    let ms := ((ms.dropWhile spaces).reverse.dropWhile spaces).reverse
    let field := ms.takeWhile fun m => !parts m
    let isOne := match (ms.drop field.length).dropWhile spaces with
      | [] => true
      | [m] => parts m
      | _ => false
    [(n, String.ofList ((if isOne then field else ms).map Mark.char))]
  | n :: ns, ms =>
    let parts (m : Mark) : Bool := !m.quoted && separators.contains m.char
    let spaces (m : Mark) : Bool := parts m && isSpace m.char
    let ms := ms.dropWhile spaces
    let field := ms.takeWhile fun m => !parts m
    let rest := (ms.drop field.length).dropWhile spaces
    let rest := match rest with
      | m :: r => if parts m then r.dropWhile spaces else rest
      | [] => []
    (n, String.ofList (field.map Mark.char)) :: distribute separators ns rest

/-- Read a line into variables. -/
def read (args : List String) : Act Nat := do
  let (os, names) ← options "rp" args
  if names.isEmpty then giveUp "arg count"
  let (ms, ended) ← readLine (os.contains 'r') 1000
  let values := distribute (← get).separators names ms
  values.forM fun (n, v) => do
    if !isName n then giveUp (n ++ ": bad variable name")
    assign n v
  return if ended then 0 else 1

end MemoFlow.Shell.Builtin
