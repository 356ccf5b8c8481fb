import MemoFlow.Shell.Builtin
import MemoFlow.Shell.Expansion
import MemoFlow.Shell.Program
import MemoFlow.Shell.Reader

/-!
# Running commands

* `Shell.redirect`: descriptors led elsewhere;
* `Shell.command`, `Shell.script`: commands and texts run;
* `Shell.program`: programs and their replies;
* **`Shell.run`**: a command line in a shell of its own, with what it says where errors go;
* `Shell.waitStatus`: the wait status of such a shell.

Commands run under some fuel, a bound on the calls inside one another and on the turns of loops.
-/

namespace MemoFlow.Shell

/-! ## Descriptors -/

/-- Run an action and lead the descriptors back where they were, whatever happens. -/
def keepingPorts {α : Type} (act : Act α) : Act α := do
  let ports := (← get).ports
  let back : Act Unit := modify fun s => { s with ports := ports }
  let a ← tryCatch act fun j => do
    back
    throw j
  back
  return a

/-- Run an action and give variables back what they were, whatever happens. -/
def keepingVariables {α : Type} (names : List String) (act : Act α) : Act α := do
  let before := (← get).vars
  let restore (vs : List (String × Variable)) (n : String) : List (String × Variable) :=
    match before.lookup n with
    | some v => put n v vs
    | none => erase n vs
  let back : Act Unit := modify fun s => { s with vars := names.foldl restore s.vars }
  let a ← tryCatch act fun j => do
    back
    throw j
  back
  return a

/-- Lead a descriptor somewhere. -/
def setPort (d : Nat) (p : Port) : Act Unit :=
  modify fun s => { s with ports := put d p s.ports }

/-- The descriptor that a path of a device stands for. -/
def descriptorOf? (path : String) : Option Nat :=
  match path with
  | "/dev/stdin" => some 0
  | "/dev/stdout" => some 1
  | "/dev/stderr" => some 2
  | p => if p.startsWith "/dev/fd/" then (String.ofList (p.toList.drop 8)).toNat? else none

/-- Complain about a redirection. -/
def refused (t : String) : Act Bool := do
  complain t
  return false

/-- Lead a descriptor to the file with a path; whether that was possible. -/
def openFile (d : Nat) (way : Direction) (path : String) : Act Bool := do
  let s ← get
  let full := s.place path
  let home := joinParts (parts full).dropLast
  let made := s.world.made
  match (descriptorOf? path).bind fun n => s.ports.lookup n with
  | some p => setPort d p; return true
  | none =>
    match way, if path.isEmpty then none else made.kind? full with
    | .read, none => refused ("cannot open " ++ path ++ ": No such file")
    | .read, some _ =>
      match made.files.lookup full with
      | some n => do
        setPort d (.stream (← newStream (s.world.stream n)))
        return true
      | none => setPort d .void; return true
    | _, some .folder => refused ("cannot create " ++ path ++ ": Is a directory")
    | _, some .device => setPort d (if full = "/dev/full" then .full else .void); return true
    | way, _ =>
      match made.files.lookup full with
      | some n =>
        if way = .write && s.has 'C' then
          return ← refused ("cannot create " ++ path ++ ": File exists")
        if way = .write || way = .over then
          changeWorld fun w => { w with streams := put n "" w.streams }
        setPort d (.stream n)
        return true
      | none =>
        if path.isEmpty || made.kind? home ≠ some .folder then
          refused ("cannot create " ++ path ++ ": Directory nonexistent")
        else
          let n ← newStream ""
          changeWorld fun w =>
            { w with made := { w.made with files := put full n w.made.files } }
          setPort d (.stream n)
          return true

/-- Lead a descriptor where another one leads. -/
def copyPort (d : Nat) (target : String) : Act Bool := do
  if target = "-" then
    modify fun s => { s with ports := erase d s.ports }
    return true
  match target.toNat? with
  | some n =>
    match (← get).ports.lookup n with
    | some p => setPort d p; return true
    | none => refused (target ++ ": Bad file descriptor")
  | none => giveUp "Syntax error: Bad fd number"

/-- **Lead descriptors elsewhere**; whether that was possible. -/
def redirect (capture : Command → Act String) : List Redirect → Act Bool
  | [] => return true
  | .mk d way target :: rs => do
    let ok ← match way with
      | .document n => do
        let doc := ((← get).documents.lookup n).getD []
        setPort d (.stream (← newStream (← single capture doc)))
        pure true
      | .same => do copyPort d (← single capture target)
      | way => do openFile d way (← single capture target)
    if ok then redirect capture rs else return false

/-! ## Processes -/

/-- Say how a process has ended, unless it has ended in an ordinary way, and give its status. -/
def settle (f : Finish) : Act Nat := do
  match f with
  | .killed n => if n ≠ 2 && n ≠ 13 then writeError (Signal.text n ++ "\n")
  | .exited _ => pure ()
  return f.status

/-- Leave a shell: with its status, or, when the process itself was meant, by a signal. -/
def finishOf (own : Bool) : Except Jump Unit → Act Finish
  | .error (.killed p n) => do
    if own && p = (← get).process then return .killed n
    throw (.killed p n)
  | _ => return .exited ((← get).status % 256)

/-- Run an action and give the jump with which it ends. -/
def attempt (act : Act Unit) : Act (Except Jump Unit) :=
  tryCatch (do act; return .ok ()) fun j => return .error j

/-- What a program does to the files. -/
def applyReply (r : Reply) : Act Nat := do
  if r.early then
    let _ ← write 2 r.err
  let _ ← write 1 r.out
  if !r.early then
    let _ ← write 2 r.err
  let s ← get
  let plain (p : String) : String := resolve s.folder p
  r.files.forM fun (p, t) => do
    if p = "/dev/stdout" then
      let _ ← write 1 t
    else if p = "/dev/stderr" then
      let _ ← write 2 t
    else if p ≠ "/dev/null" then
      let path := s.place p
      match s.world.made.files.lookup path with
      | some n => changeWorld fun w => { w with streams := put n t w.streams }
      | none =>
        let n ← newStream t
        changeWorld fun w =>
          { w with made := { w.made with files := put path n w.made.files } }
  changeWorld fun w =>
    let m := w.made.without (r.removed.map plain)
    let m := r.moved.foldl (fun m p => m.moved (plain p.1) (plain p.2)) m
    let shared := r.shared.filterMap fun p =>
      (m.files.lookup (s.place p.2)).map fun n => (plain p.1, n)
    { w with made :=
      { files := m.files ++ shared
        folders := m.folders ++ r.folders.map s.place
        links := m.links ++ r.links.map fun p => (plain p.1, p.2)
        modes := r.modes.foldl (fun ms p => put (s.place p.1) p.2 ms) m.modes } }
  return r.status

/-- What programs see. -/
def State.view (s : State) : View where
  kind? p := s.kind? p
  contents? p :=
    match s.world.made.files.lookup (s.place p) with
    | some n => some (s.world.stream n)
    | none =>
      if ["/dev/zero", "/dev/urandom", "/dev/random"].contains (s.place p) then
        some (String.ofList (List.replicate 4096 '\x00'))
      else none
  vars := s.exports
  link? p := s.world.made.links.lookup (resolve s.folder p)
  mode p := s.world.made.mode (s.place p)
  below p := s.world.made.below (s.place p)
  full p := let q := s.place p; if q = "" then "/" else q
  fresh := s.world.nextStream

/-- The variables with which a shell starts. -/
def firstVariables (folder : String) : List (String × Variable) :=
  [("IFS", ⟨some " \t\n", false, false⟩), ("OPTIND", ⟨some "1", false, false⟩),
    ("PPID", ⟨some "4999", false, false⟩), ("PS1", ⟨some "# ", false, false⟩),
    ("PS2", ⟨some "> ", false, false⟩), ("PS4", ⟨some "+ ", false, false⟩),
    ("PWD", ⟨some folder, true, false⟩), ("HOME", ⟨some "/root", true, false⟩),
    ("PATH", ⟨some "/usr/local/sbin:/usr/local/bin:/usr/sbin:/usr/bin:/sbin:/bin", true, false⟩)]

/-- Write a command out before it runs, when that is asked for, to where errors have gone before its
redirections. -/
def trace (errors : Option Port) (assignments : List (String × String)) (words : List String) :
    Act Unit := do
  if (← get).has 'x' then
    keepingPorts do
      match errors with
      | some p => setPort 2 p
      | none => pure ()
      writeError ("+ " ++ String.intercalate " "
        (assignments.map (fun p => p.1 ++ "=" ++ p.2) ++ words) ++ "\n")

/-- A function for conditions: end the shell after a failure, when that is asked for. -/
def checkStatus (tested : Bool) : Act Unit := do
  let s ← get
  if s.has 'e' && s.status ≠ 0 && !tested then throw .quit

/-- The first pattern that fits, with its command. -/
def chooseArm (capture : Command → Act String) (value : List Char) :
    List Arm → Act (Option Command)
  | [] => return none
  | .mk ps c :: arms => do
    let rec any : List Word → Act Bool
      | [] => return false
      | w :: ws => do
        if fits (← pattern capture w) value then return true
        any ws
    if ← any ps then return some c
    chooseArm capture value arms

/-- Set variables to values of words, each of which can use those before, and give the values. -/
def assignAll (capture : Command → Act String) :
    List (String × Word) → Act (List (String × String))
  | [] => return []
  | (n, w) :: r => do
    let v ← single capture w
    assign n v
    return (n, v) :: (← assignAll capture r)

/-- The words of a command; behind a command that sets variables an assignment stays one word. -/
def wordsOf (capture : Command → Act String) (ws : List Word) : Act (List String) := do
  let sets := (ws.head?.bind Word.bare?).any fun n => ["export", "readonly", "local"].contains n
  let rec each : List Word → Act (List String)
    | [] => return []
    | w :: ws => do
      let fs ← match if sets then w.assignment? else none with
        | some (n, v) => do pure [n ++ "=" ++ (← single capture v)]
        | none => fields capture w
      return fs ++ (← each ws)
  each ws

/-! ## Commands -/

/-- Run a command of the shell under its name in complaints. -/
def speaking {α : Type} (name : String) (act : Act α) : Act α := do
  let before := (← get).speaker
  let back : Act Unit := modify fun s => { s with speaker := before }
  modify fun s => { s with speaker := some name }
  let a ← tryCatch act fun j => do
    back
    throw j
  back
  return a

/-- The program under a name, or why there is none and with what status. -/
def locate (name : String) : Act (Except (String × Nat) String) := do
  let s ← get
  if name.contains '/' then
    match s.kind? name with
    | none => return .error ("not found", 127)
    | some .program => return .ok (baseName (resolve s.folder name))
    | some .regular =>
      if (s.world.made.mode (s.place name) &&& 73) ≠ 0 then return .ok name
      return .error ("Permission denied", 126)
    | some _ => return .error ("Permission denied", 126)
  else
    match Builtin.place? s name with
    | some p => return .ok (baseName p)
    | none => return .error ("not found", 127)

mutual

/-- **Run a command**; a failure does not end the shell when it is `tested`. -/
def command (tools : Tools) (tested : Bool) (c : Command) : Nat → Act Unit
  | 0 => throw .quit
  | fuel + 1 => do
    if (← get).has 'n' then return
    match c with
    | .empty => setStatus 0
    | .simple place as ws rs =>
      simple tools tested place as ws rs fuel
      checkStatus tested
    | .pipeline cs =>
      pipeline tools tested none cs fuel
      checkStatus tested
    | .negated c =>
      command tools true c fuel
      setStatus (if (← get).status = 0 then 1 else 0)
    | .both a b =>
      command tools true a fuel
      if (← get).status = 0 then command tools tested b fuel
    | .either a b =>
      command tools true a fuel
      if (← get).status ≠ 0 then command tools tested b fuel
    | .next a b =>
      command tools tested a fuel
      command tools tested b fuel
    | .background c =>
      let p := (← get).world.nextProcess
      changeWorld fun w => { w with
        nextProcess := p + 1
        jobs := w.jobs ++ [(p, .waiting c)] }
      modify fun s => { s with lastJob := some p, status := 0 }
    | .redirected place c rs =>
      modify fun s => { s with line := place.line }
      keepingPorts do
        if ← redirect (capture tools fuel) rs then command tools tested c fuel
        else setStatus 2
    | .subshell place c rs =>
      modify fun s => { s with line := place.line }
      let f ← subshell tools tested rs c fuel
      setStatus (← settle f)
      checkStatus tested
    | .choice test yes no =>
      command tools true test fuel
      if (← get).status = 0 then command tools tested yes fuel
      else if no matches .empty then setStatus 0
      else command tools tested no fuel
    | .loop negative test body =>
      modify fun s => { s with loops := s.loops + 1 }
      loop tools tested negative test body 0 fuel
      modify fun s => { s with loops := s.loops - 1 }
    | .each place name words body =>
      modify fun s => { s with line := place.line }
      let values ← match words with
        | some ws => allFields (capture tools fuel) ws
        | none => pure (← get).arguments
      modify fun s => { s with loops := s.loops + 1 }
      if values.isEmpty then setStatus 0
      overWords tools tested name body values fuel
      modify fun s => { s with loops := s.loops - 1 }
    | .select place w arms =>
      modify fun s => { s with line := place.line }
      let value ← single (capture tools fuel) w
      match ← chooseArm (capture tools fuel) value.toList arms with
      | some c => command tools tested c fuel
      | none => setStatus 0
    | .define name body =>
      modify fun s => { s with functions := put name body s.functions, status := 0 }
    deliver tools fuel

/-- Do what is to be done on signals that have arrived. -/
def deliver (tools : Tools) : Nat → Act Unit
  | 0 => throw .quit
  | fuel + 1 => do
    let s ← get
    match s.world.signals.find? fun (p, n) => p = s.process && (s.traps.lookup n).isSome with
    | none => return
    | some (p, n) =>
      changeWorld fun w => { w with signals := w.signals.erase (p, n) }
      script tools false ((s.traps.lookup n).getD "") fuel
      setStatus s.status
      deliver tools fuel

/-- Run the body of a loop as long as its test says so; `last` is the status so far. -/
def loop (tools : Tools) (tested negative : Bool) (test body : Command) (last : Nat) :
    Nat → Act Unit
  | 0 => throw .quit
  | fuel + 1 => do
    let turn : Act Bool := do
      command tools true test fuel
      if ((← get).status = 0) = negative then return false
      command tools tested body fuel
      return true
    let goesOn ← tryCatch (do return (← turn, false)) fun j =>
      match j with
      | .leave 0 => return (false, true)
      | .again 0 => return (true, false)
      | .leave (n + 1) => throw (.leave n)
      | .again (n + 1) => throw (.again n)
      | j => throw j
    match goesOn with
    | (true, _) => loop tools tested negative test body (← get).status fuel
    | (false, true) => return
    | (false, false) => setStatus last

/-- Run the body of a loop for each of some values. -/
def overWords (tools : Tools) (tested : Bool) (name : String) (body : Command)
    (values : List String) : Nat → Act Unit
  | 0 => throw .quit
  | fuel + 1 => do
    match values with
    | [] => return
    | v :: vs =>
      assign name v
      let goesOn ← tryCatch (do command tools tested body fuel; return true) fun j =>
        match j with
        | .leave 0 => return false
        | .again 0 => return true
        | .leave (n + 1) => throw (.leave n)
        | .again (n + 1) => throw (.again n)
        | j => throw j
      if goesOn then overWords tools tested name body vs fuel

/-- Run commands of which each one reads what the one before writes. -/
def pipeline (tools : Tools) (tested : Bool) (input : Option Nat) (cs : List Command) :
    Nat → Act Unit
  | 0 => throw .quit
  | fuel + 1 => do
    match cs with
    | [] => return
    | c :: rest =>
      let n ← newStream ""
      let ports := (← get).ports
      match input with
      | some i => setPort 0 (.stream i)
      | none => pure ()
      if !rest.isEmpty then setPort 1 (.stream n)
      let f ← subshell tools tested [] c fuel
      modify fun s => { s with ports := ports }
      setStatus (← settle f)
      pipeline tools tested (some n) rest fuel

/-- Run a command in a shell of its own that starts as a copy. -/
def subshell (tools : Tools) (tested : Bool) (rs : List Redirect) (c : Command) : Nat → Act Finish
  | 0 => throw .quit
  | fuel + 1 => do
    let outer ← get
    modify fun s => { s with traps := [], isCopy := true }
    let body : Act Unit := do
      if ← redirect (capture tools fuel) rs then command tools tested c fuel
      else setStatus 2
    let f ← conclude tools false body fuel
    let world := (← get).world
    set { outer with world := world }
    match world.fatal.find? fun p => p.1 = outer.process && !outer.isCopy with
    | some (p, n) => throw (.killed p n)
    | none => return f

/-- Run the whole of a shell: an action, and then what is to be done at the end. -/
def conclude (tools : Tools) (own : Bool) (body : Act Unit) : Nat → Act Finish
  | 0 => throw .quit
  | fuel + 1 => do
    let mut result ← attempt body
    if !(result matches .error (.killed ..)) then
      match (← get).traps.lookup 0 with
      | some t =>
        let status := (← get).status
        modify fun s => { s with traps := erase 0 s.traps, speaker := none }
        result ← attempt (script tools false t fuel)
        if result matches .ok _ then setStatus status
      | none => pure ()
    if own && !(result matches .error (.killed ..)) then
      let status := (← get).status
      result ← attempt (awaitAll tools fuel)
      setStatus status
    finishOf own result

/-- The output of a command. -/
def capture (tools : Tools) : Nat → Command → Act String
  | 0, _ => throw .quit
  | fuel + 1, c => do
    let n ← newStream ""
    let ports := (← get).ports
    setPort 1 (.stream n)
    let f ← subshell tools false [] c fuel
    modify fun s => { s with ports := ports }
    let status ← settle f
    modify fun s => { s with substituted := status }
    return (← get).world.stream n

/-- Run a process in the background to its end. -/
def await (tools : Tools) (p : Nat) : Nat → Act (Option Finish)
  | 0 => throw .quit
  | fuel + 1 => do
    match (← get).world.jobs.lookup p with
    | none => return none
    | some (.ended f) => return some f
    | some (.waiting c) =>
      changeWorld fun w => { w with jobs := erase p w.jobs }
      let ports := (← get).ports
      setPort 0 .void
      let f ← subshell tools false [] c fuel
      modify fun s => { s with ports := ports }
      changeWorld fun w => { w with jobs := put p (.ended f) w.jobs }
      return some f

/-- Run all processes in the background to their ends. -/
def awaitAll (tools : Tools) : Nat → Act Unit
  | 0 => throw .quit
  | fuel + 1 => do
    let waiting := (← get).world.jobs.find? fun p => p.2 matches .waiting _
    match waiting with
    | none => return
    | some (p, _) =>
      let _ ← await tools p fuel
      awaitAll tools fuel

/-- Wait for processes. -/
def waitFor (tools : Tools) (args : List String) : Nat → Act Nat
  | 0 => throw .quit
  | fuel + 1 => do
    match args with
    | [] =>
      awaitAll tools fuel
      return 0
    | _ =>
      let statuses ← args.mapM fun a => do
        match ← await tools (← countOf a) fuel with
        | some f => settle f
        | none => return 127
      return statuses.getLast?.getD 0

/-- Run a simple command. -/
def simple (tools : Tools) (tested : Bool) (place : Place) (as : List (String × Word))
    (ws : List Word)
    (rs : List Redirect) : Nat → Act Unit
  | 0 => throw .quit
  | fuel + 1 => do
    modify fun s => { s with line := place.line, substituted := 0 }
    let cap := capture tools fuel
    let errors := (← get).ports.lookup 2
    match ← wordsOf cap ws with
    | [] =>
      if ← keepingPorts (redirect cap rs) then
        let values ← assignAll cap as
        if !values.isEmpty then trace errors values []
        setStatus (← get).substituted
      else setStatus 2
    | "exec" :: args =>
      if ← redirect cap rs then
        trace errors (← assignAll cap as) ("exec" :: args)
        execute tools args fuel
      else
        setStatus 2
        throw .failure
    | name :: args =>
      keepingPorts do
        if ← redirect cap rs then
          if specialCommands.contains name then
            trace errors (← assignAll cap as) (name :: args)
            setStatus (← speaking name (internal tools tested name args fuel))
          else
            keepingVariables (as.map Prod.fst) do
              let values ← assignAll cap as
              values.forM fun (n, _) => mark n fun v => { v with exported := true }
              trace errors values (name :: args)
              dispatch tools tested name args fuel
        else
          setStatus 2
          if specialCommands.contains name then throw .failure

/-- Run a command in place of the shell. -/
def execute (tools : Tools) (args : List String) : Nat → Act Unit
  | 0 => throw .quit
  | fuel + 1 => do
    match args with
    | [] => setStatus 0
    | name :: args =>
      modify fun s => { s with speaker := some "exec" }
      let f ← program tools name args fuel
      modify fun s => { s with traps := [] }
      match f with
      | .exited n =>
        setStatus n
        throw .quit
      | .killed n => throw (.killed (← get).process n)

/-- Run a command that is not special: a function, another one of the shell, or a program. -/
def dispatch (tools : Tools) (tested : Bool) (name : String) (args : List String) : Nat → Act Unit
  | 0 => throw .quit
  | fuel + 1 => do
    match (← get).functions.lookup name with
    | some body => callFunction tools tested body args fuel
    | none => ordinaryCommand tools name args fuel

/-- Run a command of the shell that is not special, or a program. -/
def ordinaryCommand (tools : Tools) (name : String) (args : List String) : Nat → Act Unit
  | 0 => throw .quit
  | fuel + 1 => do
    if Builtin.ordinaryNames.contains name then
      let before := (← get).speaker
      tryCatch (do setStatus (← speaking name (internal tools false name args fuel))) fun j =>
        match j with
        | .failure => do
          modify fun s => { s with speaker := before }
          setStatus 2
        | j => throw j
    else
      setStatus (← settle (← program tools name args fuel))

/-- Run a command of the shell itself. -/
def internal (tools : Tools) (tested : Bool) (name : String) (args : List String) : Nat → Act Nat
  | 0 => throw .quit
  | fuel + 1 => do
    match name with
    | "eval" =>
      script tools tested (String.intercalate " " args) fuel
      return (← get).status
    | "." =>
      match args with
      | [] => return 0
      | p :: _ => source tools p fuel
    | "command" => plainly tools args fuel
    | "wait" => waitFor tools args fuel
    | "exec" =>
      execute tools args fuel
      return (← get).status
    | name =>
      match builtin? keywords name args with
      | some act => act
      | none => return 127

/-- Run a command that is found without functions, and whose failures do not end the shell. -/
def plainly (tools : Tools) (args : List String) : Nat → Act Nat
  | 0 => throw .quit
  | fuel + 1 => do
    let (os, rest) ← Builtin.options "pvV" args
    if os.contains 'v' then Builtin.tell keywords true rest
    else if os.contains 'V' then Builtin.tell keywords false rest
    else
      match rest with
      | [] => return 0
      | name :: args =>
        modify fun s => { s with speaker := none }
        if specialCommands.contains name then
          tryCatch (speaking name (internal tools false name args fuel)) fun j =>
            match j with
            | .failure => return 2
            | j => throw j
        else
          ordinaryCommand tools name args fuel
          return (← get).status

/-- Run the text of a file. -/
def source (tools : Tools) (path : String) : Nat → Act Nat
  | 0 => throw .quit
  | fuel + 1 => do
    let s ← get
    if path.startsWith "-" && path.length > 1 then
      giveUp ("Illegal option -" ++ String.ofList ((path.toList.drop 1).take 1))
    let found := s.kind? path
    if !path.contains '/' then giveUp (path ++ ": not found")
    if found.isNone then giveUp ("cannot open " ++ path ++ ": No such file")
    let t := (s.world.made.files.lookup (s.place path)).map s.world.stream
    tryCatch (script tools false (t.getD "") fuel) fun j =>
      match j with
      | .back => return
      | j => throw j
    return (← get).status

/-- Call a function. -/
def callFunction (tools : Tools) (tested : Bool) (body : Command) (args : List String) :
    Nat → Act Unit
  | 0 => throw .quit
  | fuel + 1 => do
    let outer ← get
    if 1000 ≤ outer.locals.length then giveUp "Maximum function recursion depth (1000) reached"
    modify fun s => { s with
      arguments := args
      locals := [] :: s.locals
      loops := 0
      optionPlace := 1
      optionOffset := none
      optionSeen := (s.value? "OPTIND").getD "" }
    let back : Act Unit := modify fun s =>
      let vars := (s.locals.head?.getD []).foldl (fun vs (n, v) =>
        match v with
        | some v => put n v vs
        | none => erase n vs) s.vars
      { s with
        arguments := outer.arguments
        locals := s.locals.drop 1
        loops := outer.loops
        optionPlace := outer.optionPlace
        optionOffset := outer.optionOffset
        optionSeen := ((vars.lookup "OPTIND").bind Variable.value).getD ""
        vars := vars }
    tryCatch (command tools tested body fuel) fun j =>
      match j with
      | .back => return
      | j => do
        back
        throw j
    back

/-- Run a program, and say so when there is none. -/
def program (tools : Tools) (name : String) (args : List String) : Nat → Act Finish
  | 0 => throw .quit
  | fuel + 1 => do
    match ← locate name with
    | .ok base => launch tools base args fuel
    | .error (reason, status) =>
      complain (name ++ ": " ++ reason)
      return .exited status

/-- Run a program that has been found. -/
def launch (tools : Tools) (base : String) (args : List String) : Nat → Act Finish
  | 0 => throw .quit
  | fuel + 1 => do
    if base.contains '/' then return ← innerShell tools [] (.inr base) base args fuel
    if ["[", "test", "kill"].contains base then
      return .exited (← internal tools false base args fuel)
    match tools base args with
    | some r => return .exited (← applyReply r)
    | none =>
      match start (← get).view base args with
      | .reply r => return .exited (← applyReply r)
      | .reads f => return .exited (← applyReply (f (← takeAll)))
      | .feeds f =>
        match f (← takeAll) with
        | .ok cmds => feed tools base cmds 0 fuel
        | .error e => return .exited (← applyReply (refuse 1 base e))
      | .asks reads f =>
        let input ← if reads then takeAll else pure ""
        converse tools f input [] { } fuel
      | .dies n => return .killed n
      | .calls vars cmd =>
        match cmd with
        | [] => return .exited 0
        | name :: args =>
          let old := (← get).vars
          match vars with
          | some vs =>
            let usual := if (vs.lookup "PATH").isSome then []
              else [("PATH", ⟨some "/bin:/usr/bin", false, false⟩)]
            modify fun s => { s with
              vars := vs.map (fun p => (p.1, ⟨some p.2, true, false⟩)) ++ usual }
          | none => pure ()
          let back : Act Unit := modify fun s => { s with vars := old }
          match ← locate name with
          | .ok inner =>
            let f ← launch tools inner args fuel
            back
            return f
          | .error (_, status) =>
            back
            let reason := if status = 127 then "No such file or directory" else "Permission denied"
            let what := match base with
              | "env" | "nice" => inQuotes name
              | "setsid" => "failed to execute " ++ name
              | _ => "failed to run command " ++ inQuotes name
            writeError (base ++ ": " ++ what ++ ": " ++ reason ++ "\n")
            return .exited status
      | .shell flags text name args => innerShell tools flags text name args fuel

/-- Run a program that runs commands on its way. `answers` are those of commands that have been run,
and `said` is what it had left behind before the last one. -/
def converse (tools : Tools) (f : String → List (Nat × String) → Reply × Option Question)
    (input : String) (answers : List (Nat × String)) (said : Reply) : Nat → Act Finish
  | 0 => throw .quit
  | fuel + 1 => do
    let (r, question) := f input answers
    -- What it has written stays with it while it gives a command its input.
    let r := if question.any fun q => q.input.isSome then { r with out := said.out } else r
    let status ← applyReply { r with
      out := String.ofList (r.out.toList.drop said.out.length)
      err := String.ofList (r.err.toList.drop said.err.length) }
    match question with
    | none => return .exited status
    | some q =>
      let ports := (← get).ports
      match q.input with
      | some t => setPort 0 (.stream (← newStream t))
      | none => pure ()
      let n ← newStream ""
      if q.captured then setPort 1 (.stream n)
      let f' ← innerShell tools [] (.inl q.command) "sh" [] fuel
      modify fun s => { s with ports := ports }
      let status := match f' with
        | .exited n => n
        | .killed n => 256 + n
      let out := (← get).world.stream n
      converse tools f input (answers ++ [(status, out)]) r fuel

/-- Run commands one after the other for another program, whose status so far is `status`. -/
def feed (tools : Tools) (base : String) (cmds : List (List String)) (status : Nat) :
    Nat → Act Finish
  | 0 => throw .quit
  | fuel + 1 => do
    match cmds with
    | [] => return .exited status
    | [] :: r => feed tools base r status fuel
    | (name :: args) :: r =>
      match ← locate name with
      | .error (_, status) =>
        let reason := if status = 127 then "No such file or directory" else "Permission denied"
        writeError (base ++ ": " ++ name ++ ": " ++ reason ++ "\n")
        return .exited status
      | .ok inner =>
        match ← launch tools inner args fuel with
        | .exited 0 => feed tools base r status fuel
        | .exited 255 =>
          writeError (base ++ ": " ++ name ++ ": exited with status 255; aborting\n")
          return .exited 124
        | .exited _ => feed tools base r 123 fuel
        | .killed n =>
          writeError (base ++ ": " ++ name ++ ": terminated by signal " ++ toString n ++ "\n")
          return .exited 125

/-- Run a shell as a program. -/
def innerShell (tools : Tools) (flags : List Char) (text : String ⊕ String) (name : String)
    (args : List String) : Nat → Act Finish
  | 0 => throw .quit
  | fuel + 1 => do
    let outer ← get
    let p := outer.world.nextProcess
    changeWorld fun w => { w with nextProcess := p + 1 }
    let inherited := outer.vars.filter fun v => v.2.exported
    let first := erase "HOME" (firstVariables outer.folder)
    let vars := inherited.foldl (fun vs (n, v) => put n { v with fixed := false } vs)
      (first.map fun p => if p.1 = "PATH" then (p.1, { p.2 with exported := false }) else p)
    let source : Except String String := match text with
      | .inl t => .ok t
      | .inr path =>
        match outer.world.made.files.lookup (outer.place path) with
        | some n => .ok (outer.world.stream n)
        | none => .error path
    match source with
    | .error path =>
      writeError ("sh: 0: cannot open " ++ path ++ ": No such file\n")
      return .exited 2
    | .ok t =>
      set { world := (← get).world, process := p, name := name, arguments := args
            vars := vars, flags := flags, ports := outer.ports
            folder := outer.folder, mask := outer.mask, limits := outer.limits : State }
      let f ← conclude tools true (script tools false t fuel) fuel
      let world := (← get).world
      set { outer with world := world }
      return f

/-- Run a text. -/
def script (tools : Tools) (tested : Bool) (text : String) : Nat → Act Unit
  | 0 => throw .quit
  | fuel + 1 => do
    lines tools tested false { rest := text.toList, number := (← get).nextDocument } fuel

/-- Run the lines of a text from some point on; `ran` holds behind the first command. -/
def lines (tools : Tools) (tested ran : Bool) (r : Reader) : Nat → Act Unit
  | 0 => throw .quit
  | fuel + 1 => do
    match { r with aliases := (← get).aliases }.nextLine with
    | .error e =>
      modify fun s => { s with line := e.line }
      giveUp ("Syntax error: " ++ e.text)
    | .ok (none, _) => if !ran then setStatus 0
    | .ok (some c, r) =>
      modify fun s => { s with
        documents := r.documents ++ s.documents
        nextDocument := max s.nextDocument r.number }
      if !(c matches .empty) then command tools tested c fuel
      lines tools tested (ran || !(c matches .empty)) { r with documents := [] } fuel

end

/-! ## A shell of its own -/

/-- **Run a command line in a shell of its own**: how the shell ends, and its state then. -/
def run (tools : Tools) (line : String) : Finish × State :=
  let folder := "/tmp"
  let s : State := { folder := folder, vars := firstVariables folder }
  let fuel := 1000000
  match (conclude tools true (script tools false line fuel) fuel).run s with
  | (.ok f, s) => (f, s)
  | (.error _, s) => (.exited s.status, s)

/-- What a shell has said where errors go. -/
def State.errors (s : State) : String := s.world.stream 2

/-- The wait status of a shell that has ended. -/
def waitStatus : Finish → Int32
  | .exited n => Int32.ofNat (n * 256)
  | .killed n => Int32.ofNat n

end MemoFlow.Shell
