import MemoFlow.Shell.Setting

/-!
# Signals

* `Signal.names`: the names of signals, in the order of their numbers;
* **`Signal.number?`**: a signal by its number or name;
* `Signal.isHarmless`, `Signal.isCertain`: signals that end nobody, and those that nobody catches;
* `Signal.text`: what a shell says of a process that a signal has ended;
* `Builtin.send`: a signal on its way to a process;
* **`Builtin.kill`**, `Builtin.trap`: sending signals and catching them.
-/

namespace MemoFlow.Shell.Signal

/-- The names of signals in the order of their numbers; the one with number zero stands for the end
of a shell. -/
def names : List String :=
  ["EXIT", "HUP", "INT", "QUIT", "ILL", "TRAP", "ABRT", "BUS", "FPE", "KILL", "USR1", "SEGV",
    "USR2", "PIPE", "ALRM", "TERM", "STKFLT", "CHLD", "CONT", "STOP", "TSTP", "TTIN", "TTOU", "URG",
    "XCPU", "XFSZ", "VTALRM", "PROF", "WINCH", "IO", "PWR", "SYS"]

/-- **A signal by its number or its name.** -/
def number? (s : String) : Option Nat :=
  if !s.isEmpty && s.all Char.isDigit then (s.toNat?).filter (· < 65)
  else names.findIdx? fun n => n = s.toUpper

/-- Signals that a process does not mind, and those that only stop it. -/
def isHarmless (n : Nat) : Bool := [0, 17, 18, 19, 20, 21, 22, 23, 28].contains n

/-- Signals that cannot be caught. -/
def isCertain (n : Nat) : Bool := n = 9 || n = 19

/-- What a shell says of a process that a signal has ended. -/
def text (n : Nat) : String :=
  match n with
  | 1 => "Hangup"
  | 3 => "Quit"
  | 4 => "Illegal instruction"
  | 5 => "Trace/breakpoint trap"
  | 6 => "Aborted"
  | 7 => "Bus error"
  | 8 => "Floating point exception"
  | 9 => "Killed"
  | 10 => "User defined signal 1"
  | 11 => "Segmentation fault"
  | 12 => "User defined signal 2"
  | 14 => "Alarm clock"
  | 15 => "Terminated"
  | 16 => "Stack fault"
  | 24 => "CPU time limit exceeded"
  | 25 => "File size limit exceeded"
  | 26 => "Virtual timer expired"
  | 27 => "Profiling timer expired"
  | 29 => "I/O possible"
  | 30 => "Power failure"
  | 31 => "Bad system call"
  | n => "Real-time signal " ++ toString (n - 34)

end MemoFlow.Shell.Signal

/-! ## Commands for signals -/

namespace MemoFlow.Shell.Builtin

/-- Send a signal to a process; whether there is such a process. -/
def send (signal : Nat) (process : Nat) : Act Bool := do
  let s ← get
  let isShell := process = s.process || s.world.catching.any fun p => p.1 = process
  if isShell then
    if s.world.catching.contains (process, signal) then
      changeWorld fun w => { w with signals := w.signals ++ [(process, signal)] }
      return true
    if Signal.isHarmless signal then return true
    if s.isCopy || process ≠ s.process then
      changeWorld fun w => { w with fatal := w.fatal ++ [(process, signal)] }
      return true
    throw (.killed process signal)
  match s.world.jobs.lookup process with
  | some (.waiting _) =>
    if !Signal.isHarmless signal then
      changeWorld fun w => { w with jobs := put process (.ended (.killed signal)) w.jobs }
    return true
  | _ => return false

/-- How `kill` is called. -/
def killUsage : String :=
  "Usage: kill [-s sigspec | -signum | -sigspec] [pid | job]... or\nkill -l [exitstatus]"

/-- The signal, whether names are asked for, and the other arguments of `kill`. -/
def killOptions : List String → Act (Option Nat × Bool × List String)
  | [] => return (none, false, [])
  | a :: r =>
    match a.toList with
    | '-' :: c :: cs =>
      match Signal.number? (String.ofList (c :: cs)) with
      | some n => return (some n, false, r)
      | none =>
        if c = '-' && cs.isEmpty then return (none, false, r)
        else if c = 'l' then return (none, true, r)
        else if c = 's' then
          match cs, r with
          | [], [] => giveUp "No arg for -s option"
          | [], n :: r => do return (some (← named n), false, r)
          | cs, r => do return (some (← named (String.ofList cs)), false, r)
        else giveUp ("Illegal option -" ++ String.singleton c)
    | _ => return (none, false, a :: r)
where
  /-- A signal, or a complaint. -/
  named (n : String) : Act Nat :=
    match Signal.number? n with
    | some k => return k
    | none => giveUp ("invalid signal number or name: " ++ n)

/-- Send a signal to processes. -/
def kill (args : List String) : Act Nat := do
  if args.isEmpty then giveUp killUsage
  let (signal, names, targets) ← killOptions args
  if names && !targets.isEmpty then
    return ← forEach (targets.take 1) fun t => do
      let n ← countOf t
      let k := if 128 < n then n - 128 else n
      match if k = 0 || n = 128 then none else Signal.names[k]? with
      | some name =>
        let _ ← write 1 (name ++ "\n")
        return 0
      | none => giveUp ("invalid signal number or exit status: " ++ t)
  if names then
    let _ ← write 1 (String.intercalate "\n" (Signal.names.drop 1) ++ "\n")
    return 0
  if targets.isEmpty then giveUp killUsage
  forEach targets fun t => do
    let group := t.startsWith "-"
    let n ← countOf (if group then String.ofList (t.toList.drop 1) else t)
    if !group && (← send (signal.getD 15) n) then return 0
    complain "No such process\n"
    return 1

/-- Say what is to be done on signals. -/
def trap (args : List String) : Act Nat := do
  let (_, args) ← options "" args
  match args with
  | [] =>
    let ts := (← get).traps.mergeSort fun a b => a.1 ≤ b.1
    ts.forM fun (n, t) => do
      let _ ← write 1 ("trap -- " ++ singleQuoted t ++ " " ++
        (Signal.names[n]?).getD (toString n) ++ "\n")
    return 0
  | a :: r =>
    let resets := r.isEmpty || (!a.isEmpty && a.all Char.isDigit && (Signal.number? a).isSome)
    let action := if resets || a = "-" then none else some a
    let rec each : List String → Act Nat
      | [] => return 0
      | n :: ns =>
        match Signal.number? n with
        | none => do
          writeError ("trap: " ++ n ++ ": bad trap\n")
          return 1
        | some k => do
          modify fun s =>
            let traps := erase k s.traps
            let catching := s.world.catching.filter (· ≠ (s.process, k))
            match action with
            | none => { s with traps := traps, world := { s.world with catching := catching } }
            | some t =>
              let catching := if k = 0 || s.isCopy || Signal.isCertain k then catching
                else (s.process, k) :: catching
              { s with
                traps := traps ++ [(k, t)]
                world := { s.world with catching := catching } }
          each ns
    each (if resets then args else r)

end MemoFlow.Shell.Builtin
