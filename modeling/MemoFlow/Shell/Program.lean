import MemoFlow.Shell.Calendar
import MemoFlow.Shell.Expression
import MemoFlow.Shell.Filter
import MemoFlow.Shell.Host
import MemoFlow.Shell.Record.Run
import MemoFlow.Shell.Sequence
import MemoFlow.Shell.Signal
import MemoFlow.Shell.Tree

/-!
# Programs

The programs that commands commonly call, as far as their status and their output go.

* `Shell.limited`, `Shell.withVariables`, `Shell.shellArguments`: programs that call others;
* **`Shell.start`**: a program with its arguments.
-/

namespace MemoFlow.Shell

/-! ## Durations -/

/-- A duration in thousandths of a second. -/
def duration? (s : String) : Option Nat :=
  let cs := s.toList
  let (unit, cs) : Nat × List Char :=
    match cs.getLast? with
    | some 's' => (1, cs.dropLast)
    | some 'm' => (60, cs.dropLast)
    | some 'h' => (3600, cs.dropLast)
    | some 'd' => (86400, cs.dropLast)
    | _ => (1, cs)
  let whole := cs.takeWhile Char.isDigit
  let number (ds : List Char) : Nat := ((String.ofList ds).toNat?).getD 0
  match cs.dropWhile Char.isDigit with
  | [] => if whole.isEmpty then none else some (unit * 1000 * number whole)
  | '.' :: ds =>
    if ds.all Char.isDigit && !(whole.isEmpty && ds.isEmpty) then
      some (unit * (1000 * number whole + number ((ds ++ ['0', '0', '0']).take 3)))
    else none
  | _ => none

/-! ## Programs that call others -/

/-- How long a command sleeps before anything else. -/
def sleeps (command : List String) : Nat :=
  match command with
  | "sleep" :: t :: _ => (duration? t).getD 0
  | [_, "-c", text] =>
    match (text.toList.splitOnP fun c => c = ' ' || c = ';').map String.ofList with
    | "sleep" :: t :: _ => (duration? t).getD 0
    | _ => 0
  | _ => 0

/-- The program `timeout`. -/
def limited (args : List String) : Start :=
  let hint (t : String) : Start := .reply (refuseWithHint 125 "timeout" t)
  match Given.ofList? ⟨"fvp", "sk", [("signal", 's'), ("kill-after", 'k'), ("foreground", 'f'),
      ("verbose", 'v'), ("preserve-status", 'p')], true⟩ args with
  | .error e => hint e
  | .ok g =>
    let name := (g.value? 's').getD "TERM"
    let name := if name.startsWith "SIG" then String.ofList (name.toList.drop 3) else name
    match Signal.number? name, (g.values 'k').find? fun t => (duration? t).isNone, g.rest with
    | none, _, _ => hint (inQuotes name ++ ": invalid signal")
    | _, some t, _ => hint ("invalid time interval " ++ inQuotes t)
    | some signal, none, d :: c :: r =>
      match duration? d with
      | none => hint ("invalid time interval " ++ inQuotes d)
      | some limit =>
        if 0 < limit && limit < sleeps (c :: r) then
          if signal = 9 then .dies 9
          else .reply { status := if g.has 'p' then 128 + signal else 124 }
        else .calls none (c :: r)
    | some _, none, _ =>
      .reply { status := 125, err := "Try 'timeout --help' for more information.\n" }

/-- The program `env`: variables and a command. -/
def withVariables (v : View) (args : List String) : Start :=
  let hint (t : String) : Start := .reply (refuseWithHint 125 "env" t)
  match Given.ofList? ⟨"i0v", "uCS", [("ignore-environment", 'i'), ("null", '0'), ("unset", 'u'),
      ("chdir", 'C'), ("split-string", 'S')], true⟩ args with
  | .error e => hint e
  | .ok g =>
    let words := (g.values 'S').flatMap wordsIn ++ g.rest
    let (bare, words) : Bool × List String := match words with
      | "-" :: r => (true, r)
      | r => (g.has 'i', r)
    let gone := g.values 'u'
    let sets := words.takeWhile fun s => s.contains '='
    let command := words.drop sets.length
    let kept := if bare then [] else v.vars.filter fun p => !gone.contains p.1
    let all := sets.foldl (fun vs s =>
      let name := s.toList.takeWhile (· ≠ '=')
      put (String.ofList name) (String.ofList (s.toList.drop (name.length + 1))) vs) kept
    match gone.find? fun n => n.isEmpty || n.contains '=' with
    | some n => .reply (refuse 125 "env" ("cannot unset " ++ inQuotes n ++ ": Invalid argument"))
    | none =>
      if command.isEmpty then
        if g.has 'C' then hint "must specify command with --chdir (-C)"
        else
          let end' := if g.has '0' then "\x00" else "\n"
          .reply { out := all.foldl (fun t p => t ++ p.1 ++ "=" ++ p.2 ++ end') "" }
      else if g.has '0' then hint "cannot specify --null (-0) with command"
      else .calls (some all) command

/-- Whether an argument of `nice` is a number with one or two signs before it. -/
def isAdjustment (s : String) : Bool :=
  match s.toList with
  | '-' :: '-' :: c :: _ | '-' :: '+' :: c :: _ | '-' :: c :: _ => c.isDigit
  | _ => false

/-- The program `nice`. -/
def courteous (args : List String) : Start :=
  let hint (t : String) : Start := .reply (refuseWithHint 125 "nice" t)
  let (first, args) := (args.takeWhile isAdjustment, args.dropWhile isAdjustment)
  match Given.ofList? ⟨"", "n", [("adjustment", 'n')], true⟩ args with
  | .error e => hint e
  | .ok g =>
    match (g.values 'n').find? fun n => (Expression.number? n).isNone, g.rest with
    | some n, _ => .reply (refuse 125 "nice" ("invalid adjustment " ++ inQuotes n))
    | none, [] =>
      if g.has 'n' || !first.isEmpty then hint "a command must be given with an adjustment"
      else .reply { out := "0\n" }
    | none, r => .calls none r

/-- The program `stdbuf`. -/
def buffered (args : List String) : Start :=
  let hint (t : String) : Start := .reply (refuseWithHint 125 "stdbuf" t)
  match Given.ofList? ⟨"", "ioe", [("input", 'i'), ("output", 'o'), ("error", 'e')], true⟩ args with
  | .error e => hint e
  | .ok g =>
    let fine (m : String) : Bool := m = "L" || (m.toList.head?.any Char.isDigit)
    match g.options.find? fun o => !fine o.2 with
    | some o => .reply (refuse 125 "stdbuf" ("invalid mode " ++ inQuotes o.2))
    | none =>
      if g.value? 'i' = some "L" then hint "line buffering stdin is meaningless"
      else if g.rest.isEmpty then hint "missing operand"
      else if g.options.isEmpty then hint "you must specify a buffering mode option"
      else .calls none g.rest

/-- A program without options that calls another one. -/
def calling (name : String) (status : Nat) (missing : String) (args : List String) : Start :=
  match Given.ofList? ⟨"", "", [], true⟩ args with
  | .error e => .reply (refuseWithHint status name e)
  | .ok g =>
    if g.rest.isEmpty then .reply (refuseWithHint status name missing) else .calls none g.rest

/-- The arguments of a shell. -/
def shellArguments (name : String) (flags : List Char) : List String → Start
  | [] => .reads fun _ => { }
  | a :: r =>
    match a.toList with
    | '-' :: o :: os =>
      let letters := o :: os
      let bad := letters.find? fun c => !"aefnuvxCIimsbEVc".toList.contains c
      if a = "--" then
        match r with
        | [] => .reads fun _ => { }
        | p :: r => .shell flags (.inr p) p r
      else if let some c := bad then
        .reply { status := 2, err := name ++ ": 0: Illegal option -" ++ String.singleton c ++ "\n" }
      else if letters.contains 'c' then
        match r.dropWhile fun s => s.startsWith "-" && s ≠ "-" with
        | [] => .reply { status := 2, err := name ++ ": 0: -c requires an argument\n" }
        | t :: r =>
          .shell (flags ++ letters.filter (· ≠ 'c')) (.inl t) (r.head?.getD name) (r.drop 1)
      else shellArguments name (flags ++ letters) r
    | _ => .shell flags (.inr a) a r

/-! ## All programs -/

/-- The last part of a path, without an ending. -/
def nameOf (path ending : String) : String :=
  let b := if path.isEmpty then "" else (parts path).getLast?.getD "/"
  if ending ≠ "" && b.endsWith ending && b ≠ ending then
    String.ofList (b.toList.take (b.length - ending.length))
  else b

/-- The program `basename`. -/
def nameOnly (args : List String) : Reply :=
  let hint := refuseWithHint 1 "basename"
  match Given.ofList? ⟨"az", "s", [("multiple", 'a'), ("suffix", 's'), ("zero", 'z')], true⟩
    args with
  | .error e => hint e
  | .ok g =>
    let end' := if g.has 'z' then "\x00" else "\n"
    if g.rest.isEmpty then hint "missing operand"
    else if g.has 'a' || g.has 's' then
      { out := g.rest.foldl (fun t p => t ++ nameOf p ((g.value? 's').getD "") ++ end') "" }
    else
      match g.rest with
      | p :: ending :: [] => { out := nameOf p ending ++ end' }
      | _ :: _ :: x :: _ => hint ("extra operand " ++ inQuotes x)
      | p :: _ => { out := nameOf p "" ++ end' }
      | [] => hint "missing operand"

/-- The status with which a short text for another interpreter asks to end. -/
def askedStatus : List Char → Nat
  | [] => 0
  | c :: r =>
    match ["exit", "SystemExit"].find? fun w => w.toList.isPrefixOf (c :: r) with
    | some w =>
      let ds := ((c :: r).drop w.length).dropWhile fun c => c = ' ' || c = '('
      ((digitsAt ds).1.getD 0) % 256
    | none => askedStatus r

/-- Any other program: it refuses options that it does not know and does nothing. -/
def ordinary (name : String) (args : List String) : Reply :=
  match args.find? fun s => s.startsWith "-" with
  | some o =>
    if o = "--version" || o = "--help" || o.length = 2 then { }
    else { status := (refusal? name).getD 1 }
  | none => { }

/-- The words of `echo`, with its options; the line has an end when `newline` holds, and escapes are
undone when `special` holds. -/
def echo (newline special : Bool) : List String → Reply
  | [] => { out := if newline then "\n" else "" }
  | w :: r =>
    match w.toList with
    | '-' :: o :: os =>
      if (o :: os).all fun c => c = 'n' || c = 'e' || c = 'E' then
        let last := (o :: os).reverse.find? (· ≠ 'n')
        echo (newline && !(o :: os).contains 'n') ((last.map (· == 'e')).getD special) r
      else shown w r
    | _ => shown w r
where
  /-- The words that are left. -/
  shown (w : String) (r : List String) : Reply :=
    let t := String.intercalate " " (w :: r)
    if special then
      let (t, more) := Format.unescape true t
      { out := if more && newline then t ++ "\n" else t }
    else { out := if newline then t ++ "\n" else t }

/-- The program `which`. -/
def located (v : View) (args : List String) : Reply :=
  match Given.ofList? ⟨"as", "", [], true⟩ args with
  | .error _ =>
    let letters := (args.flatMap fun s => s.toList.drop 1).filter fun c => c ≠ 'a' && c ≠ 's'
    { status := 2
      early := true
      out := "Usage: /usr/bin/which [-as] args\n"
      err := "Illegal option -" ++ String.ofList (letters.take 1) ++ "\n" }
  | .ok g =>
    let places (n : String) : List String :=
      if n.contains '/' then if v.kind? n = some .program then [n] else []
      else if isProgram n then ["/usr/bin/" ++ n] ++ if g.has 'a' then ["/bin/" ++ n] else []
      else []
    let found := g.rest.map places
    { status := if found.all (fun ps => !ps.isEmpty) && !found.isEmpty then 0 else 1
      out := if g.has 's' then "" else unlines found.flatten }

/-- The program `printenv`. -/
def shownVariables (v : View) (args : List String) : Reply :=
  match Given.ofList? ⟨"0", "", [("null", '0')], true⟩ args with
  | .error e => refuseWithHint 2 "printenv" e
  | .ok g =>
    let end' := if g.has '0' then "\x00" else "\n"
    if g.rest.isEmpty then
      { out := v.vars.foldl (fun t p => t ++ p.1 ++ "=" ++ p.2 ++ end') "" }
    else
      let found := g.rest.filterMap fun n => v.vars.lookup n
      { out := found.foldl (fun t x => t ++ x ++ end') ""
        status := if found.length = g.rest.length then 0 else 1 }

/-- Programs that only reply. -/
def reply? (v : View) (name : String) (args : List String) : Option Reply :=
  match name, args with
  | "true", _ => some { }
  | "false", _ => some { status := 1 }
  | "echo", _ => some (echo true false args)
  | "printf", f :: r =>
    let (out, err, status) := printed f r
    some { out := out, err := unlines (err.map ("printf: " ++ ·)), status := status }
  | "sleep", [] => some (refuseWithHint 1 "sleep" "missing operand")
  | "sleep", _ =>
    match args.find? fun s => (duration? s).isNone with
    | some s => some (refuseWithHint 1 "sleep" ("invalid time interval " ++ inQuotes s))
    | none => some { }
  | "expr", _ => some (Expression.reply args)
  | "printenv", _ => some (shownVariables v args)
  | "which", _ => some (located v args)
  | "dirname", [] => some (refuseWithHint 1 name "missing operand")
  | "basename", _ => some (nameOnly args)
  | "dirname", ps => some { out := unlines (ps.map Tree.home) }
  | "seq", _ => some (sequence args)
  | "date", _ => some (date args)
  | "python3", "-c" :: t :: _ | "perl", "-e" :: t :: _ => some { status := askedStatus t.toList }
  | "yes", _ =>
    let t := if args.isEmpty then "y" else String.intercalate " " args
    some { out := unlines (List.replicate 1000 t) }
  | "make", [] =>
    some { status := 2, err := "make: *** No targets specified and no makefile found.  Stop.\n" }
  | "pwd", _ => some { out := v.full "." ++ "\n" }
  | _, _ => (onFiles? v name args).orElse fun _ => onHost? v name args

/-- Programs that call others. -/
def caller? (v : View) (name : String) (args : List String) : Option Start :=
  match name with
  | "env" => some (withVariables v args)
  | "timeout" => some (limited args)
  | "nice" => some (courteous args)
  | "stdbuf" => some (buffered args)
  | "nohup" => some (calling name 125 "missing operand" args)
  | "setsid" => some (calling name 1 "no command specified" args)
  | "awk" | "mawk" | "nawk" => some (recordwise v name args)
  | "sh" | "dash" | "bash" | "rbash" => some (shellArguments name [] args)
  | _ => none

/-- **A program with its arguments.** -/
def start (v : View) (name : String) (args : List String) : Start :=
  match invalidOption? name args with
  | some r => .reply r
  | none =>
    (((caller? v name args).orElse fun _ => filter? v name args).orElse fun _ =>
      (reply? v name args).map Start.reply).getD (.reply (ordinary name args))

end MemoFlow.Shell
