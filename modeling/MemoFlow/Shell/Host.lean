import MemoFlow.Shell.Given

/-!
# The machine and its users

Programs that tell about the machine, its users and the terminal, of which there is none.

* `Host.user?`: the users;
* **`Shell.onHost?`**: the programs by their names.
-/

namespace MemoFlow.Shell

namespace Host

/-- The names of the first users, in the order of their numbers. -/
def users : List String := ["root", "daemon", "bin", "sys"]

/-- The number of a user or of the group of that name. -/
def user? (name : String) : Option Nat :=
  let i := users.findIdx (· = name)
  if i < users.length then some i
  else name.toNat?.bind fun n => if n < users.length then some n else none

/-- The name of a user. -/
def userName (n : Nat) : String := (users[n]?).getD "root"

/-- A program that takes options and no other argument. -/
def alone (name : String) (status : Nat) (k : Known) (args : List String) (f : Given → Reply) :
    Reply :=
  match Given.ofList? k args with
  | .error e => refuseWithHint status name e
  | .ok g =>
    match g.rest with
    | [] => f g
    | x :: _ => refuseWithHint status name ("extra operand " ++ inQuotes x)

/-- The parts of the name of the system, by the letters that ask for them. -/
def systemParts : List (Char × String) :=
  [('s', "Linux"), ('n', "localhost"), ('r', "6.8.0"), ('v', "#1 SMP"), ('m', "x86_64"),
    ('p', "x86_64"), ('i', "x86_64"), ('o', "GNU/Linux")]

/-- The program `uname`. -/
def system (args : List String) : Reply :=
  alone "uname" 1
    ⟨"asnrvmpio", "", [("all", 'a'), ("kernel-name", 's'), ("nodename", 'n'),
      ("kernel-release", 'r'), ("kernel-version", 'v'), ("machine", 'm'), ("processor", 'p'),
      ("hardware-platform", 'i'), ("operating-system", 'o')], false⟩ args fun g =>
    let asked (c : Char) : Bool :=
      if g.options.isEmpty then c = 's' else g.has 'a' || g.has c
    { out := String.intercalate " "
        ((systemParts.filter fun p => asked p.1).map Prod.snd) ++ "\n" }

/-- What `id` tells about a user. -/
def identity (g : Given) (n : Nat) : String :=
  let name := userName n
  let end' := if g.has 'z' then "\x00" else "\n"
  if g.has 'u' || g.has 'g' || g.has 'G' then (if g.has 'n' then name else toString n) ++ end'
  else
    let one (t : String) : String := t ++ "=" ++ toString n ++ "(" ++ name ++ ")"
    one "uid" ++ " " ++ one "gid" ++ " " ++ one "groups" ++ end'

/-- A line for each of some users, with complaints about names of none. -/
def overUsers (name : String) (names : List String) (f : String → Nat → String) : Reply :=
  let lost := names.filter fun s => (user? s).isNone
  { out := names.foldl (fun t s =>
      match user? s with
      | some n => t ++ f s n
      | none => t) ""
    err := lost.foldl (fun t s => t ++ name ++ ": " ++ inQuotes s ++ ": no such user\n") ""
    status := if lost.isEmpty then 0 else 1 }

/-- The program `id`. -/
def identities (args : List String) : Reply :=
  match Given.ofList? ⟨"aguGnrzZ", "", [("user", 'u'), ("group", 'g'), ("groups", 'G'),
      ("name", 'n'), ("real", 'r'), ("zero", 'z')], false⟩ args with
  | .error e => refuseWithHint 1 "id" e
  | .ok g =>
    let choices := ['u', 'g', 'G'].filter g.has
    if 1 < choices.length then refuse 1 "id" "cannot print \"only\" of more than one choice"
    else if choices.isEmpty && (g.has 'n' || g.has 'r') then
      refuse 1 "id" "cannot print only names or real IDs in default format"
    else if choices.isEmpty && g.has 'z' then
      refuse 1 "id" "option --zero not permitted in default format"
    else if g.rest.isEmpty then { out := identity g 0 }
    else overUsers "id" g.rest fun _ n => identity g n

/-- The program `groups`. -/
def groups (args : List String) : Reply :=
  match Given.ofList? ⟨"", "", [], false⟩ args with
  | .error e => refuseWithHint 1 "groups" e
  | .ok g =>
    if g.rest.isEmpty then { out := "root\n" }
    else overUsers "groups" g.rest fun s n => s ++ " : " ++ userName n ++ "\n"

/-- Values of the program `getconf`. -/
def values : List (String × String) :=
  [("PAGESIZE", "4096"), ("PAGE_SIZE", "4096"), ("LONG_BIT", "64"), ("WORD_BIT", "32"),
    ("CHAR_BIT", "8"), ("INT_BIT", "32"), ("INT_MAX", "2147483647"), ("INT_MIN", "-2147483648"),
    ("UINT_MAX", "4294967295"), ("CHAR_MAX", "127"), ("CHAR_MIN", "-128"), ("SHRT_MAX", "32767"),
    ("ARG_MAX", "2097152"), ("NAME_MAX", "255"), ("PATH_MAX", "4096"), ("PATH", "/bin:/usr/bin"),
    ("_NPROCESSORS_ONLN", "4"), ("_NPROCESSORS_CONF", "4"), ("CLK_TCK", "100"),
    ("OPEN_MAX", "1024")]

/-- The program `getconf`. -/
def configuration (args : List String) : Reply :=
  match args with
  | [] => { status := 2
            err := "Usage: getconf [-v specification] variable_name [pathname]\n" ++
              "       getconf -a [pathname]\n" }
  | n :: _ =>
    match values.lookup n with
    | some v => { out := v ++ "\n" }
    | none => { status := 2, err := "getconf: Unrecognized variable \x60" ++ n ++ "'\n" }

/-- The program `nproc`, on four processors. -/
def processors (args : List String) : Reply :=
  let (fewer, args) := args.partition fun s => s.startsWith "--ignore="
  let n := (fewer.head?.bind fun s => (String.ofList (s.toList.drop 9)).toNat?).getD 0
  alone "nproc" 1 ⟨"", "", [("all", 'a')], false⟩ args fun _ =>
    { out := toString (max 1 (4 - n)) ++ "\n" }

/-- The program `tput`, for terminals whose kind is known or is not. -/
def capability (v : View) (args : List String) : Reply :=
  match args with
  | "-T" :: _ :: r | r =>
    if r.length = args.length && ((v.vars.lookup "TERM").getD "").isEmpty then
      { status := 2, err := "tput: No value for $TERM and no -T specified\n" }
    else
      match r.head? with
      | some "cols" => { out := "80\n" }
      | some "lines" => { out := "24\n" }
      | _ => { }

end Host

open Host in
/-- **Programs about the machine and its users** by their names. -/
def onHost? (v : View) (name : String) (args : List String) : Option Reply :=
  let tells (t : String) : Option Reply :=
    some (alone name 1 ⟨"", "", [], false⟩ args fun _ => { out := t ++ "\n" })
  match name with
  | "uname" => some (system args)
  | "arch" => tells "x86_64"
  | "whoami" => tells "root"
  | "hostid" => tells "007f0100"
  | "logname" =>
    some (alone name 1 ⟨"", "", [], false⟩ args fun _ => refuse 1 name "no login name")
  | "id" => some (identities args)
  | "groups" => some (groups args)
  | "getconf" => some (configuration args)
  | "nproc" => some (processors args)
  | "hostname" => if args.isEmpty then some { out := "localhost\n" } else none
  | "tty" => some (alone name 2 ⟨"s", "", [("silent", 's'), ("quiet", 's')], false⟩ args fun g =>
      { status := 1, out := if g.has 's' then "" else "not a tty\n" })
  | "stty" => some (refuse 1 name "'standard input': Inappropriate ioctl for device")
  | "tput" => some (capability v args)
  | "clear" =>
    some (if ((v.vars.lookup "TERM").getD "").isEmpty then
      { status := 1, err := "TERM environment variable not set.\n" } else { })
  | _ => none

end MemoFlow.Shell
