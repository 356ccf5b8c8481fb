import MemoFlow.Shell.State

/-!
# Conditions

The commands `test` and `[`.

* `Condition.Kind`, `Condition.kind`: what an argument can be;
* `Condition.unary`, `Condition.binary`: conditions on one and on two arguments;
* **`Shell.condition`**: the status of a condition.

The arguments are read with a word at a time in hand, and an argument that looks like an operator is
one only if the arguments behind it leave room for that.
-/

namespace MemoFlow.Shell

namespace Condition

/-- What an argument can be. -/
inductive Kind where
  /-- An operator on the argument behind it. -/
  | unary
  /-- An operator between two arguments. -/
  | binary
  /-- The negation. -/
  | negation
  /-- The conjunction. -/
  | conjunction
  /-- The disjunction. -/
  | disjunction
  /-- A left parenthesis. -/
  | opening
  /-- A right parenthesis. -/
  | closing
  /-- Anything else. -/
  | operand
  /-- There is no argument. -/
  | none
deriving DecidableEq

/-- What an argument looks like. -/
def look (s : String) : Kind :=
  if ["-r", "-w", "-x", "-e", "-f", "-d", "-c", "-b", "-p", "-u", "-g", "-k", "-s", "-t", "-z",
    "-n",
    "-h", "-O", "-G", "-L", "-S"].contains s then .unary
  else if ["=", "!=", "<", ">", "-eq", "-ne", "-ge", "-gt", "-le", "-lt", "-nt", "-ot",
    "-ef"].contains s then .binary
  else if s = "!" then .negation
  else if s = "-a" then .conjunction
  else if s = "-o" then .disjunction
  else if s = "(" then .opening
  else if s = ")" then .closing
  else .operand

/-- What the first of some arguments is. -/
def kind : List String → Kind
  | [] => .none
  | s :: r =>
    match look s, r with
    | .unary, [] => .operand
    | .unary, t :: _ :: _ => if look t = .binary then .operand else .unary
    | .opening, [] => .operand
    | k, _ => k

/-- A number, or a complaint. -/
def number (s : String) : Act Int :=
  match integer? s with
  | some n => return n
  | none => giveUp ("Illegal number: " ++ s)

/-- A condition on one argument. -/
def unary (o s : String) : Act Bool := do
  let w ← get
  let path := w.place s
  let kind := w.kind? s
  match o with
  | "-z" => return s.isEmpty
  | "-n" => return !s.isEmpty
  | "-t" => return (← number s) < 0
  | "-e" | "-r" | "-w" | "-O" | "-G" => return kind.isSome
  | "-f" => return kind = some .regular || kind = some .program
  | "-d" => return kind = some .folder
  | "-c" => return kind = some .device
  | "-x" => return kind.isSome && (w.world.made.mode path &&& 73) ≠ 0
  | "-s" =>
    match w.world.made.files.lookup path with
    | some n => return !(w.world.stream n).isEmpty
    | none => return kind.isSome && kind ≠ some .device
  | "-h" | "-L" =>
    return ["/bin", "/sbin", "/lib", "/lib64", "/bin/sh", "/usr/bin/sh"].contains s ||
      (w.world.made.links.lookup (resolve w.folder s)).isSome
  | _ => return false

/-- A condition on two arguments. -/
def binary (a o b : String) : Act Bool := do
  let compare (f : Int → Int → Bool) : Act Bool := do return f (← number a) (← number b)
  match o with
  | "=" => return a = b
  | "!=" => return a ≠ b
  | "<" => return decide (a < b)
  | ">" => return decide (b < a)
  | "-eq" => compare fun x y => x = y
  | "-ne" => compare fun x y => x ≠ y
  | "-ge" => compare fun x y => y ≤ x
  | "-gt" => compare fun x y => y < x
  | "-le" => compare fun x y => x ≤ y
  | "-lt" => compare fun x y => x < y
  | "-ef" =>
    let w ← get
    let number (s : String) : Option Nat := w.world.made.files.lookup (w.place s)
    return (w.kind? a).isSome &&
      (w.place a = w.place b || (number a).isSome && number a = number b)
  | "-nt" | "-ot" =>
    let w ← get
    let number (s : String) : Option Nat := w.world.made.files.lookup (w.place s)
    match number a, number b with
    | some i, some j => return if o = "-nt" then j < i else i < j
    | _, _ => return false
  | _ => return false

mutual

/-- Conditions with `-o` between them, and the arguments from the last one of them on. -/
def disjunction (args : List String) : Nat → Act (Bool × List String)
  | 0 => return (false, args)
  | fuel + 1 => do
    let (a, r) ← conjunction args fuel
    match kind (r.drop 1) with
    | .disjunction =>
      let (b, r) ← disjunction (r.drop 2) fuel
      return (a || b, r)
    | _ => return (a, r)

/-- Conditions with `-a` between them. -/
def conjunction (args : List String) : Nat → Act (Bool × List String)
  | 0 => return (false, args)
  | fuel + 1 => do
    let (a, r) ← negation args fuel
    match kind (r.drop 1) with
    | .conjunction =>
      let (b, r) ← conjunction (r.drop 2) fuel
      return (a && b, r)
    | _ => return (a, r)

/-- A condition that can be negated. -/
def negation (args : List String) : Nat → Act (Bool × List String)
  | 0 => return (false, args)
  | fuel + 1 => do
    match kind args with
    | .negation =>
      if args.length = 1 then return (true, args)
      let (a, r) ← negation (args.drop 1) fuel
      return (!a, r)
    | _ => primary args fuel

/-- A single condition, and the arguments from its last one on. -/
def primary (args : List String) : Nat → Act (Bool × List String)
  | 0 => return (false, args)
  | fuel + 1 => do
    match kind args, args with
    | .none, _ => return (false, args)
    | .opening, _ :: r =>
      if kind r = .closing then return (false, r)
      let (a, r) ← disjunction r fuel
      if kind (r.drop 1) = .closing then return (a, r.drop 1)
      else giveUp "closing paren expected"
    | .unary, o :: s :: r => return (← unary o s, s :: r)
    | .unary, o :: [] => giveUp (o ++ ": argument expected")
    | _, a :: o :: r =>
      if kind (o :: r) = .binary then
        match r with
        | b :: r => return (← binary a o b, b :: r)
        | [] => giveUp (o ++ ": argument expected")
      else return (!a.isEmpty, a :: o :: r)
    | _, a :: [] => return (!a.isEmpty, [a])
    | _, [] => return (false, [])

end

/-- The status of a condition; it is negated when `negative`. -/
def status (args : List String) (negative : Bool) : Nat → Act Nat
  | 0 => return 2
  | fuel + 1 => do
    let result (b : Bool) : Nat := if b = negative then 1 else 0
    let general (args : List String) : Act Nat := do
      let (b, r) ← disjunction args (4 * args.length + 8)
      match r with
      | o :: _ :: _ => giveUp ((if o.isEmpty then "" else o ++ ": ") ++ "unexpected operator")
      | _ => return result b
    match args with
    | [] => return result false
    | [a, o, b] =>
      if look o = .binary then return result (← binary a o b)
      else if a = "(" && b = ")" then general [o]
      else if a = "!" then status [o, b] (!negative) fuel
      else general args
    | [a, b, c, d] =>
      if a = "(" && d = ")" then general [b, c]
      else if a = "!" then status [b, c, d] (!negative) fuel
      else general args
    | args => general args

end Condition

/-- **The status of a condition**, written with `[` or with `test`. -/
def condition (command : String) (args : List String) : Act Nat := do
  if command = "[" then
    if args.getLast? ≠ some "]" then giveUp "missing ]"
    Condition.status args.dropLast false 4
  else Condition.status args false 4

end MemoFlow.Shell
