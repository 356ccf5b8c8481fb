import MemoFlow.Shell.Match
import MemoFlow.Shell.Reply

/-!
# Expressions in arguments

The program `expr`, which computes with its arguments.

* `Expression.matched`: the part of a string that matches a pattern;
* `Expression.level?`, `Expression.operate`: operators of two values;
* **`Expression.value`**: the value of an expression;
* `Expression.reply`: what the program leaves behind.
-/

namespace MemoFlow.Shell

namespace Expression

/-- A number as `expr` knows it. -/
def number? (s : String) : Option Int :=
  let (negative, cs) : Bool × List Char :=
    match s.toList with
    | '-' :: r => (true, r)
    | r => (false, r)
  if cs.isEmpty || !cs.all Char.isDigit then none
  else ((String.ofList cs).toNat?).map fun n => if negative then -(n : Int) else n

/-- Whether a value is empty or zero. -/
def isNull (s : String) : Bool := s.isEmpty || number? s = some 0

/-- How late an operator is applied. -/
def level? (o : String) : Option Nat :=
  if o = ":" then some 0
  else if ["*", "/", "%"].contains o then some 1
  else if ["+", "-"].contains o then some 2
  else if ["<", "<=", "=", "==", "!=", ">=", ">"].contains o then some 3
  else if o = "&" then some 4
  else if o = "|" then some 5
  else none

/-- How much of the start of a string matches a pattern, or the part of it that the pattern
remembers. -/
def matched (a b : String) : Except String String := do
  let r ← Regex.ofText? { } b.toList
  let start := Regex.Place.before a.toList
  match Regex.longest? false (fun _ _ => true) a.toList r start with
  | none => return if r.groups = 0 then "0" else ""
  | some q =>
    if r.groups = 0 then return toString q.index
    else return String.ofList (Regex.part a.toList (start, q) 1)

/-- Some characters of a string, from one that is counted from one. -/
def excerpt (s from' length : String) : String :=
  match number? from', number? length with
  | some i, some n =>
    if i ≤ 0 || n ≤ 0 then ""
    else String.ofList ((s.toList.drop (i.toNat - 1)).take n.toNat)
  | _, _ => ""

/-- Where the first of some characters stands in a string, counted from one; else zero. -/
def position (s chars : String) : Nat :=
  let i := s.toList.findIdx fun c => chars.contains c
  if i < s.length then i + 1 else 0

/-- The result of an operator. -/
def operate (o a b : String) : Except String String :=
  let truth (t : Bool) : Except String String := .ok (if t then "1" else "0")
  let compare (f : Int → Int → Bool) (g : String → String → Bool) : Except String String :=
    match number? a, number? b with
    | some x, some y => truth (f x y)
    | _, _ => truth (g a b)
  let compute (f : Int → Int → Int) : Except String String :=
    match number? a, number? b with
    | some x, some y => .ok (toString (f x y))
    | _, _ => .error "non-integer argument"
  match o with
  | ":" => matched a b
  | "+" => compute (· + ·)
  | "-" => compute (· - ·)
  | "*" => compute (· * ·)
  | "/" => if number? b = some 0 && (number? a).isSome then .error "division by zero"
    else compute Int.tdiv
  | "%" => if number? b = some 0 && (number? a).isSome then .error "division by zero"
    else compute Int.tmod
  | "<" => compare (fun x y => x < y) (fun x y => x < y)
  | "<=" => compare (fun x y => x ≤ y) (fun x y => !decide (y < x))
  | "=" | "==" => compare (fun x y => x = y) (fun x y => x = y)
  | "!=" => compare (fun x y => x ≠ y) (fun x y => x ≠ y)
  | ">=" => compare (fun x y => y ≤ x) (fun x y => !decide (x < y))
  | ">" => compare (fun x y => y < x) (fun x y => y < x)
  | "&" => .ok (if isNull a || isNull b then "0" else a)
  | _ => .ok (if isNull a then (if isNull b then "0" else b) else a)

mutual

/-- Operators that are applied before some level; `last` is the argument before the others. -/
def operation (level : Nat) (last : String) (args : List String) :
    Nat → Except String (String × String × List String)
  | 0 => .error "syntax error"
  | fuel + 1 => do
    let (a, last, r) ← primary last args fuel
    more level a last r fuel

/-- More operators after a value. -/
def more (level : Nat) (a last : String) (args : List String) :
    Nat → Except String (String × String × List String)
  | 0 => .error "syntax error"
  | fuel + 1 => do
    match args with
    | o :: r =>
      match level? o with
      | some k =>
        if k < level then
          let (b, last, r) ← operation k o r fuel
          more level (← operate o a b) last r fuel
        else return (a, last, args)
      | none => return (a, last, args)
    | [] => return (a, last, [])

/-- A value, or an expression in parentheses. -/
def primary (last : String) (args : List String) :
    Nat → Except String (String × String × List String)
  | 0 => .error "syntax error"
  | fuel + 1 => do
    match args with
    | [] => throw ("syntax error: missing argument after " ++ quoted last)
    | "(" :: r =>
      let (a, last, r) ← operation 6 "(" r fuel
      match r with
      | ")" :: r => return (a, ")", r)
      | [] => throw ("syntax error: expecting ')' after " ++ quoted last)
      | s :: _ => throw ("syntax error: expecting ')' instead of " ++ quoted s)
    | ")" :: _ => throw "syntax error: unexpected ')'"
    | "+" :: s :: r => return (s, s, r)
    | "+" :: [] => throw "syntax error: missing argument after '+'"
    | "length" :: r =>
      let (s, last, r) ← primary "length" r fuel
      return (toString s.length, last, r)
    | "match" :: r =>
      let (s, last, r) ← primary "match" r fuel
      let (t, last, r) ← primary last r fuel
      return (← matched s t, last, r)
    | "index" :: r =>
      let (s, last, r) ← primary "index" r fuel
      let (t, last, r) ← primary last r fuel
      return (toString (position s t), last, r)
    | "substr" :: r =>
      let (s, last, r) ← primary "substr" r fuel
      let (i, last, r) ← primary last r fuel
      let (n, last, r) ← primary last r fuel
      return (excerpt s i n, last, r)
    | s :: r => return (s, s, r)

end

/-- The value of an expression. -/
def value (args : List String) : Except String String := do
  let (a, _, r) ← operation 6 "" args (8 * args.length + 8)
  match r with
  | [] => return a
  | s :: _ => throw ("syntax error: unexpected argument " ++ quoted s)

/-- What the program leaves behind. -/
def reply (args : List String) : Reply :=
  match (if args.head? = some "--" then args.drop 1 else args) with
  | [] => refuseWithHint 2 "expr" "missing operand"
  | args =>
    match value args with
    | .ok s => { status := if isNull s then 1 else 0, out := s ++ "\n" }
    | .error e => refuse 2 "expr" e

end Expression

end MemoFlow.Shell
