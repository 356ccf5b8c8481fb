import MemoFlow.Shell.State

/-!
# Arithmetic of a shell

Expressions over machine numbers of 64 bits, with variables that can be set.

* `Arithmetic.Sign`, `Arithmetic.signAt`: numbers, names and operators;
* `Arithmetic.level?`, `Arithmetic.operate?`: operators of two numbers;
* **`Shell.evaluate`**: the value of an expression.

A part of an expression that does not count, behind `&&`, `||` or `?`, is read and not computed;
such a part is `idle`.
-/

namespace MemoFlow.Shell

namespace Arithmetic

/-- A sign of an expression. -/
inductive Sign where
  /-- A number. -/
  | number (n : Int64)
  /-- The name of a variable. -/
  | name (s : String)
  /-- An operator or parenthesis. -/
  | operator (s : String)
  /-- Anything else. -/
  | unknown
  /-- The end. -/
  | finish
deriving DecidableEq

/-- Operators, the longer ones first. -/
def operators : List String :=
  ["<<=", ">>=", "&&", "||", "==", "!=", "<=", ">=", "<<", ">>", "+=", "-=", "*=", "/=", "%=",
    "&=", "|=", "^=", "(", ")", "+", "-", "*", "/", "%", "<", ">", "=", "!", "~", "&", "|", "^",
    "?", ":"]

/-- A digit of a base. -/
def digit? (base : Nat) (c : Char) : Option Nat :=
  let n : Option Nat :=
    if c.isDigit then some (c.toNat - 48)
    else if 'a' ≤ c ∧ c ≤ 'f' then some (c.toNat - 87)
    else if 'A' ≤ c ∧ c ≤ 'F' then some (c.toNat - 55)
    else none
  n.filter (· < base)

/-- The number of digits in a base, at most the largest machine number. -/
def fromDigits (base : Nat) (cs : List Char) : Int64 :=
  let n := cs.foldl (fun n c => n * base + (digit? base c).getD 0) 0
  Int64.ofInt (min (Nat.pow 2 63 - 1) n)

/-- The number at the start of some characters, of which the first one is a digit, and what
follows. -/
def numberAt (cs : List Char) : Int64 × List Char :=
  let read (base : Nat) (cs : List Char) : Int64 × List Char :=
    (fromDigits base (cs.takeWhile fun c => (digit? base c).isSome),
      cs.dropWhile fun c => (digit? base c).isSome)
  match cs with
  | '0' :: x :: d :: r =>
    if (x = 'x' || x = 'X') && (digit? 16 d).isSome then read 16 (d :: r) else read 8 cs
  | '0' :: _ => read 8 cs
  | cs => read 10 cs

/-- The first sign of some characters, and what follows. -/
def signAt (cs : List Char) : Sign × List Char :=
  match cs.dropWhile isSpace with
  | [] => (.finish, [])
  | c :: r =>
    if c.isDigit then
      let (n, r) := numberAt (c :: r)
      (.number n, r)
    else if isNameStart c then
      (.name (String.ofList (c :: r.takeWhile isNamePart)), r.dropWhile isNamePart)
    else
      match operators.find? fun o => o.toList.isPrefixOf (c :: r) with
      | some o => (.operator o, (c :: r).drop o.length)
      | none => (.unknown, r)

/-- How late an operator of two numbers is applied. -/
def level? : Sign → Option Nat
  | .operator o =>
    if ["*", "/", "%"].contains o then some 0
    else if ["+", "-"].contains o then some 1
    else if ["<<", ">>"].contains o then some 2
    else if ["<", "<=", ">", ">="].contains o then some 3
    else if ["==", "!="].contains o then some 4
    else if o = "&" then some 5
    else if o = "^" then some 6
    else if o = "|" then some 7
    else none
  | _ => none

/-- A condition as a number. -/
def ofBool (b : Bool) : Int64 := if b then 1 else 0

/-- The result of an operator, unless it divides by zero. -/
def operate? (o : String) (a b : Int64) : Option Int64 :=
  match o with
  | "*" => some (a * b)
  | "/" => if b = 0 then none else some (a / b)
  | "%" => if b = 0 then none else some (a % b)
  | "+" => some (a + b)
  | "-" => some (a - b)
  | "<<" => some (a <<< b)
  | ">>" => some (a >>> b)
  | "<" => some (ofBool (decide (a < b)))
  | "<=" => some (ofBool (decide (a ≤ b)))
  | ">" => some (ofBool (decide (b < a)))
  | ">=" => some (ofBool (decide (b ≤ a)))
  | "==" => some (ofBool (a == b))
  | "!=" => some (ofBool (a != b))
  | "&" => some (a &&& b)
  | "^" => some (a ^^^ b)
  | "|" => some (a ||| b)
  | _ => some b

/-- An expression on its way. -/
structure Rest where
  /-- All of it. -/
  all : String
  /-- The characters that follow. -/
  chars : List Char
  /-- The sign before them. -/
  sign : Sign

/-- An action on an expression. -/
abbrev Step : Type → Type := StateT Rest Act

/-- Give up on an expression. -/
def wrong {α : Type} (t : String) : Step α := do
  let r ← get
  giveUp ("arithmetic expression: " ++ t ++ ": \"" ++ r.all ++ "\"")

/-- Go to the next sign. -/
def advance : Step Unit :=
  modify fun r => { r with sign := (signAt r.chars).1, chars := (signAt r.chars).2 }

/-- The value of a variable as a number. -/
def numberOf (name : String) : Act Int64 := do
  let t := ((← get).value? name).getD ""
  let cs := t.toList.dropWhile isSpace
  let (negative, cs) : Bool × List Char :=
    match cs with
    | '-' :: r => (true, r)
    | '+' :: r => (false, r)
    | r => (false, r)
  match cs with
  | [] => if t.all isSpace then return 0 else giveUp ("Illegal number: " ++ t)
  | c :: r =>
    if c.isDigit then
      let (n, r) := numberAt (c :: r)
      if r.all isSpace then return if negative then -n else n
    giveUp ("Illegal number: " ++ t)

/-- An operator applied, or a complaint. -/
def apply (o : String) (a b : Int64) : Step Int64 :=
  match operate? o a b with
  | some n => return n
  | none => wrong "division by zero"

/-- The operator before the sign `=` in an assignment. -/
def assignment? : Sign → Option String
  | .operator o =>
    if ["=", "+=", "-=", "*=", "/=", "%=", "<<=", ">>=", "&=", "|=", "^="].contains o then
      some (String.ofList (o.toList.dropLast))
    else none
  | _ => none

mutual

/-- An expression, which can be an assignment. -/
def assignment (idle : Bool) : Nat → Step Int64
  | 0 => wrong "expecting primary"
  | fuel + 1 => do
    let r ← get
    match r.sign, assignment? (signAt r.chars).1 with
    | .name s, some o =>
      advance
      advance
      let b ← assignment idle fuel
      if idle then return b
      let v ← if o = "" then pure b else do apply o (← numberOf s) b
      Shell.assign s (toString v.toInt)
      return v
    | _, _ => conditional idle fuel

/-- A choice, or less. -/
def conditional (idle : Bool) : Nat → Step Int64
  | 0 => wrong "expecting primary"
  | fuel + 1 => do
    let a ← disjunction idle fuel
    if (← get).sign = .operator "?" then
      advance
      let b ← assignment (idle || a = 0) fuel
      if (← get).sign ≠ .operator ":" then wrong "expecting ':'"
      advance
      let c ← conditional (idle || a ≠ 0) fuel
      return if a ≠ 0 then b else c
    else return a

/-- A disjunction, or less. -/
def disjunction (idle : Bool) : Nat → Step Int64
  | 0 => wrong "expecting primary"
  | fuel + 1 => do
    let a ← conjunction idle fuel
    if (← get).sign = .operator "||" then
      advance
      let b ← disjunction (idle || a ≠ 0) fuel
      return ofBool (a ≠ 0 || b ≠ 0)
    else return a

/-- A conjunction, or less. -/
def conjunction (idle : Bool) : Nat → Step Int64
  | 0 => wrong "expecting primary"
  | fuel + 1 => do
    let a ← operation idle 8 fuel
    if (← get).sign = .operator "&&" then
      advance
      let b ← conjunction (idle || a = 0) fuel
      return ofBool (a ≠ 0 && b ≠ 0)
    else return a

/-- Operators of two numbers that are applied before some level. -/
def operation (idle : Bool) (level : Nat) : Nat → Step Int64
  | 0 => wrong "expecting primary"
  | fuel + 1 => do moreOperations idle level (← primary idle fuel) fuel

/-- More operators after a number. -/
def moreOperations (idle : Bool) (level : Nat) (a : Int64) : Nat → Step Int64
  | 0 => wrong "expecting primary"
  | fuel + 1 => do
    let sign := (← get).sign
    match sign, level? sign with
    | .operator o, some k =>
      if k < level then
        advance
        let b ← operation idle k fuel
        let v ← if idle then pure b else apply o a b
        moreOperations idle level v fuel
      else return a
    | _, _ => return a

/-- A number, a variable, an expression in parentheses, or one with a sign before it. -/
def primary (idle : Bool) : Nat → Step Int64
  | 0 => wrong "expecting primary"
  | fuel + 1 => do
    let sign := (← get).sign
    match sign with
    | .number n => advance; return n
    | .name s => advance; if idle then return 0 else numberOf s
    | .operator "(" =>
      advance
      let n ← assignment idle fuel
      if (← get).sign ≠ .operator ")" then wrong "expecting ')'"
      advance
      return n
    | .operator "+" => advance; primary idle fuel
    | .operator "-" => advance; return -(← primary idle fuel)
    | .operator "!" => advance; return ofBool ((← primary idle fuel) = 0)
    | .operator "~" => advance; return ~~~(← primary idle fuel)
    | _ => wrong "expecting primary"

end

/-- A whole expression. -/
def whole (fuel : Nat) : Step Int64 := do
  let n ← assignment false fuel
  if (← get).sign ≠ .finish then wrong "expecting EOF"
  return n

end Arithmetic

/-- **The value of an arithmetic expression.** -/
def evaluate (e : String) : Act Int64 := do
  let (sign, chars) := Arithmetic.signAt e.toList
  return (← (Arithmetic.whole (8 * e.length + 32)).run ⟨e, chars, sign⟩).1

end MemoFlow.Shell
