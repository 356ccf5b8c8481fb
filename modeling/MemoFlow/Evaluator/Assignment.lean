import MemoFlow.Fault
import MemoFlow.Fingerprint

/-!
# Assignment statements

A small language: a unit is one statement, `name = operand`, `name = operand + operand` or
`fail(message)`. Operands are integers or names.

* **`Assignment`**, `Assignment.parse`: statements and their reading;
* `Assignment.names`, `Assignment.fingerprint`: what a statement reads, and its identity;
* **`Assignment.execute`**: running a statement; sums wrap in 64 bits.
-/

namespace MemoFlow

/-- What a statement does. -/
inductive Assignment.Action where
  /-- Fail with a message. -/
  | fail (message : String)
  /-- Bind a name to the sum of operands. -/
  | assign (target : String) (operands : List String)
deriving DecidableEq, Repr

/-- **A statement.** -/
structure Assignment where
  /-- The text, without blanks around it. -/
  text : String
  /-- What it does. -/
  action : Assignment.Action
deriving DecidableEq, Repr

namespace Assignment

/-! ## Reading -/

/-- Blanks around statements and operands. -/
def isBlank (c : Char) : Bool :=
  c = ' ' || c = '\t' || c = '\n' || c = '\x0b' || c = '\x0c' || c = '\r'

/-- A text without blanks around it. -/
def trim (cs : List Char) : List Char :=
  ((cs.dropWhile isBlank).reverse.dropWhile isBlank).reverse

/-- A text up to a character and the text behind it, when the character occurs. -/
def splitAt? (c : Char) (cs : List Char) : Option (List Char × List Char) :=
  if cs.contains c then some (cs.takeWhile (· ≠ c), (cs.dropWhile (· ≠ c)).drop 1) else none

/-- The operands of the right side; the first plus sign parts two of them. -/
def operandsOf (cs : List Char) : List String :=
  match splitAt? '+' cs with
  | none => [String.ofList (trim cs)]
  | some (a, b) => [String.ofList (trim a), String.ofList (trim b)]

/-- The beginning of a statement that fails. -/
def failMark : List Char := "fail(".toList

/-- **Read a statement.** -/
def parse (source : String) : Except Thrown Assignment :=
  let cs := trim source.toList
  let text := String.ofList cs
  if failMark.isPrefixOf cs && cs.getLast? = some ')' then
    .ok ⟨text, .fail (String.ofList (cs.drop failMark.length).dropLast)⟩
  else
    match splitAt? '=' cs with
    | none => .error (.evaluation ("expected assignment: " ++ text))
    | some (target, rhs) => .ok ⟨text, .assign (String.ofList (trim target)) (operandsOf rhs)⟩

/-! ## Operands -/

/-- Whether an operand is an integer. -/
def isLiteral (s : String) : Bool :=
  match s.toList with
  | c :: _ => c.isDigit || c = '-'
  | [] => false

/-- The integer at the start of a literal; what follows the digits does not count. -/
def literalValue (s : String) : Except Thrown Int64 :=
  let (neg, ds) : Bool × List Char := match s.toList with
    | '-' :: r => (true, r.takeWhile Char.isDigit)
    | r => (false, r.takeWhile Char.isDigit)
  let n : Int := ds.foldl (fun n c => 10 * n + (c.toNat - '0'.toNat : Nat)) 0
  let v := if neg then -n else n
  if ds.isEmpty then .error (.error .invalidArgument "stoll")
  else if v < -Int.pow 2 63 ∨ Int.pow 2 63 ≤ v then .error (.error .outOfRange "stoll")
  else .ok (Int64.ofInt v)

/-- A double without its fraction; what does not fit becomes the least integer. -/
def truncated (x : Float) : Int64 :=
  if -9223372036854775808.0 ≤ x && x < 9223372036854775808.0 then x.toInt64
  else Int64.minValue

/-- The names that a statement reads. -/
def names (a : Assignment) : List String :=
  match a.action with
  | .fail _ => []
  | .assign _ operands => operands.filter fun o => !isLiteral o

/-- The identity of a statement with the bindings that it reads. -/
def fingerprint (a : Assignment) (env : Environment) : Fingerprint :=
  if a.names.isEmpty then .ofText a.text else .ofRequest a.text env a.names

/-- The value of an operand. -/
def operandValue (env : Environment) (o : String) : Except Thrown Int64 :=
  if isLiteral o then literalValue o
  else
    match env.find? o with
    | none => .error (.evaluation ("name '" ++ o ++ "' is not defined"))
    | some v => v.number.map truncated

/-- **Run a statement**: its value and the changed bindings. -/
def execute (a : Assignment) (env : Environment) : Except Thrown (Option Value × Environment) :=
  match a.action with
  | .fail message => .error (.evaluation message)
  | .assign target operands => do
    let total ← operands.foldlM (fun s o => do return s + (← operandValue env o)) (0 : Int64)
    return (some (.int total), env.define target (.int total))

end Assignment

end MemoFlow
