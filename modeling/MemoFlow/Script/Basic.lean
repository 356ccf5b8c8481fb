import MemoFlow.Evaluator.Assignment
import MemoFlow.Fault

/-!
# Scripts

Bodies of stages and branches as data. A script is a list of instructions on an environment.

* **`Expr`**: expressions over the bindings of an environment and named counters;
* `Ticks`: the counters;
* **`Expr.eval`**: evaluation;
* **`Instr`**, `StageSpec`, `TaskSpec`: instructions, and the stages and branches that they run;
* `ParsedUnit`: a parsed statement with a number that tells it from others;
* `Instr.weight`, `StageSpec.weight`, `TaskSpec.weight`: how many steps a script can take.
-/

/-! ## Expressions of scripts -/

namespace MemoFlow.Script

/-- **An expression.** -/
inductive Expr where
  /-- A value. -/
  | value (v : Value)
  /-- The value of a name. -/
  | var (name : String)
  /-- The number of a value, as a double. -/
  | num (e : Expr)
  /-- The text of a value. -/
  | str (e : Expr)
  /-- Whether a name is bound. -/
  | has (name : String)
  /-- The number of bindings. -/
  | size
  /-- The bound names. -/
  | keys
  /-- A list. -/
  | list (es : List Expr)
  /-- A sum. -/
  | add (a b : Expr)
  /-- A product. -/
  | mul (a b : Expr)
  /-- The next number of a counter. -/
  | tick (name : String)
deriving Inhabited

/-- Named counters. -/
abbrev Ticks : Type := NameMap Int64

/-- Computations that count and may fail. -/
abbrev Counting : Type → Type := ExceptT Thrown (StateM Ticks)

/-- A result or a failure as a computation that counts. -/
def liftExcept {α : Type} (r : Except Thrown α) : Counting α := ExceptT.mk (pure r)

/-- Count on a counter. -/
def nextTick (name : String) : Counting Value := do
  let n := ((← get).find? name).getD 0 + 1
  modify fun t => t.insert name n
  return .int n

/-- An operation on two values: on integers, which wrap, or else on their numbers. -/
def arithmetic (ints : Int64 → Int64 → Int64) (doubles : Float → Float → Float) (a b : Value) :
    Except Thrown Value :=
  match a, b with
  | .int x, .int y => .ok (.int (ints x y))
  | a, b => do return .dbl (doubles (← a.number) (← b.number))

namespace Expr

mutual

/-- **The value of an expression.** -/
def eval (env : Environment) : Expr → Counting Value
  | .value v => return v
  | .var n => liftExcept (env.get n)
  | .num e => do liftExcept ((← eval env e).number.map Value.dbl)
  | .str e => return .str (← eval env e).text
  | .has n => return .bool (env.contains n)
  | .size => return .int (Int64.ofNat env.size)
  | .keys => return .list (env.keys.map Value.str)
  | .list es => return .list (← evalAll env es)
  | .add a b => do
    let x ← eval env a
    let y ← eval env b
    liftExcept (arithmetic (· + ·) (· + ·) x y)
  | .mul a b => do
    let x ← eval env a
    let y ← eval env b
    liftExcept (arithmetic (· * ·) (· * ·) x y)
  | .tick n => nextTick n

/-- The values of expressions, the first one first. -/
def evalAll (env : Environment) : List Expr → Counting (List Value)
  | [] => return []
  | e :: es => do
    let v ← eval env e
    let vs ← evalAll env es
    return v :: vs

end

end Expr

end MemoFlow.Script

/-! ## Scripts -/

namespace MemoFlow.Script

/-- A parsed statement. Units of equal text that were parsed twice are different. -/
structure ParsedUnit where
  /-- The number of the unit. -/
  id : Nat
  /-- The statement. -/
  statement : Assignment
deriving DecidableEq, Repr

/-- An identity given to a stage. -/
inductive IdentitySpec where
  /-- That of a text. -/
  | fixed (text : String)
  /-- None that can be used. -/
  | uncacheable
  /-- That of the values of names. -/
  | names (names : List String)
  /-- It throws. -/
  | throwing (t : Thrown)
deriving Inhabited

/-- What stages of all kinds have. -/
structure StageHead where
  /-- The name. -/
  name : String
  /-- The source text. -/
  source : String := ""
  /-- The names that are read. -/
  inputs : List String := []
  /-- An identity in place of the usual one. -/
  identity : Option IdentitySpec := none
deriving Inhabited

mutual

/-- **An instruction.** -/
inductive Instr where
  /-- Bind a name. -/
  | define (name : String) (e : Expr)
  /-- Bind a name if it is bound already. -/
  | assign (name : String) (e : Expr)
  /-- Forget a name. -/
  | erase (name : String)
  /-- Write bindings. -/
  | merge (bindings : Environment)
  /-- Throw. -/
  | throwing (t : Thrown)
  /-- End the script with a value. -/
  | result (e : Expr)
  /-- Wait at a gate. -/
  | gate (name : String)
  /-- Bind a name to the first result of a tensor operation. -/
  | tensor (name op : String) (args : List (Tensor Double))
  /-- Run a pipeline on the bindings. -/
  | pipeline (stages : List StageSpec)
  /-- Run branches and bind a name to the list of their values. -/
  | branches (name : String) (tasks : List TaskSpec) (workers : Option Nat) (timed : Bool)

/-- A stage of a pipeline. -/
inductive StageSpec where
  /-- A script. -/
  | block (head : StageHead) (body : List Instr)
  /-- An expression, bound under a name. -/
  | expression (head : StageHead) (e : Expr) (target : String)
  /-- The parsed unit that goes by a label. -/
  | unit (head : StageHead) (label : String)
  /-- A source text, parsed when the pipeline is put together. -/
  | source (head : StageHead) (text : String)
  /-- Nothing. -/
  | empty (head : StageHead)

/-- A branch. -/
inductive TaskSpec where
  /-- Its name, its bindings, its work and its stages. -/
  | mk (id : String) (env : Environment) (work : Option (List Instr)) (stages : List StageSpec)
      (source : String) (inputs : List String)

end

instance : Inhabited Instr := ⟨.erase ""⟩
instance : Inhabited StageSpec := ⟨.empty default⟩
instance : Inhabited TaskSpec := ⟨.mk "" ∅ none [] "" []⟩

/-- The head of a stage. -/
def StageSpec.head : StageSpec → StageHead
  | .block h _ | .expression h _ _ | .unit h _ | .source h _ | .empty h => h

/-! ## Weights -/

mutual

/-- How many steps an instruction can take. -/
def Instr.weight : Instr → Nat
  | .pipeline stages => 1 + stagesWeight stages
  | .branches _ tasks _ _ => 4 + tasksWeight tasks
  | _ => 2

/-- The weight of a script. -/
def scriptWeight : List Instr → Nat
  | [] => 0
  | i :: is => i.weight + scriptWeight is

/-- The weight of a stage. -/
def StageSpec.weight : StageSpec → Nat
  | .block _ body => scriptWeight body
  | _ => 0

/-- The weight of stages. -/
def stagesWeight : List StageSpec → Nat
  | [] => 0
  | s :: ss => s.weight + stagesWeight ss

/-- The weight of a branch. -/
def TaskSpec.weight : TaskSpec → Nat
  | .mk _ _ work stages _ _ => 4 + workWeight work + stagesWeight stages

/-- The weight of the work of a branch. -/
def workWeight : Option (List Instr) → Nat
  | none => 0
  | some body => scriptWeight body

/-- The weight of branches. -/
def tasksWeight : List TaskSpec → Nat
  | [] => 0
  | t :: ts => t.weight + tasksWeight ts

end

end MemoFlow.Script
