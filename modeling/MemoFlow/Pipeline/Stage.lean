import MemoFlow.Fault
import MemoFlow.Fingerprint

/-!
# Stages of a pipeline

A stage runs a body on a copy of the bindings so far. What the body writes is the output of the
stage. Bodies are computations of a monad `m`, so that they may count, note or wait.

* `Computation`: what a stage or an expression gave, as it is kept for reuse;
* `Body`, `Identity`, **`Stage`**: the parts of a pipeline;
* `Stage.block`, `Stage.expression`: the two usual forms;
* `Evaluator`, `Stage.ofUnit`: stages whose body is a parsed unit.
-/

namespace MemoFlow

/-- **What a computation gave**: the bindings that it wrote, by name, and a value. -/
structure Computation where
  /-- The bindings, in ascending order of their names. -/
  bindings : List (String × Value) := []
  /-- The value. -/
  value : Option Value := none
deriving Inhabited

/-- A computation on bindings: a value and the changed bindings, or what it throws. -/
abbrev Body (m : Type → Type) (α : Type) : Type :=
  Environment → m (Except Thrown (α × Environment))

/-- The identity of a request for given bindings. -/
abbrev Identity (m : Type → Type) : Type := Environment → m (Except Thrown Fingerprint)

/-- **A stage.** A stage without source and identity is never reused. -/
structure Stage (m : Type → Type) where
  /-- The name. -/
  name : String
  /-- The source text. -/
  source : String := ""
  /-- The names that the body reads; none stands for all. -/
  inputs : List String := []
  /-- What the stage does. -/
  body : Option (Body m (Option Value)) := none
  /-- The identity, when it is not that of the source text. -/
  identity : Option (Identity m) := none

namespace Stage

variable {m : Type → Type} [Monad m]

/-- A stage with a body. -/
def block (name : String) (body : Body m (Option Value)) (source : String)
    (inputs : List String) : Stage m :=
  { name := name, source := source, inputs := inputs, body := some body }

/-- Bind a value under a name, unless the name is empty. -/
def bindAs (name : String) (v : Value) (env : Environment) : Environment :=
  if name = "" then env else env.define name v

/-- A stage that computes one value and binds it under a name, unless the name is empty. -/
def expression (name source : String) (f : Environment → m (Except Thrown Value))
    (target : String) (inputs : List String) : Stage m :=
  { name := name
    source := source
    inputs := inputs
    body := some fun env => do
      match ← f env with
      | .error t => return .error t
      | .ok v => return .ok (some v, bindAs target v env) }

/-- Whether the results of a stage can be reused at all. -/
def isReusable (s : Stage m) : Bool := s.identity.isSome || s.source ≠ ""

/-- The identity of a stage for given bindings. -/
def key (s : Stage m) (env : Environment) : m (Except Thrown Fingerprint) :=
  match s.identity with
  | some f => f env
  | none => return .ok (.ofRequest s.source env s.inputs)

end Stage

/-- What is asked of an evaluator of source texts with parsed units `υ`. -/
structure Evaluator (m : Type → Type) (υ : Type) where
  /-- Read a source text. -/
  parse : String → m (Except Thrown υ)
  /-- The identity of a unit with the bindings that it reads. -/
  fingerprint : υ → Identity m
  /-- Run a unit. -/
  execute : υ → Body m (Option Value)

/-- The stage of a parsed unit; a stage without one is refused. -/
def Stage.ofUnit {m : Type → Type} {υ : Type} (ev : Evaluator m υ) (name : String)
    (unit : Option υ) : Except Thrown (Stage m) :=
  match unit with
  | none => .error (.evaluation ("stage '" ++ name ++ "' has no parsed unit"))
  | some u =>
    .ok { name := name, body := some (ev.execute u), identity := some (ev.fingerprint u) }

end MemoFlow
