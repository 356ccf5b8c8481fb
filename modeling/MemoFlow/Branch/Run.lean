import MemoFlow.Branch.Block
import MemoFlow.Pipeline.Run

/-!
# One branch

A branch runs its stages as a pipeline over its own bindings, and then its work on the result. A
branch with a source text is reused as a whole.

* **`BranchTask`**: what a branch does;
* `BranchHost`: what it needs around it;
* `BranchHost.compute`, `BranchHost.answer`: the computation, fresh or reused;
* `BranchResult.ofOutcome`: the result of a computation.
-/

namespace MemoFlow

/-- **A branch.** -/
structure BranchTask (m : Type → Type) where
  /-- The name. -/
  id : String
  /-- The bindings it starts with. -/
  env : Environment
  /-- The work after the stages. -/
  work : Option (Body m Value) := none
  /-- The stages. -/
  stages : List (Stage m) := []
  /-- The source text; a branch without one is never reused. -/
  source : String := ""
  /-- The names that the branch reads; none stands for all. -/
  inputs : List String := []

/-- What a branch gives: a value, bindings, and whether they were reused. -/
structure BranchOutcome where
  /-- The value. -/
  value : Value
  /-- The bindings. -/
  env : Environment
  /-- Whether a kept result was used. -/
  reused : Bool

/-- How a branch fails: what was thrown, and the value it had by then. -/
structure BranchFailure where
  /-- What was thrown. -/
  thrown : Thrown
  /-- The value of the stages, when they had come to their end. -/
  value : Value

/-- **What a branch needs around it**, as computations of `m`. -/
structure BranchHost (m : Type → Type) where
  /-- Runs of stages. -/
  pipeline : PipelineHost m
  /-- Look for a kept result. -/
  kept? : Fingerprint → m (Option Computation)
  /-- Keep a result. -/
  keep : Fingerprint → Computation → m Unit
  /-- Count a reused result. -/
  countReused : m Unit

namespace BranchHost

variable {m : Type → Type} [Monad m]

/-- Run the stages, if there are any: their last value, and the bindings after them. -/
def runStages (h : BranchHost m) (t : BranchTask m) (env : Environment) :
    m (Except Thrown (Value × Environment)) := do
  if t.stages.isEmpty then return .ok (.nil, env)
  else
    let (r, report) ← h.pipeline.run t.stages env
    return r.map fun env => (report.lastValue.getD .nil, env)

/-- Run the work, if there is any. -/
def runWork (t : BranchTask m) (v : Value) (env : Environment) :
    m (Except BranchFailure (Value × Environment)) := do
  match t.work with
  | none => return .ok (v, env)
  | some work =>
    match ← work env with
    | .error e => return .error ⟨e, v⟩
    | .ok r => return .ok r

/-- **Run a branch afresh**, and keep what it gave when it can be reused. -/
def compute (h : BranchHost m) (t : BranchTask m) (key : Fingerprint) :
    m (Except BranchFailure BranchOutcome) := do
  let base := t.env.clearWrites
  match ← h.runStages t base with
  | .error e => return .error ⟨e, .nil⟩
  | .ok (v, env) =>
    match ← runWork t v env with
    | .error e => return .error e
    | .ok (v, env) =>
      if key.cacheable then h.keep key ⟨env.outputsSince base, some v⟩
      return .ok ⟨v, env, false⟩

/-- The identity of a branch as a whole. -/
def key (t : BranchTask m) : Fingerprint :=
  if t.source = "" then .uncacheable else .ofRequest t.source t.env t.inputs

/-- The outcome that a kept result stands for. -/
def replay (t : BranchTask m) (c : Computation) : BranchOutcome :=
  ⟨c.value.getD .nil, t.env.overlay c.bindings, true⟩

/-- **The outcome of a branch**: a kept one, or that of running it. -/
def answer (h : BranchHost m) (t : BranchTask m) : m (Except BranchFailure BranchOutcome) := do
  if t.source = "" then h.compute t .uncacheable
  else
    match ← h.kept? (key t) with
    | some c =>
      h.countReused
      return .ok (replay t c)
    | none => h.compute t (key t)

end BranchHost

namespace BranchResult

/-- **The result of a branch** of a name. -/
def ofOutcome (id : String) : Except BranchFailure BranchOutcome → BranchResult
  | .ok o => { id := id, value := o.value, env := o.env, reused := o.reused }
  | .error f =>
    { id := id, status := .failed, value := f.value, cause := Thrown.describe (some f.thrown),
      error := some f.thrown }

/-- The result of a branch that is not started. -/
def ofCancelled (id : String) (env : Environment) : BranchResult :=
  { id := id, status := .cancelled, env := env,
    cause := "cancelled after a sibling branch failed" }

end BranchResult

end MemoFlow
