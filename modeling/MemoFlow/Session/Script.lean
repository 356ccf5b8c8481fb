import MemoFlow.Session.Basic

/-!
# Scripts as computations of a session

* `Session.prepare`: a stage with its parsed unit;
* `Script.toStage`, **`Script.runScript`**: stages and scripts as computations;
* `PreparedTask.toTask`: branches as computations;
* **`Session.slice`**: the part that a worker does of a block;
* `Session.site`: what the workers have to know of a session.
-/

namespace MemoFlow

open Script

/-- The identity that is given to a stage. -/
def Script.IdentitySpec.toIdentity (i : IdentitySpec) : Identity Act := fun env =>
  return match i with
    | .fixed text => .ok (.ofText text)
    | .uncacheable => .ok .uncacheable
    | .names ns => .ok (.ofEnvironment env ns)
    | .throwing t => .error t

namespace Session

/-! ## Preparation -/

/-- The unit of a stage that is put together; a stage that needs one and has none is refused. -/
def prepare (spec : StageSpec) : Act (Except Thrown PreparedStage) := do
  match spec with
  | .source h text =>
    match ← loadUnit text with
    | .error t => return .error t
    | .ok u =>
      return (Stage.ofUnit evaluator h.name u).map fun _ => ⟨spec, u⟩
  | .unit h label =>
    let u ← unitOf label
    return (Stage.ofUnit evaluator h.name u).map fun _ => ⟨spec, u⟩
  | _ => return .ok ⟨spec, none⟩

/-- The units of stages that are put together, the first one first. -/
def prepareAll : List StageSpec → Act (Except Thrown (List PreparedStage))
  | [] => return .ok []
  | s :: ss => do
    match ← prepare s with
    | .error t => return .error t
    | .ok p => return (← prepareAll ss).map fun ps => p :: ps

/-- A branch that is put together. -/
def prepareTask : TaskSpec → Act (Except Thrown PreparedTask)
  | .mk id env work stages source inputs => do
    return (← prepareAll stages).map fun ps => ⟨id, env, work, ps, source, inputs⟩

/-- Branches that are put together, the first one first. -/
def prepareTasks : List TaskSpec → Act (Except Thrown (List PreparedTask))
  | [] => return .ok []
  | t :: ts => do
    match ← prepareTask t with
    | .error e => return .error e
    | .ok p => return (← prepareTasks ts).map fun ps => p :: ps

/-! ## Blocks -/

variable {τ : Type}

/-- Start a block. -/
def start [IsBranch τ] (tasks : List τ) (workers : Option Nat) : ActOf τ (Except Thrown Nat) :=
  onCoordinator fun c => c.start tasks workers

/-- The results of a block that is done. They leave the cache of branches when they are collected
for the first time. -/
def collect (block : Nat) : ActOf τ BranchResults := do
  let s ← Process.state
  match s.coordinator.block? block with
  | none => return ∅
  | some b =>
    match b.collected with
    | some r => return r
    | none =>
      for r in b.stored.filterMap fun r => r do
        let _ ← onBranch fun c _ => ⟨c.invalidate (.ofBranch block r.id), []⟩
      let r := b.results
      .modify fun s =>
        { s with coordinator :=
            s.coordinator.modifyBlock block fun b => { b with collected := some r } }
      return r

/-- Wait for the end of a block, at most for a while when `timed` is set; its results, if the end
came. -/
def join (block : Nat) (timed : Bool) : ActOf τ (Option BranchResults) := do
  if ← .await block timed then return some (← collect block)
  else
    note (.plain "parallel" ("block " ++ toString block ++ " join timed out"))
    return none

/-- Run branches to their end. -/
def runBranches [IsBranch τ] (tasks : List τ) (workers : Option Nat) (timed : Bool) :
    ActOf τ (Except Thrown BranchResults) := do
  match ← start tasks workers with
  | .error t => return .error t
  | .ok b => return .ok ((← join b timed).getD ∅)

end Session

namespace Script

/-- The values of branches in the order of their names, and the cause of each that has none. -/
def valuesOrCauses (results : BranchResults) : Value :=
  .list (results.entries.map fun p => if p.2.isOk then p.2.value else .str p.2.cause)

/-- Evaluate an expression. -/
def evalExpr (env : Environment) (e : Expr) : Act (Except Thrown Value) :=
  .update fun s =>
    let r := (e.eval env).run.run s.ticks
    (r.1, { s with ticks := r.2 })

/-- Evaluate an expression and change the bindings by its value. -/
def withExpr (env : Environment) (e : Expr) (f : Value → Environment) :
    Act (Except Thrown Environment) := do
  return (← evalExpr env e).map f

mutual

/-- One instruction: the changed bindings. -/
def runInstr (c : SessionConfig) (env : Environment) : Instr → Act (Except Thrown Environment)
  | .define n e => withExpr env e fun v => env.define n v
  | .assign n e => withExpr env e fun v => (env.set? n v).getD env
  | .erase n => return .ok (env.erase n)
  | .merge bindings => return .ok (env.merge bindings)
  | .throwing t => return .error t
  | .result _ => return .ok env
  | .gate g => do
    Process.pass g
    return .ok env
  | .tensor n op args => do
    return (← Session.tensorOpSelected op args).map fun t => env.define n (.tensor (some t))
  | .pipeline stages => do
    match ← Session.prepareAll stages with
    | .error t => return .error t
    | .ok ps =>
      let (r, _) ← (Session.pipelineHost c).run (toStages c stages (ps.map PreparedStage.unit)) env
      return r
  | .branches n tasks workers timed => do
    match ← Session.prepareTasks tasks with
    | .error t => return .error t
    | .ok ts =>
      return (← Session.runBranches ts workers timed).map fun r => env.define n (valuesOrCauses r)

/-- **A script**: its value and the changed bindings. -/
def runScript (c : SessionConfig) : List Instr → Body Act (Option Value)
  | [], env => return .ok (none, env)
  | .result e :: _, env => do return (← evalExpr env e).map fun v => (some v, env)
  | i :: is, env => do
    match ← runInstr c env i with
    | .error t => return .error t
    | .ok env => runScript c is env

/-- A stage with its unit as a computation; what has no body names no inputs, so that its identity
is that of the whole environment. -/
def toStage (c : SessionConfig) (unit : Option ParsedUnit) : StageSpec → Stage Act
  | .block h body => Stage.block h.name (runScript c body) h.source h.inputs
  | .expression h e target =>
    Stage.expression h.name h.source (fun env => evalExpr env e) target h.inputs
  | .unit h _ => (Stage.ofUnit Session.evaluator h.name unit).toOption.getD { name := h.name }
  | .source h text =>
    { (Stage.ofUnit Session.evaluator h.name unit).toOption.getD { name := h.name } with
      source := text }
  | .empty h => { name := h.name, source := h.source }

/-- Stages with their units as computations; an identity that is given takes the place of the
usual one. -/
def toStages (c : SessionConfig) : List StageSpec → List (Option ParsedUnit) → List (Stage Act)
  | [], _ => []
  | s :: ss, units =>
    let stage := toStage c (units.headD none) s
    let stage := match s.head.identity with
      | some i => { stage with identity := some i.toIdentity }
      | none => stage
    stage :: toStages c ss units.tail

end

end Script

/-- Prepared stages as computations. -/
def PreparedStage.toStages (c : SessionConfig) (ps : List PreparedStage) : List (Stage Act) :=
  Script.toStages c (ps.map PreparedStage.spec) (ps.map PreparedStage.unit)

/-- **A prepared branch as a computation.** -/
def PreparedTask.toTask (c : SessionConfig) (t : PreparedTask) : BranchTask Act :=
  { id := t.id
    env := t.env
    work := t.work.map fun body env => do
      return (← runScript c body env).map fun r => (r.1.getD .nil, r.2)
    stages := PreparedStage.toStages c t.stages
    source := t.source
    inputs := t.inputs }

instance : IsRunnable PreparedTask where
  toTask := PreparedTask.toTask

namespace Session

variable {τ : Type}

/-! ## Workers -/

/-- Run a branch that was claimed. -/
def runBranch [IsRunnable τ] (c : SessionConfig) (block : Nat) (t : τ) : ActOf τ BranchResult := do
  if ← onCoordinator fun co => ⟨co.permit block, []⟩ then
    let o ← (branchHost c).answer (IsRunnable.toTask c t)
    let r := BranchResult.ofOutcome (IsBranch.id t) o
    onCoordinator fun co => (co.conclude block r).map fun co => ((), co)
    return r
  else return .ofCancelled (IsBranch.id t) (IsBranch.env t)

/-- Change a block. -/
def onBlock (block : Nat) (f : Block τ → Block τ) : ActOf τ Unit :=
  .modify fun s => { s with coordinator := s.coordinator.modifyBlock block f }

/-- Claim the next branch of a block. -/
def claim (block : Nat) : ActOf τ (Option (Nat × τ)) :=
  .update fun s =>
    match s.coordinator.block? block with
    | none => (none, s)
    | some b =>
      (b.claim.1,
        { s with coordinator := s.coordinator.modifyBlock block fun b => b.claim.2 })

/-- The branches that a slice works off, at most `n` of them. -/
def sliceUpTo [IsRunnable τ] (c : SessionConfig) (block : Nat) : Nat → ActOf τ Unit
  | 0 => return ()
  | n + 1 => do
    match ← claim block with
    | none => onBlock block Block.retire
    | some (i, t) =>
      let r ← runBranch c block t
      let _ ← onBranch fun b now => b.put now (.ofBranch block (IsBranch.id t)) r none none
      onBlock block fun b => b.store i r
      sliceUpTo c block n

/-- **A slice of a block**: branches are claimed and run until none is left. -/
def slice [IsRunnable τ] (block : Nat) : ActOf τ Unit := do
  let s ← Process.state
  match s.coordinator.block? block with
  | none => return ()
  | some b => sliceUpTo s.config block (b.tasks.length + 1)

/-- **What the workers have to know of a session.** -/
def site [IsRunnable τ] : Site (Session τ) Nat where
  pool s := s.coordinator.pool
  setPool s p := { s with coordinator := { s.coordinator with pool := p } }
  code := slice
  reach _ s := { s with reached := s.reached + 1 }
  isOpen s g := s.allOpen || s.opened.contains g
  isDone s b := ((s.coordinator.block? b).map Block.isDone).getD true

end Session

end MemoFlow
