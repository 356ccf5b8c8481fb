import MemoFlow.Session.Script

/-!
# Pipelines and blocks of a session

* `Session.runPipeline`, `Session.stageKeys`: pipelines;
* `Session.startPrepared`, `Session.startBlock`, `Session.runBlock`: blocks of branches;
* `Session.isDone`, `Session.settle`, `Session.wait`, `Session.waitFor`, `Session.peek`: a started
  block; one that was never started is done and empty;
* `Synthesis`, `Session.synthesize`: values of branches put together;
* `Session.release`: gates.
-/

namespace MemoFlow

open Script

/-! ## Pipelines -/

/-- The name of a stage, its source, and its identity for given bindings, if it has one of its
own. -/
structure StageKey where
  /-- The name. -/
  name : String
  /-- The source text. -/
  source : String
  /-- The identity. -/
  key : Option Fingerprint

namespace Session

/-- **Put a pipeline together and run it.** -/
def runPipeline (stages : List StageSpec) (env : Environment) :
    Act (Except Thrown (Except Thrown Environment × PipelineReport)) := do
  match ← prepareAll stages with
  | .error t => return .error t
  | .ok ps =>
    let c := (← Process.state).config
    return .ok (← (pipelineHost c).run (PreparedStage.toStages c ps) env)

/-- The keys of stages, the first one first. -/
def keysOf (env : Environment) : List (Stage Act) → Act (Except Thrown (List StageKey))
  | [] => return .ok []
  | s :: ss =>
    match s.identity with
    | none => return (← keysOf env ss).map fun ks => ⟨s.name, s.source, none⟩ :: ks
    | some f => do
      match ← f env with
      | .error t => return .error t
      | .ok k => return (← keysOf env ss).map fun ks => ⟨s.name, s.source, some k⟩ :: ks

/-- The keys of the stages of a pipeline that is put together. -/
def stageKeys (stages : List StageSpec) (env : Environment) :
    Act (Except Thrown (List StageKey)) := do
  match ← prepareAll stages with
  | .error t => return .error t
  | .ok ps =>
    let c := (← Process.state).config
    keysOf env (PreparedStage.toStages c ps)

/-! ## Blocks -/

/-- Start the branches that some code puts together as a block; its number. -/
def startPrepared {τ : Type} [IsBranch τ] (prepare : ActOf τ (Except Thrown (List τ)))
    (workers : Option Nat) : ActOf τ (Except Thrown Nat) := do
  match ← prepare with
  | .error t => return .error t
  | .ok ts => start ts workers

/-- Put branches together and start them as a block; its number. -/
def startBlock (tasks : List TaskSpec) (workers : Option Nat) : Act (Except Thrown Nat) :=
  startPrepared (prepareTasks tasks) workers

/-- Put branches together and run them to their end. -/
def runBlock (tasks : List TaskSpec) (workers : Option Nat) :
    Act (Except Thrown BranchResults) := do
  match ← prepareTasks tasks with
  | .error t => return .error t
  | .ok ts => runBranches ts workers false

/-- The number of workers and of branches of a block. -/
def blockInfo (block : Option Nat) : Act (Nat × Nat) := do
  let s ← Process.state
  return match block.bind s.coordinator.block? with
    | none => (0, 0)
    | some b => (b.workers, b.tasks.length)

/-- Whether a block is done. -/
def isDone (block : Option Nat) : Act Bool := do
  let s ← Process.state
  return ((block.bind s.coordinator.block?).map Block.isDone).getD true

/-- Wait until a block is done, without collecting its results. -/
def settle : Option Nat → Act Bool
  | none => return true
  | some b => .await b false

/-- The results of a block at its end. -/
def wait (block : Option Nat) (τ : Type := PreparedTask) : ActOf τ BranchResults :=
  match block with
  | none => return ∅
  | some b => return (← join b false).getD ∅

/-- The results of a block, if its end comes in time. -/
def waitFor (block : Option Nat) (τ : Type := PreparedTask) : ActOf τ (Option BranchResults) :=
  match block with
  | none => return some ∅
  | some b => join b true

/-- The result of a branch that has come to its end in a block that was not joined. -/
def peek (block : Option Nat) (branch : String) (τ : Type := PreparedTask) :
    ActOf τ (Option BranchResult) :=
  match block with
  | none => return none
  | some b => onBranch fun c now => c.get now (.ofBranch b branch)

/-- Open a gate. -/
def release (gate : String) : Act Unit :=
  .modify fun s => { s with opened := s.opened.insert gate () }

end Session

/-! ## Synthesis -/

/-- What values are put together to. -/
inductive Synthesis where
  /-- Their list. -/
  | list
  /-- The sum of their numbers. -/
  | sum
  /-- Their number. -/
  | count
  /-- Nothing. -/
  | nil
  /-- It throws. -/
  | throwing
deriving DecidableEq, Repr

/-- The synthesis of a name, the list for an unknown one. -/
def Synthesis.ofName : String → Synthesis
  | "sum" => .sum
  | "count" => .count
  | "nil" => .nil
  | "throw" => .throwing
  | _ => .list

/-- Put values together. -/
def Synthesis.eval (f : Synthesis) (vs : List Value) : Except Thrown Value :=
  match f with
  | .list => .ok (.list vs)
  | .sum => do
    let total ← vs.foldlM (fun x v => do return x + (← v.number)) (0.0 : Float)
    return .dbl total
  | .count => .ok (.int (Int64.ofNat vs.length))
  | .nil => .ok .nil
  | .throwing => .error (.evaluation "synthesis failed")

namespace Session

/-- Put values together afresh; the result is kept under a key, if there is one. -/
def combine (f : Synthesis) (values : List Value) (key : Option Fingerprint) :
    Act (Except Thrown (Value × Bool)) := do
  match f.eval values with
  | .error t => return .error t
  | .ok v =>
    if let some k := key then keep k ⟨[], some v⟩
    return .ok (v, true)

/-- **Put the values of branches together**: the result, and whether it was computed. With a source
text it is kept for reuse. -/
def synthesize (results : BranchResults) (ids : List String) (source : String) (f : Synthesis) :
    Act (Except Thrown (Value × Bool)) := do
  let ids := (NameMap.ofList (ids.map fun i => (i, ()))).keys
  match synthesisValues results ids with
  | .error t => return .error t
  | .ok values =>
    if source = "" then combine f values none
    else
      let key := synthesisKey source ids values
      match (← kept? key).bind Computation.value with
      | some v => return .ok (v, false)
      | none => combine f values (some key)

/-- The number of workers for a number of branches. -/
def resolve (branches : Nat) (workers : Option Nat) : Act (Except Thrown Nat) := do
  return (← Process.state).coordinator.resolve branches workers

end Session

end MemoFlow
