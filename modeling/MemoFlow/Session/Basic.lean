import MemoFlow.Branch.Coordinator
import MemoFlow.Branch.Run
import MemoFlow.Cache.Suite
import MemoFlow.Kernel.Accelerator
import MemoFlow.Schedule.Workers
import MemoFlow.Script.Basic
import MemoFlow.Tensor.Dispatch

/-!
# The state of a session

A session holds the caches, the runner of pipelines, the coordinator of branches, the dispatcher of
tensor operations and the accelerator, and everything they share. Computations of a session are
processes over this state. The branches can be of any type that has a reading as computations; where
no type is named, they are prepared ones.

* `PreparedStage`, `PreparedTask`: stages and branches with their parsed units;
* `SessionConfig`, **`Session`**, `Session.new`: the state;
* `ActOf`, `Act`, `Session.tell`: computations;
* `Session.pipelineHost`, `Session.branchHost`, `Session.evaluator`: what runs need around them;
* **`IsRunnable`**: branches that are read as computations.
-/

namespace MemoFlow

open Script

/-- A stage with its parsed unit, if it has one. -/
structure PreparedStage where
  /-- The stage. -/
  spec : StageSpec
  /-- Its unit. -/
  unit : Option ParsedUnit

/-- A branch whose stages are prepared. -/
structure PreparedTask where
  /-- The name. -/
  id : String
  /-- The bindings it starts with. -/
  env : Environment
  /-- The work after the stages. -/
  work : Option (List Instr)
  /-- The stages. -/
  stages : List PreparedStage
  /-- The source text. -/
  source : String
  /-- The names that the branch reads. -/
  inputs : List String

instance : IsBranch PreparedTask where
  id := PreparedTask.id
  env := PreparedTask.env
  hasWork t := t.work.isSome || !t.stages.isEmpty

/-- How a session is set up. -/
structure SessionConfig where
  /-- The settings of the parts. -/
  parts : Config
  /-- Whether the session was made as one object, with a clock that is not moved by hand. -/
  isWhole : Bool := false
  /-- Whether pipelines and tensor operations use the caches. -/
  isShared : Bool := true
  /-- The number of processors that was detected. -/
  processors : UInt64 := 1
  /-- The engines that were found. -/
  engines : PerEngine (Backend Double)
  /-- The compiler of kernels: the one that the settings name, unless another one is given. -/
  compiler : Compiler := .ofConfig parts.accel

/-- **The state of a session** with branches of type `τ`. -/
structure Session (τ : Type := PreparedTask) where
  /-- The setup. -/
  config : SessionConfig
  /-- The clock, in nanoseconds. -/
  now : Int64
  /-- The notes so far, the last one first. -/
  notes : List Note
  /-- The caches; a missing unit can be kept, too. -/
  caches : CacheSuite (Option ParsedUnit)
  /-- The counters of pipelines. -/
  pipeline : PipelineStats := { }
  /-- Blocks of branches. -/
  coordinator : Coordinator τ
  /-- Tensor operations. -/
  dispatcher : Dispatcher Double
  /-- Compiled kernels. -/
  accelerator : Accelerator
  /-- Units that were parsed. -/
  parses : Nat := 0
  /-- Units that were run. -/
  executions : Nat := 0
  /-- Parsed units by their labels; a unit can be missing under its label, too. -/
  units : NameMap (Option ParsedUnit) := ∅
  /-- The counters of scripts. -/
  ticks : Ticks := ∅
  /-- The gates that are open. -/
  opened : NameSet := ∅
  /-- Whether all gates are open. -/
  allOpen : Bool := false
  /-- How often a script came to a gate. -/
  reached : Nat := 0
  /-- Whether the session was shut down as a whole. -/
  isDown : Bool := false

/-- Computations of a session with branches of type `τ`. -/
abbrev ActOf (τ : Type) : Type → Type := Process (Session τ)

/-- Computations of a session with prepared branches. -/
abbrev Act : Type → Type := ActOf PreparedTask

namespace Session

variable {τ : Type}

/-- Make notes. -/
def say (s : Session τ) (notes : List Note) : Session τ :=
  { s with notes := notes.reverse ++ s.notes }

/-- A session at its start. -/
def new (c : SessionConfig) : Session τ :=
  let caches : Told (CacheSuite (Option ParsedUnit)) := CacheSuite.new c.parts.cache
  let dispatcher := Dispatcher.new c.parts.tensor c.engines
  { config := c
    now := nanoseconds 1000
    notes := (caches.notes ++ dispatcher.notes).reverse
    caches := caches.value
    coordinator := .new c.parts.parallel c.processors
    dispatcher := dispatcher.value
    accelerator := .new c.parts.accel c.compiler }

/-! ## Steps on the state -/

/-- A step that makes notes. -/
def tell {α : Type} (f : Session τ → Told (α × Session τ)) : ActOf τ α :=
  .update fun s =>
    let r := f s
    (r.value.1, r.value.2.say r.notes)

/-- A step on the caches. -/
def onCaches {α : Type}
    (f : CacheSuite (Option ParsedUnit) → Int64 → Told (α × CacheSuite (Option ParsedUnit))) :
    ActOf τ α :=
  tell fun s => (f s.caches s.now).map fun r => (r.1, { s with caches := r.2 })

/-- A step on the cache of units. -/
def onAst {α : Type}
    (f : Cache (Option ParsedUnit) → Int64 → Told (α × Cache (Option ParsedUnit))) : ActOf τ α :=
  onCaches fun c now => (f c.ast now).map fun r => (r.1, { c with ast := r.2 })

/-- A step on the cache of results. -/
def onExpression {α : Type} (f : Cache Computation → Int64 → Told (α × Cache Computation)) :
    ActOf τ α :=
  onCaches fun c now => (f c.expression now).map fun r => (r.1, { c with expression := r.2 })

/-- A step on the cache of branches. -/
def onBranch {α : Type} (f : Cache BranchResult → Int64 → Told (α × Cache BranchResult)) :
    ActOf τ α :=
  onCaches fun c now => (f c.branch now).map fun r => (r.1, { c with branch := r.2 })

/-- A step on the coordinator. -/
def onCoordinator {α : Type}
    (f : Coordinator τ → Told (α × Coordinator τ)) : ActOf τ α :=
  tell fun s => (f s.coordinator).map fun r => (r.1, { s with coordinator := r.2 })

/-- Make a note. -/
def note (n : Note) : ActOf τ Unit := .modify fun s => s.say [n]

/-- Look for a kept result. -/
def kept? (k : Fingerprint) (τ : Type := PreparedTask) : ActOf τ (Option Computation) :=
  onExpression fun c now => c.get now k

/-- Keep a result. -/
def keep (k : Fingerprint) (c : Computation) : ActOf τ Unit := do
  let _ ← onExpression fun e now => e.put now k c none none
  return ()

/-! ## What runs need around them -/

/-- Around runs of pipelines. -/
def pipelineHost (c : SessionConfig) : PipelineHost (ActOf τ) where
  memoize := c.parts.pipeline.memoize && c.isShared
  note := note
  kept? k := kept? k τ
  keep := keep
  count f := .modify fun s => { s with pipeline := f s.pipeline }

/-- Around branches. -/
def branchHost (c : SessionConfig) : BranchHost (ActOf τ) where
  pipeline := pipelineHost c
  kept? k := kept? k τ
  keep := keep
  countReused := .modify fun s =>
    { s with coordinator := s.coordinator.count fun st => { st with reused := st.reused + 1 } }

/-- The evaluator of assignment statements. -/
def evaluator : Evaluator Act ParsedUnit where
  parse text := .update fun s =>
    let s := { s with parses := s.parses + 1 }
    ((Assignment.parse text).map fun a => ⟨s.parses, a⟩, s)
  fingerprint u env := return .ok (u.statement.fingerprint env)
  execute u env := .update fun s =>
    (u.statement.execute env, { s with executions := s.executions + 1 })

/-- **The unit of a source text**: a kept one, or else it is parsed and kept. -/
def loadUnit (text : String) : Act (Except Thrown (Option ParsedUnit)) := do
  match ← onAst fun c now => c.get now (.ofText text) with
  | some u => return .ok u
  | none =>
    match ← evaluator.parse text with
    | .error t => return .error t
    | .ok u =>
      let _ ← onAst fun c now => c.put now (.ofText text) (some u) none none
      return .ok (some u)

/-- The unit that goes by a label. -/
def unitOf (label : String) : Act (Option ParsedUnit) := do
  return ((← Process.state).units.find? label).getD none

/-! ## Tensors -/

/-- The error of the dispatcher as a thrown one. -/
def thrownOf : DispatchError → Thrown
  | .operands e => .error .tensor e.message
  | e => .error .unavailable e.message

/-- The selected handle. -/
def select : Act (Except Thrown Handle) :=
  tell fun s => s.dispatcher.select.map fun r =>
    (r.1.mapError thrownOf, { s with dispatcher := r.2 })

/-- A tensor operation. -/
def tensorOp (h : Handle) (name : String) (args : List (Tensor Double)) :
    Act (Except Thrown (List (Tensor Double))) :=
  tell fun s =>
    let cache := if s.config.isShared then some s.caches.tensor else none
    (s.dispatcher.op Fingerprint.ofOp cache s.now h name args).map fun r =>
      let caches := match r.2.2 with
        | some c => { s.caches with tensor := c }
        | none => s.caches
      (r.1.mapError thrownOf, { s with dispatcher := r.2.1, caches := caches })

/-- The first result of a tensor operation on the selected engine, to which the operands are
moved. -/
def tensorOpSelected (name : String) (args : List (Tensor Double)) :
    Act (Except Thrown (Tensor Double)) := do
  match ← select with
  | .error t => return .error t
  | .ok h =>
    let s ← Process.state
    match args.mapM fun t => s.dispatcher.move t h with
    | .error e => return .error (thrownOf e)
    | .ok args =>
      match ← tensorOp h name args with
      | .error t => return .error t
      | .ok out => return .ok (out.headD default)

end Session

/-! ## Branches as computations -/

/-- **Branches that a session can run**: each is read as a computation, under the setup of the
session. -/
class IsRunnable (τ : Type) extends IsBranch τ where
  /-- What a branch does. -/
  toTask : SessionConfig → τ → BranchTask (ActOf τ)

end MemoFlow
