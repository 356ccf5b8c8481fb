import MemoFlow.Branch.Block
import MemoFlow.Branch.Pool
import MemoFlow.Settings.Config

/-!
# Blocks on a pool

* `CoordinatorStats`, **`Coordinator`**: the blocks, the pool and the counters;
* `Coordinator.validate`, `Coordinator.resolve`: the branches and the number of workers of a block;
* **`Coordinator.start`**: start a block;
* `Coordinator.permit`, `Coordinator.conclude`: the start and the end of a branch;
* `synthesisKey`, `synthesisValues`: values of several branches put together.
-/

namespace MemoFlow

/-- Counters of blocks and branches. -/
structure CoordinatorStats where
  /-- Blocks that were started. -/
  blocks : Nat := 0
  /-- Their branches. -/
  branches : Nat := 0
  /-- Branches that failed. -/
  failed : Nat := 0
  /-- Branches that were not started. -/
  cancelled : Nat := 0
  /-- Branches that were reused. -/
  reused : Nat := 0
  /-- The workers of the last block. -/
  lastWorkers : Nat := 0
  /-- Branches that are running. -/
  running : Nat := 0
  /-- The most branches that were running at a time. -/
  peak : Nat := 0
deriving DecidableEq, Repr

/-- **The blocks, the pool that works on them, and the counters.** A task of the pool is a slice of
the block with that number. -/
structure Coordinator (τ : Type) where
  /-- The settings. -/
  config : ParallelConfig
  /-- The number of processors that was detected. -/
  detected : UInt64
  /-- The pool. -/
  pool : Pool Nat
  /-- The number of the next block. -/
  nextBlock : Nat := 1
  /-- The blocks, the last one first. -/
  blocks : List (Block τ) := []
  /-- The counters. -/
  stats : CoordinatorStats := { }

namespace Coordinator

variable {τ : Type}

/-- A coordinator without blocks. -/
def new (config : ParallelConfig) (detected : UInt64) : Coordinator τ :=
  { config := config, detected := detected, pool := { bound := config.maxPoolThreads.toNat } }

/-- The block of a number. -/
def block? (c : Coordinator τ) (id : Nat) : Option (Block τ) :=
  c.blocks.find? fun b => b.id = id

/-- Change the block of a number. -/
def modifyBlock (c : Coordinator τ) (id : Nat) (f : Block τ → Block τ) : Coordinator τ :=
  { c with blocks := c.blocks.map fun b => if b.id = id then f b else b }

/-- Change the counters. -/
def count (c : Coordinator τ) (f : CoordinatorStats → CoordinatorStats) : Coordinator τ :=
  { c with stats := f c.stats }

/-! ## Starting a block -/

/-- An error of a set of branches. -/
def refuse (m : String) : Except Thrown Unit := .error (.error .branchSet m)

/-- The first fault of a list of branches, with the names before it. -/
def validateFrom [IsBranch τ] (seen : List String) : List τ → Except Thrown Unit
  | [] => .ok ()
  | t :: ts =>
    let id := IsBranch.id t
    if id = "" then refuse "branch id must not be empty"
    else if seen.contains id then refuse ("duplicate branch id '" ++ id ++ "'")
    else if !IsBranch.hasWork t then refuse ("branch '" ++ id ++ "' has no work")
    else validateFrom (id :: seen) ts

/-- **The branches of a block** have names, each its own, and something to do. -/
def validate [IsBranch τ] (tasks : List τ) : Except Thrown Unit := validateFrom [] tasks

/-- **The number of workers** for a number of branches: what was asked for, within the bound of the
pool, or else one for each branch as far as the processors and the settings go. -/
def resolve (c : Coordinator τ) (branches : Nat) (wanted : Option Nat) : Except Thrown Nat :=
  let most := c.config.maxPoolThreads.toNat
  match wanted with
  | some n =>
    if n = 0 ∨ most < n then
      .error (Pool.refuse ("explicit worker count " ++ toString n ++ " outside 1.." ++
        toString most))
    else .ok n
  | none =>
    let cpus := (Cpu.parallelism c.config.cpuCount c.detected).toNat
    .ok (max 1 (min branches (min cpus c.config.hardCap.toNat)))

/-- Hand `n` slices of a block to the pool. -/
def submitSlices (c : Coordinator τ) (id : Nat) : Nat → Except Thrown (Coordinator τ)
  | 0 => .ok c
  | n + 1 =>
    match c.pool.submit id with
    | .error t => .error t
    | .ok p => submitSlices { c with pool := p } id n

/-- Enter a new block and count it. -/
def enroll (c : Coordinator τ) (tasks : List τ) (workers : Nat) : Coordinator τ :=
  { c with
    nextBlock := c.nextBlock + 1
    blocks := .new c.nextBlock c.config.policy workers tasks :: c.blocks
    stats := { c.stats with
      blocks := c.stats.blocks + 1
      branches := c.stats.branches + tasks.length
      lastWorkers := workers } }

/-- Hand the slices of a new block to the pool. -/
def launch (c : Coordinator τ) (b : Block τ) : Told (Except Thrown Nat × Coordinator τ) :=
  if b.tasks.isEmpty then ⟨(.ok b.id, c), []⟩
  else
    match c.pool.ensure b.workers with
    | ⟨.error t, notes⟩ => ⟨(.error t, c), notes⟩
    | ⟨.ok p, notes⟩ =>
      let c := ({ c with pool := p }).modifyBlock b.id fun b => { b with remaining := b.slices }
      let note := Note.plain "parallel" ("block " ++ toString b.id ++ " branches=" ++
        toString b.tasks.length ++ " workers=" ++ toString b.workers)
      match c.submitSlices b.id b.slices with
      | .error t => ⟨(.error t, c), notes ++ [note]⟩
      | .ok c => ⟨(.ok b.id, c), notes ++ [note]⟩

/-- **Start a block**; its number. -/
def start [IsBranch τ] (c : Coordinator τ) (tasks : List τ) (wanted : Option Nat) :
    Told (Except Thrown Nat × Coordinator τ) :=
  match validate tasks with
  | .error t => ⟨(.error t, c), []⟩
  | .ok () =>
    match c.resolve tasks.length wanted with
    | .error t => ⟨(.error t, c), []⟩
    | .ok workers =>
      (c.enroll tasks workers).launch (.new c.nextBlock c.config.policy workers tasks)

/-! ## Running branches -/

/-- Whether a branch of a block may start; it is counted as running, or as cancelled. -/
def permit (c : Coordinator τ) (id : Nat) : Bool × Coordinator τ :=
  match c.block? id with
  | none => (false, c)
  | some b =>
    if b.aborted then (false, c.count fun s => { s with cancelled := s.cancelled + 1 })
    else
      (true, c.count fun s =>
        { s with running := s.running + 1, peak := max s.peak (s.running + 1) })

/-- The end of a branch that was started. A failure is counted, and may keep others from
starting. -/
def conclude (c : Coordinator τ) (id : Nat) (r : BranchResult) : Told (Coordinator τ) :=
  let c := c.count fun s => { s with running := s.running - 1 }
  if r.isOk then ⟨c, []⟩
  else
    let c := c.count fun s => { s with failed := s.failed + 1 }
    ⟨if c.config.policy = .fast then c.modifyBlock id Block.raiseAbort else c,
      [.plain "parallel" ("branch '" ++ untilNul r.id ++ "' failed: " ++ untilNul r.cause)]⟩

end Coordinator

/-! ## Synthesis -/

/-- The identity of the values of branches put together under a source text. -/
def synthesisKey (source : String) (ids : List String) (values : List Value) : Fingerprint :=
  values.foldl (fun k v => .combine k (.ofValue v))
    (.combine (.ofText source) (.ofSynthesis ids))

/-- The values of branches; each must have ended with one. -/
def synthesisValues (results : BranchResults) (ids : List String) : Except Thrown (List Value) :=
  ids.mapM fun id =>
    match results.find? id with
    | none => .error (.error .branchSet ("synthesis references unknown branch '" ++ id ++ "'"))
    | some r =>
      if r.isOk then .ok r.value
      else
        .error (.error .branchSet ("synthesis references " ++ r.status.name ++ " branch '" ++ id ++
          "'"))

end MemoFlow
