import MemoFlow.Fault
import MemoFlow.Fingerprint
import MemoFlow.Settings.Config

/-!
# Blocks of branches

The branches of a block are worked off by slices. A slice claims the next branch, runs it and stores
its result, until none is left; then it retires. The block is done when all slices have retired.

* `BranchStatus`, **`BranchResult`**: how a branch ended;
* `BranchResult.rethrow`: throw again what ended a branch;
* `BranchResults`, `mergeResults`: the results of a block by name, and their values as bindings;
* **`Block`**: the shared state of a block; branches are of any type `τ`;
* `Block.claim`, `Block.store`, `Block.retire`, `Block.raiseAbort`: the atomic steps of a slice;
* `Block.isDone`, `Block.results`: the join.
-/

namespace MemoFlow

/-! ## Results -/

/-- How a branch ended. -/
inductive BranchStatus where
  /-- With a value. -/
  | ok
  /-- By what it threw. -/
  | failed
  /-- It was not started, because another branch had failed. -/
  | cancelled
deriving DecidableEq, Repr, Inhabited

/-- The name of a status. -/
def BranchStatus.name : BranchStatus → String
  | .ok => "ok"
  | .failed => "failed"
  | .cancelled => "cancelled"

/-- The status of a name, `ok` for an unknown one. -/
def BranchStatus.ofName : String → BranchStatus
  | "failed" => .failed
  | "cancelled" => .cancelled
  | _ => .ok

/-- **The result of a branch.** -/
structure BranchResult where
  /-- The name of the branch. -/
  id : String
  /-- How it ended. -/
  status : BranchStatus := .ok
  /-- Its value. -/
  value : Value := .nil
  /-- The bindings at its end. -/
  env : Environment := ∅
  /-- Why it has no value. -/
  cause : String := ""
  /-- What it threw. -/
  error : Option Thrown := none
  /-- Whether a kept result was used. -/
  reused : Bool := false
deriving Inhabited

namespace BranchResult

/-- Whether the branch ended with a value. -/
def isOk (r : BranchResult) : Bool := r.status = .ok

/-- Throw again what the branch threw; a cancelled branch throws its cause. -/
def rethrow (r : BranchResult) : Except Thrown Unit :=
  match r.error with
  | some t => .error t
  | none =>
    if r.status = .cancelled then
      .error (.error .runtime ("branch '" ++ r.id ++ "' was cancelled: " ++ r.cause))
    else .ok ()

end BranchResult

/-- The results of a block, by the names of its branches. -/
abbrev BranchResults : Type := NameMap BranchResult

/-- The values of the branches that have one, in the order of their names. -/
def BranchResults.values (results : BranchResults) : List (String × Value) :=
  (results.entries.filter fun p => p.2.isOk).map fun p => (p.1, p.2.value)

/-- Bind the values under the names of their branches, behind a common beginning; their number. -/
def mergeResults (env : Environment) (results : BranchResults) (start : String) :
    Nat × Environment :=
  let vs := BranchResults.values results
  (vs.length, env.overlay (vs.map fun p => (start ++ p.1, p.2)))

/-! ## The state of a block -/

/-- What a block has to know of a branch. -/
class IsBranch (τ : Type) where
  /-- The name of the branch. -/
  id : τ → String
  /-- The bindings it starts with. -/
  env : τ → Environment
  /-- Whether it does anything. -/
  hasWork : τ → Bool

/-- **The shared state of a block.** -/
structure Block (τ : Type) where
  /-- The number of the block. -/
  id : Nat
  /-- What a failure does. -/
  policy : FailurePolicy
  /-- The number of workers that were asked for. -/
  workers : Nat
  /-- The branches. -/
  tasks : List τ
  /-- The results that are stored, by the place of their branch. -/
  stored : List (Option BranchResult)
  /-- The place of the next branch to claim. -/
  next : Nat := 0
  /-- The slices that have not retired. -/
  remaining : Nat := 0
  /-- Whether a failure keeps further branches from starting. -/
  aborted : Bool := false
  /-- The results, once they were collected. -/
  collected : Option BranchResults := none

namespace Block

variable {τ : Type}

/-- A block before its first step. -/
def new (id : Nat) (policy : FailurePolicy) (workers : Nat) (tasks : List τ) : Block τ :=
  { id := id, policy := policy, workers := workers, tasks := tasks,
    stored := List.replicate tasks.length none }

/-- The number of slices that work on the block. -/
def slices (b : Block τ) : Nat := min b.workers b.tasks.length

/-- Claim the next branch; none when all are claimed. -/
def claim (b : Block τ) : Option (Nat × τ) × Block τ :=
  (b.tasks[b.next]?.map fun t => (b.next, t), { b with next := b.next + 1 })

/-- Store the result of a branch. -/
def store (b : Block τ) (i : Nat) (r : BranchResult) : Block τ :=
  { b with stored := b.stored.set i (some r) }

/-- A slice has come to its end. -/
def retire (b : Block τ) : Block τ := { b with remaining := b.remaining - 1 }

/-- Keep further branches from starting. -/
def raiseAbort (b : Block τ) : Block τ := { b with aborted := true }

/-- Whether all slices have retired. -/
def isDone (b : Block τ) : Bool := b.remaining = 0

/-- The stored results by name. -/
def results (b : Block τ) : BranchResults :=
  NameMap.ofList ((b.stored.filterMap fun r => r).map fun r => (r.id, r))

end Block

/-- The identity of a branch of a block. -/
def Fingerprint.ofBranch (block : Nat) (branch : String) : Fingerprint :=
  .ofStream (Stream.text "branch-block" ++ Stream.word (UInt64.ofNat block) ++
    Stream.text branch)

end MemoFlow
