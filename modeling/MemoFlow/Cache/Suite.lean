import MemoFlow.Branch.Block
import MemoFlow.Cache.Basic
import MemoFlow.Pipeline.Stage
import MemoFlow.Settings.Config
import MemoFlow.Trace

/-!
# The caches of a run

A sweeper calls a function at an interval, in the background, until it is stopped.

* **`Sweeper`**, `Sweeper.start`, `Sweeper.pass`, `Sweeper.stop`: the sweeper as a state machine;
* **`CacheSuite`**, `CacheSuite.new`: four caches and their sweeper; parsed units are of any
  type `υ`;
* `CacheSuite.clear`, `CacheSuite.sweep`: operations on all of them;
* `tensorsWeight`: the weight of results of tensor operations.
-/

namespace MemoFlow

/-! ## Periodic sweeps -/

/-- **The state of a sweeper.** -/
structure Sweeper where
  /-- Milliseconds between two passes. -/
  interval : Int64
  /-- Whether there is something to call. -/
  hasCallback : Bool
  /-- Whether it is running. -/
  running : Bool := false
  /-- The passes made. -/
  passes : Nat := 0
  /-- What the passes removed. -/
  swept : Nat := 0
deriving DecidableEq, Repr

namespace Sweeper

/-- Start; nothing happens when it runs, when the interval is not positive, or when there is nothing
to call. -/
def start (s : Sweeper) : Told Sweeper :=
  if s.running || s.interval ≤ 0 || !s.hasCallback then ⟨s, []⟩
  else ⟨{ s with running := true },
    [.plain "cache" ("sweeper started interval=" ++ toString s.interval.toInt ++ "ms")]⟩

/-- One pass that removes `n` entries. -/
def pass (s : Sweeper) (n : Nat) : Sweeper :=
  { s with passes := s.passes + 1, swept := s.swept + n }

/-- Passes until the callback, which removes one entry in each of its first `total` calls, has
removed them all; none are made while the sweeper is not running. -/
def passesUntil (s : Sweeper) : Nat → Sweeper
  | 0 => s
  | n + 1 => if s.running then passesUntil (s.pass 1) n else s

/-- Stop. -/
def stop (s : Sweeper) : Sweeper := { s with running := false }

end Sweeper

/-! ## The caches -/

/-- The weight of tensors: that of a header for each, and the bytes of their elements. -/
def tensorsWeight {α : Type} (ts : List (Tensor α)) : UInt64 :=
  ts.foldl (fun s t => s + (64 + t.byteSize)) 0

/-- **The caches of a run.** -/
structure CacheSuite (υ : Type) where
  /-- Parsed units, by source text. -/
  ast : Cache υ
  /-- Results of stages and branches. -/
  expression : Cache Computation
  /-- Results of branches of blocks that were not joined. -/
  branch : Cache BranchResult
  /-- Results of tensor operations. -/
  tensor : Cache (List (Tensor Double))
  /-- The sweeper of the four. -/
  sweeper : Sweeper

namespace CacheSuite

variable {υ : Type}

/-- The caches that the settings ask for; their sweeper is started. -/
def new (c : CacheConfig) : Told (CacheSuite υ) := do
  let options (name : String) (entries weight : UInt64) (ttl : Int64) : CacheOptions :=
    { name := name, maxEntries := entries, maxWeight := weight, defaultTtl := ttl,
      enabled := c.enabled }
  let sweeper ← Sweeper.start { interval := c.sweepInterval, hasCallback := true }
  return { ast := .new (options "ast" c.astEntries 0 0) fun _ => 1
           expression :=
             .new (options "expression" c.exprEntries 0 (nanoseconds c.exprTtl)) fun _ => 1
           branch := .new (options "branch" c.branchEntries 0 0) fun _ => 1
           tensor := .new (options "tensor" 0 c.tensorBytes 0) tensorsWeight
           sweeper := sweeper }

/-- Drop everything. -/
def clear (s : CacheSuite υ) : CacheSuite υ :=
  { s with
    ast := s.ast.clear
    expression := s.expression.clear
    branch := s.branch.clear
    tensor := s.tensor.clear }

/-- Drop what has come to its end; the number of dropped entries. -/
def sweep (s : CacheSuite υ) (now : Int64) : Told (Nat × CacheSuite υ) := do
  let (a, ast) ← s.ast.sweep now
  let (b, expression) ← s.expression.sweep now
  let (c, branch) ← s.branch.sweep now
  let (d, tensor) ← s.tensor.sweep now
  let n := a + b + c + d
  if 0 < n then
    Told.note (.plain "cache" ("sweep removed " ++ toString n ++ " expired entries"))
  return (n, { s with ast := ast, expression := expression, branch := branch, tensor := tensor })

end CacheSuite

end MemoFlow
