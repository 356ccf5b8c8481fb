import MemoFlow.Pipeline.Stage

/-!
# Runs of a pipeline

The stages run one after the other. Each one sees the bindings of those before it, and its outputs
are bound over them. Results of stages are reused when they are kept under the same identity. The
first stage that throws ends the run.

* `PipelineState`, `StageRecord`, **`PipelineReport`**: the report of a run;
* `PipelineStats`, `PipelineHost`: counters, and what a run needs around it;
* `PipelineHost.perform`: one stage; **`PipelineHost.run`**: a run.
-/

namespace MemoFlow

/-! ## Reports -/

/-- Where a run stands. -/
inductive PipelineState where
  /-- Before a stage. -/
  | pending (index : Nat)
  /-- In a stage. -/
  | running (index : Nat)
  /-- After all stages. -/
  | completed (stages : Nat)
  /-- Ended by a stage. -/
  | failed (index : Nat) (cause : String)
deriving DecidableEq, Repr, Inhabited

namespace PipelineState

/-- The name of a phase. -/
def name : PipelineState → String
  | .pending _ => "pending"
  | .running _ => "running"
  | .completed _ => "completed"
  | .failed _ _ => "failed"

/-- The text of a state. -/
def text : PipelineState → String
  | .completed _ => "completed"
  | .failed i cause => "failed(" ++ toString i ++ ", " ++ cause ++ ")"
  | .pending i => "pending(" ++ toString i ++ ")"
  | .running i => "running(" ++ toString i ++ ")"

end PipelineState

/-- The record of a stage that was started. -/
structure StageRecord where
  /-- The name of the stage. -/
  name : String
  /-- Whether it failed. -/
  failed : Bool := false
  /-- Whether a kept result was used. -/
  reused : Bool := false
  /-- The names that it bound. -/
  produced : List String := []
  /-- Its value. -/
  value : Option Value := none

/-- The phase that a record names. -/
def StageRecord.phase (r : StageRecord) : String := if r.failed then "failed" else "completed"

/-- **The report of a run.** -/
structure PipelineReport where
  /-- One record for each stage that came to an end. -/
  stages : List StageRecord := []
  /-- The states, the first one first. -/
  transitions : List PipelineState := []
  /-- The last state. -/
  final : PipelineState := .pending 0
  /-- The value of the last stage that gave one. -/
  lastValue : Option Value := none

/-- Go over to a state. -/
def PipelineReport.enter (r : PipelineReport) (s : PipelineState) : PipelineReport :=
  { r with transitions := r.transitions ++ [s], final := s }

/-- Counters of runs. -/
structure PipelineStats where
  /-- Runs that were started. -/
  runs : Nat := 0
  /-- Runs that came to their end. -/
  completed : Nat := 0
  /-- Runs that a stage ended. -/
  failed : Nat := 0
  /-- Bodies that were run. -/
  executed : Nat := 0
  /-- Results that were reused. -/
  reused : Nat := 0
deriving DecidableEq, Repr

/-! ## Runs -/

/-- **What a run needs around it**, as computations of `m`. -/
structure PipelineHost (m : Type → Type) where
  /-- Whether results are reused. -/
  memoize : Bool
  /-- Make a note. -/
  note : Note → m Unit
  /-- Look for a kept result. -/
  kept? : Fingerprint → m (Option Computation)
  /-- Keep a result. -/
  keep : Fingerprint → Computation → m Unit
  /-- Change the counters. -/
  count : (PipelineStats → PipelineStats) → m Unit

namespace PipelineHost

variable {m : Type → Type} [Monad m]

/-- Run the body of a stage on a copy of the bindings with an empty log, and keep what it wrote. -/
def execute (h : PipelineHost m) (s : Stage m) (env : Environment) (key : Fingerprint) :
    m (Except Thrown Computation) := do
  match s.body with
  | none => return .error (.evaluation "stage has no body")
  | some body =>
    match ← body env.clearWrites with
    | .error t => return .error t
    | .ok (v, scratch) =>
      let c : Computation := ⟨scratch.outputsSince env, v⟩
      h.count fun st => { st with executed := st.executed + 1 }
      if h.memoize && key.cacheable then h.keep key c
      return .ok c

/-- **One stage**: a kept result and `true`, or that of the body and `false`. -/
def perform (h : PipelineHost m) (s : Stage m) (env : Environment) :
    m (Except Thrown (Computation × Bool)) := do
  let fresh (key : Fingerprint) : m (Except Thrown (Computation × Bool)) := do
    return (← h.execute s env key).map fun c => (c, false)
  if h.memoize && s.isReusable then
    match ← s.key env with
    | .error t => return .error t
    | .ok key =>
      match ← h.kept? key with
      | some c =>
        h.count fun st => { st with reused := st.reused + 1 }
        return .ok (c, true)
      | none => fresh key
  else fresh .uncacheable

/-- The name of a stage in notes. -/
def label (i : Nat) (name : String) : String :=
  "stage " ++ toString i ++ " (" ++ untilNul name ++ ")"

/-- The end of a run by what a stage threw. What carries no text leaves the report as it stands. -/
def abort (h : PipelineHost m) (i : Nat) (s : Stage m) (env : Environment) (r : PipelineReport)
    (t : Thrown) : m (Except Thrown Environment × PipelineReport) := do
  if t.isStandard then
    h.count fun st => { st with failed := st.failed + 1 }
    h.note (.plain "pipeline" (label i s.name ++ " failed: " ++ t.message))
    let r := r.enter (.failed i t.message)
    return (.error (.stage i s.name t.message env (some t)),
      { r with stages := r.stages ++ [{ name := s.name, failed := true }] })
  else return (.error t, r)

/-- The report after a stage that came to its end. -/
def recordStage (r : PipelineReport) (name : String) (c : Computation) (reused : Bool) :
    PipelineReport :=
  { r with
    stages := r.stages ++
      [{ name := name, reused := reused, produced := c.bindings.map Prod.fst, value := c.value }]
    lastValue := if c.value.isSome then c.value else r.lastValue }

/-- The stages from the `i`-th on. -/
def runFrom (h : PipelineHost m) (i : Nat) :
    List (Stage m) → Environment → PipelineReport → m (Except Thrown Environment × PipelineReport)
  | [], env, r => do
    h.count fun st => { st with completed := st.completed + 1 }
    return (.ok env, r.enter (.completed i))
  | s :: rest, env, r => do
    let r := r.enter (.running i)
    h.note (.plain "pipeline" (label i s.name ++ " running"))
    match ← h.perform s env with
    | .error t => h.abort i s env r t
    | .ok (c, reused) =>
      let r := recordStage r s.name c reused
      let r := if rest.isEmpty then r else r.enter (.pending (i + 1))
      runFrom h (i + 1) rest (env.overlay c.bindings) r

/-- **A run**: the bindings at its end, or the failure of the first stage that threw; with its
report. -/
def run (h : PipelineHost m) (stages : List (Stage m)) (env : Environment) :
    m (Except Thrown Environment × PipelineReport) := do
  h.count fun st => { st with runs := st.runs + 1 }
  h.runFrom 0 stages env (PipelineReport.enter { } (.pending 0))

end PipelineHost

end MemoFlow
