import MemoFlow.Fault

/-!
# A pool of workers

Each worker has a queue of its own. Tasks are handed to the queues in turn. A worker takes its own
newest task, and when it has none the oldest one of the next worker that has some.

* **`Pool`**: the queues and the counters; tasks are of any type `κ`;
* `Pool.ensure`, `Pool.submit`: growth and submission;
* `Pool.popNewest`, `Pool.popOldest`, **`Pool.take`**, `Pool.assist`: who takes which task;
* `Pool.finish`, `Pool.close`: the end of a task and of the pool.
-/

namespace MemoFlow

/-- **The state of a pool.** -/
structure Pool (κ : Type) where
  /-- The most workers. -/
  bound : Nat
  /-- The queues of the workers that run, the oldest task first. -/
  queues : List (List κ) := []
  /-- Whether it was shut down. -/
  closed : Bool := false
  /-- Submissions so far, which choose the queue. -/
  turn : Nat := 0
  /-- Tasks that were submitted and not taken. -/
  pending : Nat := 0
  /-- Tasks that were submitted. -/
  spawned : Nat := 0
  /-- Tasks that came to their end. -/
  executed : Nat := 0
  /-- Tasks that were taken from another worker. -/
  steals : Nat := 0
deriving DecidableEq, Repr

namespace Pool

variable {κ : Type}

/-- The number of workers that run. -/
def active (p : Pool κ) : Nat := p.queues.length

/-- An error of the pool. -/
def refuse (m : String) : Thrown := .error .exhausted m

/-! ## Growth and submission -/

/-- Run at least `n` workers. -/
def ensure (p : Pool κ) (n : Nat) : Told (Except Thrown (Pool κ)) :=
  if p.bound < n then
    ⟨.error (refuse ("worker pool bound is " ++ toString p.bound ++ " threads, " ++ toString n ++
      " requested")), []⟩
  else if p.closed then ⟨.error (refuse "worker pool has been shut down"), []⟩
  else
    let p := { p with queues := p.queues ++ List.replicate (n - p.active) [] }
    ⟨.ok p, [.plain "parallel" ("pool size=" ++ toString p.active)]⟩

/-- Put a task at the end of a queue. -/
def push (p : Pool κ) (i : Nat) (t : κ) : Pool κ :=
  { p with queues := p.queues.modify i (· ++ [t]) }

/-- Hand a task to the next queue. -/
def submit (p : Pool κ) (t : κ) : Except Thrown (Pool κ) :=
  if p.active = 0 ∨ p.closed = true then .error (refuse "worker pool has no running threads")
  else
    let q := p.push (p.turn % p.active) t
    .ok { q with turn := p.turn + 1, pending := p.pending + 1, spawned := p.spawned + 1 }

/-! ## Taking tasks -/

/-- Take the newest task of a queue. -/
def popNewest (p : Pool κ) (i : Nat) : Option (κ × Pool κ) :=
  match p.queues[i]? with
  | none => none
  | some q => q.getLast?.map fun t => (t, { p with queues := p.queues.set i q.dropLast })

/-- Take the oldest task of a queue. -/
def popOldest (p : Pool κ) (i : Nat) : Option (κ × Pool κ) :=
  match p.queues[i]? with
  | some (t :: q) => some (t, { p with queues := p.queues.set i q })
  | _ => none

/-- The other workers, from the next one on. -/
def siblings (p : Pool κ) (i : Nat) : List Nat :=
  (List.range (p.active - 1)).map fun k => (i + (k + 1)) % p.active

/-- Take the oldest task of the next worker that has one. -/
def steal (p : Pool κ) (i : Nat) : Option (κ × Pool κ) :=
  ((p.siblings i).findSome? p.popOldest).map fun r =>
    (r.1, { r.2 with steals := r.2.steals + 1 })

/-- A task that was taken is not pending any more. -/
def begun (r : κ × Pool κ) : κ × Pool κ := (r.1, { r.2 with pending := r.2.pending - 1 })

/-- **The task that a worker takes.** -/
def take (p : Pool κ) (i : Nat) : Option (κ × Pool κ) :=
  ((p.popNewest i).or (p.steal i)).map begun

/-- The task that a helper takes: the newest one of the first queue that has some. -/
def assist (p : Pool κ) : Option (κ × Pool κ) :=
  ((List.range p.active).findSome? p.popNewest).map begun

/-- A task came to its end. -/
def finish (p : Pool κ) : Pool κ := { p with executed := p.executed + 1 }

/-! ## Shutdown -/

/-- Take no more tasks. The workers drain the queues and end. -/
def close (p : Pool κ) : Told (Pool κ) :=
  ⟨{ p with closed := true },
    if !p.closed && 0 < p.pending then
      [.warn "parallel" ("pool shutdown waiting on " ++ toString p.pending ++ " queued tasks")]
    else []⟩

/-- The note after the last worker ended. -/
def closedNote (p : Pool κ) : Note :=
  .plain "parallel" ("pool shut down threads=" ++ toString p.active ++ " executed=" ++
    toString p.executed)

end Pool

end MemoFlow
