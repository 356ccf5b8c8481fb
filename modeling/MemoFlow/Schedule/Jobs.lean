import MemoFlow.NameMap
import MemoFlow.Schedule.Workers

/-!
# Labelled jobs on a pool

Jobs that write their label into a log, some of them behind a gate. A job that a helper ran is
marked in the log.

* `Job`, `Yard`: a job, and what the workers share;
* **`Shop`**: the workers with the yard;
* `Shop.ensure`, `Shop.submit`, `Shop.release`, `Shop.assist`, `Shop.close`: what is done to them;
  the notes made on the way are kept.
-/

namespace MemoFlow

/-- A job. -/
structure Job where
  /-- The label, which names the gate, too. -/
  label : String
  /-- Whether the job stands behind a gate. -/
  gated : Bool
deriving DecidableEq, Repr

/-- What the workers share. -/
structure Yard where
  /-- The pool. -/
  pool : Pool Job
  /-- The labels of the jobs that were done, the last one first. -/
  log : List String := []
  /-- The open gates. -/
  opened : NameSet := ∅
  /-- Whether all gates are open. -/
  allOpen : Bool := false

namespace Yard

/-- Write a label into the log. -/
def enter (y : Yard) (label : String) : Yard := { y with log := label :: y.log }

/-- What a job does. -/
def work (j : Job) : Process Yard Unit := do
  if j.gated then Process.pass j.label
  Process.modify fun y => y.enter j.label

/-- What the workers have to know of the yard. -/
def site : Site Yard Job where
  pool := Yard.pool
  setPool y p := { y with pool := p }
  code := work
  reach _ y := y
  isOpen y g := y.allOpen || y.opened.contains g
  isDone _ _ := true

end Yard

/-- **The workers with their yard.** -/
structure Shop where
  /-- The yard. -/
  yard : Yard
  /-- The jobs that each worker has begun. -/
  crew : Crew Yard := []
  /-- The notes so far, the first one first. -/
  notes : List Note := []

namespace Shop

/-- A shop without workers. -/
def new (bound : Nat) : Shop := { yard := { pool := { bound := bound } } }

/-- Change the yard and let the workers go on until each of them waits. A job takes at most four
turns. -/
def goOn (s : Shop) (f : Yard → Yard) : Shop :=
  let y := f s.yard
  let r := Yard.site.drive (4 * y.pool.spawned) s.crew y
  { s with yard := r.2, crew := r.1 }

/-- Make notes. -/
def say (s : Shop) (notes : List Note) : Shop := { s with notes := s.notes ++ notes }

/-- The labels in the log, the first one first. -/
def log (s : Shop) : List String := s.yard.log.reverse

/-- Run at least `n` workers; how many there are. -/
def ensure (s : Shop) (n : Nat) : Except Thrown (Nat × Shop) :=
  let r := s.yard.pool.ensure n
  r.value.map fun p => (p.active, (s.goOn fun y => { y with pool := p }).say r.notes)

/-- Hand over a job. -/
def submit (s : Shop) (j : Job) : Except Thrown Shop :=
  (s.yard.pool.submit j).map fun p => s.goOn fun y => { y with pool := p }

/-- Open a gate. -/
def release (s : Shop) (gate : String) : Shop :=
  s.goOn fun y => { y with opened := y.opened.insert gate () }

/-- Run a job that no worker has taken, if there is one. -/
def assist (s : Shop) : Bool × Shop :=
  match s.yard.pool.assist with
  | none => (false, s)
  | some (j, p) => (true, s.goOn fun y => { y with pool := p.finish }.enter (j.label ++ "!"))

/-- Open all gates and shut the pool down, unless it has been. -/
def close (s : Shop) : Shop :=
  if s.yard.pool.closed then s
  else
    let p := s.yard.pool.close
    let t := (s.say p.notes).goOn fun y => { y with pool := p.value, allOpen := true }
    t.say [t.yard.pool.closedNote]

end Shop

end MemoFlow
