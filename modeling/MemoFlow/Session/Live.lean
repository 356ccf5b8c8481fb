import MemoFlow.Session.Script

/-!
# Sessions with their workers

* `PreparedTask.weight`, `Session.weight`: how many turns of workers the blocks can take;
* **`Live`**, `Live.new`: a session with the tasks that its workers have begun;
* `Live.perform`: do something, and let the workers go on;
* `Live.shutdown`, `Live.finish`: the end.
-/

namespace MemoFlow

open Script

/-- The weight of a prepared branch. -/
def PreparedTask.weight (t : PreparedTask) : Nat :=
  (TaskSpec.mk t.id t.env t.work (t.stages.map PreparedStage.spec) t.source t.inputs).weight

/-- The weight of all blocks of a session. -/
def Session.weight (s : Session) : Nat :=
  s.coordinator.blocks.foldl (fun n b => b.tasks.foldl (fun n t => n + t.weight) n) 0

/-- **A session with its workers.** -/
structure Live where
  /-- The session. -/
  state : Session
  /-- The tasks that each worker has begun. -/
  crew : Crew Session := []

namespace Live

/-- A session at its start. -/
def new (c : SessionConfig) : Live := { state := .new c }

/-- Change the session without letting the workers go on. -/
def change (l : Live) (f : Session → Session) : Live := { l with state := f l.state }

/-- **Do something that runs scripts of a weight**, and let the workers go on until each of them
waits. -/
def perform {α : Type} (l : Live) (weight : Nat) (a : Act α) : α × Live :=
  let (a, crew, s) := Session.site.runMain (l.state.weight + weight) a l.crew l.state
  (a, ⟨s, crew⟩)

/-- Do something that runs no scripts. -/
def call {α : Type} (l : Live) (a : Act α) : α × Live := l.perform 0 a

/-! ## The end -/

/-- Shut the pool down, unless it has been: the workers drain the queues and end. -/
def closePool (l : Live) : Live :=
  if l.state.coordinator.pool.closed then l
  else
    let (_, l) := l.call (Session.onCoordinator fun c =>
      c.pool.close.map fun p => ((), { c with pool := p }))
    l.change fun s => s.say [s.coordinator.pool.closedNote]

/-- The note at the end of a session that was made as one object. -/
def finishedNote (s : CacheStats) : Note :=
  .plain "cache" ("run finished: expression hits=" ++ toString s.hits ++ " misses=" ++
    toString s.misses ++ " hit_rate=" ++ Decimal.fixed 3 s.hitRate)

/-- Stop what runs in the background. -/
def stopSweeper (s : Session) : Session :=
  { s with caches := { s.caches with sweeper := s.caches.sweeper.stop } }

/-- **Shut down**: the pool, and in a session that was made as one object the sweeper, too. -/
def shutdown (l : Live) : Live :=
  if l.state.config.isWhole then
    if l.state.isDown then l
    else l.closePool.change fun s =>
      { (stopSweeper s).say [finishedNote s.caches.expression.stats] with isDown := true }
  else l.closePool

/-- The end of a session: all gates open first. The notes made on the way, the first one first. -/
def finish (l : Live) : List Note :=
  (l.change fun s => { s with allOpen := true }).shutdown.state.notes.reverse

end Live

end MemoFlow
