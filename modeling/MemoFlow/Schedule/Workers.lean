import MemoFlow.Branch.Pool

/-!
# Processes and workers that run them

A process reads and writes a shared state and may wait, at a gate or for the end of a block. Between
two waits it runs without interruption.

Workers take tasks from a pool and run them as processes over the shared state. A worker that waits
for a block takes other tasks meanwhile, one on top of the other. A worker runs until it has to wait
with nothing to take; then the next one runs.

* **`Process`**: processes with results of type `α` over states of type `σ`, a monad;
* `Process.update`, `Process.gate`, `Process.join`: the steps;
* **`Process.advance`**: run up to the end or to the next wait;
* `Site`: what the workers have to know of the state;
* `Frame`, **`Crew`**: the tasks that each worker has begun;
* `Site.turn`: one turn of a worker; **`Site.drive`**: turns until every worker waits.
-/

/-! ## Processes -/

namespace MemoFlow

/-- **A process** over states of type `σ`. -/
inductive Process (σ α : Type) where
  /-- The end, with a result. -/
  | done (a : α)
  /-- Read the state. -/
  | read (k : σ → Process σ α)
  /-- Write the state. -/
  | write (s : σ) (k : Process σ α)
  /-- Wait at a gate. -/
  | gate (name : String) (k : Process σ α)
  /-- Wait for the end of a block, at most for a while when `timed` is set; whether the end came. -/
  | join (block : Nat) (timed : Bool) (k : Bool → Process σ α)

namespace Process

variable {σ α β : Type}

/-- Go on with a result. -/
protected def bind : Process σ α → (α → Process σ β) → Process σ β
  | .done a, f => f a
  | .read k, f => .read fun s => (k s).bind f
  | .write s k, f => .write s (k.bind f)
  | .gate n k, f => .gate n (k.bind f)
  | .join b timed k, f => .join b timed fun r => (k r).bind f

instance : Monad (Process σ) where
  pure := .done
  bind := Process.bind

/-- The state. -/
def state : Process σ σ := .read .done

/-- Change the state; the result comes with the new state. -/
def update (f : σ → α × σ) : Process σ α := .read fun s => .write (f s).2 (.done (f s).1)

/-- Change the state. -/
def modify (f : σ → σ) : Process σ Unit := .read fun s => .write (f s) (.done ())

/-- Pass a gate. -/
def pass (name : String) : Process σ Unit := .gate name (.done ())

/-- Wait for the end of a block; whether it came. -/
def await (block : Nat) (timed : Bool) : Process σ Bool := .join block timed .done

/-- Where a process stops. -/
inductive Stop (σ α : Type) where
  /-- At its end. -/
  | done (a : α)
  /-- At a gate. -/
  | gate (name : String) (k : Process σ α)
  /-- Before the end of a block. -/
  | join (block : Nat) (timed : Bool) (k : Bool → Process σ α)

/-- **Run up to the end or to the next wait.** -/
def advance : Process σ α → σ → Stop σ α × σ
  | .done a, s => (.done a, s)
  | .read k, s => (k s).advance s
  | .write s k, _ => k.advance s
  | .gate n k, s => (.gate n k, s)
  | .join b timed k, s => (.join b timed k, s)

end Process

end MemoFlow

/-! ## Workers that run processes -/

namespace MemoFlow

/-- What the workers have to know of a state of type `σ`, with tasks of type `κ`. -/
structure Site (σ κ : Type) where
  /-- The pool. -/
  pool : σ → Pool κ
  /-- Change the pool. -/
  setPool : σ → Pool κ → σ
  /-- What a task does. -/
  code : κ → Process σ Unit
  /-- Note that a process came to a gate. -/
  reach : String → σ → σ
  /-- Whether a gate is open. -/
  isOpen : σ → String → Bool
  /-- Whether a block has come to its end. -/
  isDone : σ → Nat → Bool

/-- A task on its way. -/
inductive Frame (σ : Type) where
  /-- It can go on. -/
  | ready (p : Process σ Unit)
  /-- It waits at a gate. -/
  | gate (name : String) (k : Process σ Unit)
  /-- It waits for a block. -/
  | join (block : Nat) (timed : Bool) (k : Bool → Process σ Unit)

/-- **The tasks that each worker has begun**, the topmost first. -/
abbrev Crew (σ : Type) : Type := List (List (Frame σ))

namespace Site

variable {σ κ : Type}

/-- The tasks of a worker with one more on top, when there is one to take. -/
def begin? (w : Site σ κ) (frames : List (Frame σ)) (taken : Option (κ × Pool κ)) (s : σ) :
    Option (List (Frame σ) × σ) :=
  taken.map fun r => (.ready (w.code r.1) :: frames, w.setPool s r.2)

/-- Run the topmost task up to its end or its next wait. -/
def run (w : Site σ κ) (p : Process σ Unit) (rest : List (Frame σ)) (s : σ) :
    List (Frame σ) × σ :=
  match p.advance s with
  | (.done _, s) => (rest, w.setPool s (w.pool s).finish)
  | (.gate n k, s) => (.gate n k :: rest, w.reach n s)
  | (.join b timed k, s) => (.join b timed k :: rest, s)

/-- **One turn of a worker**: its tasks and the state afterwards; none when it has to wait. -/
def turn (w : Site σ κ) (i : Nat) (frames : List (Frame σ)) (s : σ) :
    Option (List (Frame σ) × σ) :=
  match frames with
  | [] => w.begin? [] ((w.pool s).take i) s
  | .ready p :: rest => some (w.run p rest s)
  | .gate n k :: rest => if w.isOpen s n then some (.ready k :: rest, s) else none
  | .join b timed k :: rest =>
    if w.isDone s b then some (.ready (k true) :: rest, s)
    else w.begin? (.join b timed k :: rest) (w.pool s).assist s

/-- The first worker that can take a turn, and that turn. -/
def firstTurn (w : Site σ κ) (crew : Crew σ) (s : σ) : Option (Crew σ × σ) :=
  (List.range crew.length).findSome? fun i =>
    (w.turn i (crew.getD i []) s).map fun r => (crew.set i r.1, r.2)

/-- The crew with a place for each worker that runs. -/
def muster (w : Site σ κ) (crew : Crew σ) (s : σ) : Crew σ :=
  crew ++ List.replicate ((w.pool s).active - crew.length) []

/-- **Turns until every worker waits**, at most `n` of them. -/
def drive (w : Site σ κ) : Nat → Crew σ → σ → Crew σ × σ
  | 0, crew, s => (crew, s)
  | n + 1, crew, s =>
    match w.firstTurn (w.muster crew s) s with
    | none => (w.muster crew s, s)
    | some (crew, s) => drive w n crew s

/-- Give up the first wait for a block that may be given up. -/
def expire (crew : Crew σ) : Option (Crew σ) :=
  (List.range crew.length).findSome? fun i =>
    match crew.getD i [] with
    | .join _ true k :: rest => some (crew.set i (.ready (k false) :: rest))
    | _ => none

/-- Turns until a block has come to its end. Waits that may be given up are given up when nothing
else can happen, at most `tries` of them. -/
def driveUntil (w : Site σ κ) (n block : Nat) : Nat → Crew σ → σ → Crew σ × σ
  | 0, crew, s => w.drive n crew s
  | tries + 1, crew, s =>
    let (crew, s) := w.drive n crew s
    if w.isDone s block then (crew, s)
    else
      match expire crew with
      | none => (crew, s)
      | some crew => driveUntil w n block tries crew s

/-- **Run a process that is not one of the workers.** They run whenever it waits; it goes on when
nothing else can happen. -/
def runMain {α : Type} (w : Site σ κ) (n : Nat) : Process σ α → Crew σ → σ → α × Crew σ × σ
  | .done a, crew, s => (a, w.drive n crew s)
  | .read k, crew, s => runMain w n (k s) crew s
  | .write s k, crew, _ => runMain w n k crew s
  | .gate g k, crew, s =>
    let (crew, s) := w.drive n crew (w.reach g s)
    runMain w n k crew s
  | .join b timed k, crew, s =>
    let (crew, s) := w.driveUntil n b (if timed then 0 else n) crew s
    runMain w n (k (w.isDone s b)) crew s

end Site

end MemoFlow
