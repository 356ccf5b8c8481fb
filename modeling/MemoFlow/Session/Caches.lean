import MemoFlow.Session.Script

/-!
# The caches of a session

* `Session.advance`, `Session.clear`, `Session.sweep`: the clock and all caches;
* `Session.startSweeper`, `Session.stopSweeper`, `Session.awaitSweep`: sweeps in the background;
* `Session.lookup`, `Session.load`, `Session.store`, `Session.forget`: parsed units by their source
  texts.
-/

namespace MemoFlow.Session

open Script

/-- Move the clock by milliseconds, where it is moved by hand. -/
def advance (ms : Int64) : Act Unit :=
  .modify fun s => if s.config.isWhole then s else { s with now := s.now + nanoseconds ms }

/-- Drop everything from all caches. -/
def clear (τ : Type := PreparedTask) : ActOf τ Unit :=
  .modify fun s => { s with caches := s.caches.clear }

/-- Drop what has come to its end from all caches; the number of dropped entries. -/
def sweep : Act Nat := onCaches fun c now => c.sweep now

/-! ## Sweeps in the background -/

/-- Start the sweeper. -/
def startSweeper : Act Unit :=
  onCaches fun c _ => c.sweeper.start.map fun w => ((), { c with sweeper := w })

/-- Stop the sweeper. -/
def stopSweeper : Act Unit :=
  .modify fun s => { s with caches := { s.caches with sweeper := s.caches.sweeper.stop } }

/-- Whether the sweeper is running. -/
def isSweeping : Act Bool := return (← Process.state).caches.sweeper.running

/-- The number of kept results. -/
def held : Act Nat := return (← Process.state).caches.expression.size

/-- Wait until at most `n` results are kept; the number of them. -/
def awaitSweep (n : Nat) : Act Nat := do
  if (← isSweeping) && n < (← held) then
    let _ ← sweep
  held

/-! ## Parsed units -/

/-- Look for the unit of a source text. -/
def lookup (text : String) : Act (Option (Option ParsedUnit)) :=
  onAst fun c now => c.get now (.ofText text)

/-- The unit of a source text, which from now on goes by a label. -/
def load (text label : String) : Act (Except Thrown (Option ParsedUnit)) := do
  match ← loadUnit text with
  | .error t => return .error t
  | .ok u =>
    .modify fun s => { s with units := s.units.insert label u }
    return .ok u

/-- Keep the unit that goes by a label, or the lack of one, for a source text; whether it was
kept. -/
def store (text label : String) : Act Bool := do
  let u ← unitOf label
  onAst fun c now => c.put now (.ofText text) u none none

/-- Forget the unit of a source text; whether there was one. -/
def forget (text : String) : Act Bool := onAst fun c _ => ⟨c.invalidate (.ofText text), []⟩

/-- The identity of the unit that goes by a label for given bindings. -/
def unitKey (label : String) (env : Environment) : Act (Except Thrown Fingerprint) := do
  match ← unitOf label with
  | none => return .error (.evaluation "null unit")
  | some u => evaluator.fingerprint u env

/-! ## Results -/

/-- Whether a result is kept for a key; nothing is counted. -/
def remembers (k : Fingerprint) : Act Bool := do
  let s ← Process.state
  return s.caches.expression.contains s.now k

/-- Forget the result of a key; whether there was one. -/
def forgetResult (k : Fingerprint) : Act Bool := onExpression fun c _ => ⟨c.invalidate k, []⟩

/-- Make room in the cache of tensors; the number of dropped entries. -/
def tensorRoom (w : UInt64) : Act Nat :=
  onCaches fun c now => (c.tensor.makeRoom now w).map fun r => (r.1, { c with tensor := r.2 })

end MemoFlow.Session
