import MemoFlow.Cache.Basic
import MemoFlow.Fault

/-!
# Programs on a cache

Sequences of operations on one cache with a clock that is moved by hand. The computation of a
missing value and a transaction are programs on the same cache.

* `CacheStep`, `CacheAnswer`: operations and what they answer;
* **`Timed.run`**: one operation; `Timed.runAll`: a program.
-/

namespace MemoFlow

/-- Operations on a cache. -/
inductive CacheStep (V : Type) where
  /-- Look up a key. -/
  | get (k : Fingerprint)
  /-- Store a value; life time in nanoseconds. -/
  | put (k : Fingerprint) (v : V) (ttl : Option Int64) (weight : Option UInt64)
  /-- Drop a key. -/
  | invalidate (k : Fingerprint)
  /-- Ask for a key. -/
  | contains (k : Fingerprint)
  /-- Drop everything. -/
  | clear
  /-- Drop what has come to its end. -/
  | sweep
  /-- Make room for a weight. -/
  | room (w : UInt64)
  /-- Count the entries. -/
  | size
  /-- Move the clock, in milliseconds. -/
  | advance (ms : Int64)
  /-- Read the counters. -/
  | stats
  /-- Read the settings. -/
  | options
  /-- Look up a key; when it is missing run a program, then store its value or pass on what it
  throws. -/
  | compute (k : Fingerprint) (ttl : Option Int64) (inner : List (CacheStep V))
      (result : Except Thrown V)
  /-- Run a program. -/
  | transact (inner : List (CacheStep V))

/-- What operations on a cache answer. -/
inductive CacheAnswer (V : Type) where
  /-- A value, if there is one. -/
  | found (v : Option V)
  /-- Yes or no. -/
  | truth (b : Bool)
  /-- A number. -/
  | number (n : Nat)
  /-- Done. -/
  | done
  /-- The counters, the number of entries and their weight. -/
  | stats (s : CacheStats) (size : Nat) (weight : UInt64)
  /-- The settings. -/
  | options (o : CacheOptions)
  /-- A value, whether it was computed, and the answers of the computation. -/
  | computed (v : V) (ran : Bool) (inner : List (CacheAnswer V))
  /-- What the computation threw. -/
  | failed (t : Thrown)
  /-- The answers of a transaction. -/
  | inner (l : List (CacheAnswer V))

/-- A cache with its clock, in nanoseconds. -/
structure Timed (V : Type) where
  /-- The cache. -/
  cache : Cache V
  /-- The clock. -/
  now : Int64

namespace Timed

variable {V : Type}

/-- Put back the cache of an operation. -/
def withCache {α : Type} (s : Timed V) (f : α → CacheAnswer V) (r : Told (α × Cache V)) :
    Told (CacheAnswer V × Timed V) :=
  r.map fun p => (f p.1, { s with cache := p.2 })

mutual

/-- **One operation.** -/
def run (s : Timed V) : CacheStep V → Told (CacheAnswer V × Timed V)
  | .get k => s.withCache .found (s.cache.get s.now k)
  | .put k v ttl w => s.withCache .truth (s.cache.put s.now k v ttl w)
  | .invalidate k => s.withCache .truth ⟨s.cache.invalidate k, []⟩
  | .contains k => ⟨(.truth (s.cache.contains s.now k), s), []⟩
  | .clear => ⟨(.done, { s with cache := s.cache.clear }), []⟩
  | .sweep => s.withCache .number (s.cache.sweep s.now)
  | .room w => s.withCache .number (s.cache.makeRoom s.now w)
  | .size => ⟨(.number s.cache.size, s), []⟩
  | .advance ms => ⟨(.done, { s with now := s.now + nanoseconds ms }), []⟩
  | .stats => ⟨(.stats s.cache.stats s.cache.size s.cache.weight, s), []⟩
  | .options => ⟨(.options s.cache.options, s), []⟩
  | .compute k ttl inner result => do
    let (hit, c) ← s.cache.get s.now k
    match hit with
    | some v => return (.computed v false [], { s with cache := c })
    | none =>
      let (answers, s) ← runAll { s with cache := c } inner
      match result with
      | .error t => return (.failed t, s)
      | .ok v =>
        let (_, c) ← s.cache.put s.now k v ttl none
        return (.computed v true answers, { s with cache := c })
  | .transact inner => do
    let (answers, s) ← runAll s inner
    return (.inner answers, s)

/-- A program, operation by operation. -/
def runAll (s : Timed V) : List (CacheStep V) → Told (List (CacheAnswer V) × Timed V)
  | [] => ⟨([], s), []⟩
  | p :: ps => do
    let (a, s) ← run s p
    let (as, s) ← runAll s ps
    return (a :: as, s)

end

end Timed

end MemoFlow
