import MemoFlow.Fingerprint
import MemoFlow.Trace

/-!
# Weighted caches with life times

A cache keeps values under fingerprints. Three structures are kept in step: the entries, the order
of use and the index of deadlines. Entries past their deadline are dropped before a look-up or a
store; entries used longest ago make room for new ones.

* `CacheOptions`, `CacheStats`, **`Cache`**: settings, counters and the state;
* `Cache.purge`, `Cache.evictColdest`, `Cache.makeRoomFor`: how entries leave;
* **`Cache.get`**, **`Cache.put`**, `Cache.invalidate`, `Cache.contains`, `Cache.clear`,
  `Cache.sweep`, `Cache.makeRoom`: the operations, at a given reading of the clock.
-/

namespace MemoFlow

/-- Settings of a cache; zero entries or weight means no bound. -/
structure CacheOptions where
  /-- The name, for notes. -/
  name : String := "cache"
  /-- The most entries. -/
  maxEntries : UInt64 := 1024
  /-- The most weight. -/
  maxWeight : UInt64 := 0
  /-- The life time of entries in nanoseconds, without end when not positive. -/
  defaultTtl : Int64 := 0
  /-- Whether anything is kept. -/
  enabled : Bool := true
deriving DecidableEq, Repr

/-- Counters of a cache. -/
structure CacheStats where
  /-- Look-ups that found a value. -/
  hits : Nat := 0
  /-- Look-ups that found none. -/
  misses : Nat := 0
  /-- Entries dropped to make room. -/
  evictions : Nat := 0
  /-- Entries dropped past their deadline. -/
  expirations : Nat := 0
  /-- Values stored. -/
  sets : Nat := 0
  /-- Entries dropped by name. -/
  invalidations : Nat := 0
  /-- Requests that a cache does not serve. -/
  bypasses : Nat := 0
  /-- Values heavier than the whole budget. -/
  rejected : Nat := 0
deriving DecidableEq, Repr

/-- The share of look-ups that found a value. -/
def CacheStats.hitRate (s : CacheStats) : Float :=
  if s.hits + s.misses = 0 then 0.0 else Float.ofNat s.hits / Float.ofNat (s.hits + s.misses)

/-- A stored value. -/
structure CacheEntry (V : Type) where
  /-- The value. -/
  value : V
  /-- Its weight. -/
  weight : UInt64
  /-- The clock reading from which on it is gone. -/
  deadline : Option Int64

/-- **The state of a cache.** -/
structure Cache (V : Type) where
  /-- The settings. -/
  options : CacheOptions
  /-- The weight of a value that is stored without one. -/
  weigh : V → UInt64
  /-- The stored values. -/
  entries : List (Fingerprint × CacheEntry V)
  /-- The keys, the one used last first. -/
  recency : List Fingerprint
  /-- The deadlines, the earliest first. -/
  expiry : List (Int64 × Fingerprint)
  /-- The sum of the weights, in 64 bits. -/
  weight : UInt64
  /-- The counters. -/
  stats : CacheStats

namespace Cache

variable {V : Type}

/-- A cache without entries. -/
def new (options : CacheOptions) (weigh : V → UInt64) : Cache V :=
  ⟨options, weigh, [], [], [], 0, { }⟩

/-- The entry of a key. -/
def entry? (c : Cache V) (k : Fingerprint) : Option (CacheEntry V) := c.entries.lookup k

/-- The number of entries. -/
def size (c : Cache V) : Nat := c.entries.length

/-- Change the counters. -/
def count (c : Cache V) (f : CacheStats → CacheStats) : Cache V := { c with stats := f c.stats }

/-- Whether a request for a key is served at all. -/
def serves (c : Cache V) (k : Fingerprint) : Bool := c.options.enabled && k.cacheable

/-! ## How entries leave -/

/-- Take an entry out of all three structures. -/
def unlink (c : Cache V) (k : Fingerprint) (e : CacheEntry V) : Cache V :=
  { c with
    entries := c.entries.filter fun p => p.1 ≠ k
    recency := c.recency.erase k
    expiry := match e.deadline with
      | some d => c.expiry.erase (d, k)
      | none => c.expiry
    weight := c.weight - e.weight }

/-- Drop entries while the earliest deadline has come, at most `n` of them; their number. -/
def purgeUpTo (now : Int64) : Nat → Cache V → Nat × Cache V
  | 0, c => (0, c)
  | n + 1, c =>
    match c.expiry with
    | [] => (0, c)
    | (d, k) :: rest =>
      if d ≤ now then
        match c.entry? k with
        | none => purgeUpTo now n { c with expiry := rest }
        | some e =>
          let r := purgeUpTo now n ((c.unlink k e).count fun s =>
            { s with expirations := s.expirations + 1 })
          (r.1 + 1, r.2)
      else (0, c)

/-- Drop every entry whose deadline has come; their number. -/
def purge (c : Cache V) (now : Int64) : Told (Nat × Cache V) :=
  let r := purgeUpTo now c.expiry.length c
  ⟨r, if 0 < r.1 then
      [.plain "cache"
        (untilNul c.options.name ++ " expired " ++ toString r.1 ++ " entries")]
    else []⟩

/-- Drop the entry used longest ago. -/
def evictColdest (c : Cache V) : Told (Cache V) :=
  match c.recency.getLast? with
  | none => ⟨c, []⟩
  | some k =>
    match c.entry? k with
    | none => ⟨{ c with recency := c.recency.dropLast }, []⟩
    | some e =>
      ⟨(c.unlink k e).count fun s => { s with evictions := s.evictions + 1 },
        [.plain "cache" (untilNul c.options.name ++ " evict key=" ++ k.hex ++ " weight=" ++
          toString e.weight.toNat)]⟩

/-- Drop entries while the weight `w` does not fit, at most `n` of them; their number. -/
def makeRoomUpTo (w : UInt64) : Nat → Cache V → Told (Nat × Cache V)
  | 0, c => ⟨(0, c), []⟩
  | n + 1, c =>
    if !c.entries.isEmpty && c.options.maxWeight < c.weight + w then do
      let c ← c.evictColdest
      let r ← makeRoomUpTo w n c
      return (r.1 + 1, r.2)
    else ⟨(0, c), []⟩

/-- Drop entries until the weight `w` fits in the budget, if there is one; their number. -/
def makeRoomFor (c : Cache V) (w : UInt64) : Told (Nat × Cache V) :=
  if c.options.maxWeight = 0 then ⟨(0, c), []⟩ else makeRoomUpTo w c.size c

/-- Drop entries while there are too many, at most `n` of them. -/
def trimUpTo : Nat → Cache V → Told (Cache V)
  | 0, c => ⟨c, []⟩
  | n + 1, c =>
    if 0 < c.options.maxEntries ∧ c.options.maxEntries.toNat < c.size then do
      trimUpTo n (← c.evictColdest)
    else ⟨c, []⟩

/-! ## The operations -/

/-- **Look up a key**; a found one becomes the one used last. -/
def get (c : Cache V) (now : Int64) (k : Fingerprint) : Told (Option V × Cache V) :=
  if c.serves k then do
    let (_, c) ← c.purge now
    match c.entry? k with
    | none => return (none, c.count fun s => { s with misses := s.misses + 1 })
    | some e =>
      return (some e.value, { c with
        recency := k :: c.recency.erase k
        stats := { c.stats with hits := c.stats.hits + 1 } })
  else ⟨(none, c.count fun s => { s with bypasses := s.bypasses + 1 }), []⟩

/-- Put a deadline into the index, behind those that are not later. -/
def insertDeadline (d : Int64) (k : Fingerprint) :
    List (Int64 × Fingerprint) → List (Int64 × Fingerprint)
  | [] => [(d, k)]
  | (e, l) :: r => if d < e then (d, k) :: (e, l) :: r else (e, l) :: insertDeadline d k r

/-- Store a value that is known to be light enough. -/
def store (c : Cache V) (now : Int64) (k : Fingerprint) (v : V) (ttl : Int64) (w : UInt64) :
    Told (Cache V) := do
  let c := match c.entry? k with
    | some e => c.unlink k e
    | none => c
  let (_, c) ← c.makeRoomFor w
  let deadline := if 0 < ttl then some (now + ttl) else none
  let c := { c with
    entries := (k, ⟨v, w, deadline⟩) :: c.entries
    recency := k :: c.recency
    expiry := match deadline with
      | some d => insertDeadline d k c.expiry
      | none => c.expiry
    weight := c.weight + w
    stats := { c.stats with sets := c.stats.sets + 1 } }
  trimUpTo c.size c

/-- **Store a value** under a key, with a life time and a weight of its own if they are given;
whether it was stored. -/
def put (c : Cache V) (now : Int64) (k : Fingerprint) (v : V) (ttl : Option Int64)
    (weight : Option UInt64) : Told (Bool × Cache V) :=
  if c.serves k then do
    let (_, c) ← c.purge now
    let w := weight.getD (c.weigh v)
    if 0 < c.options.maxWeight ∧ c.options.maxWeight < w then
      Told.note (.plain "cache" (untilNul c.options.name ++ " reject key=" ++ k.hex ++
        " weight=" ++ toString w.toNat ++ " budget=" ++ toString c.options.maxWeight.toNat))
      return (false, c.count fun s => { s with rejected := s.rejected + 1 })
    else
      return (true, ← c.store now k v (ttl.getD c.options.defaultTtl) w)
  else ⟨(false, c.count fun s => { s with bypasses := s.bypasses + 1 }), []⟩

/-- Drop the entry of a key; whether there was one. -/
def invalidate (c : Cache V) (k : Fingerprint) : Bool × Cache V :=
  match c.entry? k with
  | none => (false, c)
  | some e =>
    (true, (c.unlink k e).count fun s => { s with invalidations := s.invalidations + 1 })

/-- Whether a key has an entry that has not come to its end; nothing is counted. -/
def contains (c : Cache V) (now : Int64) (k : Fingerprint) : Bool :=
  match c.entry? k with
  | none => false
  | some e =>
    match e.deadline with
    | none => true
    | some d => now < d

/-- Drop everything; the counters stay. -/
def clear (c : Cache V) : Cache V :=
  { c with entries := [], recency := [], expiry := [], weight := 0 }

/-- Drop the entries whose deadline has come; their number. -/
def sweep (c : Cache V) (now : Int64) : Told (Nat × Cache V) := c.purge now

/-- Drop what has come to its end, and then entries until a weight fits; the number of the
latter. -/
def makeRoom (c : Cache V) (now : Int64) (w : UInt64) : Told (Nat × Cache V) := do
  let (_, c) ← c.purge now
  c.makeRoomFor w

end Cache

/-- A duration in nanoseconds, from milliseconds, in 64 bits. -/
def nanoseconds (ms : Int64) : Int64 := ms * 1000000

end MemoFlow
