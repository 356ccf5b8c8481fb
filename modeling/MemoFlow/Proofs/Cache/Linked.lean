import MemoFlow.Proofs.Cache.Reentrant

/-!
# Caches with handles

Each entry of a cache has a handle to its node in the order of use and, when it has a deadline, one
to its node in the index of deadlines. An entry leaves by its handles, and nothing is searched for.
A handle may point nowhere, a key may have no entry, and a loop may have no end: here all of that
can be said.

* `detach?`: take the node of a handle out of a list;
* **`LinkedCache`**, `LinkedCache.plain`: the state with its handles, and the state without them;
* `Removal`, `Removal.Ends`, `Removal.loop`: what one turn of a loop does, the end of the loop, and
  the loop until there is no turn left;
* `LinkedCache.purgeTurn`, `LinkedCache.roomTurn`, `LinkedCache.trimTurn`: the turns;
* **`LinkedCache.serve`**: the requests. None stands for a handle that points nowhere and for a loop
  without an end;
* `LinkedCache.Reached`: the caches that requests lead to.
-/

namespace MemoFlow

variable {V : Type}

/-- Take the node of a handle out of a list: what it holds, and the other nodes; none when the
handle points nowhere. -/
def detach? {α : Type} (h : Nat) : List (Nat × α) → Option (α × List (Nat × α))
  | [] => none
  | (n, a) :: r => if n = h then some (a, r) else (detach? h r).map fun q => (q.1, (n, a) :: q.2)

/-- A stored value with its handles. -/
structure LinkedEntry (V : Type) extends CacheEntry V where
  /-- The handle of its node in the order of use. -/
  place : Nat
  /-- The handle of its node in the index of deadlines, which means nothing without a deadline. -/
  alarm : Nat

/-- **The state of a cache with its handles.** -/
structure LinkedCache (V : Type) where
  /-- The settings. -/
  options : CacheOptions
  /-- The weight of a value that is stored without one. -/
  weigh : V → UInt64
  /-- The stored values. -/
  entries : List (Fingerprint × LinkedEntry V)
  /-- The keys, the one used last first, each in its node. -/
  recency : List (Nat × Fingerprint)
  /-- The deadlines, the earliest first, each in its node. -/
  expiry : List (Nat × Int64 × Fingerprint)
  /-- The sum of the weights, in 64 bits. -/
  weight : UInt64
  /-- The counters. -/
  stats : CacheStats
  /-- The next handle. -/
  fresh : Nat

/-! ## Loops that take entries out -/

/-- What a turn of a loop does to a state. -/
inductive Removal (σ : Type) where
  /-- It takes an entry out. -/
  | gone (s : σ)
  /-- It finds no entry under a key, and takes none out. -/
  | stray (s : σ)
  /-- It comes upon a handle that points nowhere. -/
  | broken

namespace Removal

variable {σ : Type}

/-- An entry is taken out unless a handle points nowhere. -/
def ofState? : Option σ → Removal σ
  | none => .broken
  | some s => .gone s

/-- **The end of a loop**: no turn is left, or a handle points nowhere. A loop counts its turns, and
one that takes no entry out counts for `m`. -/
inductive Ends (turn : σ → Option (Removal σ)) (m : Nat) : Nat → σ → Option (Nat × σ) → Prop where
  /-- No turn is left. -/
  | rest {n : Nat} {s : σ} (h : turn s = none) : Ends turn m n s (some (n, s))
  /-- A turn takes an entry out. -/
  | gone {n : Nat} {s t : σ} {r : Option (Nat × σ)} (h : turn s = some (.gone t))
    (hr : Ends turn m (n + 1) t r) : Ends turn m n s r
  /-- A turn takes no entry out. -/
  | stray {n : Nat} {s t : σ} {r : Option (Nat × σ)} (h : turn s = some (.stray t))
    (hr : Ends turn m (n + m) t r) : Ends turn m n s r
  /-- A turn comes upon a handle that points nowhere. -/
  | broken {n : Nat} {s : σ} (h : turn s = some .broken) : Ends turn m n s none

open Classical in
/-- **A loop**: turns until there is none left, and how many of them there were; none also for a
loop that comes to no end. -/
noncomputable def loop (turn : σ → Option (Removal σ)) (m n : Nat) (s : σ) : Option (Nat × σ) :=
  if h : ∃ r, Ends turn m n s r then h.choose else none

variable {turn : σ → Option (Removal σ)} {m n : Nat} {s t : σ}

theorem Ends.unique {r r' : Option (Nat × σ)} (h : Ends turn m n s r) (h' : Ends turn m n s r') :
    r = r' := by
  induction h with
  | rest h => cases h' <;> simp_all
  | gone h _ ih =>
    cases h' with
    | gone hg hr' =>
      obtain rfl := Removal.gone.inj (Option.some.inj (h.symm.trans hg))
      exact ih hr'
    | _ hg => simp [h] at hg
  | stray h _ ih =>
    cases h' with
    | stray hg hr' =>
      obtain rfl := Removal.stray.inj (Option.some.inj (h.symm.trans hg))
      exact ih hr'
    | _ hg => simp [h] at hg
  | broken h => cases h' <;> simp_all

theorem Ends.loop_eq {r : Option (Nat × σ)} (h : Ends turn m n s r) : loop turn m n s = r := by
  have hex : ∃ r, Ends turn m n s r := ⟨r, h⟩
  rw [loop, dif_pos hex]
  exact hex.choose_spec.unique h

theorem loop_of_none (h : turn s = none) : loop turn m n s = some (n, s) := (Ends.rest h).loop_eq

theorem loop_of_gone (h : turn s = some (.gone t)) :
    loop turn m n s = loop turn m (n + 1) t := by
  by_cases hex : ∃ r, Ends turn m (n + 1) t r
  · obtain ⟨r, hr⟩ := hex
    rw [hr.loop_eq, (Ends.gone h hr).loop_eq]
  · have hno : ¬ ∃ r, Ends turn m n s r := by
      rintro ⟨r, hr⟩
      cases hr with
      | gone hg hr =>
        obtain rfl := Removal.gone.inj (Option.some.inj (h.symm.trans hg))
        exact hex ⟨r, hr⟩
      | _ hg => simp [h] at hg
    rw [loop, loop, dif_neg hno, dif_neg hex]

end Removal

namespace LinkedCache

/-- A cache without entries. -/
def new (options : CacheOptions) (weigh : V → UInt64) : LinkedCache V :=
  ⟨options, weigh, [], [], [], 0, { }, 0⟩

/-- **The cache without its handles.** -/
def plain (c : LinkedCache V) : Cache V where
  options := c.options
  weigh := c.weigh
  entries := c.entries.map fun p => (p.1, p.2.toCacheEntry)
  recency := c.recency.map Prod.snd
  expiry := c.expiry.map Prod.snd
  weight := c.weight
  stats := c.stats

/-- The entry of a key. -/
def entry? (c : LinkedCache V) (k : Fingerprint) : Option (LinkedEntry V) := c.entries.lookup k

/-- The number of entries. -/
def size (c : LinkedCache V) : Nat := c.entries.length

/-- Change the counters. -/
def count (c : LinkedCache V) (f : CacheStats → CacheStats) : LinkedCache V :=
  { c with stats := f c.stats }

/-- Whether a request for a key is served at all. -/
def serves (c : LinkedCache V) (k : Fingerprint) : Bool := c.options.enabled && k.cacheable

/-! ## How entries leave -/

/-- Take an entry out of all three structures, by its handles. -/
def unlink? (c : LinkedCache V) (k : Fingerprint) (e : LinkedEntry V) : Option (LinkedCache V) := do
  let (_, recency) ← detach? e.place c.recency
  let expiry ← if e.deadline.isSome then (detach? e.alarm c.expiry).map Prod.snd else some c.expiry
  return { c with
    entries := c.entries.filter fun p => p.1 ≠ k
    recency := recency
    expiry := expiry
    weight := c.weight - e.weight }

/-- A turn of the loop that drops what has come to its end. -/
def purgeTurn (now : Int64) (c : LinkedCache V) : Option (Removal (LinkedCache V)) :=
  match c.expiry with
  | [] => none
  | (_, d, k) :: rest =>
    if d ≤ now then
      match c.entry? k with
      | none => some (.stray { c with expiry := rest })
      | some e => some (.ofState? ((c.unlink? k e).map fun c =>
          c.count fun s => { s with expirations := s.expirations + 1 }))
    else none

/-- Drop every entry whose deadline has come; their number. -/
noncomputable def purge (c : LinkedCache V) (now : Int64) : Option (Nat × LinkedCache V) :=
  Removal.loop (purgeTurn now) 0 0 c

/-- Drop the entry used longest ago. -/
def evictColdest (c : LinkedCache V) : Removal (LinkedCache V) :=
  match c.recency.getLast? with
  | none => .stray c
  | some (_, k) =>
    match c.entry? k with
    | none => .stray { c with recency := c.recency.dropLast }
    | some e => .ofState? ((c.unlink? k e).map fun c =>
        c.count fun s => { s with evictions := s.evictions + 1 })

/-- A turn of the loop that makes room for a weight. -/
def roomTurn (w : UInt64) (c : LinkedCache V) : Option (Removal (LinkedCache V)) :=
  if !c.entries.isEmpty && c.options.maxWeight < c.weight + w then some c.evictColdest else none

/-- Drop entries until the weight `w` fits in the budget, if there is one; their number. -/
noncomputable def makeRoomFor (c : LinkedCache V) (w : UInt64) : Option (Nat × LinkedCache V) :=
  if c.options.maxWeight = 0 then some (0, c) else Removal.loop (roomTurn w) 1 0 c

/-- A turn of the loop that drops entries while there are too many. -/
def trimTurn (c : LinkedCache V) : Option (Removal (LinkedCache V)) :=
  if 0 < c.options.maxEntries ∧ c.options.maxEntries.toNat < c.size then some c.evictColdest
  else none

/-- Drop entries while there are too many. -/
noncomputable def trim (c : LinkedCache V) : Option (LinkedCache V) :=
  (Removal.loop trimTurn 0 0 c).map Prod.snd

/-! ## The operations -/

/-- **Look up a key**; the node of a found one moves to the front. -/
noncomputable def get (c : LinkedCache V) (now : Int64) (k : Fingerprint) :
    Option (Option V × LinkedCache V) :=
  if c.serves k then do
    let (_, c) ← c.purge now
    match c.entry? k with
    | none => return (none, c.count fun s => { s with misses := s.misses + 1 })
    | some e =>
      let (a, recency) ← detach? e.place c.recency
      return (some e.value, { c with
        recency := (e.place, a) :: recency
        stats := { c.stats with hits := c.stats.hits + 1 } })
  else some (none, c.count fun s => { s with bypasses := s.bypasses + 1 })

/-- Drop the entry of a key that is to be stored, if there is one. -/
def drop? (c : LinkedCache V) (k : Fingerprint) : Option (LinkedCache V) :=
  match c.entry? k with
  | none => some c
  | some e => c.unlink? k e

/-- Put a node into the index of deadlines, behind those that are not later. -/
def insertDeadline (h : Nat) (d : Int64) (k : Fingerprint) :
    List (Nat × Int64 × Fingerprint) → List (Nat × Int64 × Fingerprint)
  | [] => [(h, d, k)]
  | (n, e, l) :: r =>
    if d < e then (h, d, k) :: (n, e, l) :: r else (n, e, l) :: insertDeadline h d k r

/-- Make an entry with new nodes; it is not stored when the key has one. -/
def add (c : LinkedCache V) (k : Fingerprint) (e : CacheEntry V) : LinkedCache V :=
  { c with
    entries := match c.entry? k with
      | some _ => c.entries
      | none => (k, ⟨e, c.fresh, c.fresh⟩) :: c.entries
    recency := (c.fresh, k) :: c.recency
    expiry := match e.deadline with
      | some d => insertDeadline c.fresh d k c.expiry
      | none => c.expiry
    weight := c.weight + e.weight
    stats := { c.stats with sets := c.stats.sets + 1 }
    fresh := c.fresh + 1 }

/-- Make room for a value that is known to be light enough, and put it in its place. -/
noncomputable def place? (c : LinkedCache V) (now : Int64) (k : Fingerprint) (v : V) (ttl : Int64)
    (w : UInt64) : Option (LinkedCache V) := do
  let c ← c.drop? k
  let (_, c) ← c.makeRoomFor w
  return c.add k ⟨v, w, if 0 < ttl then some (now + ttl) else none⟩

/-- **Store a value** under a key; whether it was stored. -/
noncomputable def put (c : LinkedCache V) (now : Int64) (k : Fingerprint) (v : V)
    (ttl : Option Int64) (weight : Option UInt64) : Option (Bool × LinkedCache V) :=
  if c.serves k then do
    let (_, c) ← c.purge now
    let w := weight.getD (c.weigh v)
    if 0 < c.options.maxWeight ∧ c.options.maxWeight < w then
      return (false, c.count fun s => { s with rejected := s.rejected + 1 })
    else
      let c ← c.place? now k v (ttl.getD c.options.defaultTtl) w
      let c ← c.trim
      return (true, c)
  else some (false, c.count fun s => { s with bypasses := s.bypasses + 1 })

/-- Drop the entry of a key; whether there was one. -/
def invalidate (c : LinkedCache V) (k : Fingerprint) : Option (Bool × LinkedCache V) :=
  match c.entry? k with
  | none => some (false, c)
  | some e => (c.unlink? k e).map fun c =>
      (true, c.count fun s => { s with invalidations := s.invalidations + 1 })

/-- Whether a key has an entry that has not come to its end. -/
def contains (c : LinkedCache V) (now : Int64) (k : Fingerprint) : Bool :=
  match c.entry? k with
  | none => false
  | some e =>
    match e.deadline with
    | none => true
    | some d => now < d

/-- Drop everything; the counters stay. -/
def clear (c : LinkedCache V) : LinkedCache V :=
  { c with entries := [], recency := [], expiry := [], weight := 0 }

/-- Drop what has come to its end, and then entries until a weight fits. -/
noncomputable def makeRoom (c : LinkedCache V) (now : Int64) (w : UInt64) :
    Option (Nat × LinkedCache V) := do
  let (_, c) ← c.purge now
  c.makeRoomFor w

/-- **The answer to a request** at a reading of the clock, and the cache after it. -/
noncomputable def serve (c : LinkedCache V) (now : Int64) :
    CacheRequest V → Option (CacheAnswer V × LinkedCache V)
  | .get k => (c.get now k).map fun r => (.found r.1, r.2)
  | .put k v ttl weight => (c.put now k v ttl weight).map fun r => (.truth r.1, r.2)
  | .invalidate k => (c.invalidate k).map fun r => (.truth r.1, r.2)
  | .contains k => some (.truth (c.contains now k), c)
  | .clear => some (.done, c.clear)
  | .sweep => (c.purge now).map fun r => (.number r.1, r.2)
  | .room w => (c.makeRoom now w).map fun r => (.number r.1, r.2)
  | .size => some (.number c.size, c)

/-- **The caches that requests lead to**, from one without entries. -/
inductive Reached (o : CacheOptions) (g : V → UInt64) : LinkedCache V → Prop where
  /-- Before the first request. -/
  | new : Reached o g (.new o g)
  /-- After a request. -/
  | serve {c d : LinkedCache V} {now : Int64} {r : CacheRequest V} {a : CacheAnswer V}
    (h : Reached o g c) (hs : c.serve now r = some (a, d)) : Reached o g d

end LinkedCache

end MemoFlow
