import MemoFlow.Proofs.Cache.Budget
import MemoFlow.Proofs.Cache.Intact

/-!
# Computing a missing value

While a missing value is computed, the computation uses the same cache. It may drop everything,
store the very key that is missing, or compute it in its turn, and it may go by what it is answered.

* **`Callback`**, `Callback.plan`: a computation that goes by the answers, and its operations in a
  state;
* `Callback.result`, `Callback.leaves`, `Callback.asStep`: how it ends, the state it leaves, and the
  operation that computes a missing value by it;
* `Timed.Finds`, `Cache.Touched`, `Cache.Missed`, `Cache.Kept`: what a look-up and a store make of
  a cache;
* **`Timed.Computes`**, `Timed.computes`: what the operation answers, and the cache after it.
-/

namespace MemoFlow

variable {V : Type}

/-- **A computation that goes by the answers** to its operations on a cache. -/
inductive Callback (V : Type) where
  /-- It ends in a value, or throws. -/
  | ends (r : Except Thrown V)
  /-- An operation, and what follows its answer. -/
  | step (p : CacheStep V) (next : CacheAnswer V → Callback V)
  /-- The value of a key, computed when it is missing, and what follows; it may go on when the inner
  computation threw. -/
  | compute (k : Fingerprint) (ttl : Option Int64) (inner : Callback V)
    (next : CacheAnswer V → Callback V)
  /-- A transaction, and what follows its end. -/
  | transact (inner : Callback V) (next : Except Thrown V → Callback V)

/-- The state after a look-up. -/
def Timed.lookedUp (s : Timed V) (k : Fingerprint) : Timed V :=
  { s with cache := (s.cache.get s.now k).value.2 }

namespace Callback

/-- **The operations of a computation in a state**, and how it ends. -/
def plan : Callback V → Timed V → List (CacheStep V) × Except Thrown V
  | .ends r, _ => ([], r)
  | .step p next, s =>
    let a := (Timed.run s p).value
    let q := (next a.1).plan a.2
    (p :: q.1, q.2)
  | .compute k ttl inner next, s =>
    let i := inner.plan (s.lookedUp k)
    let p := CacheStep.compute k ttl i.1 i.2
    let a := (Timed.run s p).value
    let q := (next a.1).plan a.2
    (p :: q.1, q.2)
  | .transact inner next, s =>
    let i := inner.plan s
    let p := CacheStep.transact i.1
    let q := (next i.2).plan (Timed.run s p).value.2
    (p :: q.1, q.2)

/-- How a computation ends. -/
def result (f : Callback V) (s : Timed V) : Except Thrown V := (f.plan s).2

/-- What its operations are answered. -/
def answers (f : Callback V) (s : Timed V) : List (CacheAnswer V) :=
  (Timed.runAll s (f.plan s).1).value.1

/-- The state that a computation leaves. -/
def leaves (f : Callback V) (s : Timed V) : Timed V := (Timed.runAll s (f.plan s).1).value.2

/-- **The operation that computes a missing value** by `f`, in the state `s`. -/
def asStep (f : Callback V) (s : Timed V) (k : Fingerprint) (ttl : Option Int64) : CacheStep V :=
  .compute k ttl (f.plan (s.lookedUp k)).1 (f.result (s.lookedUp k))

variable (s : Timed V) (r : Except Thrown V) (p : CacheStep V) (k : Fingerprint)
  (ttl : Option Int64) (inner : Callback V) (next : CacheAnswer V → Callback V)

@[simp] theorem leaves_ends : (ends r).leaves s = s := rfl

@[simp] theorem leaves_step : (step p next).leaves s =
    (next (Timed.run s p).value.1).leaves (Timed.run s p).value.2 := rfl

@[simp] theorem leaves_compute : (compute k ttl inner next).leaves s =
    (next (Timed.run s (inner.asStep s k ttl)).value.1).leaves
      (Timed.run s (inner.asStep s k ttl)).value.2 := rfl

@[simp] theorem leaves_transact (next : Except Thrown V → Callback V) :
    (transact inner next).leaves s = (next (inner.result s)).leaves (inner.leaves s) := rfl

end Callback

/-! ## What a look-up and a store make of a cache -/

/-- **A look-up finds an entry**: it is served, and the entry of the key has not come to its end. -/
def Timed.Finds (s : Timed V) (k : Fingerprint) (e : CacheEntry V) : Prop :=
  s.cache.serves k = true ∧ s.cache.entry? k = some e ∧ Slot.isLive s.now (k, e) = true

namespace Cache

/-- A look-up finds the entry `e`: it is the one used last, and what has come to its end is gone. -/
structure Touched (c : Cache V) (now : Int64) (k : Fingerprint) (e : CacheEntry V) (d : Cache V) :
    Prop where
  slots : d.slots = (k, e) :: without k (c.slots.filter (Slot.isLive now))
  stats : d.stats = { c.stats with
    expirations := c.stats.expirations + expired now c.slots
    hits := c.stats.hits + 1 }

/-- A look-up finds nothing: a miss is counted when it is served, and else only that it is not. -/
structure Missed (c : Cache V) (now : Int64) (k : Fingerprint) (d : Cache V) : Prop where
  slots : c.serves k = true → d.slots = c.slots.filter (Slot.isLive now)
  stats : c.serves k = true → d.stats = { c.stats with
    expirations := c.stats.expirations + expired now c.slots
    misses := c.stats.misses + 1 }
  bypassed : c.serves k = false → d = c.count fun s => { s with bypasses := s.bypasses + 1 }

/-- A value is heavier than the whole budget. -/
def Overweight (c : Cache V) (v : V) : Prop :=
  0 < c.options.maxWeight ∧ c.options.maxWeight < c.weigh v

/-- The entry of a value that is stored now. -/
def entryOf (c : Cache V) (now : Int64) (v : V) (ttl : Option Int64) : CacheEntry V :=
  ⟨v, c.weigh v, deadlineOf now (ttl.getD c.options.defaultTtl)⟩

/-- **A value is stored** when the store is served and the value is not too heavy: it is in front of
some of the slots of the other keys, those used last. -/
structure Kept (c : Cache V) (now : Int64) (k : Fingerprint) (v : V) (ttl : Option Int64)
    (d : Cache V) : Prop where
  bypassed : c.serves k = false → d = c.count fun s => { s with bypasses := s.bypasses + 1 }
  refused : c.serves k = true → c.Overweight v →
    d.slots = c.slots.filter (Slot.isLive now) ∧
    d.stats = { c.stats with
      expirations := c.stats.expirations + expired now c.slots
      rejected := c.stats.rejected + 1 }
  stored : c.serves k = true → ¬ c.Overweight v →
    ∃ kept, d.slots = (k, c.entryOf now v ttl) :: kept ∧
      kept <+: without k (c.slots.filter (Slot.isLive now)) ∧
      d.stats = { c.stats with
        expirations := c.stats.expirations + expired now c.slots
        evictions := c.stats.evictions +
          ((without k (c.slots.filter (Slot.isLive now))).length - kept.length)
        sets := c.stats.sets + 1 }

namespace Shows

variable {c : Cache V} {o : CacheOptions} {g : V → UInt64} {l : List (Slot V)} {s : CacheStats}
  {k : Fingerprint} {e : CacheEntry V} {now : Int64}

theorem finds_iff (h : c.Shows o g l s) : Timed.Finds ⟨c, now⟩ k e ↔
    (o.enabled && k.cacheable) = true ∧ (l.filter (Slot.isLive now)).lookup k = some e := by
  have hlive : ((l.filter (Slot.isLive now)).map Prod.fst).Nodup := (h.purge now).2.nodup
  rw [Timed.Finds, h.serves_eq, h.entry?_eq_some_iff, lookup_eq_some_iff hlive, List.mem_filter]

theorem touched (h : c.Shows o g l s) (hf : Timed.Finds ⟨c, now⟩ k e) :
    (c.get now k).value.1 = some e.value ∧ c.Touched now k e (c.get now k).value.2 := by
  obtain ⟨hb, hk⟩ := h.finds_iff.1 hf
  obtain ⟨hsome, hd⟩ := h.get_of_some hb hk
  refine ⟨hsome, ?_, ?_⟩
  · rw [hd.slots_eq, h.slots_eq]
  · rw [hd.stats, h.stats, h.slots_eq]

theorem missed (h : c.Shows o g l s) (hf : ∀ e, ¬ Timed.Finds ⟨c, now⟩ k e) :
    (c.get now k).value.1 = none ∧ c.Missed now k (c.get now k).value.2 := by
  cases hb : c.serves k with
  | false =>
    rw [Cache.get, hb]
    refine ⟨rfl, ?_, ?_, fun _ => rfl⟩
    · intro hs
      exact absurd (hb.symm.trans hs) Bool.false_ne_true
    · intro hs
      exact absurd (hb.symm.trans hs) Bool.false_ne_true
  | true =>
    rw [h.serves_eq] at hb
    have hk : (l.filter (Slot.isLive now)).lookup k = none :=
      Option.eq_none_iff_forall_ne_some.2 fun e he => hf e (h.finds_iff.2 ⟨hb, he⟩)
    obtain ⟨hnone, hd⟩ := h.get_of_none hb hk
    refine ⟨hnone, fun _ => ?_, fun _ => ?_, fun hs => ?_⟩
    · rw [hd.slots_eq, h.slots_eq]
    · rw [hd.stats, h.stats, h.slots_eq]
    · rw [h.serves_eq, hb] at hs
      exact Bool.noConfusion hs

theorem kept (h : c.Shows o g l s) (v : V) (ttl : Option Int64) :
    c.Kept now k v ttl (c.put now k v ttl none).value.2 := by
  refine ⟨fun hb => ?_, fun hb hw => ?_, fun hb hw => ?_⟩
  · rw [Cache.put, hb]
    rfl
  · rw [h.serves_eq] at hb
    rw [Overweight, h.options, h.weigh] at hw
    have hheavy : 0 < o.maxWeight ∧ o.maxWeight < (none : Option UInt64).getD (g v) := hw
    obtain ⟨-, hd⟩ := h.put_of_heavy now ttl hb hheavy
    rw [hd.slots_eq, hd.stats, h.slots_eq, h.stats]
    exact ⟨rfl, rfl⟩
  · rw [h.serves_eq] at hb
    rw [Overweight, h.options, h.weigh] at hw
    have hstores : Stores o k ((none : Option UInt64).getD (g v)) := ⟨hb, hw⟩
    obtain ⟨-, rest, hpre, hd⟩ := h.put_kept now ttl hstores
    refine ⟨rest, ?_, ?_, ?_⟩
    · rw [hd.slots_eq, entryOf, h.options, h.weigh]
      rfl
    · rw [h.slots_eq]
      exact hpre
    · rw [hd.stats, h.stats, h.slots_eq]

end Shows

/-- The cache after requests holds slots, and it is intact with its handles. -/
theorem intact_after (o : CacheOptions) (g : V → UInt64) (rs : List (Int64 × CacheRequest V)) :
    (∃ l s, ((new o g).after rs).Shows o g l s) ∧
      ∃ c, LinkedCache.Reached o g c ∧ c.plain = (new o g).after rs ∧ c.Intact := by
  obtain ⟨c, hc, hplain⟩ := (LinkedCache.Reached.new (o := o) (g := g)).after rs
  change c.plain = (new o g).after rs at hplain
  obtain ⟨htied, l, s, hshows, hallowed⟩ := hc.shows
  refine ⟨⟨l, s, ?_⟩, c, hc, hplain, LinkedCache.intact_of_shows htied hshows hallowed⟩
  rwa [hplain] at hshows

end Cache

/-! ## Computing a missing value -/

namespace Timed

/-- **What computing a missing value by `f` answers, and the state after it.** A live entry is told,
and `f` is not run. Else it is run once, after the look-up; what it throws is passed on, in the
state that it leaves, and its value is stored. -/
structure Computes (s : Timed V) (k : Fingerprint) (ttl : Option Int64) (f : Callback V)
    (r : CacheAnswer V × Timed V) : Prop where
  hit : ∀ e, s.Finds k e → r.1 = .computed e.value false [] ∧ r.2.now = s.now ∧
    s.cache.Touched s.now k e r.2.cache
  missed : (∀ e, ¬ s.Finds k e) → s.cache.Missed s.now k (s.lookedUp k).cache
  threw : (∀ e, ¬ s.Finds k e) → ∀ x, f.result (s.lookedUp k) = .error x →
    r = (.failed x, f.leaves (s.lookedUp k))
  kept : (∀ e, ¬ s.Finds k e) → ∀ v, f.result (s.lookedUp k) = .ok v →
    r.1 = .computed v true (f.answers (s.lookedUp k)) ∧
    r.2.now = (f.leaves (s.lookedUp k)).now ∧
    (f.leaves (s.lookedUp k)).cache.Kept (f.leaves (s.lookedUp k)).now k v ttl r.2.cache
  /-- The slots are the entries with their keys, and the cache is intact with its handles. -/
  intact : r.2.cache.slots.Perm r.2.cache.entries ∧
    ∃ c, LinkedCache.Reached s.cache.options s.cache.weigh c ∧ c.plain = r.2.cache ∧ c.Intact

variable {s : Timed V} {k : Fingerprint} {ttl : Option Int64} {f : Callback V} {v : V} {x : Thrown}

theorem run_asStep_of_some (h : (s.cache.get s.now k).value.1 = some v) :
    (run s (f.asStep s k ttl)).value = (.computed v false [], s.lookedUp k) := by
  rw [Callback.asStep, run]
  simp only [Told.value_bind, h]
  rfl

theorem run_asStep_of_error (h : (s.cache.get s.now k).value.1 = none)
    (hf : f.result (s.lookedUp k) = .error x) :
    (run s (f.asStep s k ttl)).value = (.failed x, f.leaves (s.lookedUp k)) := by
  rw [Callback.asStep, run]
  simp only [Told.value_bind, h, hf]
  rfl

theorem run_asStep_of_ok (h : (s.cache.get s.now k).value.1 = none)
    (hf : f.result (s.lookedUp k) = .ok v) :
    (run s (f.asStep s k ttl)).value = (.computed v true (f.answers (s.lookedUp k)),
      let u := f.leaves (s.lookedUp k)
      { u with cache := (u.cache.put u.now k v ttl none).value.2 }) := by
  rw [Callback.asStep, run]
  simp only [Told.value_bind, h, hf]
  rfl

/-- **Computing a missing value is correct** in every state of a cache, whatever the computation
does to the cache and however it ends. -/
theorem computes (o : CacheOptions) (g : V → UInt64) (rs : List (Int64 × CacheRequest V))
    (now : Int64) (k : Fingerprint) (ttl : Option Int64) (f : Callback V) :
    let s : Timed V := ⟨(Cache.new o g).after rs, now⟩
    s.Computes k ttl f (run s (f.asStep s k ttl)).value := by
  intro s
  obtain ⟨⟨l, st, hs⟩, -⟩ := Cache.intact_after o g rs
  refine ⟨fun e hf => ?_, fun hf => (hs.missed hf).2, fun hf x hx => ?_, fun hf v hv => ?_, ?_⟩
  · obtain ⟨hsome, htouched⟩ := hs.touched hf
    rw [run_asStep_of_some hsome]
    exact ⟨rfl, rfl, htouched⟩
  · exact run_asStep_of_error (hs.missed hf).1 hx
  · rw [run_asStep_of_ok (hs.missed hf).1 hv]
    -- The state that `f` leaves is one after requests too: the look-up, and those of `f`.
    have hleaves : (f.leaves (s.lookedUp k)).cache = (Cache.new o g).after
        (rs ++ (now, .get k) :: calls (s.lookedUp k) (f.plan (s.lookedUp k)).1) := by
      rw [Cache.after_append, Cache.after_cons]
      exact runAll_after_calls _ _
    obtain ⟨⟨l', st', hu⟩, -⟩ := Cache.intact_after o g
      (rs ++ (now, .get k) :: calls (s.lookedUp k) (f.plan (s.lookedUp k)).1)
    rw [← hleaves] at hu
    exact ⟨rfl, rfl, hu.kept v ttl⟩
  · have hrun : (run s (f.asStep s k ttl)).value.2.cache =
        (Cache.new o g).after (rs ++ callsOf s (f.asStep s k ttl)) := by
      rw [run_after_callsOf, Cache.after_append]
    obtain ⟨⟨l', st', hd⟩, hintact⟩ := Cache.intact_after o g
      (rs ++ callsOf s (f.asStep s k ttl))
    rw [← hrun] at hd hintact
    rw [hs.options, hs.weigh, hd.slots_eq]
    exact ⟨hd.entries.symm, hintact⟩

/-- The key that is computed is stored and computed once more inside of the computation, which goes
on when that throws; then everything is dropped. -/
theorem computes_of_reentrant_callback :
    let s : Timed Nat := ⟨(Cache.new { maxEntries := 2, defaultTtl := 7 } fun _ => 1).after
      [(0, .put ⟨0, 1, true⟩ 4 (some 5) none), (0, .put ⟨0, 2, true⟩ 6 none none)], 5⟩
    let f : Callback Nat := .compute ⟨0, 1, true⟩ none
      (.step (.put ⟨0, 3, true⟩ 8 none none) fun _ => .ends (.error (.error .runtime "no")))
      fun _ => .step (.put ⟨0, 1, true⟩ 9 none none) fun _ => .step .clear fun _ =>
        .step (.advance 1) fun _ => .ends (.ok 3)
    let r := (run s (f.asStep s ⟨0, 1, true⟩ none)).value
    (∀ e, ¬ s.Finds ⟨0, 1, true⟩ e) ∧ f.result (s.lookedUp ⟨0, 1, true⟩) = .ok 3 ∧
      s.Computes ⟨0, 1, true⟩ none f r ∧
      r.2.cache.slots.map (fun p => (p.1, p.2.value, p.2.deadline)) =
        [(⟨0, 1, true⟩, 3, some 1000012)] ∧ r.2.cache.stats.misses = 2 := by
  refine ⟨?_, rfl, computes _ _ _ _ _ _ _, by decide +kernel, by decide +kernel⟩
  rintro e ⟨-, he, hlive⟩
  obtain rfl : _ = e := Option.some.inj he
  exact absurd hlive (by decide)

end Timed

end MemoFlow
