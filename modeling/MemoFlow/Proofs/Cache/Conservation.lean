import MemoFlow.Proofs.Cache.Reentrant

/-!
# The counters of a cache add up

Every value that was stored is still there or was counted when it left, and every look-up and every
store was counted once.

* `Cache.Replaces`: a store that takes the place of an entry;
* **`Ledger`**, `Ledger.book`, `Cache.ledger`: what is counted beside a cache;
* `Ledger.Balances`: the counters of a cache add up;
* `Ledger.Balances.serve`, `Ledger.Balances.after`: a request keeps them so, and every sequence of
  requests;
* **`Cache.counters_conserve`**: they add up after every sequence of requests and every program.
-/

namespace MemoFlow

variable {V : Type}

namespace Cache

/-- **A store takes the place of an entry**: it is served and not too heavy, and its key has an
entry that has not come to its end. -/
def Replaces (c : Cache V) (now : Int64) (k : Fingerprint) (v : V) (ttl : Option Int64)
    (weight : Option UInt64) : Prop :=
  (c.put now k v ttl weight).value.1 = true ∧ c.contains now k = true

instance (c : Cache V) (now : Int64) (k : Fingerprint) (v : V) (ttl : Option Int64)
    (weight : Option UInt64) : Decidable (c.Replaces now k v ttl weight) :=
  inferInstanceAs (Decidable (_ ∧ _))

end Cache

/-- **What is counted beside a cache**: look-ups and stores, those of them that are not served,
stores that take the place of an entry, and entries that are there when everything is dropped. -/
structure Ledger where
  gets : Nat := 0
  puts : Nat := 0
  bypassedGets : Nat := 0
  bypassedPuts : Nat := 0
  replaced : Nat := 0
  cleared : Nat := 0
deriving DecidableEq

/-- Count a request to a cache. -/
def Ledger.book (b : Ledger) (c : Cache V) (now : Int64) : CacheRequest V → Ledger
  | .get k =>
    { b with gets := b.gets + 1, bypassedGets := b.bypassedGets + if c.serves k then 0 else 1 }
  | .put k v ttl weight =>
    { b with
      puts := b.puts + 1
      bypassedPuts := b.bypassedPuts + if c.serves k then 0 else 1
      replaced := b.replaced + if c.Replaces now k v ttl weight then 1 else 0 }
  | .clear => { b with cleared := b.cleared + c.size }
  | _ => b

/-- Count the requests to a cache, one after the other. -/
def Cache.ledger (c : Cache V) (b : Ledger) : List (Int64 × CacheRequest V) → Ledger
  | [] => b
  | q :: rs => (c.serve q.1 q.2).2.ledger (b.book c q.1 q.2) rs

/-- **The counters of a cache with `n` entries add up**: a value that was stored is there, or it
left in one of five ways; a look-up finds a value or none, or it is not served; a value is stored or
too heavy, or its store is not served. -/
structure Ledger.Balances (b : Ledger) (s : CacheStats) (n : Nat) : Prop where
  sets : s.sets = n + s.evictions + s.expirations + s.invalidations + b.replaced + b.cleared
  gets : b.gets = s.hits + s.misses + b.bypassedGets
  puts : b.puts = s.sets + s.rejected + b.bypassedPuts
  bypasses : s.bypasses = b.bypassedGets + b.bypassedPuts

/-! ## The number of slots -/

namespace Cache

variable {c : Cache V} {o : CacheOptions} {g : V → UInt64} {l : List (Slot V)} {s : CacheStats}
  {k : Fingerprint} {e : CacheEntry V} {now : Int64}

theorem length_live_add_expired (now : Int64) (l : List (Slot V)) :
    (l.filter (Slot.isLive now)).length + expired now l = l.length := by
  simpa [expired, List.countP_eq_length_filter] using
    (List.length_eq_countP_add_countP (Slot.isLive now) (l := l)).symm

theorem length_without_of_mem (hl : (l.map Prod.fst).Nodup) (hm : (k, e) ∈ l) :
    (without k l).length + 1 = l.length := (perm_without hl hm).length_eq.symm

theorem Shows.contains_iff (h : c.Shows o g l s) :
    c.contains now k = true ↔ ∃ e, (k, e) ∈ l.filter (Slot.isLive now) := by
  simp only [h.contains_eq, Option.any_eq_true, lookup_eq_some_iff h.nodup, List.mem_filter]

/-- A key that has an entry is taken out for one that is stored, and no other is. -/
theorem Shows.length_without (h : c.Shows o g l s) (now : Int64) (k : Fingerprint) :
    (without k (l.filter (Slot.isLive now))).length + (if c.contains now k then 1 else 0) =
      (l.filter (Slot.isLive now)).length := by
  have hnodup : ((l.filter (Slot.isLive now)).map Prod.fst).Nodup := (h.purge now).2.nodup
  split
  · next hc =>
    obtain ⟨e, hm⟩ := h.contains_iff.1 hc
    exact length_without_of_mem hnodup hm
  · next hc =>
    rw [without_eq_self, Nat.add_zero]
    intro hk
    obtain ⟨⟨a, e⟩, hm, rfl⟩ := List.mem_map.1 hk
    exact hc (h.contains_iff.2 ⟨e, hm⟩)

end Cache

/-! ## One request -/

namespace Ledger.Balances

open Cache

variable {c : Cache V} {o : CacheOptions} {g : V → UInt64} {l : List (Slot V)} {s : CacheStats}
  {b : Ledger}

theorem get (h : b.Balances s l.length) (hc : c.Shows o g l s) (now : Int64) (k : Fingerprint) :
    ∃ l' s', (c.get now k).value.2.Shows o g l' s' ∧
      (b.book c now (.get k)).Balances s' l'.length := by
  obtain ⟨hsets, hgets, hputs, hbypasses⟩ := h
  have hlive := length_live_add_expired now l
  cases hb : o.enabled && k.cacheable with
  | false =>
    refine ⟨_, _, (hc.get_of_bypass now hb).2, ?_⟩
    rw [book, hc.serves_eq, hb, if_neg Bool.false_ne_true]
    constructor <;> dsimp only <;> omega
  | true =>
    rw [book, hc.serves_eq, hb, if_pos rfl]
    -- What has come to its end goes from the entries to the expirations before the look-up.
    cases hk : (l.filter (Slot.isLive now)).lookup k with
    | none =>
      refine ⟨_, _, (hc.get_of_none hb hk).2, ?_⟩
      constructor <;> dsimp only <;> omega
    | some e =>
      have hp := (hc.purge now).2
      have hwithout := length_without_of_mem hp.nodup ((lookup_eq_some_iff hp.nodup).1 hk)
      refine ⟨_, _, (hc.get_of_some hb hk).2, ?_⟩
      constructor <;> dsimp only [List.length_cons] <;> omega

theorem put (h : b.Balances s l.length) (hc : c.Shows o g l s) (now : Int64) (k : Fingerprint)
    (v : V) (ttl : Option Int64) (weight : Option UInt64) :
    ∃ l' s', (c.put now k v ttl weight).value.2.Shows o g l' s' ∧
      (b.book c now (.put k v ttl weight)).Balances s' l'.length := by
  obtain ⟨hsets, hgets, hputs, hbypasses⟩ := h
  have hlive := length_live_add_expired now l
  have hrefused : (c.put now k v ttl weight).value.1 = false →
      ¬ c.Replaces now k v ttl weight := fun hfalse hr => by
    rw [hr.1] at hfalse
    exact Bool.noConfusion hfalse
  cases hb : o.enabled && k.cacheable with
  | false =>
    obtain ⟨hfalse, hshows⟩ := hc.put_of_bypass now v ttl weight hb
    refine ⟨_, _, hshows, ?_⟩
    rw [book, hc.serves_eq, hb, if_neg Bool.false_ne_true, if_neg (hrefused hfalse)]
    constructor <;> dsimp only <;> omega
  | true =>
    rw [book, hc.serves_eq, hb, if_pos rfl]
    by_cases hw : 0 < o.maxWeight ∧ o.maxWeight < weight.getD (g v)
    · obtain ⟨hfalse, hshows⟩ := hc.put_of_heavy now ttl hb hw
      refine ⟨_, _, hshows, ?_⟩
      rw [if_neg (hrefused hfalse)]
      constructor <;> dsimp only <;> omega
    · obtain ⟨htrue, hshows⟩ := hc.put now ttl hb hw
      refine ⟨_, _, hshows, ?_⟩
      have hreplaces : c.Replaces now k v ttl weight ↔ c.contains now k = true :=
        and_iff_right htrue
      simp only [hreplaces]
      -- One slot may be taken out for the new one, and some before and after it comes in.
      have hout := hc.length_without now k
      have hfitted := (Shows.fitted_sublist o (weight.getD (g v))
        (without k (l.filter (Slot.isLive now)))).length_le
      have hshed := (shed_sublist (crowded o) (placed o k ⟨v, weight.getD (g v),
        deadlineOf now (ttl.getD o.defaultTtl)⟩ (l.filter (Slot.isLive now)))).length_le
      have hplaced : (placed o k ⟨v, weight.getD (g v), deadlineOf now (ttl.getD o.defaultTtl)⟩
          (l.filter (Slot.isLive now))).length = (fitted o (weight.getD (g v))
          (without k (l.filter (Slot.isLive now)))).length + 1 := rfl
      constructor <;> dsimp only <;> omega

theorem invalidate (h : b.Balances s l.length) (hc : c.Shows o g l s) (k : Fingerprint) :
    ∃ l' s', (c.invalidate k).2.Shows o g l' s' ∧ b.Balances s' l'.length := by
  obtain ⟨hsets, hgets, hputs, hbypasses⟩ := h
  cases hk : l.lookup k with
  | none =>
    rw [hc.invalidate_of_none hk]
    exact ⟨l, s, hc, hsets, hgets, hputs, hbypasses⟩
  | some e =>
    have hwithout := length_without_of_mem hc.nodup ((lookup_eq_some_iff hc.nodup).1 hk)
    refine ⟨_, _, (hc.invalidate_of_some hk).2, ?_⟩
    constructor <;> dsimp only <;> omega

theorem sweep (h : b.Balances s l.length) (hc : c.Shows o g l s) (now : Int64) :
    ∃ l' s', (c.sweep now).value.2.Shows o g l' s' ∧ b.Balances s' l'.length := by
  obtain ⟨hsets, hgets, hputs, hbypasses⟩ := h
  have hlive := length_live_add_expired now l
  refine ⟨_, _, (hc.purge now).2, ?_⟩
  constructor <;> dsimp only <;> omega

theorem makeRoom (h : b.Balances s l.length) (hc : c.Shows o g l s) (now : Int64) (w : UInt64) :
    ∃ l' s', (c.makeRoom now w).value.2.Shows o g l' s' ∧ b.Balances s' l'.length := by
  obtain ⟨hsets, hgets, hputs, hbypasses⟩ := h
  have hlive := length_live_add_expired now l
  have hfitted := (Shows.fitted_sublist o w (l.filter (Slot.isLive now))).length_le
  refine ⟨_, _, (hc.makeRoom now w).2, ?_⟩
  constructor <;> dsimp only <;> omega

/-- **A request keeps the counters so.** -/
theorem serve (h : b.Balances s l.length) (hc : c.Shows o g l s) (now : Int64)
    (r : CacheRequest V) :
    ∃ l' s', (c.serve now r).2.Shows o g l' s' ∧ (b.book c now r).Balances s' l'.length := by
  cases r with
  | get k => exact h.get hc now k
  | put k v ttl weight => exact h.put hc now k v ttl weight
  | invalidate k => exact h.invalidate hc k
  | contains k => exact ⟨l, s, hc, h⟩
  | clear =>
    obtain ⟨hsets, hgets, hputs, hbypasses⟩ := h
    refine ⟨[], s, hc.clear, ?_, hgets, hputs, hbypasses⟩
    rw [book, hc.size_eq]
    dsimp only [List.length_nil]
    omega
  | sweep => exact h.sweep hc now
  | room w => exact h.makeRoom hc now w
  | size => exact ⟨l, s, hc, h⟩

/-- So does every sequence of requests. -/
theorem after (h : b.Balances s l.length) (hc : c.Shows o g l s)
    (rs : List (Int64 × CacheRequest V)) :
    ∃ l' s', (c.after rs).Shows o g l' s' ∧ (c.ledger b rs).Balances s' l'.length := by
  induction rs generalizing c l s b with
  | nil => exact ⟨l, s, hc, h⟩
  | cons q rs ih =>
    obtain ⟨l', s', hc', h'⟩ := h.serve hc q.1 q.2
    exact ih h' hc'

end Ledger.Balances

namespace Cache

/-- **The counters of a cache add up** after every sequence of requests, whatever the clock reads,
and after every program. What a sweep answers is by how much it raises the number of entries that
came to their end, and what making room answers is by how much it raises the number of those that
were dropped for it. -/
theorem counters_conserve (o : CacheOptions) (g : V → UInt64) :
    (∀ rs, let c := (new o g).after rs
      ((new o g).ledger { } rs).Balances c.stats c.size ∧
      (∀ now, (c.sweep now).value.2.stats.expirations =
        c.stats.expirations + (c.sweep now).value.1) ∧
      ∀ now w, (c.makeRoom now w).value.2.stats.evictions =
        c.stats.evictions + (c.makeRoom now w).value.1) ∧
    ∀ t ps, let c := (Timed.runAll ⟨new o g, t⟩ ps).value.2.cache
      c = (new o g).after (Timed.calls ⟨new o g, t⟩ ps) ∧
      ((new o g).ledger { } (Timed.calls ⟨new o g, t⟩ ps)).Balances c.stats c.size := by
  have hnew : ({ } : Ledger).Balances { } ([] : List (Slot V)).length := ⟨rfl, rfl, rfl, rfl⟩
  constructor
  · intro rs c
    obtain ⟨l, s, hc, h⟩ := hnew.after (Shows.new o g) rs
    refine ⟨?_, fun now => ?_, fun now w => ?_⟩
    · rwa [hc.stats, hc.size_eq]
    · obtain ⟨hanswer, hswept⟩ := hc.purge now
      rw [sweep, hanswer, hswept.stats, hc.stats]
    · obtain ⟨hanswer, hroom⟩ := hc.makeRoom now w
      rw [hanswer, hroom.stats, hc.stats]
  · intro t ps c
    have hrun : c = (new o g).after (Timed.calls ⟨new o g, t⟩ ps) :=
      Timed.runAll_after_calls ⟨new o g, t⟩ ps
    obtain ⟨l, s, hc, h⟩ := hnew.after (Shows.new o g) (Timed.calls ⟨new o g, t⟩ ps)
    refine ⟨hrun, ?_⟩
    rwa [hrun, hc.stats, hc.size_eq]

end Cache

end MemoFlow
