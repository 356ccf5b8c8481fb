import MemoFlow.Proofs.Cache.Shelf

/-!
# Programs as sequences of requests

A program on a cache may run other programs inside of it: while it computes a missing value, or as
one transaction. The states that are met on the way are those of plain sequences of requests.

* `Timed.Meets`: the states before, between and after the operations of a program and of the
  programs inside of it;
* `Cache.after`: a cache after a sequence of requests;
* `Timed.callsOf`, `Timed.calls`, `Timed.runAll_after_calls`: the requests that a program makes;
* **`Timed.Meets.eq_after`**: every state that is met is one after a sequence of requests;
* `Cache.Shows.Fate`, **`Cache.Shows.serve`**: what becomes of the slots in a request;
* `Cache.Shows.reached`: a cache that holds slots goes on to do so.
-/

namespace MemoFlow

variable {V : Type}

namespace Cache

/-- A cache after requests, each with its reading of the clock. -/
def after (c : Cache V) (rs : List (Int64 × CacheRequest V)) : Cache V :=
  rs.foldl (fun c q => (c.serve q.1 q.2).2) c

theorem after_cons (c : Cache V) (q : Int64 × CacheRequest V)
    (rs : List (Int64 × CacheRequest V)) : c.after (q :: rs) = (c.serve q.1 q.2).2.after rs := rfl

theorem after_append (c : Cache V) (rs qs : List (Int64 × CacheRequest V)) :
    c.after (rs ++ qs) = (c.after rs).after qs :=
  List.foldl_append

end Cache

namespace Timed

/-- **The states that a program meets**, also inside of a computation or a transaction. -/
inductive Meets : Timed V → List (CacheStep V) → Timed V → Prop where
  /-- The state before the first operation, or at the end. -/
  | here (s : Timed V) (ps : List (CacheStep V)) : Meets s ps s
  /-- A state after the first operation. -/
  | later {s t : Timed V} {p : CacheStep V} {ps : List (CacheStep V)}
    (h : Meets (run s p).value.2 ps t) : Meets s (p :: ps) t
  /-- A state inside of the computation of a missing value. -/
  | compute {s t : Timed V} {k : Fingerprint} {ttl : Option Int64} {inner ps : List (CacheStep V)}
    {result : Except Thrown V} (hk : (s.cache.get s.now k).value.1 = none)
    (h : Meets { s with cache := (s.cache.get s.now k).value.2 } inner t) :
    Meets s (.compute k ttl inner result :: ps) t
  /-- A state inside of a transaction. -/
  | transact {s t : Timed V} {inner ps : List (CacheStep V)} (h : Meets s inner t) :
    Meets s (.transact inner :: ps) t

/-- The state after a computation: the look-up, the program when nothing was found, and the store of
its value unless it threw. -/
theorem run_compute_cache (s : Timed V) (k : Fingerprint) (ttl : Option Int64)
    (inner : List (CacheStep V)) (result : Except Thrown V) :
    (run s (.compute k ttl inner result)).value.2.cache =
      match (s.cache.get s.now k).value.1 with
      | some _ => (s.cache.get s.now k).value.2
      | none =>
        let t := (runAll { s with cache := (s.cache.get s.now k).value.2 } inner).value.2
        match result with
        | .error _ => t.cache
        | .ok v => (t.cache.put t.now k v ttl none).value.2 := by
  rw [run]
  simp only [Told.value_bind]
  cases (s.cache.get s.now k).value.1 with
  | some v => rfl
  | none => cases result <;> rfl

mutual

/-- **The requests that an operation makes**, each with its reading of the clock: a computation
looks its key up and, when nothing was found, runs its program and stores the value, unless the
program threw. -/
def callsOf (s : Timed V) : CacheStep V → List (Int64 × CacheRequest V)
  | .get k => [(s.now, .get k)]
  | .put k v ttl weight => [(s.now, .put k v ttl weight)]
  | .invalidate k => [(s.now, .invalidate k)]
  | .contains k => [(s.now, .contains k)]
  | .clear => [(s.now, .clear)]
  | .sweep => [(s.now, .sweep)]
  | .room w => [(s.now, .room w)]
  | .size => [(s.now, .size)]
  | .advance _ => []
  | .stats => []
  | .options => []
  | .compute k ttl inner result =>
    let t : Timed V := { s with cache := (s.cache.get s.now k).value.2 }
    (s.now, .get k) :: match (s.cache.get s.now k).value.1 with
      | some _ => []
      | none => calls t inner ++ match result with
        | .error _ => []
        | .ok v => [((runAll t inner).value.2.now, .put k v ttl none)]
  | .transact inner => calls s inner

/-- The requests that a program makes. -/
def calls (s : Timed V) : List (CacheStep V) → List (Int64 × CacheRequest V)
  | [] => []
  | p :: ps => callsOf s p ++ calls (run s p).value.2 ps

end

mutual

/-- **An operation is the sequence of its requests**, whatever programs it runs. -/
theorem run_after_callsOf (s : Timed V) (p : CacheStep V) :
    (run s p).value.2.cache = s.cache.after (callsOf s p) := by
  cases p with
  | compute k ttl inner result =>
    have hr := runAll_after_calls { s with cache := (s.cache.get s.now k).value.2 } inner
    rw [run_compute_cache]
    simp only [callsOf, Cache.after_cons]
    cases (s.cache.get s.now k).value.1 with
    | some v => rfl
    | none =>
      cases result with
      | error t =>
        rw [List.append_nil]
        exact hr
      | ok v =>
        simp only [Cache.after_cons, Cache.after_append]
        exact congrArg (fun c => (Cache.put c _ k v ttl none).value.2) hr
  | transact inner =>
    rw [callsOf]
    exact runAll_after_calls s inner
  | _ => rfl

/-- A program is the sequence of its requests. -/
theorem runAll_after_calls (s : Timed V) (ps : List (CacheStep V)) :
    (runAll s ps).value.2.cache = s.cache.after (calls s ps) := by
  cases ps with
  | nil => rfl
  | cons p ps =>
    rw [calls, Cache.after_append, ← run_after_callsOf s p]
    exact runAll_after_calls (run s p).value.2 ps

end

/-- **Every state that a program meets** is one after a sequence of requests. -/
theorem Meets.eq_after {s t : Timed V} {ps : List (CacheStep V)} (h : Meets s ps t) :
    ∃ rs, t.cache = s.cache.after rs := by
  induction h with
  | here s ps => exact ⟨[], rfl⟩
  | @later s t p ps h ih =>
    obtain ⟨qs, hq⟩ := ih
    exact ⟨callsOf s p ++ qs, by rw [Cache.after_append, ← run_after_callsOf s p, hq]⟩
  | @compute s t k _ _ _ _ _ _ ih =>
    obtain ⟨rs, hr⟩ := ih
    exact ⟨(s.now, .get k) :: rs, hr⟩
  | transact _ ih => exact ih

end Timed

/-! ## Slots in a request -/

namespace Cache.Shows

variable {c : Cache V} {o : CacheOptions} {g : V → UInt64} {l : List (Slot V)} {s : CacheStats}

/-- **What becomes of the slots `l` in a request**: some of them stay, perhaps in another order, or
a new one takes its place in front of some of them. -/
inductive Fate (o : CacheOptions) (l : List (Slot V)) : List (Slot V) → Prop where
  /-- Some stay. -/
  | stay {r l' : List (Slot V)} (hr : r.Sublist l) (hl : l'.Perm r) : Fate o l l'
  /-- A new one is stored. -/
  | store {r : List (Slot V)} {k : Fingerprint} {e : CacheEntry V} (hr : r.Sublist l)
    (hk : Stores o k e.weight) : Fate o l (shed (crowded o) (placed o k e r))

/-- **A request leaves a cache that holds slots**, some of those before it and at most a new one. -/
theorem serve (h : c.Shows o g l s) (now : Int64) (r : CacheRequest V) :
    ∃ l' s', (c.serve now r).2.Shows o g l' s' ∧ Fate o l l' := by
  have hlive : (l.filter (Slot.isLive now)).Sublist l := List.filter_sublist
  cases r with
  | get k =>
    cases hb : o.enabled && k.cacheable with
    | false => exact ⟨_, _, (h.get_of_bypass now hb).2, .stay (.refl l) (.refl l)⟩
    | true =>
      cases hk : (l.filter (Slot.isLive now)).lookup k with
      | none => exact ⟨_, _, (h.get_of_none hb hk).2, .stay hlive (.refl _)⟩
      | some e =>
        have hp := (h.purge now).2
        have hm := (lookup_eq_some_iff hp.nodup).1 hk
        exact ⟨_, _, (h.get_of_some hb hk).2, .stay hlive (perm_without hp.nodup hm).symm⟩
  | put k v ttl weight =>
    cases hb : o.enabled && k.cacheable with
    | false => exact ⟨_, _, (h.put_of_bypass now v ttl weight hb).2, .stay (.refl l) (.refl l)⟩
    | true =>
      by_cases hw : 0 < o.maxWeight ∧ o.maxWeight < weight.getD (g v)
      · exact ⟨_, _, (h.put_of_heavy now ttl hb hw).2, .stay hlive (.refl _)⟩
      · exact ⟨_, _, (h.put now ttl hb hw).2, .store hlive ⟨hb, hw⟩⟩
  | invalidate k =>
    cases hk : l.lookup k with
    | none =>
      refine ⟨l, s, ?_, .stay (.refl l) (.refl l)⟩
      show (c.invalidate k).2.Shows o g l s
      rwa [h.invalidate_of_none hk]
    | some e =>
      exact ⟨_, _, (h.invalidate_of_some hk).2, .stay List.filter_sublist (.refl _)⟩
  | contains k => exact ⟨l, s, h, .stay (.refl l) (.refl l)⟩
  | clear => exact ⟨[], s, h.clear, .stay (List.nil_sublist l) (.refl [])⟩
  | sweep => exact ⟨_, _, (h.purge now).2, .stay hlive (.refl _)⟩
  | room w =>
    exact ⟨_, _, (h.makeRoom now w).2, .stay ((fitted_sublist o w _).trans hlive) (.refl _)⟩
  | size => exact ⟨l, s, h, .stay (.refl l) (.refl l)⟩

/-- So does every sequence of requests. -/
theorem reached (h : c.Shows o g l s) (rs : List (Int64 × CacheRequest V)) :
    ∃ l' s', (c.after rs).Shows o g l' s' := by
  induction rs generalizing c l s with
  | nil => exact ⟨l, s, h⟩
  | cons q rs ih =>
    obtain ⟨l', s', h', -⟩ := h.serve q.1 q.2
    exact ih h'

end Cache.Shows

end MemoFlow
