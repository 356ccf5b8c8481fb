import MemoFlow.Proofs.Cache.Slots

/-!
# What a cache recalls

A look-up finds only what was stored under its key, and a cache without bounds and life times finds
all of it.

* `Cache.deadlineOf`, `Cache.placed`: the deadline of a new slot, and the slots after it is stored;
* `Cache.Shows.get_of_none`, `Cache.Shows.get_of_some`, **`Cache.Shows.put`**,
  `Cache.Shows.put_of_heavy`, `Cache.Shows.invalidate_of_some`, `Cache.Shows.clear`,
  `Cache.Shows.makeRoom`: the slots and the counters after each operation;
* `Cache.entry?_invalidate`: the entries when one key is dropped;
* `Cache.Holds`: a cache with some slots and counters;
* `Cache.Holds.get`, `Cache.Holds.put_told`, `Cache.Holds.put`: nothing comes into a cache but what
  is stored;
* `CacheOptions.unbounded`: settings under which nothing leaves;
* **`Cache.Holds.get_unbounded`**, `Cache.Holds.put_unbounded`: everything is found.
-/

/-! ## The operations of a cache on its slots -/

namespace MemoFlow.Cache

variable {V : Type}

/-- The deadline of a value that is stored now. -/
def deadlineOf (now ttl : Int64) : Option Int64 := if 0 < ttl then some (now + ttl) else none

/-- The slots when a new one has its place, before too many of them are dropped. -/
def placed (o : CacheOptions) (k : Fingerprint) (e : CacheEntry V) (l : List (Slot V)) :
    List (Slot V) := (k, e) :: fitted o e.weight (without k l)

namespace Shows

variable {c : Cache V} {o : CacheOptions} {g : V → UInt64} {l : List (Slot V)} {s : CacheStats}
  {k : Fingerprint} {e : CacheEntry V} {now : Int64}

theorem fitted_sublist (o : CacheOptions) (w : UInt64) (l : List (Slot V)) :
    (fitted o w l).Sublist l := by
  rw [fitted]
  split
  · exact .refl l
  · exact shed_sublist _ l

theorem serves_eq (h : c.Shows o g l s) : c.serves k = (o.enabled && k.cacheable) := by
  rw [Cache.serves, h.options]

/-! ## Requests that are not served -/

theorem get_of_bypass (now : Int64) (h : c.Shows o g l s)
    (hb : (o.enabled && k.cacheable) = false) :
    (c.get now k).value.1 = none ∧
      (c.get now k).value.2.Shows o g l { s with bypasses := s.bypasses + 1 } := by
  rw [Cache.get, h.serves_eq, hb]
  exact ⟨rfl, h.count fun s => { s with bypasses := s.bypasses + 1 }⟩

theorem put_of_bypass (now : Int64) (v : V) (ttl : Option Int64) (weight : Option UInt64)
    (h : c.Shows o g l s) (hb : (o.enabled && k.cacheable) = false) :
    (c.put now k v ttl weight).value.1 = false ∧
      (c.put now k v ttl weight).value.2.Shows o g l { s with bypasses := s.bypasses + 1 } := by
  rw [Cache.put, h.serves_eq, hb]
  exact ⟨rfl, h.count fun s => { s with bypasses := s.bypasses + 1 }⟩

/-! ## Look-ups -/

theorem get_of_none (h : c.Shows o g l s) (hb : (o.enabled && k.cacheable) = true)
    (hk : (l.filter (Slot.isLive now)).lookup k = none) :
    (c.get now k).value.1 = none ∧
      (c.get now k).value.2.Shows o g (l.filter (Slot.isLive now))
        { s with expirations := s.expirations + expired now l, misses := s.misses + 1 } := by
  have hp := (h.purge now).2
  rw [Cache.get, h.serves_eq, hb, if_pos rfl]
  simp only [Told.value_bind, hp.entry?_eq_lookup, hk]
  exact ⟨rfl, hp.count fun s => { s with misses := s.misses + 1 }⟩

theorem get_of_some (h : c.Shows o g l s) (hb : (o.enabled && k.cacheable) = true)
    (hk : (l.filter (Slot.isLive now)).lookup k = some e) :
    (c.get now k).value.1 = some e.value ∧
      (c.get now k).value.2.Shows o g ((k, e) :: without k (l.filter (Slot.isLive now)))
        { s with expirations := s.expirations + expired now l, hits := s.hits + 1 } := by
  have hp := (h.purge now).2
  rw [Cache.get, h.serves_eq, hb, if_pos rfl]
  simp only [Told.value_bind, hp.entry?_eq_lookup, hk]
  exact ⟨rfl, (hp.touch ((lookup_eq_some_iff hp.nodup).1 hk)).count fun s =>
    { s with hits := s.hits + 1 }⟩

/-! ## Stores -/

theorem forget (h : c.Shows o g l s) (k : Fingerprint) :
    (match c.entry? k with
      | some e => c.unlink k e
      | none => c).Shows o g (without k l) s := by
  cases hk : c.entry? k with
  | some e => exact h.unlink (h.entry?_eq_some_iff.1 hk)
  | none =>
    have hn : k ∉ l.map Prod.fst := by
      intro hm
      obtain ⟨⟨a, e⟩, hp, rfl⟩ := List.mem_map.1 hm
      simp [h.entry?_eq_some_iff.2 hp] at hk
    rwa [without_eq_self hn]

theorem store {v : V} {ttl : Int64} {w : UInt64} (h : c.Shows o g l s) :
    (c.store now k v ttl w).value.Shows o g
      (shed (crowded o) (placed o k ⟨v, w, deadlineOf now ttl⟩ l))
      { s with
        evictions := s.evictions + ((without k l).length - (fitted o w (without k l)).length) +
          ((placed o k ⟨v, w, deadlineOf now ttl⟩ l).length -
            (shed (crowded o) (placed o k ⟨v, w, deadlineOf now ttl⟩ l)).length)
        sets := s.sets + 1 } := by
  have hr := (h.forget k).makeRoomFor w
  have hk : k ∉ (fitted o w (without k l)).map Prod.fst := by
    intro hm
    obtain ⟨p, hp, rfl⟩ := List.mem_map.1 hm
    simpa [without] using (fitted_sublist o w _).mem hp
  have ht := hr.2.push hk v w (deadlineOf now ttl)
  exact ht.trimUpTo (Nat.le_of_eq ht.size_eq.symm)

theorem put_of_heavy {v : V} (now : Int64) (ttl : Option Int64) {weight : Option UInt64}
    (h : c.Shows o g l s) (hb : (o.enabled && k.cacheable) = true)
    (hw : 0 < o.maxWeight ∧ o.maxWeight < weight.getD (g v)) :
    (c.put now k v ttl weight).value.1 = false ∧
      (c.put now k v ttl weight).value.2.Shows o g (l.filter (Slot.isLive now))
        { s with expirations := s.expirations + expired now l, rejected := s.rejected + 1 } := by
  have hp := (h.purge now).2
  rw [Cache.put, h.serves_eq, hb, if_pos rfl]
  simp only [Told.value_bind, hp.options, hp.weigh, if_pos hw]
  exact ⟨rfl, hp.count fun s => { s with rejected := s.rejected + 1 }⟩

theorem put {v : V} (now : Int64) (ttl : Option Int64) {weight : Option UInt64}
    (h : c.Shows o g l s) (hb : (o.enabled && k.cacheable) = true)
    (hw : ¬ (0 < o.maxWeight ∧ o.maxWeight < weight.getD (g v))) :
    (c.put now k v ttl weight).value.1 = true ∧
      (c.put now k v ttl weight).value.2.Shows o g
        (shed (crowded o) (placed o k ⟨v, weight.getD (g v),
          deadlineOf now (ttl.getD o.defaultTtl)⟩ (l.filter (Slot.isLive now))))
        { s with
          expirations := s.expirations + expired now l
          evictions := s.evictions +
            ((without k (l.filter (Slot.isLive now))).length -
              (fitted o (weight.getD (g v)) (without k (l.filter (Slot.isLive now)))).length) +
            ((placed o k ⟨v, weight.getD (g v), deadlineOf now (ttl.getD o.defaultTtl)⟩
                (l.filter (Slot.isLive now))).length -
              (shed (crowded o) (placed o k ⟨v, weight.getD (g v),
                deadlineOf now (ttl.getD o.defaultTtl)⟩ (l.filter (Slot.isLive now)))).length)
          sets := s.sets + 1 } := by
  have hp := (h.purge now).2
  rw [Cache.put, h.serves_eq, hb, if_pos rfl]
  simp only [Told.value_bind, hp.options, hp.weigh, if_neg hw]
  exact ⟨rfl, hp.store⟩

/-! ## The other operations -/

theorem invalidate_of_none (h : c.Shows o g l s) (hk : l.lookup k = none) :
    c.invalidate k = (false, c) := by
  rw [Cache.invalidate, h.entry?_eq_lookup, hk]

theorem invalidate_of_some (h : c.Shows o g l s) (hk : l.lookup k = some e) :
    (c.invalidate k).1 = true ∧
      (c.invalidate k).2.Shows o g (without k l)
        { s with invalidations := s.invalidations + 1 } := by
  rw [Cache.invalidate, h.entry?_eq_lookup, hk]
  exact ⟨rfl, (h.unlink ((lookup_eq_some_iff h.nodup).1 hk)).count fun s =>
    { s with invalidations := s.invalidations + 1 }⟩

theorem contains_eq (h : c.Shows o g l s) :
    c.contains now k = (l.lookup k).any fun e => Slot.isLive now (k, e) := by
  rw [Cache.contains, h.entry?_eq_lookup]
  cases l.lookup k with
  | none => rfl
  | some e => cases hd : e.deadline <;> simp [Slot.isLive, hd]

theorem clear (h : c.Shows o g l s) : c.clear.Shows o g [] s :=
  ⟨h.options, h.weigh, h.stats, .nil, .nil, rfl, .nil, .nil, rfl⟩

theorem makeRoom (now : Int64) (w : UInt64) (h : c.Shows o g l s) :
    (c.makeRoom now w).value.1 = (l.filter (Slot.isLive now)).length -
        (fitted o w (l.filter (Slot.isLive now))).length ∧
      (c.makeRoom now w).value.2.Shows o g (fitted o w (l.filter (Slot.isLive now)))
        { s with
          expirations := s.expirations + expired now l
          evictions := s.evictions + ((l.filter (Slot.isLive now)).length -
            (fitted o w (l.filter (Slot.isLive now))).length) } :=
  ((h.purge now).2).makeRoomFor w

end Shows

end MemoFlow.Cache

/-! ## What a cache recalls -/

namespace MemoFlow

variable {V : Type}

namespace Cache

/-- A cache holds the slots `l`, whatever its counters are. -/
def Holds (c : Cache V) (o : CacheOptions) (g : V → UInt64) (l : List (Slot V)) : Prop :=
  ∃ s, c.Shows o g l s

/-- What cannot be identified is not stored. -/
theorem cacheable_of_put {c : Cache V} {now : Int64} {k : Fingerprint} {v : V} {ttl : Option Int64}
    {weight : Option UInt64} (h : (c.put now k v ttl weight).value.1 = true) :
    k.cacheable = true := by
  rw [Cache.put] at h
  split at h
  · next hs => exact (Bool.and_eq_true_iff.1 hs).2
  · cases h

theorem mem_without {k : Fingerprint} {p : Slot V} {l : List (Slot V)} :
    p ∈ without k l ↔ p ∈ l ∧ p.1 ≠ k := by
  simp [without]

theorem lookup_without (j k : Fingerprint) (l : List (Slot V)) :
    (without k l).lookup j = if j = k then none else l.lookup j := by
  induction l with
  | nil => simp [without]
  | cons p l ih =>
    by_cases hp : p.1 = k
    · have hw : without k (p :: l) = without k l := List.filter_cons_of_neg (by simpa using hp)
      rw [hw, ih, List.lookup_cons, hp]
      by_cases hj : j = k
      · simp [hj]
      · rw [if_neg hj, if_neg hj, beq_false_of_ne hj]
    · rw [without_cons_of_ne hp, List.lookup_cons, List.lookup_cons, ih]
      by_cases hj : j = k
      · have hne : j ≠ p.1 := fun he => hp (he.symm.trans hj)
        simp [hj, beq_false_of_ne (hj ▸ hne)]
      · simp [hj]

/-- **The entries when a key is dropped**: those of the other keys. -/
theorem entry?_invalidate (c : Cache V) (j k : Fingerprint) :
    Cache.entry? (c.invalidate k).2 j = if j = k then none else c.entry? j := by
  unfold invalidate
  cases hk : c.entry? k with
  | none =>
    show c.entry? j = _
    split
    · next hj => rw [hj, hk]
    · rfl
  | some e => exact lookup_without j k c.entries

namespace Holds

variable {c : Cache V} {o : CacheOptions} {g : V → UInt64} {l : List (Slot V)}

theorem new (o : CacheOptions) (g : V → UInt64) : (Cache.new o g).Holds o g [] := ⟨_, .new o g⟩

theorem lookup_eq_some_iff (h : c.Holds o g l) {k : Fingerprint} {e : CacheEntry V} :
    l.lookup k = some e ↔ (k, e) ∈ l :=
  let ⟨_, h⟩ := h
  Cache.lookup_eq_some_iff h.nodup

theorem entry?_eq_some_iff (h : c.Holds o g l) {k : Fingerprint} {e : CacheEntry V} :
    c.entry? k = some e ↔ (k, e) ∈ l :=
  let ⟨_, h⟩ := h
  h.entry?_eq_some_iff

/-- Dropping a key brings nothing in. -/
theorem invalidate (h : c.Holds o g l) (k : Fingerprint) :
    ∃ l', (c.invalidate k).2.Holds o g l' ∧ ∀ p ∈ l', p ∈ l := by
  obtain ⟨s, h⟩ := h
  cases hk : l.lookup k with
  | none => exact ⟨l, ⟨s, by rwa [h.invalidate_of_none hk]⟩, fun _ => id⟩
  | some e => exact ⟨_, ⟨_, (h.invalidate_of_some hk).2⟩, fun p hp => (mem_without.1 hp).1⟩

theorem clear (h : c.Holds o g l) : c.clear.Holds o g [] :=
  let ⟨_, h⟩ := h
  ⟨_, h.clear⟩

/-- A key that is not there stays away when nothing of it is brought in. -/
theorem entry?_eq_none {c' : Cache V} {l' : List (Slot V)} {k : Fingerprint} (h : c.Holds o g l)
    (h' : c'.Holds o g l') (hl : ∀ p ∈ l', p ∈ l ∨ p.1 ≠ k) (hn : c.entry? k = none) :
    Cache.entry? c' k = none := by
  refine Option.eq_none_iff_forall_ne_some.2 fun e he => ?_
  obtain hm | hne := hl _ (h'.entry?_eq_some_iff.1 he)
  · exact nomatch hn.symm.trans (h.entry?_eq_some_iff.2 hm)
  · exact hne rfl

/-- A look-up of what cannot be identified leaves the slots as they are. -/
theorem get_of_not_cacheable (h : c.Holds o g l) (now : Int64) {k : Fingerprint}
    (hk : k.cacheable = false) :
    (c.get now k).value.1 = none ∧ (c.get now k).value.2.Holds o g l := by
  obtain ⟨s, h⟩ := h
  obtain ⟨h1, h2⟩ := h.get_of_bypass (k := k) now (by rw [hk, Bool.and_false])
  exact ⟨h1, _, h2⟩

/-- So does a store of it. -/
theorem put_of_not_cacheable (h : c.Holds o g l) (now : Int64) {k : Fingerprint} (v : V)
    (ttl : Option Int64) (weight : Option UInt64) (hk : k.cacheable = false) :
    (c.put now k v ttl weight).value.2.Holds o g l := by
  obtain ⟨s, h⟩ := h
  exact ⟨_, (h.put_of_bypass (k := k) now v ttl weight (by rw [hk, Bool.and_false])).2⟩

/-- **A look-up brings nothing in**, and finds the value of a slot of its key. -/
theorem get (h : c.Holds o g l) (now : Int64) (k : Fingerprint) :
    ∃ l', (c.get now k).value.2.Holds o g l' ∧ (∀ p ∈ l', p ∈ l) ∧
      ∀ v, (c.get now k).value.1 = some v →
        k.cacheable = true ∧ ∃ e, (k, e) ∈ l ∧ e.value = v := by
  obtain ⟨s, h⟩ := h
  cases hb : o.enabled && k.cacheable with
  | false =>
    obtain ⟨h1, h2⟩ := h.get_of_bypass now hb
    exact ⟨l, ⟨_, h2⟩, fun p hp => hp, fun v hv => by simp [h1] at hv⟩
  | true =>
    cases hk : (l.filter (Slot.isLive now)).lookup k with
    | none =>
      obtain ⟨h1, h2⟩ := h.get_of_none hb hk
      exact ⟨_, ⟨_, h2⟩, fun p hp => List.mem_of_mem_filter hp, fun v hv => by simp [h1] at hv⟩
    | some e =>
      obtain ⟨h1, h2⟩ := h.get_of_some hb hk
      have hm : (k, e) ∈ l :=
        List.mem_of_mem_filter ((Cache.lookup_eq_some_iff (h.purge now).2.nodup).1 hk)
      refine ⟨_, ⟨_, h2⟩, fun p hp => ?_, fun v hv =>
        ⟨(Bool.and_eq_true_iff.1 hb).2, e, hm, ?_⟩⟩
      · rcases List.mem_cons.1 hp with rfl | hp
        · exact hm
        · exact List.mem_of_mem_filter (mem_without.1 hp).1
      · rw [h1] at hv
        exact Option.some.inj hv

/-- **A value that is stored takes the place of its key**; one that is not changes nothing but what
has come to its end. -/
theorem put_told (h : c.Holds o g l) (now : Int64) (k : Fingerprint) (v : V) (ttl : Option Int64)
    (weight : Option UInt64) :
    ∃ l', (c.put now k v ttl weight).value.2.Holds o g l' ∧ ∀ p ∈ l',
      p ∈ l ∧ ((c.put now k v ttl weight).value.1 = true → p.1 ≠ k) ∨
        (c.put now k v ttl weight).value.1 = true ∧ p.1 = k ∧ p.2.value = v := by
  obtain ⟨s, h⟩ := h
  cases hb : o.enabled && k.cacheable with
  | false =>
    obtain ⟨h1, h2⟩ := h.put_of_bypass now v ttl weight hb
    exact ⟨l, ⟨_, h2⟩, fun p hp => .inl ⟨hp, by simp [h1]⟩⟩
  | true =>
    by_cases hw : 0 < o.maxWeight ∧ o.maxWeight < weight.getD (g v)
    · obtain ⟨h1, h2⟩ := h.put_of_heavy now ttl hb hw
      exact ⟨_, ⟨_, h2⟩, fun p hp => .inl ⟨List.mem_of_mem_filter hp, by simp [h1]⟩⟩
    · obtain ⟨h1, h2⟩ := h.put now ttl hb hw
      refine ⟨_, ⟨_, h2⟩, fun p hp => ?_⟩
      rcases List.mem_cons.1 ((shed_sublist _ _).mem hp) with rfl | hp
      · exact .inr ⟨h1, rfl, rfl⟩
      · obtain ⟨hm, hne⟩ := mem_without.1 ((Shows.fitted_sublist _ _ _).mem hp)
        exact .inl ⟨List.mem_of_mem_filter hm, fun _ => hne⟩

/-- **A store brings in nothing but its value.** -/
theorem put (h : c.Holds o g l) (now : Int64) (k : Fingerprint) (v : V) (ttl : Option Int64)
    (weight : Option UInt64) :
    ∃ l', (c.put now k v ttl weight).value.2.Holds o g l' ∧
      ∀ p ∈ l', p ∈ l ∨ k.cacheable = true ∧ p.1 = k ∧ p.2.value = v := by
  obtain ⟨l', hl', hp⟩ := h.put_told now k v ttl weight
  exact ⟨l', hl', fun p hm =>
    (hp p hm).imp And.left fun h => ⟨cacheable_of_put h.1, h.2⟩⟩

end Holds

end Cache

/-! ## Caches without bounds -/

/-- Settings of a cache that nothing leaves. -/
def CacheOptions.unbounded : CacheOptions := { maxEntries := 0, maxWeight := 0, defaultTtl := 0 }

/-- A slot without a deadline. -/
def Slot.Lasts (p : Slot V) : Prop := p.2.deadline = none

namespace Cache

theorem filter_isLive_of_lasts (now : Int64) {l : List (Slot V)} (hl : ∀ p ∈ l, Slot.Lasts p) :
    l.filter (Slot.isLive now) = l :=
  List.filter_eq_self.2 fun p hp => by
    have hd : p.2.deadline = none := hl p hp
    simp [Slot.isLive, hd]

namespace Holds

variable {c : Cache V} {g : V → UInt64} {l : List (Slot V)} {k : Fingerprint}

/-- **A look-up without bounds** finds what is there and keeps all of it. -/
theorem get_unbounded (h : c.Holds .unbounded g l) (hl : ∀ p ∈ l, Slot.Lasts p) (now : Int64)
    (hk : k.cacheable = true) :
    (c.get now k).value.1 = (l.lookup k).map CacheEntry.value ∧
      ∃ l', (c.get now k).value.2.Holds .unbounded g l' ∧ ∀ p, p ∈ l' ↔ p ∈ l := by
  obtain ⟨s, h⟩ := h
  have hf := filter_isLive_of_lasts now hl
  have hb : (CacheOptions.unbounded.enabled && k.cacheable) = true := hk
  cases he : l.lookup k with
  | none =>
    obtain ⟨h1, h2⟩ := h.get_of_none hb (hf.symm ▸ he)
    rw [hf] at h2
    exact ⟨h1, l, ⟨_, h2⟩, fun p => Iff.rfl⟩
  | some e =>
    obtain ⟨h1, h2⟩ := h.get_of_some hb (hf.symm ▸ he)
    rw [hf] at h2
    exact ⟨h1, _, ⟨_, h2⟩, fun p =>
      (perm_without h.nodup ((Cache.lookup_eq_some_iff h.nodup).1 he)).mem_iff.symm⟩

/-- **A store without bounds** keeps all that is there under other keys. -/
theorem put_unbounded (h : c.Holds .unbounded g l) (hl : ∀ p ∈ l, Slot.Lasts p) (now : Int64)
    (hk : k.cacheable = true) (v : V) :
    ∃ e, e.value = v ∧ Slot.Lasts (k, e) ∧ (c.put now k v none none).value.1 = true ∧
      (c.put now k v none none).value.2.Holds .unbounded g ((k, e) :: without k l) := by
  obtain ⟨s, h⟩ := h
  have hf := filter_isLive_of_lasts now hl
  have hb : (CacheOptions.unbounded.enabled && k.cacheable) = true := hk
  have hw : ¬(0 < CacheOptions.unbounded.maxWeight ∧
      CacheOptions.unbounded.maxWeight < (none : Option UInt64).getD (g v)) := fun hw =>
    absurd hw.1 (by decide)
  obtain ⟨h1, h2⟩ := h.put now none hb hw
  have hc : ∀ r : List (Slot V), shed (crowded .unbounded) r = r := fun r =>
    shed_of_not (by simp [crowded, CacheOptions.unbounded])
  rw [hf, hc] at h2
  have hd : deadlineOf now CacheOptions.unbounded.defaultTtl = none := if_neg (by decide)
  exact ⟨⟨v, g v, deadlineOf now CacheOptions.unbounded.defaultTtl⟩, rfl, hd, h1, _, h2⟩

end Holds

end Cache

end MemoFlow
