import MemoFlow.Proofs.Cache.Handles

/-!
# Caches stay intact

The cache with handles answers every request as the one without them. So what is known of the slots
of a cache is known of its handles too.

* `Cache.pushed`, `Cache.store_of_absent`: a new entry, and the store of a value in its parts;
* `LinkedCache.Tied.place?`, `LinkedCache.Tied.put`, `LinkedCache.Tied.get`: the operations;
* **`LinkedCache.Tied.serve`**: a request is answered as without handles;
* **`LinkedCache.Intact`**, `LinkedCache.Halts`, `LinkedCache.Answers`: what is to hold of a cache;
* **`LinkedCache.intact`**: it holds of every cache that requests lead to.
-/

namespace MemoFlow

variable {V : Type}

namespace Cache

variable {c : Cache V} {k : Fingerprint}

/-- A cache with a new entry in front. -/
def pushed (c : Cache V) (k : Fingerprint) (e : CacheEntry V) : Cache V :=
  { c with
    entries := (k, e) :: c.entries
    recency := k :: c.recency
    expiry := match e.deadline with
      | some d => insertDeadline d k c.expiry
      | none => c.expiry
    weight := c.weight + e.weight
    stats := { c.stats with sets := c.stats.sets + 1 } }

/-- Storing a value under a key without an entry. -/
theorem store_of_absent (hk : c.entry? k = none) (now : Int64) (v : V) (ttl : Int64) (w : UInt64) :
    (c.store now k v ttl w).value =
      (trimUpTo ((c.makeRoomFor w).value.2.pushed k ⟨v, w, deadlineOf now ttl⟩).size
        ((c.makeRoomFor w).value.2.pushed k ⟨v, w, deadlineOf now ttl⟩)).value := by
  simp only [store, hk, Told.value_bind]
  rfl

/-- Storing a value under a key with an entry. -/
theorem store_of_entry {e : CacheEntry V} (hk : c.entry? k = some e)
    (hu : Cache.entry? (c.unlink k e) k = none) (now : Int64) (v : V) (ttl : Int64) (w : UInt64) :
    c.store now k v ttl w = (c.unlink k e).store now k v ttl w := by
  rw [store, store]
  simp only [hk, hu]

end Cache

namespace LinkedCache

variable {c d : LinkedCache V} {o : CacheOptions} {g : V → UInt64} {l : List (Slot V)}
  {s : CacheStats} {k : Fingerprint} {now : Int64}

/-! ## The operations -/

theorem map_snd_insertDeadline (h : Nat) (d : Int64) (k : Fingerprint)
    (r : List (Nat × Int64 × Fingerprint)) :
    (insertDeadline h d k r).map Prod.snd = Cache.insertDeadline d k (r.map Prod.snd) := by
  induction r with
  | nil => rfl
  | cons a r ih =>
    obtain ⟨n, e, j⟩ := a
    simp only [insertDeadline, Cache.insertDeadline, List.map_cons]
    split
    · rfl
    · rw [List.map_cons, ih]

theorem perm_insertDeadline (h : Nat) (d : Int64) (k : Fingerprint)
    (r : List (Nat × Int64 × Fingerprint)) : (insertDeadline h d k r).Perm ((h, d, k) :: r) := by
  induction r with
  | nil => exact .refl _
  | cons a r ih =>
    rw [insertDeadline]
    split
    · exact .refl _
    · exact (ih.cons _).trans (.swap _ _ _)

/-- What a new entry makes of the cache without handles. -/
theorem plain_add (hk : c.entry? k = none) (e : CacheEntry V) :
    (c.add k e).plain = c.plain.pushed k e := by
  simp only [plain, Cache.pushed, add, hk, List.map_cons]
  cases e.deadline with
  | none => rfl
  | some d => simp only [map_snd_insertDeadline]

theorem entry?_of_notMem (hs : c.plain.Shows o g l s) (hk : k ∉ l.map Prod.fst) :
    c.entry? k = none := by
  cases he : c.entry? k with
  | none => rfl
  | some e => exact absurd (Cache.fst_mem (Tied.slot_of_lookup hs he)) hk

theorem contains_plain (c : LinkedCache V) (now : Int64) (k : Fingerprint) :
    c.plain.contains now k = c.contains now k := by
  rw [Cache.contains, LinkedCache.contains, entry?_plain]
  cases c.entry? k with
  | none => rfl
  | some e => rfl

/-- An answer is made of what is tracked. -/
theorem Tracks.map {α β : Type} {r : Option (α × LinkedCache V)} {q : α × Cache V} (f : α → β)
    (h : Tracks r q) : Tracks (r.map fun p => (f p.1, p.2)) (f q.1, q.2) := by
  obtain ⟨d, rfl, hplain, htied⟩ := h
  exact ⟨d, rfl, hplain, htied⟩

namespace Tied

theorem add (h : c.Tied) (hk : c.entry? k = none) (e : CacheEntry V) : (c.add k e).Tied := by
  have hplace : ∀ p ∈ c.recency, p.1 ≠ c.fresh := fun p hp => Nat.ne_of_lt (h.freshPlace p hp)
  have halarm : ∀ p ∈ c.expiry, p.1 ≠ c.fresh := fun p hp => Nat.ne_of_lt (h.freshAlarm p hp)
  have hentries : (c.add k e).entries = (k, ⟨e, c.fresh, c.fresh⟩) :: c.entries := by
    simp only [LinkedCache.add, hk]
  have hexpiry : (c.add k e).expiry.Perm
      ((e.deadline.map fun d => (c.fresh, d, k)).toList ++ c.expiry) := by
    simp only [LinkedCache.add]
    cases e.deadline with
    | none => exact .refl _
    | some d => exact perm_insertDeadline _ d k _
  refine ⟨?_, ?_, ?_, ?_, ?_, ?_⟩
  · refine List.nodup_cons.2 ⟨fun hm => ?_, h.nodes⟩
    obtain ⟨p, hp, hpf⟩ := List.mem_map.1 hm
    exact hplace p hp hpf
  · rw [(hexpiry.map _).nodup_iff]
    cases e.deadline with
    | none => exact h.alarms
    | some d =>
      refine List.nodup_cons.2 ⟨fun hm => ?_, h.alarms⟩
      obtain ⟨p, hp, hpf⟩ := List.mem_map.1 hm
      exact halarm p hp hpf
  · intro j f hm
    rw [hentries] at hm
    obtain hm | hm := List.mem_cons.1 hm
    · cases hm
      exact List.mem_cons_self
    · exact List.mem_cons_of_mem _ (h.place j f hm)
  · intro j f x hm hx
    rw [hexpiry.mem_iff]
    rw [hentries] at hm
    obtain hm | hm := List.mem_cons.1 hm
    · cases hm
      have hx : e.deadline = some x := hx
      simp [hx]
    · exact List.mem_append_right _ (h.alarm j f x hm hx)
  · intro p hp
    obtain rfl | hp := List.mem_cons.1 hp
    · exact Nat.lt_succ_self _
    · exact Nat.lt_succ_of_lt (h.freshPlace p hp)
  · intro p hp
    obtain hp | hp := List.mem_append.1 (hexpiry.mem_iff.1 hp)
    · obtain ⟨x, -, rfl⟩ := by simpa using hp
      exact Nat.lt_succ_self _
    · exact Nat.lt_succ_of_lt (h.freshAlarm p hp)

/-- Dropping the entry of a key that is to be stored. -/
theorem drop? (h : c.Tied) (hs : c.plain.Shows o g l s) (k : Fingerprint) :
    ∃ d, c.drop? k = some d ∧ d.Tied ∧ d.plain.Shows o g (Cache.without k l) s ∧
      ∀ now v ttl w, c.plain.store now k v ttl w = d.plain.store now k v ttl w := by
  cases hk : c.entry? k with
  | none =>
    have hl : k ∉ l.map Prod.fst := by
      intro hm
      obtain ⟨⟨j, e⟩, he, rfl⟩ := List.mem_map.1 hm
      have := hs.entry?_eq_some_iff.2 he
      simp [entry?_plain, hk] at this
    refine ⟨c, by simp only [LinkedCache.drop?, hk], h, ?_, fun now v ttl w => rfl⟩
    rw [Cache.without_eq_self hl]
    exact hs
  | some e =>
    have hm := mem_of_lookup hk
    have hplain := h.plain_unlinked hs hm
    have hshows := hs.unlink (slot_of_lookup hs hk)
    have hgone : Cache.entry? (c.plain.unlink k e.toCacheEntry) k = none := by
      rw [hshows.entry?_eq_lookup, List.lookup_eq_none_iff]
      intro p hp
      have : p.1 ≠ k := by simpa using (List.mem_filter.1 hp).2
      simpa using this.symm
    refine ⟨c.unlinked k e, ?_, h.unlinked hm, hplain ▸ hshows, fun now v ttl w => ?_⟩
    · simp only [LinkedCache.drop?, hk, h.unlink?_eq hm]
    · rw [hplain]
      exact Cache.store_of_entry (by rw [entry?_plain, hk]; rfl) hgone now v ttl w

/-- **A new entry takes its place**, and what is too much is dropped. -/
theorem place? (h : c.Tied) (hs : c.plain.Shows o g l s) (now : Int64) (k : Fingerprint) (v : V)
    (ttl : Int64) (w : UInt64) :
    ∃ d r f, c.drop? k = some d ∧ Drains (roomTurn w) d ∧ c.place? now k v ttl w = some r ∧
      Drains trimTurn r ∧ r.trim = some f ∧ f.plain = (c.plain.store now k v ttl w).value ∧
      f.Tied := by
  obtain ⟨d, hd, hdtied, hdshows, hstore⟩ := h.drop? hs k
  obtain ⟨hroom, e, he, heplain, hetied⟩ := hdtied.makeRoomFor hdshows w
  have heshows := heplain ▸ (hdshows.makeRoomFor w).2
  have hd' : k ∉ (Cache.without k l).map Prod.fst := by
    rw [Cache.map_fst_without]
    simp
  have he' : k ∉ (Cache.fitted o w (Cache.without k l)).map Prod.fst := fun hm =>
    hd' (((Cache.Shows.fitted_sublist o w _).map _).mem hm)
  have habsent : e.entry? k = none := entry?_of_notMem heshows he'
  have hplace : c.place? now k v ttl w = some (e.add k ⟨v, w, Cache.deadlineOf now ttl⟩) := by
    simp only [LinkedCache.place?, hd, Option.bind_eq_bind, Option.bind_some, he]
    rfl
  have hrplain := plain_add habsent ⟨v, w, Cache.deadlineOf now ttl⟩
  have hrshows := heshows.push he' v w (Cache.deadlineOf now ttl)
  obtain ⟨htrim, f, hf, hfplain, hftied⟩ :=
    (hetied.add habsent _).trim (by rw [hrplain]; exact hrshows)
  refine ⟨d, _, f, hd, hroom, hplace, htrim, hf, ?_, hftied⟩
  have hdabsent : d.plain.entry? k = none := by
    rw [entry?_plain, entry?_of_notMem hdshows hd']
    rfl
  rw [hfplain, hstore, Cache.store_of_absent hdabsent, hrplain, heplain]

/-- **Storing a value.** -/
theorem put (h : c.Tied) (hs : c.plain.Shows o g l s) (now : Int64) (k : Fingerprint) (v : V)
    (ttl : Option Int64) (weight : Option UInt64) :
    Tracks (c.put now k v ttl weight) (c.plain.put now k v ttl weight).value := by
  have hserves : c.plain.serves k = c.serves k := rfl
  cases hb : c.serves k with
  | false =>
    simp only [LinkedCache.put, Cache.put, hserves, hb]
    exact ⟨_, rfl, rfl, h.count _⟩
  | true =>
    obtain ⟨-, d, hd, hdplain, hdtied⟩ := h.purge hs now
    have hdshows := hdplain ▸ (hs.purge now).2
    have hweight : d.plain.options.maxWeight = d.options.maxWeight := rfl
    have hweigh : d.plain.weigh = d.weigh := rfl
    simp only [LinkedCache.put, Cache.put, hserves, hb, if_true, hd, Told.value_bind, ← hdplain,
      Option.bind_eq_bind, Option.bind_some, hweight, hweigh]
    split
    · exact ⟨_, rfl, rfl, hdtied.count _⟩
    · obtain ⟨-, r, f, -, -, hr, -, hf, hfplain, hftied⟩ := hdtied.place? hdshows now k v
        (ttl.getD d.options.defaultTtl) (weight.getD (d.weigh v))
      simp only [hr, hf, Option.bind_some]
      exact ⟨f, rfl, hfplain, hftied⟩

/-- The node of a found entry moves to the front. -/
theorem touch {e : LinkedEntry V} (h : c.Tied) (hm : (k, e) ∈ c.entries) :
    ({ c with recency := (e.place, k) :: c.recency.filter fun p => p.1 ≠ e.place } :
      LinkedCache V).Tied := by
  have hp := h.place k e hm
  refine ⟨?_, h.alarms, ?_, h.alarm, ?_, h.freshAlarm⟩
  · refine List.nodup_cons.2 ⟨?_, h.nodes.sublist (List.filter_sublist.map _)⟩
    simp
  · intro j f hj
    by_cases hne : j = k
    · subst hne
      have hsame : f.place = e.place ∨ f.place ≠ e.place := em _
      obtain hf | hf := hsame
      · rw [hf]
        exact List.mem_cons_self
      · exact List.mem_cons_of_mem _ (List.mem_filter.2 ⟨h.place j f hj, by simpa using hf⟩)
    · exact List.mem_cons_of_mem _
        (List.mem_filter.2 ⟨h.place j f hj, by simpa using h.place_ne hm hj hne⟩)
  · intro p hq
    obtain rfl | hq := List.mem_cons.1 hq
    · exact h.freshPlace _ hp
    · exact h.freshPlace p (List.mem_filter.1 hq).1

/-- **Looking up a key.** -/
theorem get (h : c.Tied) (hs : c.plain.Shows o g l s) (now : Int64) (k : Fingerprint) :
    Tracks (c.get now k) (c.plain.get now k).value := by
  have hserves : c.plain.serves k = c.serves k := rfl
  cases hb : c.serves k with
  | false =>
    simp only [LinkedCache.get, Cache.get, hserves, hb]
    exact ⟨_, rfl, rfl, h.count _⟩
  | true =>
    obtain ⟨-, d, hd, hdplain, hdtied⟩ := h.purge hs now
    have hdshows := hdplain ▸ (hs.purge now).2
    simp only [LinkedCache.get, Cache.get, hserves, hb, if_true, hd, Told.value_bind, ← hdplain,
      entry?_plain, Option.bind_eq_bind, Option.bind_some]
    cases hk : d.entry? k with
    | none => exact ⟨_, rfl, rfl, hdtied.count _⟩
    | some e =>
      have hm := mem_of_lookup hk
      have hplace := hdtied.place k e hm
      have hfront := map_snd_detached hdtied.nodes (nodup_keys hdshows) hplace
      simp only [detach?_of_mem hdtied.nodes hplace, Option.bind_some]
      refine ⟨_, rfl, ?_, (hdtied.touch hm).count fun s => { s with hits := s.hits + 1 }⟩
      simp only [plain, List.map_cons, hfront]
      rfl

theorem invalidate (h : c.Tied) (hs : c.plain.Shows o g l s) (k : Fingerprint) :
    Tracks (c.invalidate k) (c.plain.invalidate k) := by
  rw [LinkedCache.invalidate, Cache.invalidate, entry?_plain]
  cases hk : c.entry? k with
  | none => exact ⟨c, rfl, rfl, h⟩
  | some e =>
    have hm := mem_of_lookup hk
    simp only [Option.map_some, h.unlink?_eq hm, ← h.plain_unlinked hs hm]
    exact ⟨_, rfl, rfl, (h.unlinked hm).count _⟩

theorem makeRoom (h : c.Tied) (hs : c.plain.Shows o g l s) (now : Int64) (w : UInt64) :
    Tracks (c.makeRoom now w) (c.plain.makeRoom now w).value := by
  obtain ⟨-, d, hd, hdplain, hdtied⟩ := h.purge hs now
  have hdshows := hdplain ▸ (hs.purge now).2
  simp only [LinkedCache.makeRoom, Cache.makeRoom, hd, Told.value_bind, ← hdplain,
    Option.bind_eq_bind, Option.bind_some]
  exact (hdtied.makeRoomFor hdshows w).2

theorem clear (c : LinkedCache V) : c.clear.Tied := by
  constructor <;> simp [LinkedCache.clear]

/-- **A request** is answered as without handles. -/
theorem serve (h : c.Tied) (hs : c.plain.Shows o g l s) (now : Int64) (r : CacheRequest V) :
    Tracks (c.serve now r) (c.plain.serve now r) := by
  cases r with
  | get k => exact (h.get hs now k).map _
  | put k v ttl weight => exact (h.put hs now k v ttl weight).map _
  | invalidate k => exact (h.invalidate hs k).map _
  | contains k => exact ⟨c, by rw [LinkedCache.serve, ← contains_plain]; rfl, rfl, h⟩
  | clear => exact ⟨c.clear, rfl, rfl, .clear c⟩
  | sweep => exact (h.purge hs now).2.map _
  | room w => exact (h.makeRoom hs now w).map _
  | size => exact ⟨c, by rw [LinkedCache.serve, ← size_plain]; rfl, rfl, h⟩

end Tied

/-! ## Intact caches -/

/-- **A cache is intact**: its three structures are of the same keys, its handles point at them, and
its entries are those that it may have. -/
structure Intact (c : LinkedCache V) : Prop where
  /-- A key has one entry. -/
  keys : (c.entries.map Prod.fst).Nodup
  /-- The order of use lists each key once, and nothing else. -/
  recency : (c.recency.map Prod.snd).Perm (c.entries.map Prod.fst)
  /-- A handle is that of one node. -/
  nodes : (c.recency.map Prod.fst).Nodup
  /-- A handle is that of one deadline. -/
  alarms : (c.expiry.map Prod.fst).Nodup
  /-- The first handle of an entry points at its key. -/
  place : ∀ k e, (k, e) ∈ c.entries → (e.place, k) ∈ c.recency
  /-- The second one points at its deadline, with its key. -/
  alarm : ∀ k e d, (k, e) ∈ c.entries → e.deadline = some d → (e.alarm, d, k) ∈ c.expiry
  /-- The index of deadlines has one node for each entry with a deadline, and no other. -/
  expiry : (c.expiry.map Prod.snd).Perm
    (c.entries.filterMap fun p => p.2.deadline.map fun d => (d, p.1))
  /-- Only keys that can be cached have an entry. -/
  cacheable : ∀ k e, (k, e) ∈ c.entries → k.cacheable = true
  /-- There are not too many entries. -/
  bounded : 0 < c.options.maxEntries → c.size ≤ c.options.maxEntries.toNat
  /-- The weight is the sum of the weights, in 64 bits. -/
  weight : c.weight = UInt64.ofNat (c.entries.map fun p => p.2.weight.toNat).sum

/-- **The loops of a cache come to their end.** None of their turns comes upon a key without an
entry or upon a handle that points nowhere. -/
structure Halts (c : LinkedCache V) : Prop where
  /-- Dropping what has come to its end. -/
  purge : ∀ now, Drains (purgeTurn now) c
  /-- Making room. -/
  room : ∀ now n d w, c.purge now = some (n, d) → Drains (roomTurn w) d
  /-- Making room for a value, where the one before it is gone. -/
  replace : ∀ now n d k e w, c.purge now = some (n, d) → d.drop? k = some e →
    Drains (roomTurn w) e
  /-- Dropping what is too much beside a new value. -/
  trim : ∀ now n d k v ttl w e, c.purge now = some (n, d) → d.place? now k v ttl w = some e →
    Drains trimTurn e

/-- **Every request is answered**, and as it is without handles. -/
def Answers (c : LinkedCache V) : Prop :=
  ∀ now r, ∃ d, c.serve now r = some ((c.plain.serve now r).1, d) ∧
    d.plain = (c.plain.serve now r).2

/-- What holds of the slots of every cache. -/
structure Allowed (o : CacheOptions) (l : List (Slot V)) : Prop where
  cacheable : ∀ p ∈ l, p.1.cacheable = true
  bounded : 0 < o.maxEntries → l.length ≤ o.maxEntries.toNat

theorem Allowed.fate {l' : List (Slot V)} (h : Allowed o l) (hf : Cache.Shows.Fate o l l') :
    Allowed o l' := by
  cases hf with
  | @stay r l' hr hl =>
    refine ⟨fun p hp => h.cacheable p (hr.mem (hl.mem_iff.1 hp)), fun hm => ?_⟩
    have := hr.length_le
    have := hl.length_eq
    have := h.bounded hm
    omega
  | @store r k e hr hk =>
    have hsub : ∀ p ∈ shed (Cache.crowded o) (Cache.placed o k e r), p.1.cacheable = true := by
      intro p hp
      obtain rfl | hp := List.mem_cons.1 ((shed_sublist _ _).mem hp)
      · have := hk.1
        simp only [Bool.and_eq_true] at this
        exact this.2
      · have hw := (Cache.Shows.fitted_sublist o _ _).mem hp
        exact h.cacheable p (hr.mem (List.mem_filter.1 hw).1)
    refine ⟨hsub, fun hm => ?_⟩
    obtain hfits | hnil := shed_fits (Cache.crowded o) (Cache.placed o k e r)
    · simp only [Cache.crowded, decide_eq_false_iff_not, not_and, Nat.not_lt] at hfits
      exact hfits hm
    · rw [hnil]
      exact Nat.zero_le _

theorem intact_of_shows (h : c.Tied) (hs : c.plain.Shows o g l s) (hl : Allowed o l) :
    c.Intact where
  keys := by
    have hkeys : c.entries.map Prod.fst = c.plain.entries.map Prod.fst := by simp [plain]
    rw [hkeys, (hs.entries.map _).nodup_iff]
    exact hs.nodup
  recency := by
    have hkeys : c.entries.map Prod.fst = c.plain.entries.map Prod.fst := by simp [plain]
    have hrecency : c.recency.map Prod.snd = l.map Prod.fst := hs.recency
    rw [hkeys, hrecency]
    exact (hs.entries.map _).symm
  nodes := h.nodes
  alarms := h.alarms
  place := h.place
  alarm := h.alarm
  expiry := by
    have hdeadlines : (c.entries.filterMap fun p => p.2.deadline.map fun d => (d, p.1)) =
        Cache.deadlines c.plain.entries := by
      simp [Cache.deadlines, plain, List.filterMap_map]
    rw [hdeadlines]
    exact hs.expiry.trans (hs.entries.filterMap _).symm
  cacheable := by
    intro k e hm
    have hp : (k, e.toCacheEntry) ∈ c.plain.entries := List.mem_map.2 ⟨_, hm, rfl⟩
    exact hl.cacheable _ (hs.entries.mem_iff.1 hp)
  bounded := by
    have ho : c.options = o := hs.options
    rw [ho, ← size_plain, hs.size_eq]
    exact hl.bounded
  weight := by
    have hload : (c.entries.map fun p => p.2.weight.toNat).sum = Cache.load c.plain.entries := by
      simp [Cache.load, plain, List.map_map, Function.comp_def]
    rw [hload, Cache.load_perm hs.entries]
    exact hs.weight

theorem halts_of_shows (h : c.Tied) (hs : c.plain.Shows o g l s) : c.Halts := by
  have hpurged : ∀ now n d, c.purge now = some (n, d) → d.Tied ∧
      d.plain.Shows o g (l.filter (Slot.isLive now))
        { s with expirations := s.expirations + Cache.expired now l } := by
    intro now n d hd
    obtain ⟨-, e, he, hplain, htied⟩ := h.purge hs now
    obtain ⟨-, rfl⟩ : (c.plain.purge now).value.1 = n ∧ e = d := by simpa [hd] using he.symm
    exact ⟨htied, hplain ▸ (hs.purge now).2⟩
  refine ⟨fun now => (h.purge hs now).1, ?_, ?_, ?_⟩
  · intro now n d w hd
    obtain ⟨htied, hshows⟩ := hpurged now n d hd
    exact (htied.makeRoomFor hshows w).1
  · intro now n d k e w hd he
    obtain ⟨htied, hshows⟩ := hpurged now n d hd
    obtain ⟨f, hf, hftied, hfshows, -⟩ := htied.drop? hshows k
    obtain rfl : f = e := by simpa [he] using hf.symm
    exact (hftied.makeRoomFor hfshows w).1
  · intro now n d k v ttl w e hd he
    obtain ⟨htied, hshows⟩ := hpurged now n d hd
    obtain ⟨-, r, -, -, -, hr, hdrain, -⟩ := htied.place? hshows now k v ttl w
    obtain rfl : r = e := by simpa [he] using hr.symm
    exact hdrain

/-- The cache without handles holds slots that it may have, and the handles belong to them. -/
theorem Reached.shows (h : Reached o g c) :
    c.Tied ∧ ∃ l s, c.plain.Shows o g l s ∧ Allowed o l := by
  induction h with
  | new => exact ⟨.new o g, [], { }, .new o g, by simp, by simp⟩
  | @serve c d now r a h hs ih =>
    obtain ⟨htied, l, s, hshows, hl⟩ := ih
    obtain ⟨e, he, hplain, hetied⟩ := htied.serve hshows now r
    obtain ⟨-, rfl⟩ : (c.plain.serve now r).1 = a ∧ e = d := by simpa [hs] using he.symm
    obtain ⟨l', s', hshows', hf⟩ := hshows.serve now r
    exact ⟨hetied, l', s', hplain ▸ hshows', hl.fate hf⟩

/-- Requests without handles have their like with handles. -/
theorem Reached.after (h : Reached o g c) (rs : List (Int64 × CacheRequest V)) :
    ∃ d, Reached o g d ∧ d.plain = c.plain.after rs := by
  induction rs generalizing c with
  | nil => exact ⟨c, h, rfl⟩
  | cons q rs ih =>
    obtain ⟨htied, l, s, hshows, -⟩ := h.shows
    obtain ⟨d, hd, hplain, -⟩ := htied.serve hshows q.1 q.2
    obtain ⟨e, he, heplain⟩ := ih (h.serve hd)
    exact ⟨e, he, by rw [heplain, hplain, Cache.after_cons]⟩

/-- **Every cache that requests lead to is intact**, its loops come to their end, and it answers
every request as it does without handles. The states that programs meet, also inside of computations
and transactions, are the caches that requests lead to. -/
theorem intact (o : CacheOptions) (g : V → UInt64) :
    (∀ c, Reached o g c → c.Intact ∧ c.Halts ∧ c.Answers) ∧
      ∀ t ps s, Timed.Meets ⟨Cache.new o g, t⟩ ps s → ∃ c, Reached o g c ∧ c.plain = s.cache := by
  constructor
  · intro c h
    obtain ⟨htied, l, s, hshows, hl⟩ := h.shows
    refine ⟨intact_of_shows htied hshows hl, halts_of_shows htied hshows, fun now r => ?_⟩
    obtain ⟨d, hd, hplain, -⟩ := htied.serve hshows now r
    exact ⟨d, hd, hplain⟩
  · intro t ps s h
    obtain ⟨rs, hrs⟩ := h.eq_after
    obtain ⟨c, hc, hplain⟩ := (Reached.new (o := o) (g := g)).after rs
    exact ⟨c, hc, by rw [hplain, hrs]; rfl⟩

/-- A value is replaced, one comes to its end, and two are dropped, all before a missing value is
computed. -/
theorem intact_of_nested_stores :
    ∃ c : LinkedCache Nat, Reached { maxEntries := 2, maxWeight := 5 } (fun _ => 1) c ∧ c.Intact ∧
      c.Halts ∧ c.Answers ∧ c.recency.map Prod.snd = [⟨0, 4, true⟩] ∧ c.stats.expirations = 1 ∧
      c.stats.evictions = 2 := by
  obtain ⟨hall, hmeets⟩ := intact (V := Nat) { maxEntries := 2, maxWeight := 5 } fun _ => 1
  obtain ⟨c, hc, hplain⟩ := hmeets 0
    [.put ⟨0, 1, true⟩ 7 (some 10) (some 2), .put ⟨0, 1, true⟩ 8 none none,
      .put ⟨0, 2, true⟩ 9 (some 5) none, .advance 1,
      .compute ⟨0, 3, true⟩ none [.put ⟨0, 3, true⟩ 5 none none, .put ⟨0, 4, true⟩ 6 none (some 5)]
        (.ok 4)] _ (.later (.later (.later (.later (.compute rfl (.later (.later (.here _ _))))))))
  obtain ⟨hintact, hhalts, hanswers⟩ := hall c hc
  refine ⟨c, hc, hintact, hhalts, hanswers, ?_, ?_, ?_⟩
  · exact congrArg Cache.recency hplain
  · exact congrArg (fun d => d.stats.expirations) hplain
  · exact congrArg (fun d => d.stats.evictions) hplain

end LinkedCache

end MemoFlow
