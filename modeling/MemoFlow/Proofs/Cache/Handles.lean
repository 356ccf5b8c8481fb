import Mathlib.Data.List.Nodup
import MemoFlow.Proofs.Cache.Linked

/-!
# The handles of a cache point at their own keys

In every cache that requests lead to, each handle of an entry points at a node of the key of the
entry, and there are no other nodes. So every loop finds the entries it looks for, and it comes to
its end.

* `detach?_of_mem`, `map_snd_detached`: what is left when a node is taken out by its handle;
* `LinkedCache.Tied`, `LinkedCache.Tracks`: handles and nodes belong together; an outcome is that of
  the cache without handles;
* `LinkedCache.Tied.unlink?_eq`, `LinkedCache.Tied.evictColdest`: entries leave by their handles;
* `LinkedCache.Drains`: a loop comes to its end, and each of its turns takes one entry out;
* **`LinkedCache.Follows.loop`**: a loop that follows one without handles;
* `LinkedCache.Tied.purge`, `LinkedCache.Tied.makeRoomFor`, `LinkedCache.Tied.trim`: the loops.
-/

namespace MemoFlow

variable {V : Type}

/-! ## Nodes -/

section Nodes

variable {α : Type} {l : List (Nat × α)} {h : Nat} {a : α}

/-- The other nodes stay when a node is taken out. -/
theorem detach?_of_mem (hn : (l.map Prod.fst).Nodup) (hm : (h, a) ∈ l) :
    detach? h l = some (a, l.filter fun p => p.1 ≠ h) := by
  induction l with
  | nil => simp at hm
  | cons p r ih =>
    obtain ⟨n, b⟩ := p
    rw [List.map_cons, List.nodup_cons] at hn
    by_cases hnh : n = h
    · subst hnh
      have hr : (n, a) ∉ r := fun hr => hn.1 (List.mem_map.2 ⟨_, hr, rfl⟩)
      have hb : a = b := by simpa [hr] using hm
      have hkeep : r.filter (fun p => p.1 ≠ n) = r := by
        refine List.filter_eq_self.2 fun q hq => ?_
        have : q.1 ≠ n := fun e => hn.1 (List.mem_map.2 ⟨q, hq, e⟩)
        simpa using this
      rw [detach?, if_pos rfl, hb, List.filter_cons_of_neg (by simp), hkeep]
    · have hm : (h, a) ∈ r := by simpa [Ne.symm hnh] using hm
      rw [detach?, if_neg hnh, ih hn.2 hm, List.filter_cons_of_pos (by simpa using hnh)]
      rfl

/-- What the other nodes hold, when no two nodes hold the same. -/
theorem map_snd_detached [BEq α] [LawfulBEq α] (hn : (l.map Prod.fst).Nodup)
    (hs : (l.map Prod.snd).Nodup) (hm : (h, a) ∈ l) :
    (l.filter fun p => p.1 ≠ h).map Prod.snd = (l.map Prod.snd).erase a := by
  have hsame : ∀ p ∈ l, p.1 = h ↔ p.2 = a := by
    intro p hp
    constructor
    · intro e
      rw [List.inj_on_of_nodup_map hn hp hm e]
    · intro e
      rw [List.inj_on_of_nodup_map hs hp hm e]
  rw [hs.erase_eq_filter, List.filter_map]
  refine congrArg (List.map Prod.snd) (List.filter_congr fun p hp => ?_)
  rw [Bool.eq_iff_iff]
  simp [hsame p hp]

end Nodes

/-- The deadlines of slots of different keys are different nodes. -/
theorem Cache.nodup_deadlines {l : List (Slot V)} (hl : (l.map Prod.fst).Nodup) :
    (Cache.deadlines l).Nodup := by
  induction l with
  | nil => exact .nil
  | cons p r ih =>
    rw [List.map_cons, List.nodup_cons] at hl
    cases hd : p.2.deadline with
    | none =>
      rw [Cache.deadlines, List.filterMap_cons_none (by simp [hd])]
      exact ih hl.2
    | some d =>
      rw [Cache.deadlines, List.filterMap_cons_some (b := (d, p.1)) (by simp [hd])]
      refine List.nodup_cons.2 ⟨fun hm => ?_, ih hl.2⟩
      obtain ⟨e, he, -⟩ := Cache.mem_deadlines.1 hm
      exact hl.1 (Cache.fst_mem he)

namespace LinkedCache

/-! ## Handles and nodes -/

/-- **Handles and nodes belong together**: no two nodes have the same handle, the handles of an
entry are those of nodes that hold its key, and new handles are not in use. -/
structure Tied (c : LinkedCache V) : Prop where
  nodes : (c.recency.map Prod.fst).Nodup
  alarms : (c.expiry.map Prod.fst).Nodup
  place : ∀ k e, (k, e) ∈ c.entries → (e.place, k) ∈ c.recency
  alarm : ∀ k e d, (k, e) ∈ c.entries → e.deadline = some d → (e.alarm, d, k) ∈ c.expiry
  freshPlace : ∀ p ∈ c.recency, p.1 < c.fresh
  freshAlarm : ∀ p ∈ c.expiry, p.1 < c.fresh

/-- An outcome with handles **tracks** one without: it is there, and it is the same. -/
def Tracks {α : Type} (r : Option (α × LinkedCache V)) (q : α × Cache V) : Prop :=
  ∃ d, r = some (q.1, d) ∧ d.plain = q.2 ∧ d.Tied

/-- **A loop comes to its end**, and each turn takes one entry out. -/
inductive Drains (turn : LinkedCache V → Option (Removal (LinkedCache V))) :
    LinkedCache V → Prop where
  /-- No turn is left. -/
  | rest {c : LinkedCache V} (h : turn c = none) : Drains turn c
  /-- A turn takes one entry out. -/
  | gone {c d : LinkedCache V} (h : turn c = some (.gone d)) (hs : d.size + 1 = c.size)
    (hd : Drains turn d) : Drains turn c

variable {c d : LinkedCache V} {o : CacheOptions} {g : V → UInt64} {l : List (Slot V)}
  {s : CacheStats} {k : Fingerprint} {e : LinkedEntry V} {now : Int64}

theorem entry?_plain (c : LinkedCache V) (k : Fingerprint) :
    c.plain.entry? k = (c.entry? k).map LinkedEntry.toCacheEntry := by
  show (c.entries.map fun p => (p.1, p.2.toCacheEntry)).lookup k = (c.entries.lookup k).map _
  induction c.entries with
  | nil => rfl
  | cons p r ih =>
    rw [List.map_cons, List.lookup_cons, List.lookup_cons, ih]
    cases k == p.1 <;> rfl

theorem size_plain (c : LinkedCache V) : c.plain.size = c.size := List.length_map _

theorem mem_of_lookup (h : c.entry? k = some e) : (k, e) ∈ c.entries := by
  obtain ⟨l₁, l₂, hl, -⟩ := List.lookup_eq_some_iff.1 h
  rw [hl]
  simp

/-- No two nodes in the order of use hold the same key. -/
theorem nodup_keys (hs : c.plain.Shows o g l s) : (c.recency.map Prod.snd).Nodup := by
  have hkeys : c.recency.map Prod.snd = l.map Prod.fst := hs.recency
  rw [hkeys]
  exact hs.nodup

/-- An entry without handles has its handles in the cache with handles. -/
theorem entry?_of_plain {f : CacheEntry V} (h : c.plain.entry? k = some f) :
    ∃ e, c.entry? k = some e ∧ e.toCacheEntry = f := by
  rw [entry?_plain] at h
  exact Option.map_eq_some_iff.1 h

/-- A cache without the entry of a key and without its nodes. -/
def unlinked (c : LinkedCache V) (k : Fingerprint) (e : LinkedEntry V) : LinkedCache V :=
  { c with
    entries := c.entries.filter fun p => p.1 ≠ k
    recency := c.recency.filter fun p => p.1 ≠ e.place
    expiry := if e.deadline.isSome then c.expiry.filter fun p => p.1 ≠ e.alarm else c.expiry
    weight := c.weight - e.weight }

namespace Tied

theorem new (o : CacheOptions) (g : V → UInt64) : (LinkedCache.new o g).Tied := by
  constructor <;> simp [LinkedCache.new]

theorem count (h : c.Tied) (f : CacheStats → CacheStats) : (c.count f).Tied :=
  ⟨h.nodes, h.alarms, h.place, h.alarm, h.freshPlace, h.freshAlarm⟩

/-- Two entries with one node in the order of use are of one key. -/
theorem place_ne (h : c.Tied) {f : LinkedEntry V} {j : Fingerprint} (hm : (k, e) ∈ c.entries)
    (hj : (j, f) ∈ c.entries) (hne : j ≠ k) : f.place ≠ e.place := by
  intro he
  have := List.inj_on_of_nodup_map h.nodes (h.place j f hj) (h.place k e hm) he
  exact hne (congrArg Prod.snd this)

/-- Two entries with one node in the index of deadlines are of one key. -/
theorem alarm_ne (h : c.Tied) {f : LinkedEntry V} {j : Fingerprint} {x y : Int64}
    (hm : (k, e) ∈ c.entries) (hx : e.deadline = some x) (hj : (j, f) ∈ c.entries)
    (hy : f.deadline = some y) (hne : j ≠ k) : f.alarm ≠ e.alarm := by
  intro he
  have := List.inj_on_of_nodup_map h.alarms (h.alarm j f y hj hy) (h.alarm k e x hm hx) he
  exact hne (congrArg (fun p => p.2.2) this)

/-- **An entry leaves by its handles.** -/
theorem unlink?_eq (h : c.Tied) (hm : (k, e) ∈ c.entries) :
    c.unlink? k e = some (c.unlinked k e) := by
  have hplace := detach?_of_mem h.nodes (h.place k e hm)
  cases hd : e.deadline with
  | none =>
    simp only [LinkedCache.unlink?, hplace, hd]
    simp [unlinked, hd]
  | some x =>
    have halarm := detach?_of_mem h.alarms (h.alarm k e x hm hd)
    simp only [LinkedCache.unlink?, hplace, hd, halarm]
    simp [unlinked, hd]

/-- What stays is what stays when the nodes are searched for. -/
theorem plain_unlinked (h : c.Tied) (hs : c.plain.Shows o g l s) (hm : (k, e) ∈ c.entries) :
    (c.unlinked k e).plain = c.plain.unlink k e.toCacheEntry := by
  have hentries : (c.entries.filter fun p => p.1 ≠ k).map (fun p => (p.1, p.2.toCacheEntry)) =
      c.plain.entries.filter fun p => p.1 ≠ k := by
    rw [plain, List.filter_map]
    rfl
  have hrecency := map_snd_detached h.nodes (nodup_keys hs) (h.place k e hm)
  have hdeadlines : (c.expiry.map Prod.snd).Nodup :=
    hs.expiry.nodup_iff.2 (Cache.nodup_deadlines hs.nodup)
  cases hd : e.deadline with
  | none =>
    simp only [plain, unlinked, Cache.unlink, hd] at hentries ⊢
    rw [hentries, hrecency]
    rfl
  | some x =>
    have hexpiry := map_snd_detached h.alarms hdeadlines (h.alarm k e x hm hd)
    simp only [plain, unlinked, Cache.unlink, hd, Option.isSome_some, if_true] at hentries ⊢
    rw [hentries, hrecency, hexpiry]

/-- The other entries keep their nodes. -/
theorem unlinked (h : c.Tied) (hm : (k, e) ∈ c.entries) : (c.unlinked k e).Tied := by
  have hkept : ∀ j f, (j, f) ∈ (c.unlinked k e).entries → (j, f) ∈ c.entries ∧ j ≠ k := by
    intro j f hf
    simpa using List.mem_filter.1 hf
  have hexpiry : (c.unlinked k e).expiry.Sublist c.expiry := by
    rw [LinkedCache.unlinked]
    split
    · exact List.filter_sublist
    · exact .refl _
  have hrecency : (c.unlinked k e).recency.Sublist c.recency := List.filter_sublist
  refine ⟨h.nodes.sublist (hrecency.map _), h.alarms.sublist (hexpiry.map _), ?_, ?_, ?_, ?_⟩
  · intro j f hf
    obtain ⟨hf, hne⟩ := hkept j f hf
    exact List.mem_filter.2 ⟨h.place j f hf, by simpa using h.place_ne hm hf hne⟩
  · intro j f y hf hy
    obtain ⟨hf, hne⟩ := hkept j f hf
    have hmem := h.alarm j f y hf hy
    cases hx : e.deadline with
    | none => simpa [LinkedCache.unlinked, hx] using hmem
    | some x => simpa [LinkedCache.unlinked, hx, hmem] using h.alarm_ne hm hx hf hy hne
  · intro p hp
    exact h.freshPlace p (hrecency.mem hp)
  · intro p hp
    exact h.freshAlarm p (hexpiry.mem hp)

/-- The entry of a key is among the slots. -/
theorem slot_of_lookup (hs : c.plain.Shows o g l s) (hk : c.entry? k = some e) :
    (k, e.toCacheEntry) ∈ l := by
  rw [← hs.entry?_eq_some_iff, entry?_plain, hk]
  rfl

theorem size_unlinked (hs : c.plain.Shows o g l s) (h : c.Tied) (hk : c.entry? k = some e) :
    (c.unlinked k e).size + 1 = c.size := by
  have hm := slot_of_lookup hs hk
  have hu := (hs.unlink hm).size_eq
  have hl := (Cache.perm_without hs.nodup hm).length_eq
  rw [← h.plain_unlinked hs (mem_of_lookup hk), size_plain] at hu
  rw [hu, ← size_plain, hs.size_eq, hl]
  rfl

/-- **The entry used longest ago leaves.** -/
theorem evictColdest {p : Slot V} (h : c.Tied) (hs : c.plain.Shows o g (l ++ [p]) s) :
    ∃ d, c.evictColdest = .gone d ∧ d.size + 1 = c.size ∧ d.plain = c.plain.evictColdest.value ∧
      d.Tied := by
  have hlast : c.plain.recency.getLast? = some p.1 := by
    rw [hs.recency, List.map_append, List.map_singleton, List.getLast?_concat]
  have hentry : c.plain.entry? p.1 = some p.2 := hs.entry?_eq_some_iff.2 (by simp)
  obtain ⟨e, hk, he⟩ := entry?_of_plain hentry
  obtain ⟨⟨n, k⟩, hn, hnk⟩ : ∃ q, c.recency.getLast? = some q ∧ q.2 = p.1 := by
    rw [← Option.map_eq_some_iff, ← List.getLast?_map]
    exact hlast
  obtain rfl : k = p.1 := hnk
  have hm := mem_of_lookup hk
  refine ⟨(c.unlinked p.1 e).count fun s => { s with evictions := s.evictions + 1 }, ?_,
    size_unlinked hs h hk, ?_, (h.unlinked hm).count _⟩
  · simp only [LinkedCache.evictColdest, hn, hk, h.unlink?_eq hm]
    rfl
  · simp only [Cache.evictColdest, hlast, hentry, ← he, ← h.plain_unlinked hs hm]
    rfl

end Tied

/-! ## Loops -/

/-- **The turns of a loop follow a loop without handles**, which is given a bound `μ` of its turns:
it ends when no turn is left, and each turn takes one entry out and goes on with what is left. -/
def Follows (o : CacheOptions) (g : V → UInt64)
    (turn : LinkedCache V → Option (Removal (LinkedCache V))) (μ : LinkedCache V → Nat)
    (f : Nat → Cache V → Cache V) : Prop :=
  ∀ c l s, c.Tied → c.plain.Shows o g l s →
    (turn c = none ∧ ∀ n, f n c.plain = c.plain) ∨
    ∃ d l' s', turn c = some (.gone d) ∧ d.size + 1 = c.size ∧ μ d < μ c ∧ d.Tied ∧
      d.plain.Shows o g l' s' ∧ ∀ n, f (n + 1) c.plain = f n d.plain

section Loop

variable {turn : LinkedCache V → Option (Removal (LinkedCache V))} {μ : LinkedCache V → Nat}
  {f : Nat → Cache V → Cache V}

/-- **A loop that follows one without handles comes to its end**, and to the same state. -/
theorem Follows.loop (hf : Follows o g turn μ f) {n : Nat} (h : c.Tied)
    (hs : c.plain.Shows o g l s) (hn : μ c ≤ n) (j m : Nat) :
    Drains turn c ∧ ∃ d, Removal.loop turn j m c = some (m + (c.size - d.size), d) ∧
      d.size ≤ c.size ∧ d.plain = f n c.plain ∧ d.Tied := by
  induction n generalizing c l s m with
  | zero =>
    obtain ⟨ht, hp⟩ | ⟨d, l', s', -, -, hlt, -⟩ := hf c l s h hs
    · exact ⟨.rest ht, c, by simp [Removal.loop_of_none ht], Nat.le_refl _, (hp 0).symm, h⟩
    · omega
  | succ n ih =>
    obtain ⟨ht, hp⟩ | ⟨d, l', s', ht, hsize, hlt, hd, hs', hp⟩ := hf c l s h hs
    · exact ⟨.rest ht, c, by simp [Removal.loop_of_none ht], Nat.le_refl _, (hp _).symm, h⟩
    · obtain ⟨hdrain, e, he, hle, hplain, htied⟩ := ih hd hs' (by omega) (m + 1)
      refine ⟨.gone ht hsize hdrain, e, ?_, by omega, by rw [hp, hplain], htied⟩
      rw [Removal.loop_of_gone ht, he]
      have hcount : m + 1 + (d.size - e.size) = m + (c.size - e.size) := by omega
      rw [hcount]

end Loop

/-- Dropping what has come to its end. -/
theorem follows_purgeTurn (o : CacheOptions) (g : V → UInt64) (now : Int64) :
    Follows o g (purgeTurn now) (fun c => c.expiry.length)
      fun n c => (Cache.purgeUpTo now n c).2 := by
  intro c l s h hs
  cases hx : c.expiry with
  | nil =>
    refine .inl ⟨by simp [purgeTurn, hx], fun n => ?_⟩
    cases n <;> simp [Cache.purgeUpTo, plain, hx]
  | cons a rest =>
    obtain ⟨i, d, k⟩ := a
    have hplain : c.plain.expiry = (d, k) :: rest.map Prod.snd := by simp [plain, hx]
    by_cases hd : d ≤ now
    · -- The node at the front of the index is that of a slot, so its key has an entry.
      have hfront : (d, k) ∈ Cache.deadlines l := hs.expiry.mem_iff.1 (hplain ▸ List.mem_cons_self)
      obtain ⟨f, hf, hdead⟩ := Cache.mem_deadlines.1 hfront
      have hentry := hs.entry?_eq_some_iff.2 hf
      obtain ⟨e, hk, rfl⟩ := entry?_of_plain hentry
      have hm := mem_of_lookup hk
      have hu := h.plain_unlinked hs hm
      refine .inr ⟨(c.unlinked k e).count fun s => { s with expirations := s.expirations + 1 },
        _, _,
        ?_, Tied.size_unlinked hs h hk, ?_, (h.unlinked hm).count _,
        ((hu ▸ hs.unlink hf).count fun s => { s with expirations := s.expirations + 1 }), ?_⟩
      · simp only [purgeTurn, hx, hk, if_pos hd, h.unlink?_eq hm]
        rfl
      · have hrest : (c.unlinked k e).plain.expiry = rest.map Prod.snd := by
          rw [hu]
          simp [Cache.unlink, hdead, hplain]
        have hlen : (c.unlinked k e).expiry.length = rest.length := by
          simpa [plain] using congrArg List.length hrest
        show (c.unlinked k e).expiry.length < c.expiry.length
        rw [hlen, hx]
        exact Nat.lt_succ_self _
      · intro n
        simp only [Cache.purgeUpTo, hplain, if_pos hd, hentry, ← hu]
        rfl
    · refine .inl ⟨by simp [purgeTurn, hx, hd], fun n => ?_⟩
      cases n <;> simp [Cache.purgeUpTo, hplain, hd]

/-- A loop that evicts while `p` holds. -/
theorem follows_evictColdest {turn : LinkedCache V → Option (Removal (LinkedCache V))}
    {f : Nat → Cache V → Cache V} {p : List (Slot V) → Bool} (hp : p [] = false)
    (hturn : ∀ c l s, c.plain.Shows o g l s →
      turn c = if p l then some c.evictColdest else none)
    (hrest : ∀ n c l s, c.Shows o g l s → p l = false → f n c = c)
    (hgone : ∀ n c l s, c.Shows o g l s → p l = true → f (n + 1) c = f n c.evictColdest.value) :
    Follows o g turn size f := by
  intro c l s h hs
  cases hl : p l with
  | false => exact .inl ⟨by simp [hturn c l s hs, hl], fun n => hrest n _ l s hs hl⟩
  | true =>
    obtain rfl | ⟨r, a, rfl⟩ := List.eq_nil_or_concat l
    · simp [hp] at hl
    · rw [List.concat_eq_append] at hs hl
      obtain ⟨d, hd, hsize, hplain, htied⟩ := h.evictColdest hs
      refine .inr ⟨d, r, _, ?_, hsize, by omega, htied, hplain ▸ hs.evictColdest, fun n => ?_⟩
      · rw [hturn c _ s hs, if_pos hl, hd]
      · rw [hgone n _ _ s hs hl, hplain]

theorem follows_roomTurn (o : CacheOptions) (g : V → UInt64) (w : UInt64) :
    Follows o g (roomTurn w) size fun n c => (Cache.makeRoomUpTo w n c).value.2 := by
  have hguard : ∀ (c : Cache V) l s, c.Shows o g l s →
      (!c.entries.isEmpty && decide (c.options.maxWeight < c.weight + w)) =
        (!l.isEmpty && Cache.overfull o w l) := by
    intro c l s hs
    rw [hs.options, hs.weight, Cache.overfull]
    cases l with
    | nil => simp [hs.entries.eq_nil]
    | cons a r =>
      have hne : c.entries ≠ [] := fun h0 => by simpa [h0] using hs.entries.length_eq
      cases hc : c.entries with
      | nil => exact absurd hc hne
      | cons => rfl
  refine follows_evictColdest (p := fun l => !l.isEmpty && Cache.overfull o w l) rfl ?_ ?_ ?_
  · intro c l s hs
    have hempty : c.plain.entries.isEmpty = c.entries.isEmpty := List.isEmpty_map
    rw [← hguard _ l s hs, roomTurn, hempty]
    rfl
  · intro n c l s hs hp
    rw [← hguard c l s hs] at hp
    cases n <;> simp [Cache.makeRoomUpTo, hp]
  · intro n c l s hs hp
    rw [← hguard c l s hs] at hp
    simp [Cache.makeRoomUpTo, hp]

theorem follows_trimTurn (o : CacheOptions) (g : V → UInt64) :
    Follows o g (trimTurn (V := V)) size fun n c => (Cache.trimUpTo n c).value := by
  have hguard : ∀ (c : Cache V) l s, c.Shows o g l s →
      decide (0 < c.options.maxEntries ∧ c.options.maxEntries.toNat < c.size) =
        Cache.crowded o l := by
    intro c l s hs
    rw [hs.options, hs.size_eq, Cache.crowded]
  refine follows_evictColdest (p := Cache.crowded o) (by simp [Cache.crowded]) ?_ ?_ ?_
  · intro c l s hs
    rw [← hguard _ l s hs, trimTurn, size_plain]
    simp only [decide_eq_true_eq]
    rfl
  · intro n c l s hs hp
    rw [← hguard c l s hs, decide_eq_false_iff_not] at hp
    cases n with
    | zero => rfl
    | succ n => rw [Cache.trimUpTo, if_neg hp]
  · intro n c l s hs hp
    rw [← hguard c l s hs, decide_eq_true_iff] at hp
    rw [Cache.trimUpTo, if_pos hp]
    rfl

/-! ## The operations -/

theorem length_sub_filter (p : Slot V → Bool) (l : List (Slot V)) :
    l.length - (l.filter p).length = l.countP fun q => !p q := by
  have h := l.length_eq_countP_add_countP p
  simp only [Bool.not_eq_true] at h
  rw [← List.countP_eq_length_filter, h, Nat.add_sub_cancel_left]
  simp

namespace Tied

/-- **Dropping what has come to its end.** -/
theorem purge (h : c.Tied) (hs : c.plain.Shows o g l s) (now : Int64) :
    Drains (purgeTurn now) c ∧ Tracks (c.purge now) (c.plain.purge now).value := by
  obtain ⟨hdrain, d, hd, -, hplain, htied⟩ := (follows_purgeTurn o g now).loop
    (n := c.plain.expiry.length) h hs (by simp [plain]) 0 0
  obtain ⟨hnum, hshows⟩ := hs.purge now
  have hvalue : d.plain = (c.plain.purge now).value.2 := hplain
  have hsize : c.size - d.size = (c.plain.purge now).value.1 := by
    rw [hnum, ← size_plain c, ← size_plain d, hvalue, hs.size_eq, hshows.size_eq,
      length_sub_filter, Cache.expired]
  refine ⟨hdrain, d, ?_, hvalue, htied⟩
  rw [LinkedCache.purge, hd, Nat.zero_add, hsize]

/-- **Making room for a weight.** -/
theorem makeRoomFor (h : c.Tied) (hs : c.plain.Shows o g l s) (w : UInt64) :
    Drains (roomTurn w) c ∧ Tracks (c.makeRoomFor w) (c.plain.makeRoomFor w).value := by
  obtain ⟨hdrain, d, hd, -, hplain, htied⟩ := (follows_roomTurn o g w).loop
    (n := c.plain.size) h hs (by simp [size_plain]) 1 0
  refine ⟨hdrain, ?_⟩
  by_cases hz : c.options.maxWeight = 0
  · have hplain : c.plain.makeRoomFor w = ⟨(0, c.plain), []⟩ := if_pos hz
    rw [hplain, LinkedCache.makeRoomFor, if_pos hz]
    exact ⟨c, rfl, rfl, h⟩
  · have hroom : c.plain.makeRoomFor w = Cache.makeRoomUpTo w c.plain.size c.plain := if_neg hz
    simp only [← hroom] at hplain
    obtain ⟨hnum, hshows⟩ := hs.makeRoomFor w
    have hsize : c.size - d.size = (c.plain.makeRoomFor w).value.1 := by
      rw [hnum, ← size_plain c, ← size_plain d, hplain, hs.size_eq, hshows.size_eq]
    refine ⟨d, ?_, hplain, htied⟩
    rw [LinkedCache.makeRoomFor, if_neg hz, hd, Nat.zero_add, hsize]

/-- **Dropping what is too much.** -/
theorem trim (h : c.Tied) (hs : c.plain.Shows o g l s) :
    Drains trimTurn c ∧
      ∃ d, c.trim = some d ∧ d.plain = (Cache.trimUpTo c.plain.size c.plain).value ∧ d.Tied := by
  obtain ⟨hdrain, d, hd, -, hplain, htied⟩ := (follows_trimTurn o g).loop
    (n := c.plain.size) h hs (by simp [size_plain]) 0 0
  refine ⟨hdrain, d, ?_, hplain, htied⟩
  rw [LinkedCache.trim, hd]
  rfl

end Tied

end LinkedCache

end MemoFlow
