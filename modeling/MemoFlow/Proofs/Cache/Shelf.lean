import MemoFlow.Proofs.Cache.Recall

/-!
# A cache as one plain list

A shelf is a list of items, the one used last first, with counters. Its deadlines and weights are
unbounded integers, and everything that leaves is taken from the list. A cache answers every
sequence of requests as a shelf does.

* `CacheRequest`, `Cache.serve`, `Cache.trace`: requests to a cache, each with a reading of the
  clock, and the answers and counters after each of them;
* `Item`, **`Shelf`**, `Shelf.serve`, `Shelf.trace`: the plain list and its answers;
* `CacheRequest.InRange`: requests whose sums stay within 64 bits;
* `Cache.Mirrors`, `Cache.Mirrors.serve`: a cache and a shelf in step;
* **`Cache.trace_eq_trace_shelf`**: the answers and counters are the same.
-/

namespace MemoFlow

variable {V : Type}

/-! ## Requests -/

/-- The requests to a cache that run no programs. -/
inductive CacheRequest (V : Type) where
  /-- Look up a key. -/
  | get (k : Fingerprint)
  /-- Store a value, with a life time and a weight of its own if they are given. -/
  | put (k : Fingerprint) (v : V) (ttl : Option Int64) (weight : Option UInt64)
  /-- Drop a key. -/
  | invalidate (k : Fingerprint)
  /-- Ask for a key. -/
  | contains (k : Fingerprint)
  /-- Drop everything. -/
  | clear
  /-- Drop what has come to its end. -/
  | sweep
  /-- Make room for a weight. -/
  | room (w : UInt64)
  /-- Count the entries. -/
  | size

/-- The request as a step of a program. -/
def CacheRequest.toStep : CacheRequest V → CacheStep V
  | .get k => .get k
  | .put k v ttl weight => .put k v ttl weight
  | .invalidate k => .invalidate k
  | .contains k => .contains k
  | .clear => .clear
  | .sweep => .sweep
  | .room w => .room w
  | .size => .size

namespace Cache

/-- The answer to a request at a reading of the clock, and the cache after it. -/
def serve (c : Cache V) (now : Int64) (r : CacheRequest V) : CacheAnswer V × Cache V :=
  let a := (Timed.run ⟨c, now⟩ r.toStep).value
  (a.1, a.2.cache)

/-- The counters, with the number of entries and their weight. -/
def counters (c : Cache V) : CacheAnswer V := .stats c.stats c.size c.weight

/-- The answers to requests, each with the counters after it. -/
def trace : Cache V → List (Int64 × CacheRequest V) → List (CacheAnswer V × CacheAnswer V)
  | _, [] => []
  | c, (now, r) :: rest =>
    ((c.serve now r).1, (c.serve now r).2.counters) :: trace (c.serve now r).2 rest

end Cache

/-! ## The plain list -/

/-- An item of the list. -/
structure Item (V : Type) where
  /-- The key. -/
  key : Fingerprint
  /-- The value. -/
  value : V
  /-- The clock reading from which on it is gone. -/
  deadline : Option Int
  /-- The weight. -/
  weight : Nat

/-- Whether the deadline of an item has not come. -/
def Item.isLive (now : Int) (p : Item V) : Bool := p.deadline.all fun d => decide (now < d)

/-- The sum of the weights of items. -/
def Item.total (l : List (Item V)) : Nat := (l.map Item.weight).sum

/-- **The plain list**, the item used last first, with the counters. -/
structure Shelf (V : Type) where
  /-- The items. -/
  items : List (Item V) := []
  /-- The counters. -/
  stats : CacheStats := { }

namespace Shelf

/-- Change the counters. -/
def count (t : Shelf V) (f : CacheStats → CacheStats) : Shelf V := { t with stats := f t.stats }

/-- The item of a key. -/
def item? (t : Shelf V) (k : Fingerprint) : Option (Item V) := t.items.find? fun p => p.key = k

/-- Take the item of a key out. -/
def remove (t : Shelf V) (k : Fingerprint) : Shelf V :=
  { t with items := t.items.filter fun p => p.key ≠ k }

/-- Drop every item whose deadline has come. -/
def expire (t : Shelf V) (now : Int) : Shelf V :=
  { items := t.items.filter (Item.isLive now)
    stats := { t.stats with
      expirations := t.stats.expirations + t.items.countP fun p => !p.isLive now } }

/-- Drop items from the back while `p` holds of what is left. -/
def dropWhile (t : Shelf V) (p : List (Item V) → Bool) : Shelf V :=
  { items := shed p t.items
    stats := { t.stats with
      evictions := t.stats.evictions + (t.items.length - (shed p t.items).length) } }

/-- Drop items from the back until a weight fits, when there is a budget. -/
def fit (o : CacheOptions) (w : Nat) (t : Shelf V) : Shelf V :=
  if o.maxWeight = 0 then t
  else t.dropWhile fun l => decide (o.maxWeight.toNat < Item.total l + w)

/-- Drop items from the back while there are too many. -/
def trim (o : CacheOptions) (t : Shelf V) : Shelf V :=
  t.dropWhile fun l => decide (0 < o.maxEntries ∧ o.maxEntries.toNat < l.length)

/-- Put a new item to the front. -/
def push (p : Item V) (t : Shelf V) : Shelf V :=
  { items := p :: t.items, stats := { t.stats with sets := t.stats.sets + 1 } }

/-- Look up a key that is served. -/
def find (k : Fingerprint) (t : Shelf V) : Option V × Shelf V :=
  match t.item? k with
  | none => (none, t.count fun s => { s with misses := s.misses + 1 })
  | some p =>
    (some p.value,
      { items := p :: (t.remove k).items, stats := { t.stats with hits := t.stats.hits + 1 } })

/-- Store a value under a key that is served. -/
def add (o : CacheOptions) (now : Int) (k : Fingerprint) (v : V) (ttl : Int) (w : Nat)
    (t : Shelf V) : Bool × Shelf V :=
  if 0 < o.maxWeight ∧ o.maxWeight.toNat < w then
    (false, t.count fun s => { s with rejected := s.rejected + 1 })
  else
    (true, (((t.remove k).fit o w).push
      ⟨k, v, if 0 < ttl then some (now + ttl) else none, w⟩).trim o)

/-- A request that is not served. -/
def bypass (t : Shelf V) : Shelf V := t.count fun s => { s with bypasses := s.bypasses + 1 }

/-- **The answer of a shelf to a request.** Look-ups, stores, sweeps and requests for room drop what
has come to its end first; a look-up or a store that is not served leaves the list as it stands. -/
def serve (o : CacheOptions) (g : V → UInt64) (t : Shelf V) (now : Int) :
    CacheRequest V → CacheAnswer V × Shelf V
  | .get k =>
    if o.enabled && k.cacheable then
      let r := find k (t.expire now)
      (.found r.1, r.2)
    else (.found none, t.bypass)
  | .put k v ttl weight =>
    if o.enabled && k.cacheable then
      let r := add o now k v (ttl.getD o.defaultTtl).toInt (weight.getD (g v)).toNat (t.expire now)
      (.truth r.1, r.2)
    else (.truth false, t.bypass)
  | .invalidate k =>
    match t.item? k with
    | none => (.truth false, t)
    | some _ =>
      (.truth true, (t.remove k).count fun s => { s with invalidations := s.invalidations + 1 })
  | .contains k => (.truth ((t.item? k).any fun p => p.isLive now), t)
  | .clear => (.done, { t with items := [] })
  | .sweep => (.number (t.items.countP fun p => !p.isLive now), t.expire now)
  | .room w =>
    (.number ((t.expire now).items.length - ((t.expire now).fit o w.toNat).items.length),
      (t.expire now).fit o w.toNat)
  | .size => (.number t.items.length, t)

/-- The answer of a shelf that drops what has come to its end before every look-up and store, also
before one that is not served. -/
def serveEagerly (o : CacheOptions) (g : V → UInt64) (t : Shelf V) (now : Int) :
    CacheRequest V → CacheAnswer V × Shelf V
  | .get k => serve o g (t.expire now) now (.get k)
  | .put k v ttl weight => serve o g (t.expire now) now (.put k v ttl weight)
  | r => serve o g t now r

/-- The counters, with the number of items and their weight in 64 bits. -/
def counters (t : Shelf V) : CacheAnswer V :=
  .stats t.stats t.items.length (UInt64.ofNat (Item.total t.items))

/-- The answers to requests, by the answer to each of them, with the counters after it. -/
def trace (f : Shelf V → Int → CacheRequest V → CacheAnswer V × Shelf V) :
    Shelf V → List (Int64 × CacheRequest V) → List (CacheAnswer V × CacheAnswer V)
  | _, [] => []
  | t, (now, r) :: rest =>
    ((f t now.toInt r).1, (f t now.toInt r).2.counters) :: trace f (f t now.toInt r).2 rest

end Shelf

/-! ## Slots as items -/

/-- The item of a slot. -/
def Item.ofSlot (p : Slot V) : Item V :=
  ⟨p.1, p.2.value, p.2.deadline.map Int64.toInt, p.2.weight.toNat⟩

/-- The shelf of slots and counters. -/
def Shelf.ofSlots (l : List (Slot V)) (s : CacheStats) : Shelf V := ⟨l.map Item.ofSlot, s⟩

theorem Item.isLive_ofSlot (now : Int64) (p : Slot V) :
    Item.isLive now.toInt (Item.ofSlot p) = Slot.isLive now p := by
  cases hd : p.2.deadline <;>
    simp [Item.isLive, Item.ofSlot, Slot.isLive, hd, Int64.lt_iff_toInt_lt]

theorem Item.total_map_ofSlot (l : List (Slot V)) :
    Item.total (l.map Item.ofSlot) = Cache.load l := by
  rw [Item.total, Cache.load, List.map_map]
  rfl

theorem shed_map {α β : Type} (f : α → β) (p : List β → Bool) (l : List α) :
    shed p (l.map f) = (shed (fun r => p (r.map f)) l).map f := by
  induction l using List.reverseRecOn with
  | nil => rfl
  | append_singleton l a ih =>
    rw [List.map_append, List.map_singleton, shed_concat, shed_concat, ih, List.map_append,
      List.map_singleton]
    split
    · rfl
    · rw [List.map_append, List.map_singleton]

theorem shed_congr {α : Type} {p q : List α → Bool} {l : List α}
    (h : ∀ r, r.Sublist l → p r = q r) : shed p l = shed q l := by
  induction l using List.reverseRecOn with
  | nil => rfl
  | append_singleton l a ih =>
    rw [shed_concat, shed_concat, h _ (.refl _),
      ih fun r hr => h r (hr.trans (List.sublist_append_left l [a]))]

theorem shed_fits {α : Type} (p : List α → Bool) (l : List α) :
    p (shed p l) = false ∨ shed p l = [] := by
  induction l using List.reverseRecOn with
  | nil => exact .inr rfl
  | append_singleton l a ih =>
    rw [shed_concat]
    split
    · exact ih
    · next h => exact .inl (Bool.not_eq_true _ ▸ h)

namespace Cache

theorem load_le_of_sublist {l r : List (Slot V)} (h : r.Sublist l) : load r ≤ load l := by
  induction h with
  | slnil => exact Nat.le_refl _
  | cons a _ ih => rw [load_cons]; omega
  | cons_cons a _ ih => rw [load_cons, load_cons]; omega

theorem overfull_eq {o : CacheOptions} {w : UInt64} {l : List (Slot V)}
    (h : load l + w.toNat < 2 ^ 64) :
    overfull o w l = decide (o.maxWeight.toNat < load l + w.toNat) := by
  rw [overfull, decide_eq_decide, UInt64.lt_iff_toNat_lt, UInt64.toNat_add, UInt64.toNat_ofNat',
    Nat.mod_eq_of_lt (show load l < 2 ^ 64 by omega), Nat.mod_eq_of_lt h]

/-- The weights are within the budget, when there is one. -/
def WithinBudget (o : CacheOptions) (l : List (Slot V)) : Prop :=
  o.maxWeight ≠ 0 → load l ≤ o.maxWeight.toNat

theorem WithinBudget.of_sublist {o : CacheOptions} {l r : List (Slot V)} (h : WithinBudget o l)
    (hr : r.Sublist l) : WithinBudget o r := fun ho =>
  Nat.le_trans (load_le_of_sublist hr) (h ho)

end Cache

namespace Shelf

open Cache

variable {o : CacheOptions} {l : List (Slot V)} {s : CacheStats}

theorem expire_ofSlots (now : Int64) :
    (ofSlots l s).expire now.toInt = ofSlots (l.filter (Slot.isLive now))
      { s with expirations := s.expirations + expired now l } := by
  simp only [ofSlots, expire, List.filter_map, List.countP_map, Function.comp_def,
    Item.isLive_ofSlot, expired]

theorem item?_ofSlots (k : Fingerprint) :
    (ofSlots l s).item? k = (l.lookup k).map fun e => Item.ofSlot (k, e) := by
  induction l with
  | nil => rfl
  | cons p r ih =>
    obtain ⟨a, e⟩ := p
    simp only [item?, ofSlots, List.map_cons, List.find?_cons, List.lookup_cons] at ih ⊢
    by_cases hk : a = k
    · subst hk
      simp [Item.ofSlot]
    · have hb : (k == a) = false := by simpa using Ne.symm hk
      simpa [Item.ofSlot, hk, hb] using ih

theorem remove_ofSlots (k : Fingerprint) :
    (ofSlots l s).remove k = ofSlots (without k l) s := by
  simp only [ofSlots, remove, without, List.filter_map]
  rfl

theorem fit_ofSlots {w : UInt64} (ho : o.maxWeight.toNat < 2 ^ 63)
    (hw : o.maxWeight ≠ 0 → w.toNat < 2 ^ 63) (hl : WithinBudget o l) :
    (ofSlots l s).fit o w.toNat = ofSlots (fitted o w l)
      { s with evictions := s.evictions + (l.length - (fitted o w l).length) } := by
  rw [fit, fitted]
  split
  · rw [Nat.sub_self]
    rfl
  · next hb =>
    have hc : shed (fun r => decide (o.maxWeight.toNat < Item.total (r.map Item.ofSlot) +
        w.toNat)) l = shed (overfull o w) l :=
      shed_congr fun r hr => by
        have h1 := load_le_of_sublist hr
        have h2 := hl hb
        have h3 := hw hb
        rw [Item.total_map_ofSlot, overfull_eq (by omega)]
    simp only [dropWhile, ofSlots, shed_map, hc, List.length_map]

theorem push_ofSlots {k : Fingerprint} {v : V} {w : UInt64} {d : Option Int64} :
    (ofSlots l s).push ⟨k, v, d.map Int64.toInt, w.toNat⟩ =
      ofSlots ((k, ⟨v, w, d⟩) :: l) { s with sets := s.sets + 1 } := rfl

theorem trim_ofSlots : (ofSlots l s).trim o = ofSlots (shed (crowded o) l)
    { s with evictions := s.evictions + (l.length - (shed (crowded o) l).length) } := by
  simp only [trim, dropWhile, ofSlots, shed_map, List.length_map]
  rfl

end Shelf

/-! ## Requests within 64 bits -/

/-- Whether a value is stored: the request is served and the value is not too heavy. -/
def Cache.Stores (o : CacheOptions) (k : Fingerprint) (w : UInt64) : Prop :=
  (o.enabled && k.cacheable) = true ∧ ¬ (0 < o.maxWeight ∧ o.maxWeight < w)

/-- **The sums that a request asks for stay within 64 bits**: the deadline of a value that is
stored with a life time, and a weight to make room for beside the budget. -/
def CacheRequest.InRange (o : CacheOptions) (g : V → UInt64) (now : Int64) :
    CacheRequest V → Prop
  | .put k v ttl weight =>
    Cache.Stores o k (weight.getD (g v)) → 0 < ttl.getD o.defaultTtl →
      now.toInt + (ttl.getD o.defaultTtl).toInt < 2 ^ 63
  | .room w => w.toNat < 2 ^ 63
  | _ => True

namespace Cache

theorem map_toInt_deadlineOf {now ttl : Int64} (h : 0 < ttl → now.toInt + ttl.toInt < 2 ^ 63) :
    (deadlineOf now ttl).map Int64.toInt =
      if 0 < ttl.toInt then some (now.toInt + ttl.toInt) else none := by
  have hz : 0 < ttl ↔ 0 < ttl.toInt := Int64.lt_iff_toInt_lt
  rw [deadlineOf]
  by_cases ht : 0 < ttl
  · have h1 := h ht
    have h2 := now.le_toInt
    have h3 := hz.1 ht
    rw [if_pos ht, if_pos h3, Option.map_some, Int64.toInt_add,
      Int.bmod_eq_of_le (by omega) (by omega)]
  · rw [if_neg ht, if_neg (mt hz.2 ht), Option.map_none]

theorem load_fitted_le {o : CacheOptions} {w : UInt64} {l : List (Slot V)}
    (ho : o.maxWeight.toNat < 2 ^ 63) (hb : o.maxWeight ≠ 0) (hw : w.toNat ≤ o.maxWeight.toNat)
    (hl : WithinBudget o l) : w.toNat + load (fitted o w l) ≤ o.maxWeight.toNat := by
  rw [fitted, if_neg hb]
  rcases shed_fits (overfull o w) l with h | h
  · have := load_le_of_sublist (shed_sublist (overfull o w) l)
    have := hl hb
    rw [overfull_eq (by omega), decide_eq_false_iff_not] at h
    omega
  · rw [h]
    exact hw

theorem withinBudget_placed {o : CacheOptions} {k : Fingerprint} {e : CacheEntry V}
    {l : List (Slot V)} (ho : o.maxWeight.toNat < 2 ^ 63) (hk : Stores o k e.weight)
    (hl : WithinBudget o l) : WithinBudget o (placed o k e l) := by
  intro hb
  have hpos : 0 < o.maxWeight := UInt64.pos_iff_ne_zero.2 hb
  have hle : e.weight.toNat ≤ o.maxWeight.toNat :=
    UInt64.le_iff_toNat_le.1 (UInt64.not_lt.1 fun h => hk.2 ⟨hpos, h⟩)
  rw [placed, load_cons]
  exact load_fitted_le ho hb hle (hl.of_sublist List.filter_sublist)

/-- Storing a value on a shelf of slots. -/
theorem add_ofSlots {o : CacheOptions} {l : List (Slot V)} {s : CacheStats} {now ttl : Int64}
    {k : Fingerprint} {v : V} {w : UInt64} (ho : o.maxWeight.toNat < 2 ^ 63) (hk : Stores o k w)
    (ht : 0 < ttl → now.toInt + ttl.toInt < 2 ^ 63) (hl : WithinBudget o l) :
    (Shelf.ofSlots l s).add o now.toInt k v ttl.toInt w.toNat =
      (true, Shelf.ofSlots (shed (crowded o) (placed o k ⟨v, w, deadlineOf now ttl⟩ l))
        { s with
          evictions := s.evictions + ((without k l).length - (fitted o w (without k l)).length) +
            ((placed o k ⟨v, w, deadlineOf now ttl⟩ l).length -
              (shed (crowded o) (placed o k ⟨v, w, deadlineOf now ttl⟩ l)).length)
          sets := s.sets + 1 }) := by
  have hw : ¬ (0 < o.maxWeight ∧ o.maxWeight.toNat < w.toNat) := hk.2
  have hle : o.maxWeight ≠ 0 → w.toNat < 2 ^ 63 := fun hb => by
    have hlt : ¬ o.maxWeight.toNat < w.toNat := fun h => hw ⟨UInt64.pos_iff_ne_zero.2 hb, h⟩
    omega
  have hf : WithinBudget o (without k l) := hl.of_sublist List.filter_sublist
  rw [Shelf.add, if_neg hw, Shelf.remove_ofSlots, Shelf.fit_ofSlots ho hle hf,
    ← map_toInt_deadlineOf ht, Shelf.push_ofSlots, Shelf.trim_ofSlots]
  rfl

/-! ## A cache and a shelf in step -/

/-- **A cache mirrors a shelf**: it holds the items of the shelf as slots. -/
def Mirrors (c : Cache V) (o : CacheOptions) (g : V → UInt64) (t : Shelf V) : Prop :=
  ∃ l s, c.Shows o g l s ∧ WithinBudget o l ∧ t = Shelf.ofSlots l s

/-- An answer and a cache agree with an answer of a shelf. -/
def Agrees (o : CacheOptions) (g : V → UInt64) (a : CacheAnswer V × Cache V)
    (b : CacheAnswer V × Shelf V) : Prop := a.1 = b.1 ∧ a.2.Mirrors o g b.2

namespace Shows

variable {c : Cache V} {o : CacheOptions} {g : V → UInt64} {l : List (Slot V)} {s : CacheStats}
  {now : Int64}

theorem agrees {a : CacheAnswer V} {b : CacheAnswer V × Shelf V} (h : c.Shows o g l s)
    (hl : WithinBudget o l) (hb : b = (a, Shelf.ofSlots l s)) : Agrees o g (a, c) b := by
  subst hb
  exact ⟨rfl, l, s, h, hl, rfl⟩

theorem serve_get (h : c.Shows o g l s) (hl : WithinBudget o l) (k : Fingerprint) :
    Agrees o g (c.serve now (.get k)) ((Shelf.ofSlots l s).serve o g now.toInt (.get k)) := by
  have hf := hl.of_sublist (List.filter_sublist (p := Slot.isLive now))
  have ha : c.serve now (.get k) =
      (.found (c.get now k).value.1, (c.get now k).value.2) := rfl
  rw [ha, Shelf.serve]
  split
  · next hb =>
    rw [Shelf.expire_ofSlots]
    cases hk : (l.filter (Slot.isLive now)).lookup k with
    | none =>
      obtain ⟨h1, h2⟩ := h.get_of_none hb hk
      rw [h1]
      refine h2.agrees hf ?_
      simp only [Shelf.find, Shelf.item?_ofSlots, hk, Option.map_none]
      rfl
    | some e =>
      obtain ⟨h1, h2⟩ := h.get_of_some hb hk
      rw [h1]
      refine h2.agrees (fun ho => ?_) ?_
      · have hp := (h.purge now).2
        rw [← load_perm (perm_without hp.nodup ((lookup_eq_some_iff hp.nodup).1 hk))]
        exact hf ho
      · simp only [Shelf.find, Shelf.item?_ofSlots, hk, Option.map_some, Shelf.remove_ofSlots]
        rfl
  · next hb =>
    obtain ⟨h1, h2⟩ := h.get_of_bypass now (Bool.not_eq_true _ ▸ hb)
    rw [h1]
    exact h2.agrees hl rfl

theorem serve_put (h : c.Shows o g l s) (hl : WithinBudget o l) (ho : o.maxWeight.toNat < 2 ^ 63)
    {k : Fingerprint} {v : V} {ttl : Option Int64} {weight : Option UInt64}
    (hr : (CacheRequest.put k v ttl weight).InRange o g now) :
    Agrees o g (c.serve now (.put k v ttl weight))
      ((Shelf.ofSlots l s).serve o g now.toInt (.put k v ttl weight)) := by
  have hf := hl.of_sublist (List.filter_sublist (p := Slot.isLive now))
  have ha : c.serve now (.put k v ttl weight) =
      (.truth (c.put now k v ttl weight).value.1, (c.put now k v ttl weight).value.2) := rfl
  rw [ha, Shelf.serve]
  split
  · next hb =>
    rw [Shelf.expire_ofSlots]
    by_cases hw : 0 < o.maxWeight ∧ o.maxWeight < weight.getD (g v)
    · obtain ⟨h1, h2⟩ := h.put_of_heavy now ttl hb hw
      have hw' : 0 < o.maxWeight ∧ o.maxWeight.toNat < (weight.getD (g v)).toNat := hw
      rw [h1]
      refine h2.agrees hf ?_
      rw [Shelf.add, if_pos hw']
      rfl
    · obtain ⟨h1, h2⟩ := h.put now ttl hb hw
      rw [h1]
      refine h2.agrees ((withinBudget_placed ho ⟨hb, hw⟩ hf).of_sublist (shed_sublist _ _)) ?_
      rw [add_ofSlots ho ⟨hb, hw⟩ (hr ⟨hb, hw⟩) hf]
  · next hb =>
    obtain ⟨h1, h2⟩ := h.put_of_bypass now v ttl weight
      (Bool.not_eq_true _ ▸ hb)
    rw [h1]
    exact h2.agrees hl rfl

theorem serve_invalidate (h : c.Shows o g l s) (hl : WithinBudget o l) (k : Fingerprint) :
    Agrees o g (c.serve now (.invalidate k))
      ((Shelf.ofSlots l s).serve o g now.toInt (.invalidate k)) := by
  have ha : c.serve now (.invalidate k) =
      (.truth (c.invalidate k).1, (c.invalidate k).2) := rfl
  rw [ha, Shelf.serve, Shelf.item?_ofSlots]
  cases hk : l.lookup k with
  | none =>
    rw [h.invalidate_of_none hk]
    exact h.agrees hl rfl
  | some e =>
    obtain ⟨h1, h2⟩ := h.invalidate_of_some hk
    rw [h1]
    refine h2.agrees (hl.of_sublist List.filter_sublist) ?_
    simp only [Option.map_some, Shelf.remove_ofSlots]
    rfl

theorem serve_contains (h : c.Shows o g l s) (hl : WithinBudget o l) (k : Fingerprint) :
    Agrees o g (c.serve now (.contains k))
      ((Shelf.ofSlots l s).serve o g now.toInt (.contains k)) := by
  have ha : c.serve now (.contains k) = (.truth (c.contains now k), c) := rfl
  rw [ha, Shelf.serve, Shelf.item?_ofSlots, h.contains_eq]
  refine h.agrees hl ?_
  cases l.lookup k with
  | none => rfl
  | some e => simp only [Option.map_some, Option.any_some, Item.isLive_ofSlot]

theorem serve_sweep (h : c.Shows o g l s) (hl : WithinBudget o l) :
    Agrees o g (c.serve now .sweep) ((Shelf.ofSlots l s).serve o g now.toInt .sweep) := by
  obtain ⟨h1, h2⟩ := h.purge now
  have ha : c.serve now .sweep = (.number (c.purge now).value.1, (c.purge now).value.2) := rfl
  have he : (Shelf.ofSlots l s).items.countP (fun p => !p.isLive now.toInt) = expired now l := by
    simp only [Shelf.ofSlots, List.countP_map, Function.comp_def, Item.isLive_ofSlot, expired]
  rw [ha, h1, Shelf.serve, Shelf.expire_ofSlots, he]
  exact h2.agrees (hl.of_sublist List.filter_sublist) rfl

theorem serve_room (h : c.Shows o g l s) (hl : WithinBudget o l) (ho : o.maxWeight.toNat < 2 ^ 63)
    {w : UInt64} (hw : w.toNat < 2 ^ 63) :
    Agrees o g (c.serve now (.room w)) ((Shelf.ofSlots l s).serve o g now.toInt (.room w)) := by
  have hf := hl.of_sublist (List.filter_sublist (p := Slot.isLive now))
  obtain ⟨h1, h2⟩ := h.makeRoom now w
  have ha : c.serve now (.room w) =
      (.number (c.makeRoom now w).value.1, (c.makeRoom now w).value.2) := rfl
  rw [ha, h1, Shelf.serve, Shelf.expire_ofSlots, Shelf.fit_ofSlots ho (fun _ => hw) hf]
  refine h2.agrees (hf.of_sublist (fitted_sublist o w _)) ?_
  simp only [Shelf.ofSlots, List.length_map]

end Shows

namespace Mirrors

variable {c : Cache V} {o : CacheOptions} {g : V → UInt64} {t : Shelf V}

theorem new (o : CacheOptions) (g : V → UInt64) : (Cache.new o g).Mirrors o g { } :=
  ⟨[], { }, .new o g, fun _ => Nat.zero_le _, rfl⟩

/-- **A request keeps a cache and a shelf in step**, and they give the same answer. -/
theorem serve (h : c.Mirrors o g t) (ho : o.maxWeight.toNat < 2 ^ 63) {now : Int64}
    {r : CacheRequest V} (hr : r.InRange o g now) :
    Agrees o g (c.serve now r) (t.serve o g now.toInt r) := by
  obtain ⟨l, s, hc, hl, rfl⟩ := h
  cases r with
  | get k => exact hc.serve_get hl k
  | put k v ttl weight => exact hc.serve_put hl ho hr
  | invalidate k => exact hc.serve_invalidate hl k
  | contains k => exact hc.serve_contains hl k
  | clear => exact hc.clear.agrees (fun _ => Nat.zero_le _) rfl
  | sweep => exact hc.serve_sweep hl
  | room w => exact hc.serve_room hl ho hr
  | size =>
    have ha : c.serve now .size = (.number l.length, c) := by rw [← hc.size_eq]; rfl
    rw [ha]
    refine hc.agrees hl ?_
    simp only [Shelf.serve, Shelf.ofSlots, List.length_map]

theorem counters (h : c.Mirrors o g t) : c.counters = t.counters := by
  obtain ⟨l, s, hc, -, rfl⟩ := h
  rw [Cache.counters, Shelf.counters, hc.stats, hc.size_eq, hc.weight]
  simp only [Shelf.ofSlots, List.length_map, Item.total_map_ofSlot]

theorem trace (h : c.Mirrors o g t) (ho : o.maxWeight.toNat < 2 ^ 63)
    {rs : List (Int64 × CacheRequest V)} (hr : ∀ p ∈ rs, p.2.InRange o g p.1) :
    c.trace rs = t.trace (Shelf.serve o g) rs := by
  induction rs generalizing c t with
  | nil => rfl
  | cons p rs ih =>
    obtain ⟨ha, hm⟩ := h.serve ho (hr p List.mem_cons_self)
    rw [Cache.trace, Shelf.trace, ha, hm.counters,
      ih hm fun q hq => hr q (List.mem_cons_of_mem _ hq)]

end Mirrors

/-- **A cache answers every sequence of requests as a plain list does**, whatever the clock reads,
and its counters are those of the list after each of them. -/
theorem trace_eq_trace_shelf {o : CacheOptions} (ho : o.maxWeight.toNat < 2 ^ 63) (g : V → UInt64)
    {rs : List (Int64 × CacheRequest V)} (hr : ∀ p ∈ rs, p.2.InRange o g p.1) :
    (Cache.new o g).trace rs = ({ } : Shelf V).trace (Shelf.serve o g) rs :=
  (Mirrors.new o g).trace ho hr

/-- The clock goes back, a value is replaced, one comes to its end, and room is made. -/
theorem trace_eq_trace_shelf_of_rewound_clock :
    (Cache.new { maxEntries := 2, maxWeight := 5 } fun _ : Nat => 1).trace
        [(30, .put ⟨0, 1, true⟩ 7 (some 10) (some 2)), (20, .put ⟨0, 2, true⟩ 8 none none),
          (35, .get ⟨0, 1, true⟩), (39, .put ⟨0, 3, true⟩ 9 (some 1) (some 4)), (50, .room 3)] =
      ({ } : Shelf Nat).trace (Shelf.serve { maxEntries := 2, maxWeight := 5 } fun _ => 1)
        [(30, .put ⟨0, 1, true⟩ 7 (some 10) (some 2)), (20, .put ⟨0, 2, true⟩ 8 none none),
          (35, .get ⟨0, 1, true⟩), (39, .put ⟨0, 3, true⟩ 9 (some 1) (some 4)), (50, .room 3)] :=
  trace_eq_trace_shelf (by decide) _ (by simp [CacheRequest.InRange])

/-- A look-up that is not served drops nothing: the value that came to its end is still counted. -/
theorem trace_ne_trace_eager :
    (∀ p ∈ [((0 : Int64), CacheRequest.put ⟨0, 1, true⟩ 7 (some 5) none),
        (10, .get Fingerprint.uncacheable)], p.2.InRange { } (fun _ : Nat => 1) p.1) ∧
      (Cache.new { } fun _ : Nat => 1).trace
          [(0, .put ⟨0, 1, true⟩ 7 (some 5) none), (10, .get Fingerprint.uncacheable)] ≠
        ({ } : Shelf Nat).trace (Shelf.serveEagerly { } fun _ => 1)
          [(0, .put ⟨0, 1, true⟩ 7 (some 5) none), (10, .get Fingerprint.uncacheable)] := by
  refine ⟨by simp [CacheRequest.InRange], fun h => ?_⟩
  have hs : (1 : Nat) = 0 := by
    have := congrArg (fun l => l.map fun a => match a.2 with
      | .stats _ size _ => size
      | _ => 0) h
    exact (List.cons.inj (List.cons.inj this).2).1
  exact absurd hs (by decide)

end Cache

end MemoFlow
