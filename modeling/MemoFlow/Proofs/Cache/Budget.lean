import MemoFlow.Proofs.Cache.Reentrant

/-!
# The weights of a cache stay within its budget

A cache with a budget never holds more than it, not even inside of a computation or a transaction.
The weight it tells is the exact sum. A value that is too heavy changes nothing, and one that is
stored drops no more than it has to.

* `shed_prefix`, `shed_longest`: what is left is the longest part that may stay;
* `Cache.slots`: the entries with their keys in the order of use, read off a cache;
* `Cache.Fits`, **`Cache.Spares`**: a weight fits beside slots; as many as possible stay;
* `Cache.Rejects`, `Cache.Accepts`: what a refused value and a stored one make of a cache;
* `Cache.Shows.put_kept`: what stays behind a stored value;
* **`Cache.keepsBudget`**: every state that a program meets is within the budget;
* `Cache.SeemsToFit`: a weight fits by the sum of 64 bits, and not by the exact one;
* `Cache.MakesRoom`, **`Cache.makesRoom_iff`**: when entries leave until a weight fits;
* `Cache.Boundless`: a cache without bounds drops nothing for a new value.
-/

namespace MemoFlow

variable {V : Type}

/-! ## What is left of a list -/

theorem shed_prefix {α : Type} (p : List α → Bool) (l : List α) : shed p l <+: l := by
  induction l using List.reverseRecOn with
  | nil => exact List.prefix_refl _
  | append_singleton l a ih =>
    rw [shed_concat]
    split
    · exact ih.trans (List.prefix_append l [a])
    · exact List.prefix_refl _

/-- A longer part was not to stay. -/
theorem shed_longest {α : Type} {p : List α → Bool} {l r : List α} (hr : r <+: l)
    (hlt : (shed p l).length < r.length) : p r = true := by
  induction l using List.reverseRecOn with
  | nil => simp [List.prefix_nil.1 hr] at hlt
  | append_singleton l a ih =>
    rw [shed_concat] at hlt
    split at hlt
    · next hp =>
      obtain rfl | hr := List.prefix_concat_iff.1 hr
      · exact hp
      · exact ih hr hlt
    · have := hr.length_le
      omega

namespace Cache

/-! ## The slots of a cache -/

/-- The entries with their keys, the one used last first. -/
def slots (c : Cache V) : List (Slot V) :=
  c.recency.filterMap fun k => (c.entry? k).map fun e => (k, e)

variable {c d : Cache V} {o : CacheOptions} {g : V → UInt64} {l r : List (Slot V)} {s : CacheStats}
  {now : Int64} {k : Fingerprint} {v : V} {ttl : Option Int64} {weight : Option UInt64}

theorem Shows.slots_eq (h : c.Shows o g l s) : c.slots = l := by
  have hall : ∀ p ∈ l, (c.entry? p.1).map (fun e => (p.1, e)) = some p := by
    intro p hp
    rw [h.entry?_eq_some_iff.2 hp]
    rfl
  rw [slots, h.recency, List.filterMap_map]
  exact (List.filterMap_congr hall).trans List.filterMap_some

/-- The sum of the weights is exact within the budget. -/
theorem Shows.toNat_weight (h : c.Shows o g l s) (hl : load l < 2 ^ 64) :
    c.weight.toNat = load l := by
  rw [h.weight]
  exact UInt64.toNat_ofNat_of_lt' hl

/-! ## What stays beside a new value -/

/-- **A weight fits beside slots**: the budget and the number of entries allow it. -/
def Fits (o : CacheOptions) (w : UInt64) (l : List (Slot V)) : Prop :=
  load l + w.toNat ≤ o.maxWeight.toNat ∧ (0 < o.maxEntries → l.length < o.maxEntries.toNat)

/-- **As many slots as possible stay** beside a weight, those used last. -/
structure Spares (o : CacheOptions) (w : UInt64) (l kept : List (Slot V)) : Prop where
  /-- The others are those used longest ago. -/
  first : kept <+: l
  /-- The weight fits. -/
  fits : Fits o w kept
  /-- It does not fit beside more of them. -/
  most : ∀ r, r <+: l → Fits o w r → r.length ≤ kept.length

/-- As many slots stay as the number of entries allows, beside the first one. -/
theorem shed_crowded_cons (o : CacheOptions) (p : Slot V) (l : List (Slot V)) :
    ∃ kept, shed (crowded o) (p :: l) = p :: kept ∧ kept <+: l ∧
      (0 < o.maxEntries → kept.length < o.maxEntries.toNat) ∧
      ∀ r, r <+: l → (0 < o.maxEntries → r.length < o.maxEntries.toNat) →
        r.length ≤ kept.length := by
  have hcrowded : ∀ r : List (Slot V),
      crowded o (p :: r) = false ↔ (0 < o.maxEntries → r.length < o.maxEntries.toNat) := by
    intro r
    rw [crowded, decide_eq_false_iff_not, not_and, List.length_cons, Nat.not_lt]
    exact Iff.rfl
  have hpos : 0 < o.maxEntries → 0 < o.maxEntries.toNat := UInt64.lt_iff_toNat_lt.1
  have hpre := shed_prefix (crowded o) (p :: l)
  -- A list of one slot is never too long, so the first one stays.
  have hne : shed (crowded o) (p :: l) ≠ [] := by
    intro hnil
    have hone : crowded o [p] = true :=
      shed_longest (List.cons_prefix_cons.2 ⟨rfl, List.nil_prefix⟩) (by rw [hnil]; simp)
    rw [(hcrowded []).2 hpos] at hone
    exact Bool.noConfusion hone
  obtain ⟨kept, hkept⟩ : ∃ kept, shed (crowded o) (p :: l) = p :: kept := by
    obtain ⟨q, kept, hq⟩ := List.exists_cons_of_ne_nil hne
    rw [hq, List.cons_prefix_cons] at hpre
    exact ⟨kept, by rw [hq, hpre.1]⟩
  have hfits := (shed_fits (crowded o) (p :: l)).resolve_right hne
  rw [hkept] at hpre hfits
  refine ⟨kept, hkept, (List.cons_prefix_cons.1 hpre).2, (hcrowded kept).1 hfits, ?_⟩
  intro r hr hcount
  by_contra hlt
  have hlong : crowded o (p :: r) = true :=
    shed_longest (List.cons_prefix_cons.2 ⟨rfl, hr⟩) (by simp [hkept]; omega)
  rw [(hcrowded r).2 hcount] at hlong
  exact Bool.noConfusion hlong

theorem fitted_prefix (o : CacheOptions) (w : UInt64) (l : List (Slot V)) : fitted o w l <+: l := by
  rw [fitted]
  split
  · exact List.prefix_refl l
  · exact shed_prefix _ l

/-- As many slots stay as the budget allows. -/
theorem length_le_fitted {w : UInt64} (h0 : 0 < o.maxWeight) (h1 : o.maxWeight.toNat < 2 ^ 63)
    (hr : r <+: l) (hload : load r + w.toNat ≤ o.maxWeight.toNat) :
    r.length ≤ (fitted o w l).length := by
  rw [fitted, if_neg (UInt64.pos_iff_ne_zero.1 h0)]
  by_contra hlt
  have hlong : overfull o w r = true := shed_longest hr (by omega)
  rw [overfull_eq (by omega), decide_eq_true_iff] at hlong
  omega

/-- **A value takes its place beside as many slots as possible.** -/
theorem spares_placed {e : CacheEntry V} (h0 : 0 < o.maxWeight) (h1 : o.maxWeight.toNat < 2 ^ 63)
    (hk : Stores o k e.weight) (hl : WithinBudget o l) :
    ∃ kept, shed (crowded o) (placed o k e l) = (k, e) :: kept ∧
      Spares o e.weight (without k l) kept := by
  have hne : o.maxWeight ≠ 0 := UInt64.pos_iff_ne_zero.1 h0
  have hw : e.weight.toNat ≤ o.maxWeight.toNat := by
    have hnot : ¬ o.maxWeight < e.weight := fun h => hk.2 ⟨h0, h⟩
    exact UInt64.le_iff_toNat_le.1 (UInt64.not_lt.1 hnot)
  have hwithout : WithinBudget o (without k l) := hl.of_sublist List.filter_sublist
  have hload := load_fitted_le h1 hne hw hwithout
  have hfirst := fitted_prefix o e.weight (without k l)
  obtain ⟨kept, hkept, hpre, hcount, hmost⟩ :=
    shed_crowded_cons o (k, e) (fitted o e.weight (without k l))
  refine ⟨kept, hkept, hpre.trans hfirst, ⟨?_, hcount⟩, fun r hr hfits => ?_⟩
  · have := load_le_of_sublist hpre.sublist
    omega
  · have hlen := length_le_fitted h0 h1 hr hfits.1
    exact hmost r (List.prefix_of_prefix_length_le hr hfirst hlen) hfits.2

/-! ## Caches within their budget -/

/-- **A value is refused**: besides what has come to its end, all slots stay, in their order. -/
structure Rejects (c : Cache V) (now : Int64) (d : Cache V) : Prop where
  /-- What has not come to its end stays. -/
  slots : d.slots = c.slots.filter (Slot.isLive now)
  /-- The weight is that of the slots. -/
  weight : d.weight.toNat = load d.slots
  /-- The refusal is counted, and what has come to its end. -/
  stats : d.stats = { c.stats with
    expirations := c.stats.expirations + expired now c.slots
    rejected := c.stats.rejected + 1 }

/-- **A value is stored** with a weight: besides what has come to its end and the slot of its key,
as many slots stay as possible. -/
structure Accepts (c : Cache V) (now : Int64) (k : Fingerprint) (e : CacheEntry V) (d : Cache V) :
    Prop where
  /-- The new slot is in front, and as many as possible stay behind it. -/
  slots : ∃ kept, d.slots = (k, e) :: kept ∧
    Spares c.options e.weight (without k (c.slots.filter (Slot.isLive now))) kept
  /-- The others are counted. -/
  stats : d.stats = { c.stats with
    expirations := c.stats.expirations + expired now c.slots
    evictions := c.stats.evictions +
      ((without k (c.slots.filter (Slot.isLive now))).length + 1 - d.slots.length)
    sets := c.stats.sets + 1 }

/-- **A cache keeps its budget.** -/
structure KeepsBudget (c : Cache V) : Prop where
  /-- The slots are the entries with their keys. -/
  slots : c.slots.Perm c.entries
  /-- The exact sum of the weights is within the budget. -/
  within : load c.entries ≤ c.options.maxWeight.toNat
  /-- It is the weight that the counters tell. -/
  weight : c.weight.toNat = load c.entries
  /-- A request that is not served only counts as such. -/
  bypasses : ∀ now k v ttl weight, c.serves k = false →
    (c.put now k v ttl weight).value =
      (false, c.count fun s => { s with bypasses := s.bypasses + 1 })
  /-- A value that is heavier than the budget is refused. -/
  rejects : ∀ now k v ttl weight, c.serves k = true →
    c.options.maxWeight < weight.getD (c.weigh v) →
      (c.put now k v ttl weight).value.1 = false ∧
        c.Rejects now (c.put now k v ttl weight).value.2
  /-- A value that is stored drops no more than it has to. -/
  accepts : ∀ now k v ttl weight, (c.put now k v ttl weight).value.1 = true →
    c.Accepts now k ⟨v, weight.getD (c.weigh v), deadlineOf now (ttl.getD c.options.defaultTtl)⟩
      (c.put now k v ttl weight).value.2

namespace Shows

theorem rejects (h : c.Shows o g l s) (hl : load l < 2 ^ 64)
    (hb : (o.enabled && k.cacheable) = true)
    (hw : 0 < o.maxWeight ∧ o.maxWeight < weight.getD (g v)) :
    c.Rejects now (c.put now k v ttl weight).value.2 := by
  obtain ⟨-, hd⟩ := h.put_of_heavy now ttl hb hw
  have hle := load_le_of_sublist (List.filter_sublist (l := l) (p := Slot.isLive now))
  refine ⟨by rw [hd.slots_eq, h.slots_eq], ?_, ?_⟩
  · rw [hd.slots_eq]
    exact hd.toNat_weight (by omega)
  · rw [hd.stats, h.stats, h.slots_eq]

theorem accepts (h : c.Shows o g l s) (h0 : 0 < o.maxWeight) (h1 : o.maxWeight.toNat < 2 ^ 63)
    (hl : WithinBudget o l) (hk : Stores o k (weight.getD (g v))) :
    c.Accepts now k ⟨v, weight.getD (g v), deadlineOf now (ttl.getD o.defaultTtl)⟩
      (c.put now k v ttl weight).value.2 := by
  obtain ⟨-, hd⟩ := h.put (v := v) now ttl hk.1 hk.2
  have hlive : WithinBudget o (l.filter (Slot.isLive now)) := hl.of_sublist List.filter_sublist
  obtain ⟨kept, hkept, hspares⟩ := spares_placed
    (e := ⟨v, weight.getD (g v), deadlineOf now (ttl.getD o.defaultTtl)⟩) h0 h1 hk hlive
  refine ⟨⟨kept, ?_, ?_⟩, ?_⟩
  · rw [hd.slots_eq, hkept]
  · rw [h.options, h.slots_eq]
    exact hspares
  · have hfitted := (fitted_sublist o (weight.getD (g v))
      (without k (l.filter (Slot.isLive now)))).length_le
    have hdropped := (shed_sublist (crowded o) (placed o k
      ⟨v, weight.getD (g v), deadlineOf now (ttl.getD o.defaultTtl)⟩
      (l.filter (Slot.isLive now)))).length_le
    rw [hkept] at hdropped
    rw [hd.stats, hd.slots_eq, h.stats, h.slots_eq, hkept]
    simp only [placed, List.length_cons] at hdropped ⊢
    congr 1
    omega

theorem stores_of_put (h : c.Shows o g l s) (hp : (c.put now k v ttl weight).value.1 = true) :
    Stores o k (weight.getD (g v)) := by
  constructor
  · by_contra hb
    rw [Bool.not_eq_true] at hb
    rw [(h.put_of_bypass now v ttl weight hb).1] at hp
    exact Bool.noConfusion hp
  · intro hw
    cases hb : o.enabled && k.cacheable with
    | false =>
      rw [(h.put_of_bypass now v ttl weight hb).1] at hp
      exact Bool.noConfusion hp
    | true =>
      rw [(h.put_of_heavy now ttl hb hw).1] at hp
      exact Bool.noConfusion hp

/-- **A value that is stored is in front of some slots of the other keys**, those used last; the
rest of them is counted as evicted. -/
theorem put_kept (h : c.Shows o g l s) (now : Int64) (ttl : Option Int64)
    (hk : Stores o k (weight.getD (g v))) :
    (c.put now k v ttl weight).value.1 = true ∧
      ∃ kept, kept <+: without k (l.filter (Slot.isLive now)) ∧
        (c.put now k v ttl weight).value.2.Shows o g
          ((k, ⟨v, weight.getD (g v), deadlineOf now (ttl.getD o.defaultTtl)⟩) :: kept)
          { s with
            expirations := s.expirations + expired now l
            evictions := s.evictions +
              ((without k (l.filter (Slot.isLive now))).length - kept.length)
            sets := s.sets + 1 } := by
  obtain ⟨htrue, hd⟩ := h.put (v := v) now ttl hk.1 hk.2
  have hfitted := fitted_prefix o (weight.getD (g v)) (without k (l.filter (Slot.isLive now)))
  obtain ⟨kept, hkept, hpre, -⟩ := shed_crowded_cons o
    (k, ⟨v, weight.getD (g v), deadlineOf now (ttl.getD o.defaultTtl)⟩)
    (fitted o (weight.getD (g v)) (without k (l.filter (Slot.isLive now))))
  have hfirst := hpre.length_le
  have hlast := hfitted.length_le
  simp only [placed, hkept, List.length_cons] at hd
  -- Some leave for the budget and some for the number of entries; together they are the rest.
  have hcount : s.evictions + ((without k (l.filter (Slot.isLive now))).length -
      (fitted o (weight.getD (g v)) (without k (l.filter (Slot.isLive now)))).length) +
      ((fitted o (weight.getD (g v)) (without k (l.filter (Slot.isLive now)))).length + 1 -
        (kept.length + 1)) =
      s.evictions + ((without k (l.filter (Slot.isLive now))).length - kept.length) := by
    omega
  rw [hcount] at hd
  exact ⟨htrue, kept, hpre.trans hfitted, hd⟩

/-- **A cache that holds slots within the budget keeps it.** -/
theorem keepsBudget_of_within (h : c.Shows o g l s) (h0 : 0 < o.maxWeight)
    (h1 : o.maxWeight.toNat < 2 ^ 63) (hl : WithinBudget o l) : c.KeepsBudget := by
  have hle : load l ≤ o.maxWeight.toNat := hl (UInt64.pos_iff_ne_zero.1 h0)
  have hserves : ∀ k, c.serves k = (o.enabled && k.cacheable) := fun k => h.serves_eq
  refine ⟨?_, ?_, ?_, ?_, ?_, ?_⟩
  · rw [h.slots_eq]
    exact h.entries.symm
  · rw [load_perm h.entries, h.options]
    exact hle
  · rw [load_perm h.entries]
    exact h.toNat_weight (by omega)
  · intro now k v ttl weight hb
    rw [Cache.put, hb]
    rfl
  · intro now k v ttl weight hb hw
    rw [hserves] at hb
    rw [h.options, h.weigh] at hw
    exact ⟨(h.put_of_heavy now ttl hb ⟨h0, hw⟩).1, h.rejects (by omega) hb ⟨h0, hw⟩⟩
  · intro now k v ttl weight ha
    rw [h.options, h.weigh]
    exact h.accepts h0 h1 hl (h.stores_of_put ha)

/-- A request leaves slots within the budget. -/
theorem Fate.within {l' : List (Slot V)} (hf : Fate o l l') (h1 : o.maxWeight.toNat < 2 ^ 63)
    (hl : WithinBudget o l) : WithinBudget o l' := by
  cases hf with
  | @stay r l' hr hp =>
    intro hb
    rw [load_perm hp]
    exact hl.of_sublist hr hb
  | @store r k e hr hk =>
    exact (withinBudget_placed h1 hk (hl.of_sublist hr)).of_sublist (shed_sublist _ _)

theorem after (h : c.Shows o g l s) (h1 : o.maxWeight.toNat < 2 ^ 63) (hl : WithinBudget o l)
    (rs : List (Int64 × CacheRequest V)) :
    ∃ l' s', (c.after rs).Shows o g l' s' ∧ WithinBudget o l' := by
  induction rs generalizing c l s with
  | nil => exact ⟨l, s, h, hl⟩
  | cons q rs ih =>
    obtain ⟨l', s', h', hf⟩ := h.serve q.1 q.2
    exact ih h' (hf.within h1 hl)

end Shows

/-- **Every state that a program meets keeps the budget**, also inside of computations and
transactions. -/
theorem keepsBudget {o : CacheOptions} (h0 : 0 < o.maxWeight) (h1 : o.maxWeight.toNat < 2 ^ 63)
    (g : V → UInt64) {t : Int64} {ps : List (CacheStep V)} {m : Timed V}
    (h : Timed.Meets ⟨Cache.new o g, t⟩ ps m) : m.cache.KeepsBudget := by
  obtain ⟨rs, hrs⟩ := h.eq_after
  obtain ⟨l, s, hshows, hl⟩ := (Shows.new o g).after h1 (fun _ => Nat.zero_le _) rs
  rw [hrs]
  exact hshows.keepsBudget_of_within h0 h1 hl

/-- A value is replaced by a heavier one while a missing value is computed, and another one is
dropped for it. -/
theorem keepsBudget_of_heavier_value :
    ∃ c : Cache Nat, c.KeepsBudget ∧ c.slots.map Prod.fst = [⟨0, 2, true⟩, ⟨0, 3, true⟩] ∧
      c.weight = 9 ∧ c.stats.evictions = 1 := by
  have hmeets : ∃ m : Timed Nat, Timed.Meets ⟨Cache.new { maxWeight := 10 } UInt64.ofNat, 0⟩
      [.put ⟨0, 1, true⟩ 4 none none, .put ⟨0, 2, true⟩ 2 none none,
        .put ⟨0, 3, true⟩ 3 none none,
        .compute ⟨0, 4, true⟩ none [.put ⟨0, 2, true⟩ 6 none none] (.ok 1)] m ∧
      m.cache.slots.map Prod.fst = [⟨0, 2, true⟩, ⟨0, 3, true⟩] ∧ m.cache.weight = 9 ∧
      m.cache.stats.evictions = 1 :=
    ⟨_, .later (.later (.later (.compute rfl (.later (.here _ _))))), rfl, rfl, rfl⟩
  obtain ⟨m, hm, hslots, hweight, hevictions⟩ := hmeets
  exact ⟨m.cache, keepsBudget (by decide) (by decide) _ hm, hslots, hweight, hevictions⟩

/-- A value that is too heavy, under a key that is not served, is not counted as refused. -/
theorem put_bypass_not_rejected :
    let c := Cache.new { maxWeight := 10 } fun _ : Nat => 1
    let r := (c.put 0 Fingerprint.uncacheable 1 none (some 11)).value
    c.options.maxWeight < 11 ∧ r.1 = false ∧ r.2.stats.rejected ≠ c.stats.rejected + 1 ∧
      r.2.stats.bypasses = c.stats.bypasses + 1 := by
  decide

/-! ## Room for a weight -/

variable {w : UInt64}

theorem toNat_load_add (w : UInt64) (l : List (Slot V)) :
    (UInt64.ofNat (load l) + w).toNat = (load l + w.toNat) % 2 ^ 64 := by
  rw [UInt64.toNat_add, UInt64.toNat_ofNat', Nat.mod_add_mod]

theorem overfull_eq_false_iff :
    overfull o w l = false ↔ (load l + w.toNat) % 2 ^ 64 ≤ o.maxWeight.toNat := by
  rw [overfull, decide_eq_false_iff_not, UInt64.lt_iff_toNat_lt, toNat_load_add, Nat.not_lt]

/-- **A weight seems to fit beside slots**: the exact sum needs more than 64 bits, and what is left
of it in 64 bits is within the budget. -/
def SeemsToFit (o : CacheOptions) (w : UInt64) (l : List (Slot V)) : Prop :=
  2 ^ 64 ≤ load l + w.toNat ∧ (load l + w.toNat) % 2 ^ 64 ≤ o.maxWeight.toNat

/-- What stays beside a weight leaves room for it, unless the weight seemed to fit on the way. -/
theorem fits_fitted_iff (h0 : 0 < o.maxWeight) (w : UInt64) (l : List (Slot V)) :
    (fitted o w l = [] ∨ load (fitted o w l) + w.toNat ≤ o.maxWeight.toNat) ↔
      ∀ r, r <+: l → ¬ SeemsToFit o w r := by
  have hmost : o.maxWeight.toNat < 2 ^ 64 := o.maxWeight.toNat_lt
  have hshed := shed_prefix (overfull o w) l
  rw [fitted, if_neg (UInt64.pos_iff_ne_zero.1 h0)]
  constructor
  · rintro hfits r hr ⟨hbeyond, hwrapped⟩
    -- Nothing is dropped any more once the weight seems to fit, so all of `r` stays.
    have hlen : r.length ≤ (shed (overfull o w) l).length := by
      by_contra hlt
      have hlong := shed_longest hr (Nat.lt_of_not_le hlt)
      rw [overfull_eq_false_iff.2 hwrapped] at hlong
      exact Bool.noConfusion hlong
    have hstays : r <+: shed (overfull o w) l :=
      List.prefix_of_prefix_length_le hr hshed hlen
    have hload := load_le_of_sublist hstays.sublist
    obtain hnil | hfits := hfits
    · have hw := w.toNat_lt
      rw [hnil] at hload
      simp only [load, List.map_nil, List.sum_nil] at hload hbeyond
      omega
    · omega
  · intro hseems
    obtain hfull | hnil := shed_fits (overfull o w) l
    · have hwrapped := overfull_eq_false_iff.1 hfull
      have hwithin : load (shed (overfull o w) l) + w.toNat < 2 ^ 64 := by
        by_contra hbeyond
        exact hseems _ hshed ⟨Nat.le_of_not_lt hbeyond, hwrapped⟩
      rw [Nat.mod_eq_of_lt hwithin] at hwrapped
      exact .inr hwrapped
    · exact .inl hnil

/-- Within the budget a weight seems to fit as soon as the exact sum needs more than 64 bits. -/
theorem forall_not_seemsToFit_iff (hl : load l ≤ o.maxWeight.toNat) :
    (∀ r, r <+: l → ¬ SeemsToFit o w r) ↔ load l + w.toNat < 2 ^ 64 := by
  have hw := w.toNat_lt
  constructor
  · intro hseems
    by_contra hbeyond
    refine hseems l (List.prefix_refl l) ⟨Nat.le_of_not_lt hbeyond, ?_⟩
    omega
  · rintro hwithin r hr ⟨hbeyond, -⟩
    have hload := load_le_of_sublist hr.sublist
    omega

/-- **Room is made for a weight**: the cache is empty or the weight fits in the budget beside what
is left, by the exact sum; and when it fits already beside what has not come to its end, nothing is
evicted. -/
structure MakesRoom (c : Cache V) (now : Int64) (w : UInt64) : Prop where
  fits : (c.makeRoom now w).value.2.entries = [] ∨
    load (c.makeRoom now w).value.2.entries + w.toNat ≤ c.options.maxWeight.toNat
  spares : load (c.slots.filter (Slot.isLive now)) + w.toNat ≤ c.options.maxWeight.toNat →
    (c.makeRoom now w).value.1 = 0 ∧
      (c.makeRoom now w).value.2.slots = c.slots.filter (Slot.isLive now)

namespace Shows

theorem entries_eq_nil_iff (h : c.Shows o g l s) : c.entries = [] ↔ l = [] := by
  rw [← List.length_eq_zero_iff, h.entries.length_eq, List.length_eq_zero_iff]

theorem makesRoom_iff_fitted (h : c.Shows o g l s) (h0 : 0 < o.maxWeight) :
    c.MakesRoom now w ↔ fitted o w (l.filter (Slot.isLive now)) = [] ∨
      load (fitted o w (l.filter (Slot.isLive now))) + w.toNat ≤ o.maxWeight.toNat := by
  obtain ⟨hanswer, hroom⟩ := h.makeRoom now w
  have hfits : ((c.makeRoom now w).value.2.entries = [] ∨
      load (c.makeRoom now w).value.2.entries + w.toNat ≤ c.options.maxWeight.toNat) ↔
      (fitted o w (l.filter (Slot.isLive now)) = [] ∨
        load (fitted o w (l.filter (Slot.isLive now))) + w.toNat ≤ o.maxWeight.toNat) := by
    rw [hroom.entries_eq_nil_iff, load_perm hroom.entries, h.options]
  refine ⟨fun hm => hfits.1 hm.fits, fun hf => ⟨hfits.2 hf, fun hload => ?_⟩⟩
  rw [h.slots_eq, h.options] at hload
  -- The sum is exact, so the loop does not run.
  have hmost := o.maxWeight.toNat_lt
  have hstays : fitted o w (l.filter (Slot.isLive now)) = l.filter (Slot.isLive now) := by
    rw [fitted, if_neg (UInt64.pos_iff_ne_zero.1 h0)]
    refine shed_of_not (overfull_eq_false_iff.2 ?_)
    rwa [Nat.mod_eq_of_lt (by omega)]
  rw [hanswer, hroom.slots_eq, h.slots_eq, hstays]
  exact ⟨Nat.sub_self _, rfl⟩

end Shows

/-- **Room is made for a weight** just when it does not seem to fit beside any of the entries used
last that have not come to their end. When the budget is less than half of what 64 bits hold, that
is when the exact sum with the weight needs no more than 64 bits. -/
theorem makesRoom_iff {o : CacheOptions} (h0 : 0 < o.maxWeight) (g : V → UInt64)
    (rs : List (Int64 × CacheRequest V)) (now : Int64) (w : UInt64) :
    let c := (new o g).after rs
    (c.MakesRoom now w ↔ ∀ r, r <+: c.slots.filter (Slot.isLive now) → ¬ SeemsToFit o w r) ∧
    (o.maxWeight.toNat < 2 ^ 63 →
      (c.MakesRoom now w ↔ load (c.slots.filter (Slot.isLive now)) + w.toNat < 2 ^ 64)) := by
  intro c
  constructor
  · obtain ⟨l, s, hshows⟩ := (Shows.new o g).reached rs
    rw [hshows.makesRoom_iff_fitted h0, fits_fitted_iff h0, hshows.slots_eq]
  · intro h1
    obtain ⟨l, s, hshows, hl⟩ := (Shows.new o g).after h1 (fun _ => Nat.zero_le _) rs
    have hlive : WithinBudget o (l.filter (Slot.isLive now)) := hl.of_sublist List.filter_sublist
    rw [hshows.makesRoom_iff_fitted h0, fits_fitted_iff h0, hshows.slots_eq]
    exact forall_not_seemsToFit_iff (hlive (UInt64.pos_iff_ne_zero.1 h0))

/-- The largest weight there is, beside an entry of half the budget: the sum of 64 bits is less than
what is there already, and nothing leaves. -/
theorem not_makesRoom_of_wrapped_sum :
    let c := (new { maxWeight := 10 } fun _ : Nat => 1).after
      [(0, .put ⟨0, 1, true⟩ 7 none (some 5))]
    (0 : UInt64) < 10 ∧ ¬ c.MakesRoom 0 18446744073709551615 ∧
      (c.makeRoom 0 18446744073709551615).value.1 = 0 ∧ c.MakesRoom 0 18446744073709551610 ∧
      (c.makeRoom 0 18446744073709551610).value.1 = 1 := by
  have hiff := fun w => (makesRoom_iff (o := { maxWeight := 10 }) (by decide) (fun _ : Nat => 1)
    [(0, .put ⟨0, 1, true⟩ 7 none (some 5))] 0 w).2 (by decide)
  refine ⟨by decide, fun h => ?_, by decide +kernel, (hiff _).2 (by decide +kernel),
    by decide +kernel⟩
  exact absurd ((hiff _).1 h) (by decide +kernel)

/-! ## Caches without bounds -/

/-- **A cache drops nothing for a new value**: it stores each that it serves, whatever it weighs,
and all other slots that have not come to their end stay. -/
def Boundless (c : Cache V) : Prop :=
  ∀ now k v ttl weight, c.serves k = true →
    (c.put now k v ttl weight).value.1 = true ∧
      (c.put now k v ttl weight).value.2.slots =
        (k, ⟨v, weight.getD (c.weigh v), deadlineOf now (ttl.getD c.options.defaultTtl)⟩) ::
          without k (c.slots.filter (Slot.isLive now))

theorem Shows.boundless (h : c.Shows o g l s) (hw : o.maxWeight = 0) (hn : o.maxEntries = 0) :
    c.Boundless := by
  intro now k v ttl weight hk
  rw [h.serves_eq] at hk
  have hlight : ¬ (0 < o.maxWeight ∧ o.maxWeight < weight.getD (g v)) := by simp [hw]
  obtain ⟨htrue, hd⟩ := h.put now ttl hk hlight
  have hall : ∀ r : List (Slot V), shed (crowded o) r = r := fun r =>
    shed_of_not (by simp [crowded, hn])
  rw [hd.slots_eq, hall, placed, fitted, if_pos hw, h.weigh, h.options, h.slots_eq]
  exact ⟨htrue, rfl⟩

end Cache

end MemoFlow
