import Mathlib.Algebra.Order.Ring.Int
import Mathlib.Data.List.Induction
import Mathlib.Data.List.Nodup
import MemoFlow.Cache.Program

/-!
# The entries of a cache in their order of use

The three structures of a cache hold one list between them: the entries with their keys, the one
used last first.

* `Slot`, `Slot.isLive`, `Cache.deadlines`, `Cache.load`: entries with their keys, and what the
  structures say of a list of them;
* `shed`: what is left when items are taken from the end of a list;
* **`Cache.Shows`**: a cache holds exactly the slots of a list;
* `Cache.Shows.unlink`, `Cache.Shows.touch`, `Cache.Shows.push`, `Cache.Shows.evictColdest`: single
  changes;
* **`Cache.Shows.purge`**, `Cache.Shows.makeRoomFor`, `Cache.Shows.trimUpTo`: the loops.
-/

namespace MemoFlow

variable {V : Type}

/-- An entry with its key. -/
abbrev Slot (V : Type) : Type := Fingerprint × CacheEntry V

/-- Whether the deadline of a slot has not come. -/
def Slot.isLive (now : Int64) (p : Slot V) : Bool :=
  match p.2.deadline with
  | none => true
  | some d => decide (now < d)

/-! ## Lists of slots -/

/-- What is left of a list, given backwards, when items are taken from its end while `p` holds of
what is left. -/
def shedReverse {α : Type} (p : List α → Bool) : List α → List α
  | [] => []
  | a :: r => if p (a :: r).reverse then shedReverse p r else a :: r

/-- What is left of a list when items are taken from its end while `p` holds of what is left. -/
def shed {α : Type} (p : List α → Bool) (l : List α) : List α := (shedReverse p l.reverse).reverse

theorem shed_concat {α : Type} (p : List α → Bool) (l : List α) (a : α) :
    shed p (l ++ [a]) = if p (l ++ [a]) then shed p l else l ++ [a] := by
  simp only [shed, List.reverse_append, List.reverse_cons, List.reverse_nil, List.nil_append,
    List.singleton_append, shedReverse, List.reverse_reverse]
  split <;> simp

theorem shed_of_not {α : Type} {p : List α → Bool} {l : List α} (h : p l = false) :
    shed p l = l := by
  rcases List.eq_nil_or_concat l with rfl | ⟨l', a, rfl⟩
  · rfl
  · rw [List.concat_eq_append] at h ⊢
    rw [shed_concat, h]
    rfl

theorem shed_sublist {α : Type} (p : List α → Bool) (l : List α) : (shed p l).Sublist l := by
  induction l using List.reverseRecOn with
  | nil => exact .slnil
  | append_singleton l a ih =>
    rw [shed_concat]
    split
    · exact ih.trans (List.sublist_append_left l [a])
    · exact .refl _

namespace Cache

/-- The deadlines of slots. -/
def deadlines (l : List (Slot V)) : List (Int64 × Fingerprint) :=
  l.filterMap fun p => p.2.deadline.map fun d => (d, p.1)

/-- The exact sum of the weights of slots. -/
def load (l : List (Slot V)) : Nat := (l.map fun p => p.2.weight.toNat).sum

/-- The slots of the other keys. -/
def without (k : Fingerprint) (l : List (Slot V)) : List (Slot V) := l.filter fun p => p.1 ≠ k

/-- The number of slots whose deadline has come. -/
def expired (now : Int64) (l : List (Slot V)) : Nat := l.countP fun p => !p.isLive now

/-- Whether a weight does not fit beside slots, by the 64-bit sum. -/
def overfull (o : CacheOptions) (w : UInt64) (l : List (Slot V)) : Bool :=
  decide (o.maxWeight < UInt64.ofNat (load l) + w)

/-- The slots that stay beside a weight, when there is a budget. -/
def fitted (o : CacheOptions) (w : UInt64) (l : List (Slot V)) : List (Slot V) :=
  if o.maxWeight = 0 then l else shed (overfull o w) l

/-- Whether there are more slots than the settings allow. -/
def crowded (o : CacheOptions) (l : List (Slot V)) : Bool :=
  decide (0 < o.maxEntries ∧ o.maxEntries.toNat < l.length)

theorem load_cons (p : Slot V) (l : List (Slot V)) : load (p :: l) = p.2.weight.toNat + load l := by
  simp [load]

theorem load_perm {l r : List (Slot V)} (h : l.Perm r) : load l = load r := (h.map _).sum_nat

theorem mem_deadlines {l : List (Slot V)} {d : Int64} {k : Fingerprint} :
    (d, k) ∈ deadlines l ↔ ∃ e, (k, e) ∈ l ∧ e.deadline = some d := by
  simp only [deadlines, List.mem_filterMap, Option.map_eq_some_iff, Prod.mk.injEq]
  constructor
  · rintro ⟨⟨k', e⟩, hm, d', hd, rfl, rfl⟩
    exact ⟨e, hm, hd⟩
  · rintro ⟨e, hm, hd⟩
    exact ⟨(k, e), hm, d, hd, rfl, rfl⟩

theorem fst_mem {l : List (Slot V)} {k : Fingerprint} {e : CacheEntry V} (h : (k, e) ∈ l) :
    k ∈ l.map Prod.fst := List.mem_map.2 ⟨_, h, rfl⟩

theorem without_eq_self {l : List (Slot V)} {k : Fingerprint} (h : k ∉ l.map Prod.fst) :
    without k l = l :=
  List.filter_eq_self.2 fun q hq => by
    have : q.1 ≠ k := fun e => h (e ▸ fst_mem (e := q.2) hq)
    simpa using this

theorem without_cons_self {l : List (Slot V)} {k : Fingerprint} (h : k ∉ l.map Prod.fst)
    (e : CacheEntry V) : without k ((k, e) :: l) = l := by
  rw [without, List.filter_cons_of_neg (by simp)]
  exact without_eq_self h

theorem without_cons_of_ne {k : Fingerprint} {p : Slot V} (h : p.1 ≠ k) (l : List (Slot V)) :
    without k (p :: l) = p :: without k l :=
  List.filter_cons_of_pos (by simpa using h)

theorem lookup_eq_some_iff {l : List (Slot V)} (hl : (l.map Prod.fst).Nodup) {k : Fingerprint}
    {e : CacheEntry V} : l.lookup k = some e ↔ (k, e) ∈ l := by
  induction l with
  | nil => simp
  | cons p r ih =>
    obtain ⟨a, f⟩ := p
    rw [List.map_cons, List.nodup_cons] at hl
    by_cases hk : k = a
    · subst hk
      have hn : (k, e) ∉ r := fun h => hl.1 (fst_mem h)
      simp [hn, eq_comm]
    · have hb : (k == a) = false := by simpa using hk
      rw [List.lookup_cons, hb, List.mem_cons, ih hl.2]
      simp [hk]

theorem perm_without {l : List (Slot V)} (hl : (l.map Prod.fst).Nodup) {k : Fingerprint}
    {e : CacheEntry V} (hm : (k, e) ∈ l) : l.Perm ((k, e) :: without k l) := by
  induction l with
  | nil => simp at hm
  | cons p r ih =>
    rw [List.map_cons, List.nodup_cons] at hl
    rcases List.mem_cons.1 hm with rfl | hm
    · rw [without_cons_self hl.1]
    · have hk : p.1 ≠ k := fun h => hl.1 (h ▸ fst_mem hm)
      rw [without_cons_of_ne hk]
      exact ((ih hl.2 hm).cons _).trans (List.Perm.swap _ _ _)

theorem map_fst_without (k : Fingerprint) (l : List (Slot V)) :
    (without k l).map Prod.fst = (l.map Prod.fst).filter fun a => a ≠ k := by
  rw [without, List.filter_map]
  rfl

theorem nodup_without {l : List (Slot V)} (hl : (l.map Prod.fst).Nodup) (k : Fingerprint) :
    ((without k l).map Prod.fst).Nodup := by
  rw [map_fst_without]
  exact hl.filter _

theorem without_concat {l : List (Slot V)} {p : Slot V} (hl : ((l ++ [p]).map Prod.fst).Nodup) :
    without p.1 (l ++ [p]) = l := by
  rw [List.map_append, List.map_singleton, List.nodup_append] at hl
  have hn : p.1 ∉ l.map Prod.fst := fun h => hl.2.2 p.1 h p.1 (by simp) rfl
  rw [without, List.filter_append, List.filter_cons_of_neg (by simp), List.filter_nil,
    List.append_nil]
  exact without_eq_self hn

/-! ## Caches that hold the slots of a list -/

/-- **A cache holds exactly the slots `l`**, the one used last first, with the settings `o`, the
weights `g` and the counters `s`. -/
structure Shows (c : Cache V) (o : CacheOptions) (g : V → UInt64) (l : List (Slot V))
    (s : CacheStats) : Prop where
  options : c.options = o
  weigh : c.weigh = g
  stats : c.stats = s
  nodup : (l.map Prod.fst).Nodup
  entries : c.entries.Perm l
  recency : c.recency = l.map Prod.fst
  expiry : c.expiry.Perm (deadlines l)
  ordered : c.expiry.Pairwise fun a b => a.1 ≤ b.1
  weight : c.weight = UInt64.ofNat (load l)

namespace Shows

variable {c : Cache V} {o : CacheOptions} {g : V → UInt64} {l : List (Slot V)} {s : CacheStats}
  {k : Fingerprint} {e : CacheEntry V}

theorem new (o : CacheOptions) (g : V → UInt64) : (Cache.new o g).Shows o g [] { } :=
  ⟨rfl, rfl, rfl, .nil, .nil, rfl, .nil, .nil, rfl⟩

theorem count (h : c.Shows o g l s) (f : CacheStats → CacheStats) :
    (c.count f).Shows o g l (f s) :=
  ⟨h.options, h.weigh, by rw [← h.stats]; rfl, h.nodup, h.entries, h.recency, h.expiry, h.ordered,
    h.weight⟩

theorem entry?_eq_some_iff (h : c.Shows o g l s) : c.entry? k = some e ↔ (k, e) ∈ l := by
  have hn : (c.entries.map Prod.fst).Nodup := (h.entries.map _).nodup_iff.2 h.nodup
  rw [Cache.entry?, lookup_eq_some_iff hn, h.entries.mem_iff]

theorem entry?_eq_lookup (h : c.Shows o g l s) : c.entry? k = l.lookup k := by
  refine Option.ext fun e => ?_
  rw [h.entry?_eq_some_iff, lookup_eq_some_iff h.nodup]

theorem size_eq (h : c.Shows o g l s) : c.size = l.length := h.entries.length_eq

/-! ### Single changes -/

theorem deadlines_unlink (h : c.Shows o g l s) (hm : (k, e) ∈ l) :
    (c.unlink k e).expiry.Perm (deadlines (without k l)) := by
  have hp := h.expiry.trans ((perm_without h.nodup hm).filterMap _)
  rw [Cache.unlink]
  cases he : e.deadline with
  | none => rwa [List.filterMap_cons_none (by simp [he])] at hp
  | some d =>
    rw [List.filterMap_cons_some (b := (d, k)) (by simp [he])] at hp
    have := hp.erase (d, k)
    rwa [List.erase_cons_head] at this

theorem unlink (h : c.Shows o g l s) (hm : (k, e) ∈ l) :
    (c.unlink k e).Shows o g (without k l) s where
  options := h.options
  weigh := h.weigh
  stats := h.stats
  nodup := nodup_without h.nodup k
  entries := h.entries.filter _
  recency := by
    change c.recency.erase k = _
    rw [h.recency, h.nodup.erase_eq_filter, map_fst_without]
    exact List.filter_congr fun a _ => by rw [Bool.eq_iff_iff]; simp
  expiry := h.deadlines_unlink hm
  ordered := by
    rw [Cache.unlink]
    cases e.deadline with
    | none => exact h.ordered
    | some d => exact h.ordered.sublist List.erase_sublist
  weight := by
    change c.weight - e.weight = _
    rw [h.weight, load_perm (perm_without h.nodup hm), load_cons, Nat.add_comm,
      UInt64.ofNat_add, UInt64.ofNat_toNat, UInt64.add_sub_cancel]

/-- The slot used now becomes the first one. -/
theorem touch (h : c.Shows o g l s) (hm : (k, e) ∈ l) :
    ({ c with recency := k :: c.recency.erase k } : Cache V).Shows o g ((k, e) :: without k l)
      s where
  options := h.options
  weigh := h.weigh
  stats := h.stats
  nodup := ((perm_without h.nodup hm).map _).nodup_iff.1 h.nodup
  entries := h.entries.trans (perm_without h.nodup hm)
  recency := congrArg (k :: ·) (h.unlink hm).recency
  expiry := h.expiry.trans ((perm_without h.nodup hm).filterMap _)
  ordered := h.ordered
  weight := by rw [← load_perm (perm_without h.nodup hm)]; exact h.weight

theorem perm_insertDeadline (d : Int64) (k : Fingerprint) (r : List (Int64 × Fingerprint)) :
    (insertDeadline d k r).Perm ((d, k) :: r) := by
  induction r with
  | nil => exact .refl _
  | cons a r ih =>
    rw [insertDeadline]
    split
    · exact .refl _
    · exact (ih.cons _).trans (List.Perm.swap _ _ _)

theorem ordered_insertDeadline (d : Int64) (k : Fingerprint) {r : List (Int64 × Fingerprint)}
    (hr : r.Pairwise fun a b => a.1 ≤ b.1) :
    (insertDeadline d k r).Pairwise fun a b => a.1 ≤ b.1 := by
  induction r with
  | nil => exact List.pairwise_singleton _ _
  | cons a r ih =>
    have ha := List.pairwise_cons.1 hr
    rw [insertDeadline]
    split
    · next hlt =>
      refine List.pairwise_cons.2 ⟨fun b hb => ?_, hr⟩
      rcases List.mem_cons.1 hb with rfl | hb
      · exact Int64.le_of_lt hlt
      · exact Int64.le_trans (Int64.le_of_lt hlt) (ha.1 b hb)
    · next hlt =>
      refine List.pairwise_cons.2 ⟨fun b hb => ?_, ih ha.2⟩
      rcases List.mem_cons.1 ((perm_insertDeadline d k r).mem_iff.1 hb) with rfl | hb
      · exact Int64.not_lt.1 hlt
      · exact ha.1 b hb

/-- A new slot is the first one. -/
theorem push (h : c.Shows o g l s) (hk : k ∉ l.map Prod.fst) (v : V) (w : UInt64)
    (d : Option Int64) :
    ({ c with
      entries := (k, ⟨v, w, d⟩) :: c.entries
      recency := k :: c.recency
      expiry := match d with
        | some d => insertDeadline d k c.expiry
        | none => c.expiry
      weight := c.weight + w
      stats := { c.stats with sets := c.stats.sets + 1 } } : Cache V).Shows o g
        ((k, ⟨v, w, d⟩) :: l) { s with sets := s.sets + 1 } where
  options := h.options
  weigh := h.weigh
  stats := by rw [← h.stats]
  nodup := List.nodup_cons.2 ⟨hk, h.nodup⟩
  entries := h.entries.cons _
  recency := congrArg (k :: ·) h.recency
  expiry := by
    cases d with
    | none => exact h.expiry
    | some d => exact (perm_insertDeadline d k _).trans (h.expiry.cons _)
  ordered := by
    cases d with
    | none => exact h.ordered
    | some d => exact ordered_insertDeadline d k h.ordered
  weight := by
    change c.weight + w = _
    rw [h.weight, load_cons, UInt64.ofNat_add, UInt64.ofNat_toNat, UInt64.add_comm]

/-- The slot used longest ago is dropped. -/
theorem evictColdest {p : Slot V} (h : c.Shows o g (l ++ [p]) s) :
    c.evictColdest.value.Shows o g l { s with evictions := s.evictions + 1 } := by
  have hk : c.recency.getLast? = some p.1 := by
    rw [h.recency, List.map_append, List.map_singleton, List.getLast?_concat]
  have he : c.entry? p.1 = some p.2 := h.entry?_eq_some_iff.2 (by simp)
  have hu := (h.unlink (k := p.1) (e := p.2) (by simp)).count fun s =>
    { s with evictions := s.evictions + 1 }
  rw [without_concat h.nodup] at hu
  simpa only [Cache.evictColdest, hk, he] using hu

/-! ### Loops -/

theorem isLive_of_later {now : Int64} (h : c.Shows o g l s) (hd : ∀ a ∈ c.expiry, now < a.1) :
    ∀ p ∈ l, Slot.isLive now p = true := by
  rintro ⟨k, e⟩ hp
  cases he : e.deadline with
  | none => simp [Slot.isLive, he]
  | some d =>
    have : (d, k) ∈ c.expiry := h.expiry.mem_iff.2 (mem_deadlines.2 ⟨e, hp, he⟩)
    simpa [Slot.isLive, he] using hd _ this

theorem filter_isLive_without {now : Int64} (h : c.Shows o g l s) (hm : (k, e) ∈ l)
    (he : Slot.isLive now (k, e) = false) :
    (without k l).filter (Slot.isLive now) = l.filter (Slot.isLive now) := by
  rw [without, List.filter_filter]
  refine List.filter_congr fun p hp => ?_
  cases hl : Slot.isLive now p with
  | false => rfl
  | true =>
    have : p.1 ≠ k := by
      rintro rfl
      have := (lookup_eq_some_iff h.nodup).2 hm
      rw [(lookup_eq_some_iff h.nodup).2 hp, Option.some.injEq] at this
      rw [← this, hl] at he
      exact Bool.noConfusion he
    simpa using this

/-- Nothing is dropped while the earliest deadline is still to come. -/
theorem filter_of_later {now : Int64} (h : c.Shows o g l s) (hd : ∀ a ∈ c.expiry, now < a.1) :
    0 = expired now l ∧ c.Shows o g (l.filter (Slot.isLive now))
      { s with expirations := s.expirations + expired now l } := by
  have hl := h.isLive_of_later hd
  have he : expired now l = 0 := List.countP_eq_zero.2 fun p hp => by simp [hl p hp]
  rw [he, List.filter_eq_self.2 hl]
  exact ⟨rfl, h⟩

theorem expired_without {now : Int64} (h : c.Shows o g l s) (hm : (k, e) ∈ l)
    (he : Slot.isLive now (k, e) = false) : expired now l = expired now (without k l) + 1 := by
  rw [expired, (perm_without h.nodup hm).countP_eq, List.countP_cons_of_pos (by simp [he])]
  rfl

theorem purgeUpTo {now : Int64} {n : Nat} (h : c.Shows o g l s) (hn : c.expiry.length ≤ n) :
    (Cache.purgeUpTo now n c).1 = expired now l ∧
      (Cache.purgeUpTo now n c).2.Shows o g (l.filter (Slot.isLive now))
        { s with expirations := s.expirations + expired now l } := by
  induction n generalizing c l s with
  | zero =>
    refine h.filter_of_later fun a ha => ?_
    rw [List.eq_nil_of_length_eq_zero (Nat.le_zero.1 hn)] at ha
    simp at ha
  | succ n ih =>
    rw [Cache.purgeUpTo]
    split
    · next hx => exact h.filter_of_later (by simp [hx])
    · next d k rest hx =>
      have ho := h.ordered
      rw [hx, List.pairwise_cons] at ho
      split
      · next hd =>
        obtain ⟨e, hm, he⟩ := mem_deadlines.1 (h.expiry.mem_iff.1 (hx ▸ List.mem_cons_self))
        have hdead : Slot.isLive now (k, e) = false := by simpa [Slot.isLive, he] using hd
        have hlen : (c.unlink k e).expiry.length ≤ n := by
          rw [hx, List.length_cons] at hn
          simp only [Cache.unlink, he, hx, List.erase_cons_head]
          omega
        have hi := ih ((h.unlink hm).count fun s =>
          { s with expirations := s.expirations + 1 }) hlen
        rw [h.filter_isLive_without hm hdead] at hi
        simp only [h.entry?_eq_some_iff.2 hm, h.expired_without hm hdead, hi.1, true_and]
        simpa only [Nat.add_assoc, Nat.add_comm 1] using hi.2
      · next hd =>
        refine h.filter_of_later fun a ha => ?_
        rw [hx] at ha
        rcases List.mem_cons.1 ha with rfl | ha
        · exact Int64.not_le.1 hd
        · exact Int64.lt_of_lt_of_le (Int64.not_le.1 hd) (ho.1 a ha)

/-- **Exactly the slots whose deadline has come are dropped.** -/
theorem purge (now : Int64) (h : c.Shows o g l s) :
    (c.purge now).value.1 = expired now l ∧
      (c.purge now).value.2.Shows o g (l.filter (Slot.isLive now))
        { s with expirations := s.expirations + expired now l } :=
  h.purgeUpTo (Nat.le_refl _)

theorem evictions_concat {p : List (Slot V) → Bool} (l : List (Slot V)) (a : Slot V)
    (hp : p (l ++ [a]) = true) :
    (l ++ [a]).length - (shed p (l ++ [a])).length = l.length - (shed p l).length + 1 := by
  have := (shed_sublist p l).length_le
  rw [shed_concat, if_pos hp, List.length_append, List.length_singleton]
  omega

theorem makeRoomUpTo {w : UInt64} {n : Nat} (h : c.Shows o g l s) (hn : l.length ≤ n) :
    (Cache.makeRoomUpTo w n c).value.1 = l.length - (shed (overfull o w) l).length ∧
      (Cache.makeRoomUpTo w n c).value.2.Shows o g (shed (overfull o w) l)
        { s with evictions := s.evictions + (l.length - (shed (overfull o w) l).length) } := by
  induction n generalizing c l s with
  | zero =>
    have hl : l = [] := List.eq_nil_of_length_eq_zero (Nat.le_zero.1 hn)
    subst hl
    exact ⟨rfl, h⟩
  | succ n ih =>
    have hw : (c.options.maxWeight < c.weight + w) ↔ overfull o w l = true := by
      rw [h.options, h.weight, overfull, decide_eq_true_iff]
    have he : c.entries.isEmpty = l.isEmpty := by
      rw [Bool.eq_iff_iff, List.isEmpty_iff_length_eq_zero, List.isEmpty_iff_length_eq_zero,
        h.entries.length_eq]
    rw [Cache.makeRoomUpTo]
    split
    · next hc =>
      simp only [Bool.and_eq_true, Bool.not_eq_true', decide_eq_true_eq, hw, he] at hc
      rcases List.eq_nil_or_concat l with rfl | ⟨r, a, rfl⟩
      · simp at hc
      · rw [List.concat_eq_append] at h hn hc ⊢
        have hi := ih h.evictColdest
          (by rw [List.length_append, List.length_singleton] at hn; omega)
        rw [evictions_concat r a hc.2, shed_concat, if_pos hc.2]
        simp only [Told.value_bind, Told.value_pure, hi.1, true_and]
        simpa only [Nat.add_assoc, Nat.add_comm 1] using hi.2
    · next hc =>
      have hs : shed (overfull o w) l = l := by
        rcases List.eq_nil_or_concat l with rfl | ⟨r, a, rfl⟩
        · rfl
        · refine shed_of_not ?_
          simpa [he, hw] using hc
      rw [hs, Nat.sub_self]
      exact ⟨rfl, h⟩

/-- **Slots leave from the end until the weight fits** by the 64-bit sum. -/
theorem makeRoomFor (w : UInt64) (h : c.Shows o g l s) :
    (c.makeRoomFor w).value.1 = l.length - (fitted o w l).length ∧
      (c.makeRoomFor w).value.2.Shows o g (fitted o w l)
        { s with evictions := s.evictions + (l.length - (fitted o w l).length) } := by
  rw [Cache.makeRoomFor, fitted, h.options]
  split
  · rw [Nat.sub_self]
    exact ⟨rfl, h⟩
  · exact h.makeRoomUpTo (Nat.le_of_eq h.size_eq.symm)

/-- **Slots leave from the end until there are not too many.** -/
theorem trimUpTo {n : Nat} (h : c.Shows o g l s) (hn : l.length ≤ n) :
    (Cache.trimUpTo n c).value.Shows o g (shed (crowded o) l)
      { s with evictions := s.evictions + (l.length - (shed (crowded o) l).length) } := by
  induction n generalizing c l s with
  | zero =>
    have hl : l = [] := List.eq_nil_of_length_eq_zero (Nat.le_zero.1 hn)
    subst hl
    exact h
  | succ n ih =>
    have hc : (0 < c.options.maxEntries ∧ c.options.maxEntries.toNat < c.size) ↔
        crowded o l = true := by
      rw [h.options, h.size_eq, crowded, decide_eq_true_iff]
    rw [Cache.trimUpTo]
    split
    · next hp =>
      rw [hc] at hp
      rcases List.eq_nil_or_concat l with rfl | ⟨r, a, rfl⟩
      · simp [crowded] at hp
      · rw [List.concat_eq_append] at h hn hp ⊢
        have hi := ih h.evictColdest
          (by rw [List.length_append, List.length_singleton] at hn; omega)
        rw [evictions_concat r a hp, shed_concat, if_pos hp]
        simpa only [Told.value_bind, Nat.add_assoc, Nat.add_comm 1] using hi
    · next hp =>
      rw [hc, Bool.not_eq_true] at hp
      rw [shed_of_not hp, Nat.sub_self]
      exact h

end Shows

end Cache

end MemoFlow
