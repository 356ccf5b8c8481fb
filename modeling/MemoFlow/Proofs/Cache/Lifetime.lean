import MemoFlow.Cache.Suite
import MemoFlow.Proofs.Cache.Budget

/-!
# How long an entry lives

An entry that is stored with a life time is found until the clock has gone on by it, unless a
request takes it out before. Life times and readings of the clock have 64 bits, and so has the
deadline that is made of them: a life time that goes beyond leaves an entry that nobody finds.

* `Cache.evicted`, `Cache.Renews`, **`Cache.Ousts`**: how a request takes an entry out whose
  deadline has not come;
* `Cache.Throughout`: a property of each request of a sequence, in the state that it meets;
* **`Cache.KeepsTime`**: an entry is found just as long as it should be;
* `Cache.Shows.serve_told`, `Cache.Shows.after_stays`, `Cache.Shows.after_old`: what a request and a
  sequence of them leave of the slots and bring in;
* `Cache.keepsTime_iff_isLive`: the deadline of an entry decides;
* `Cache.Shows.keepsTime_put`: how long a stored value lives;
* `CacheSuite.ofVariables`: the caches that variables ask for;
* **`Cache.keepsTime_iff`**: life times that are given, and those of the settings.
-/

namespace MemoFlow

variable {V : Type}

namespace Cache

/-! ## How entries are taken out -/

/-- The slots that a request may evict: those that have not come to their end and are not of the key
of a store, the one used last first. -/
def evictable (c : Cache V) (now : Int64) : CacheRequest V → List (Slot V)
  | .put k _ _ _ => without k (c.slots.filter (Slot.isLive now))
  | _ => c.slots.filter (Slot.isLive now)

/-- **The slots that a request evicts**: of those that it may evict, the ones used longest ago, as
many as it counts. -/
def evicted (c : Cache V) (now : Int64) (r : CacheRequest V) : List (Slot V) :=
  (c.evictable now r).drop ((c.evictable now r).length -
    ((c.serve now r).2.stats.evictions - c.stats.evictions))

/-- A request stores a value under a key. -/
def Renews (c : Cache V) (now : Int64) (k : Fingerprint) (r : CacheRequest V) : Prop :=
  ∃ v ttl weight, r = .put k v ttl weight ∧ (c.put now k v ttl weight).value.1 = true

/-- **A request takes the entry of a key out** though its deadline has not come. -/
inductive Ousts (c : Cache V) (now : Int64) (k : Fingerprint) : CacheRequest V → Prop where
  /-- It is evicted. -/
  | evicted {r : CacheRequest V} (h : k ∈ (c.evicted now r).map Prod.fst) : Ousts c now k r
  /-- Another value takes its place. -/
  | replaced {r : CacheRequest V} (h : c.Renews now k r) : Ousts c now k r
  /-- It is dropped by name. -/
  | invalidated : Ousts c now k (.invalidate k)
  /-- Everything is dropped. -/
  | cleared : Ousts c now k .clear

/-- A property of each request of a sequence, in the state that it meets. -/
def Throughout (P : Cache V → Int64 → CacheRequest V → Prop) :
    Cache V → List (Int64 × CacheRequest V) → Prop
  | _, [] => True
  | c, q :: rs => P c q.1 q.2 ∧ Throughout P (c.serve q.1 q.2).2 rs

/-- **The value that was stored under a key at the reading `t` lives for `life` nanoseconds**, while
the clock does not go back: a look-up finds it before `t + life`, unless a request has taken it out,
and none finds anything from then on, unless a value has been stored again. -/
structure KeepsTime (c : Cache V) (t : Int64) (k : Fingerprint) (v : V) (life : Int) : Prop where
  found : ∀ (rs : List (Int64 × CacheRequest V)) (t' : Int64),
    (t :: (rs.map Prod.fst ++ [t'])).Pairwise (· ≤ ·) →
    Throughout (fun d now r => ¬ d.Ousts now k r) c rs →
    t'.toInt < t.toInt + life → ((c.after rs).get t' k).value.1 = some v
  gone : ∀ (rs : List (Int64 × CacheRequest V)) (t' : Int64),
    (t :: (rs.map Prod.fst ++ [t'])).Pairwise (· ≤ ·) →
    Throughout (fun d now r => ¬ d.Renews now k r) c rs →
    t.toInt + life ≤ t'.toInt → ((c.after rs).get t' k).value.1 = none

variable {c : Cache V} {o : CacheOptions} {g : V → UInt64} {l l' : List (Slot V)} {s : CacheStats}
  {t now : Int64} {k : Fingerprint} {v : V} {e : CacheEntry V} {ttl : Option Int64}
  {weight : Option UInt64} {p : Slot V}

/-- What a request that counts the rest as evicted does not keep is evicted. -/
theorem mem_or_mem_evicted {r : CacheRequest V} {others kept : List (Slot V)}
    (hothers : c.evictable now r = others) (hkept : kept <+: others)
    (hcount : (c.serve now r).2.stats.evictions =
      c.stats.evictions + (others.length - kept.length))
    (hp : p ∈ others) : p ∈ kept ∨ p ∈ c.evicted now r := by
  have hlen : others.length - ((c.serve now r).2.stats.evictions - c.stats.evictions) =
      kept.length := by
    have := hkept.length_le
    omega
  rw [evicted, hothers, hlen, ← List.mem_append]
  obtain ⟨rest, rfl⟩ := hkept
  rwa [List.drop_left]

/-! ## One request -/

namespace Shows

theorem evictable_put (h : c.Shows o g l s) : c.evictable now (.put k v ttl weight) =
    without k (l.filter (Slot.isLive now)) := by
  rw [← h.slots_eq]
  rfl

theorem evictable_room (h : c.Shows o g l s) (w : UInt64) :
    c.evictable now (.room w) = l.filter (Slot.isLive now) := by
  rw [← h.slots_eq]
  rfl

/-- **What a request leaves of the slots, and what it brings in**: nothing but a value that it
stores comes in, and no slot leaves before its deadline but those that the request takes out. -/
theorem serve_told (h : c.Shows o g l s) (now : Int64) (r : CacheRequest V) :
    ∃ l' s', (c.serve now r).2.Shows o g l' s' ∧
      (∀ p ∈ l', p ∈ l ∨ c.Renews now p.1 r) ∧
      ∀ p ∈ l, Slot.isLive now p = true → ¬ c.Ousts now p.1 r → p ∈ l' := by
  have hlive : ∀ p ∈ l.filter (Slot.isLive now), p ∈ l := fun p hp => List.mem_of_mem_filter hp
  have hmem : ∀ p ∈ l, Slot.isLive now p = true → p ∈ l.filter (Slot.isLive now) :=
    fun p hp hp' => List.mem_filter.2 ⟨hp, hp'⟩
  cases r with
  | get k =>
    cases hb : o.enabled && k.cacheable with
    | false =>
      exact ⟨_, _, (h.get_of_bypass now hb).2, fun p hp => .inl hp, fun p hp _ _ => hp⟩
    | true =>
      cases hk : (l.filter (Slot.isLive now)).lookup k with
      | none =>
        exact ⟨_, _, (h.get_of_none hb hk).2, fun p hp => .inl (hlive p hp),
          fun p hp hp' _ => hmem p hp hp'⟩
      | some e =>
        have hpurged := (h.purge now).2
        have hperm := perm_without hpurged.nodup ((lookup_eq_some_iff hpurged.nodup).1 hk)
        exact ⟨_, _, (h.get_of_some hb hk).2, fun p hp => .inl (hlive p (hperm.mem_iff.2 hp)),
          fun p hp hp' _ => hperm.mem_iff.1 (hmem p hp hp')⟩
  | put k v ttl weight =>
    cases hb : o.enabled && k.cacheable with
    | false =>
      exact ⟨_, _, (h.put_of_bypass now v ttl weight hb).2, fun p hp => .inl hp,
        fun p hp _ _ => hp⟩
    | true =>
      by_cases hw : 0 < o.maxWeight ∧ o.maxWeight < weight.getD (g v)
      · exact ⟨_, _, (h.put_of_heavy now ttl hb hw).2, fun p hp => .inl (hlive p hp),
          fun p hp hp' _ => hmem p hp hp'⟩
      · obtain ⟨htrue, kept, hkept, hd⟩ := h.put_kept now ttl ⟨hb, hw⟩
        have hrenews : c.Renews now k (.put k v ttl weight) := ⟨v, ttl, weight, rfl, htrue⟩
        refine ⟨_, _, hd, fun p hp => ?_, fun p hp hp' hout => ?_⟩
        · rcases List.mem_cons.1 hp with rfl | hp
          · exact .inr hrenews
          · exact .inl (hlive p (List.mem_of_mem_filter (hkept.subset hp)))
        · have hne : p.1 ≠ k := fun hk => hout (.replaced (hk ▸ hrenews))
          have hother : p ∈ without k (l.filter (Slot.isLive now)) :=
            List.mem_filter.2 ⟨hmem p hp hp', by simpa using hne⟩
          have hcount : (c.serve now (.put k v ttl weight)).2.stats.evictions = _ :=
            congrArg CacheStats.evictions (hd.stats.trans (by rw [← h.stats]))
          obtain hin | hdrop := mem_or_mem_evicted h.evictable_put hkept hcount hother
          · exact List.mem_cons_of_mem _ hin
          · exact absurd (.evicted (List.mem_map_of_mem hdrop)) hout
  | invalidate k =>
    cases hk : l.lookup k with
    | none =>
      refine ⟨l, s, ?_, fun p hp => .inl hp, fun p hp _ _ => hp⟩
      show (c.invalidate k).2.Shows o g l s
      rwa [h.invalidate_of_none hk]
    | some e =>
      refine ⟨_, _, (h.invalidate_of_some hk).2, fun p hp => .inl (List.mem_of_mem_filter hp),
        fun p hp _ hout => ?_⟩
      have hne : p.1 ≠ k := fun hk => hout (hk ▸ .invalidated)
      exact List.mem_filter.2 ⟨hp, by simpa using hne⟩
  | contains k => exact ⟨l, s, h, fun p hp => .inl hp, fun p hp _ _ => hp⟩
  | clear => exact ⟨[], s, h.clear, by simp, fun p _ _ hout => absurd .cleared hout⟩
  | sweep =>
    exact ⟨_, _, (h.purge now).2, fun p hp => .inl (hlive p hp), fun p hp hp' _ => hmem p hp hp'⟩
  | room w =>
    obtain ⟨-, hd⟩ := h.makeRoom now w
    have hfitted := fitted_prefix o w (l.filter (Slot.isLive now))
    refine ⟨_, _, hd, fun p hp => .inl (hlive p (hfitted.subset hp)), fun p hp hp' hout => ?_⟩
    have hcount : (c.serve now (.room w)).2.stats.evictions = _ :=
      congrArg CacheStats.evictions (hd.stats.trans (by rw [← h.stats]))
    obtain hin | hdrop := mem_or_mem_evicted (h.evictable_room w) hfitted hcount (hmem p hp hp')
    · exact hin
    · exact absurd (.evicted (List.mem_map_of_mem hdrop)) hout
  | size => exact ⟨l, s, h, fun p hp => .inl hp, fun p hp _ _ => hp⟩

/-! ## Sequences of requests -/

/-- **A slot stays** through requests before its deadline that do not take it out. -/
theorem after_stays (h : c.Shows o g l s) {rs : List (Int64 × CacheRequest V)} (hp : p ∈ l)
    (hlive : ∀ q ∈ rs, Slot.isLive q.1 p = true)
    (hrs : Throughout (fun d now r => ¬ d.Ousts now p.1 r) c rs) :
    ∃ l' s', (c.after rs).Shows o g l' s' ∧ p ∈ l' := by
  induction rs generalizing c l s with
  | nil => exact ⟨l, s, h, hp⟩
  | cons q rs ih =>
    obtain ⟨l', s', h', -, hkept⟩ := h.serve_told q.1 q.2
    have hp' : p ∈ l' := hkept p hp (hlive q List.mem_cons_self) hrs.1
    exact ih h' hp' (fun q hq => hlive q (List.mem_cons_of_mem _ hq)) hrs.2

/-- **Nothing comes in under a key** through requests that store nothing under it. -/
theorem after_old (h : c.Shows o g l s) {rs : List (Int64 × CacheRequest V)}
    (hrs : Throughout (fun d now r => ¬ d.Renews now k r) c rs) :
    ∃ l' s', (c.after rs).Shows o g l' s' ∧ ∀ p ∈ l', p.1 = k → p ∈ l := by
  induction rs generalizing c l s with
  | nil => exact ⟨l, s, h, fun p hp _ => hp⟩
  | cons q rs ih =>
    obtain ⟨l', s', h', hold, -⟩ := h.serve_told q.1 q.2
    obtain ⟨l'', s'', h'', hold'⟩ := ih h' hrs.2
    refine ⟨l'', s'', h'', fun p hp hk => ?_⟩
    exact (hold p (hold' p hp hk)).resolve_right fun hr => hrs.1 (hk ▸ hr)

/-- What a look-up that is served finds. -/
theorem get_eq_lookup (h : c.Shows o g l s) (hb : (o.enabled && k.cacheable) = true) :
    (c.get now k).value.1 =
      ((l.filter (Slot.isLive now)).lookup k).map CacheEntry.value := by
  cases hk : (l.filter (Slot.isLive now)).lookup k with
  | none => exact (h.get_of_none hb hk).1
  | some e => exact (h.get_of_some hb hk).1

theorem get_of_isLive (h : c.Shows o g l s) (hb : (o.enabled && k.cacheable) = true)
    (hm : (k, e) ∈ l) (hlive : Slot.isLive now (k, e) = true) :
    (c.get now k).value.1 = some e.value := by
  rw [h.get_eq_lookup hb,
    (lookup_eq_some_iff (h.purge now).2.nodup).2 (List.mem_filter.2 ⟨hm, hlive⟩)]
  rfl

theorem get_of_not_isLive (h : c.Shows o g l s) (hb : (o.enabled && k.cacheable) = true)
    (hdead : ∀ p ∈ l, p.1 = k → Slot.isLive now p = false) :
    (c.get now k).value.1 = none := by
  rw [h.get_eq_lookup hb, Option.map_eq_none_iff]
  refine Option.eq_none_iff_forall_ne_some.2 fun e he => ?_
  obtain ⟨hm, hlive⟩ := List.mem_filter.1 ((lookup_eq_some_iff (h.purge now).2.nodup).1 he)
  rw [hdead _ hm rfl] at hlive
  exact Bool.noConfusion hlive

end Shows

theorem isLive_of_le {t t' : Int64} (ht : t ≤ t') (h : Slot.isLive t' p = true) :
    Slot.isLive t p = true := by
  unfold Slot.isLive at h ⊢
  split
  · rfl
  · next d hd =>
    rw [hd] at h
    exact decide_eq_true (Int64.lt_of_le_of_lt ht (of_decide_eq_true h))

/-- **The deadline of a stored entry decides** how long it lives. -/
theorem keepsTime_iff_isLive {life : Int} (h : c.Shows o g ((k, e) :: l) s)
    (hb : (o.enabled && k.cacheable) = true) :
    c.KeepsTime t k e.value life ↔
      ∀ t', t ≤ t' → (Slot.isLive t' (k, e) = true ↔ t'.toInt < t.toInt + life) := by
  have honly : ∀ p ∈ (k, e) :: l, p.1 = k → p = (k, e) := by
    intro p hp hk
    obtain heq | hp := List.mem_cons.1 hp
    · exact heq
    · exact absurd (hk ▸ fst_mem (e := p.2) hp) (List.nodup_cons.1 h.nodup).1
  constructor
  · intro hkeeps t' ht
    have hclock : (t :: (([] : List (Int64 × CacheRequest V)).map Prod.fst ++ [t'])).Pairwise
        (· ≤ ·) := by simpa using ht
    constructor
    · intro hlive
      by_contra hlate
      have hnone := hkeeps.gone [] t' hclock trivial (Int.not_lt.1 hlate)
      rw [show (c.after []).get t' k = c.get t' k from rfl,
        h.get_of_isLive hb List.mem_cons_self hlive] at hnone
      exact Option.some_ne_none _ hnone
    · intro hearly
      by_contra hdead
      have hsome := hkeeps.found [] t' hclock trivial hearly
      rw [show (c.after []).get t' k = c.get t' k from rfl,
        h.get_of_not_isLive hb fun p hp hk => by
          rw [honly p hp hk]; exact Bool.not_eq_true _ ▸ hdead] at hsome
      exact Option.some_ne_none _ hsome.symm
  · intro hlive
    constructor
    · intro rs t' hclock hrs hearly
      obtain ⟨hfirst, hrest⟩ := List.pairwise_cons.1 hclock
      have ht' := (hlive t' (hfirst t' (by simp))).2 hearly
      have hbefore : ∀ q ∈ rs, Slot.isLive q.1 (k, e) = true := fun q hq =>
        isLive_of_le ((List.pairwise_append.1 hrest).2.2 q.1 (List.mem_map_of_mem hq) t'
          (by simp)) ht'
      obtain ⟨l', s', h', hm⟩ := h.after_stays List.mem_cons_self hbefore hrs
      exact h'.get_of_isLive hb hm ht'
    · intro rs t' hclock hrs hlate
      have ht := (List.pairwise_cons.1 hclock).1 t' (by simp)
      obtain ⟨l', s', h', hold⟩ := h.after_old hrs
      refine h'.get_of_not_isLive hb fun p hp hk => ?_
      rw [honly p (hold p hp hk) hk, ← Bool.not_eq_true, hlive t' ht]
      exact Int.not_lt.2 hlate

/-! ## Deadlines of 64 bits -/

theorem toInt_add_of_lt {t τ : Int64} (ht : 0 ≤ t.toInt) (hτ : 0 < τ.toInt)
    (h : t.toInt + τ.toInt < 2 ^ 63) : (t + τ).toInt = t.toInt + τ.toInt := by
  rw [Int64.toInt_add, Int.bmod_eq_of_le (by omega) (by omega)]

/-- A sum that goes beyond comes out below zero. -/
theorem toInt_add_of_le {t τ : Int64} (h : 2 ^ 63 ≤ t.toInt + τ.toInt) : (t + τ).toInt < 0 := by
  have ht := t.toInt_lt
  have hτ := τ.toInt_lt
  rw [Int64.toInt_add, Int.bmod_def]
  omega

/-- **How long an entry lives** that is stored at `t` for `τ` nanoseconds: for ever when `τ` is not
positive, for `τ` when the deadline has 63 bits, and else not at all. -/
theorem isLive_iff_life {t τ : Int64} {life : Int} (ht : 0 ≤ t.toInt)
    (hd : p.2.deadline = deadlineOf t τ) :
    (∀ t', t ≤ t' → (Slot.isLive t' p = true ↔ t'.toInt < t.toInt + life)) ↔
      if τ.toInt ≤ 0 then 2 ^ 63 ≤ t.toInt + life
      else if t.toInt + τ.toInt < 2 ^ 63 then life = τ.toInt
      else life ≤ 0 := by
  have hmax : t.toInt < 2 ^ 63 := t.toInt_lt
  have hle : ∀ t' : Int64, t ≤ t' ↔ t.toInt ≤ t'.toInt := fun t' => Int64.le_iff_toInt_le
  -- Every reading from `t` on is one of a clock.
  have hreading : ∀ x : Int, t.toInt ≤ x → x < 2 ^ 63 → ∃ t' : Int64, t'.toInt = x :=
    fun x h1 h2 => ⟨Int64.ofInt x, Int64.toInt_ofInt_of_le (by omega) h2⟩
  split
  · next hτ =>
    have hlive : ∀ t', Slot.isLive t' p = true := by
      have hnone : p.2.deadline = none := by
        rw [hd, deadlineOf, if_neg]
        rw [Int64.lt_iff_toInt_lt]
        exact Int.not_lt.2 hτ
      intro t'
      rw [Slot.isLive, hnone]
    simp only [hlive, true_iff, hle]
    constructor
    · intro h
      obtain ⟨t', ht'⟩ := hreading (2 ^ 63 - 1) (by omega) (by omega)
      have := h t' (by omega)
      omega
    · intro h t' _
      have := t'.toInt_lt
      omega
  · next hτ =>
    have hlive : ∀ t', Slot.isLive t' p = true ↔ t'.toInt < (t + τ).toInt := by
      have hsome : p.2.deadline = some (t + τ) := by
        rw [hd, deadlineOf, if_pos]
        rw [Int64.lt_iff_toInt_lt]
        exact Int.not_le.1 hτ
      intro t'
      rw [Slot.isLive, hsome, decide_eq_true_iff, Int64.lt_iff_toInt_lt]
    simp only [hlive, hle]
    split
    · next hsum =>
      rw [toInt_add_of_lt ht (Int.not_le.1 hτ) hsum]
      constructor
      · intro h
        obtain ⟨t₁, ht₁⟩ := hreading (t.toInt + τ.toInt - 1) (by omega) (by omega)
        obtain ⟨t₂, ht₂⟩ := hreading (t.toInt + τ.toInt) (by omega) hsum
        have h₁ := h t₁ (by omega)
        have h₂ := h t₂ (by omega)
        omega
      · rintro rfl t' _
        exact Iff.rfl
    · next hsum =>
      have hpast := toInt_add_of_le (Int.not_lt.1 hsum)
      constructor
      · intro h
        have := h t (Int.le_refl _)
        omega
      · intro h t' ht'
        omega

/-- **How long a stored value lives.** -/
theorem Shows.keepsTime_put (h : c.Shows o g l s) (ht : 0 ≤ t)
    (hstored : (c.put t k v ttl weight).value.1 = true) (life : Int) :
    (c.put t k v ttl weight).value.2.KeepsTime t k v life ↔
      if (ttl.getD o.defaultTtl).toInt ≤ 0 then 2 ^ 63 ≤ t.toInt + life
      else if t.toInt + (ttl.getD o.defaultTtl).toInt < 2 ^ 63 then
        life = (ttl.getD o.defaultTtl).toInt
      else life ≤ 0 := by
  have hstores := h.stores_of_put hstored
  obtain ⟨-, kept, -, hd⟩ := h.put_kept t ttl hstores
  exact (keepsTime_iff_isLive hd hstores.1).trans
    (isLive_iff_life (Int64.le_iff_toInt_le.1 ht) rfl)

/-- How long a value lives that is stored with a life time. -/
theorem Shows.keepsTime_given (h : c.Shows o g l s) {τ : Int64} (ht : 0 ≤ t) (hτ : 0 < τ)
    (hstored : (c.put t k v (some τ) weight).value.1 = true) :
    ((c.put t k v (some τ) weight).value.2.KeepsTime t k v τ.toInt ↔
      t.toInt + τ.toInt < 2 ^ 63) ∧
    (2 ^ 63 ≤ t.toInt + τ.toInt → (c.put t k v (some τ) weight).value.2.KeepsTime t k v 0) := by
  have hlife := h.keepsTime_put ht hstored
  have hpos : 0 < τ.toInt := Int64.lt_iff_toInt_lt.1 hτ
  simp only [Option.getD_some, if_neg (Int.not_le.2 hpos)] at hlife
  refine ⟨(hlife τ.toInt).trans ?_, fun hsum => (hlife 0).2 ?_⟩
  · split
    · next hsum => exact iff_of_true rfl hsum
    · next hsum => exact iff_of_false (Int.not_le.2 hpos) hsum
  · rw [if_neg (Int.not_lt.2 hsum)]

theorem toInt_nanoseconds (n : UInt64) :
    (nanoseconds n.toInt64).toInt = ((n.toNat : Int) * 1000000).bmod (2 ^ 64) := by
  have hn : n.toInt64.toInt = (n.toNat : Int).bmod (2 ^ 64) := BitVec.toInt_eq_toNat_bmod n.toBitVec
  rw [nanoseconds, Int64.toInt_mul, hn, show (1000000 : Int64).toInt = 1000000 from rfl,
    Int.bmod_mul_bmod]

/-- How long a value lives that is stored without a life time, when that of the settings is `n`
milliseconds: 64 bits of its nanoseconds are left. -/
theorem Shows.keepsTime_default (h : c.Shows o g l s) {n : UInt64} {life : Int} (hn : 1 ≤ n)
    (hlife : life = n.toNat * 1000000) (httl : o.defaultTtl = nanoseconds n.toInt64) (ht : 0 ≤ t)
    (hstored : (c.put t k v none weight).value.1 = true) :
    ((c.put t k v none weight).value.2.KeepsTime t k v life ↔
      t.toInt + life < 2 ^ 63 ∨ life.bmod (2 ^ 64) ≤ 0) ∧
    (0 < life.bmod (2 ^ 64) → (c.put t k v none weight).value.2.KeepsTime t k v
      (if t.toInt + life.bmod (2 ^ 64) < 2 ^ 63 then life.bmod (2 ^ 64) else 0)) := by
  have hkeeps := h.keepsTime_put ht hstored
  simp only [Option.getD_none, httl, toInt_nanoseconds, ← hlife] at hkeeps
  have hstart : 0 ≤ t.toInt := Int64.le_iff_toInt_le.1 ht
  have hpos : 0 < life := by
    have : 1 ≤ n.toNat := UInt64.le_iff_toNat_le.1 hn
    omega
  -- A life of 63 bits is all that is left of it.
  have hsmall : life < 2 ^ 63 → life.bmod (2 ^ 64) = life := fun h =>
    Int.bmod_eq_of_le (by omega) (by omega)
  generalize life.bmod (2 ^ 64) = left at hkeeps hsmall ⊢
  refine ⟨(hkeeps life).trans ?_, fun hleft => (hkeeps _).2 ?_⟩
  · by_cases hleft : left ≤ 0
    · rw [if_pos hleft]
      omega
    · rw [if_neg hleft]
      split <;> omega
  · rw [if_neg (Int.not_le.2 hleft)]
    split
    · rfl
    · exact Int.le_refl 0

end Cache

/-! ## Life times of the settings -/

/-- The milliseconds that variables ask for, for results of expressions. -/
def CacheConfig.lifetime (x : Variables) : UInt64 :=
  Settings.size (x "SYNAPSE_EXPR_CACHE_TTL_MS") 300000

/-- The caches that variables ask for. -/
def CacheSuite.ofVariables (υ : Type) (x : Variables) : CacheSuite υ :=
  (CacheSuite.new (.ofVariables x)).value

namespace Cache

/-- The life time of the settings comes with a product of 64 bits. -/
theorem expression_ofVariables (υ : Type) (x : Variables) : ∃ o g,
    (CacheSuite.ofVariables υ x).expression = new o g ∧
      o.defaultTtl = nanoseconds (CacheConfig.lifetime x).toInt64 := ⟨_, _, rfl, rfl⟩

/-- **When an entry lives as long as it should.** A life time that is given is kept just when the
deadline has 63 bits, and else nobody finds the entry. One of the settings is kept when the deadline
has 63 bits, and also when nothing positive is left of it, for then the entry stays for ever; else
the entry lives for what is left of it. -/
theorem keepsTime_iff :
    (∀ (o : CacheOptions) (g : V → UInt64) (rs : List (Int64 × CacheRequest V)) (t ttl : Int64)
      (k : Fingerprint) (v : V) (weight : Option UInt64),
      let c := (new o g).after rs
      let d := (c.put t k v (some ttl) weight).value.2
      0 ≤ t → 0 < ttl → (c.put t k v (some ttl) weight).value.1 = true →
        (d.KeepsTime t k v ttl.toInt ↔ t.toInt + ttl.toInt < 2 ^ 63) ∧
        (2 ^ 63 ≤ t.toInt + ttl.toInt → d.KeepsTime t k v 0)) ∧
    ∀ (υ : Type) (x : Variables) (rs : List (Int64 × CacheRequest Computation)) (t : Int64)
      (k : Fingerprint) (v : Computation) (weight : Option UInt64),
      let c := (CacheSuite.ofVariables υ x).expression.after rs
      let d := (c.put t k v none weight).value.2
      let life : Int := (CacheConfig.lifetime x).toNat * 1000000
      1 ≤ CacheConfig.lifetime x → 0 ≤ t → (c.put t k v none weight).value.1 = true →
        (d.KeepsTime t k v life ↔ t.toInt + life < 2 ^ 63 ∨ life.bmod (2 ^ 64) ≤ 0) ∧
        (0 < life.bmod (2 ^ 64) → d.KeepsTime t k v
          (if t.toInt + life.bmod (2 ^ 64) < 2 ^ 63 then life.bmod (2 ^ 64) else 0)) := by
  constructor
  · intro o g rs t ttl k v weight c d ht httl hstored
    obtain ⟨l, s, hc⟩ := (Shows.new o g).reached rs
    exact hc.keepsTime_given ht httl hstored
  · intro υ x rs t k v weight c d life hn ht hstored
    obtain ⟨o, g, hnew, httl⟩ := expression_ofVariables υ x
    obtain ⟨l, s, hc⟩ : ∃ l s, c.Shows o g l s := by
      rw [show c = (new o g).after rs from congrArg (fun c => c.after rs) hnew]
      exact (Shows.new o g).reached rs
    exact hc.keepsTime_default hn rfl httl ht hstored

/-- A value that is stored a second after the start for as long as 63 bits allow is gone at once,
and one that is stored at the start is kept for its time. The life time of these settings is one
that 64 bits do not hold, and half a millisecond is left of it. -/
theorem not_keepsTime_of_wrapped_deadline :
    let c := (new { } fun _ : Nat => 1).after [(0, .put ⟨0, 2, true⟩ 8 none none)]
    let x : Variables := fun name =>
      if name = "SYNAPSE_EXPR_CACHE_TTL_MS" then some "18446744073710" else none
    let d := (CacheSuite.ofVariables Unit x).expression
    (¬ (c.put 1000000000 ⟨0, 1, true⟩ 7 (some 9223372036854000000) none).value.2.KeepsTime
        1000000000 ⟨0, 1, true⟩ 7 9223372036854000000) ∧
      (c.put 1000000000 ⟨0, 1, true⟩ 7 (some 9223372036854000000) none).value.2.KeepsTime
        1000000000 ⟨0, 1, true⟩ 7 0 ∧
      (c.put 0 ⟨0, 1, true⟩ 7 (some 9223372036854000000) none).value.2.KeepsTime
        0 ⟨0, 1, true⟩ 7 9223372036854000000 ∧
      CacheConfig.lifetime x = 18446744073710 ∧
      (d.put 0 ⟨0, 1, true⟩ ⟨[], none⟩ none none).value.2.KeepsTime
        0 ⟨0, 1, true⟩ ⟨[], none⟩ 448384 := by
  intro c x d
  have hlate := keepsTime_iff.1 { } (fun _ : Nat => 1) [(0, .put ⟨0, 2, true⟩ 8 none none)]
    1000000000 9223372036854000000 ⟨0, 1, true⟩ 7 none (by decide) (by decide) (by decide +kernel)
  have hearly := keepsTime_iff.1 { } (fun _ : Nat => 1) [(0, .put ⟨0, 2, true⟩ 8 none none)]
    0 9223372036854000000 ⟨0, 1, true⟩ 7 none (by decide) (by decide) (by decide +kernel)
  have hx : CacheConfig.lifetime x = 18446744073710 := by decide +kernel
  have hleft : (((CacheConfig.lifetime x).toNat : Int) * 1000000).bmod (2 ^ 64) = 448384 := by
    rw [hx]
    decide +kernel
  have hset := ((keepsTime_iff (V := Nat)).2 Unit x [] 0 ⟨0, 1, true⟩ ⟨[], none⟩ none
    (by rw [hx]; decide) (by decide) (by decide +kernel)).2
  rw [hleft] at hset
  refine ⟨fun h => ?_, hlate.2 (by decide), hearly.1.2 (by decide), hx, hset (by decide)⟩
  exact absurd (hlate.1.1 h) (by decide)

end Cache

end MemoFlow
