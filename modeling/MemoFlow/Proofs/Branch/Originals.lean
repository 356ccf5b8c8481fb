import MemoFlow.Proofs.Branch.Copies
import MemoFlow.Proofs.Branch.Policy

/-!
# Copies and their originals

Every slot of the cache of branches is a copy of a result that a slice has in hand or that is stored
with a block whose results are not collected, or it has nothing to do with blocks.

* `Floor.HasEnded`, `Floor.Kept.ended_unique`, **`Floor.HasEnded.find?_joined`**: the end of a
  branch tells what a wait for its block gives;
* `Floor.Original`, **`Floor.Backed`**: originals, and caches all of whose copies have one;
* `DistinctNames`: names of branches that their fingerprints tell apart;
* `Floor.Backed.works`, `Floor.Backed.onward_works`: steps of slices;
* `Session.Yields`, `Floor.Backed.yields`, `Floor.Backed.onward_yields`: all other steps.
-/

namespace MemoFlow

/-! ## Results by name -/

/-- **The results of a block** are those that are stored, each by its name. -/
theorem Block.find?_results {τ : Type} {x : Block τ}
    (hn : ∀ (i j : Nat) (r r' : BranchResult), x.stored[i]? = some (some r) →
      x.stored[j]? = some (some r') → r.id = r'.id → i = j) {r : BranchResult}
    (hr : some r ∈ x.stored) : x.results.find? r.id = some r := by
  have hnodup : (((x.stored.filterMap fun r => r).map fun r => (r.id, r)).map Prod.fst).Nodup := by
    rw [List.map_map, List.Nodup, List.pairwise_map, List.pairwise_filterMap,
      List.pairwise_iff_getElem]
    intro i j hi hj hij r hr r' hr' hid
    have hir : x.stored[i]? = some (some r) := List.getElem?_eq_some_iff.2 ⟨hi, hr⟩
    have hjr : x.stored[j]? = some (some r') := List.getElem?_eq_some_iff.2 ⟨hj, hr'⟩
    exact Nat.ne_of_lt hij (hn i j r r' hir hjr hid)
  refine (NameMap.findIn_eq_some_iff x.results.sorted).2 ?_
  refine (NameMap.perm_entries_ofList hnodup).mem_iff.2 ?_
  exact List.mem_map.2 ⟨r, List.mem_filterMap.2 ⟨some r, hr, rfl⟩, rfl⟩

namespace Floor

variable {τ : Type} [IsRunnable τ] {c : SessionConfig} {R : Session.Realm τ}
  {Q : τ → Except BranchFailure BranchOutcome → Prop}
  {w w' : Floor τ} {b i : Nat} {x : Block τ} {id : String} {r r' : BranchResult}

/-- **A branch has ended** with a result. -/
def HasEnded (w : Floor τ) (b : Nat) (id : String) (r : BranchResult) : Prop :=
  ∃ x i t, w.session.coordinator.block? b = some x ∧ x.tasks[i]? = some t ∧ IsBranch.id t = id ∧
    Ended (w.records b) i r

namespace Kept

/-- A branch has one result. -/
theorem ended_unique (h : Kept Q w b x) (hr : Ended (w.records b) i r)
    (hr' : Ended (w.records b) i r') : r = r' := by
  obtain hf | hc := hr
  · obtain hf' | hc' := hr'
    · exact h.finish_unique hf hf'
    · exact absurd (mem_events hc') (h.not_cancel (h.begin_of_finish hf))
  · obtain hf' | hc' := hr'
    · exact absurd (mem_events hc) (h.not_cancel (h.begin_of_finish hf'))
    · obtain ⟨t, ht, he⟩ := h.recorded.cancelled i _ hc
      obtain ⟨t', ht', he'⟩ := h.recorded.cancelled i _ hc'
      obtain rfl := Option.some.inj (ht.symm.trans ht')
      exact Option.some.inj (he.trans he'.symm)

/-- A stored result is that of a branch of its name. -/
theorem task_of_stored (h : Kept Q w b x) (hr : x.stored[i]? = some (some r)) :
    ∃ t, x.tasks[i]? = some t ∧ r.id = IsBranch.id t := by
  obtain ⟨t, r', ht, hr', hid⟩ := h.sound.results i (h.recorded.stored i r hr).1
  obtain rfl := Option.some.inj (Option.some.inj (hr.symm.trans hr'))
  exact ⟨t, ht, hid⟩

/-- **When a block is done**, the result of each branch that has ended is stored. -/
theorem stored_of_ended (h : Kept Q w b x) (hd : x.isDone = true)
    (hr : Ended (w.records b) i r) : x.stored[i]? = some (some r) := by
  have hclaimed : 0 < (w.events b).count (.claim i) := by
    have hbegins := h.sound.balanced.begins i
    obtain hf | hc := hr
    · have := List.count_pos_iff.2 (h.begin_of_finish hf)
      unfold events at this ⊢
      dsimp only at hbegins
      omega
    · have := List.count_pos_iff.2 (mem_events hc)
      unfold events at this ⊢
      dsimp only at hbegins
      omega
  -- No slice has a branch in hand any more.
  have hhand : (w.crew b).countP (·.holds i) = 0 := List.countP_eq_zero.2 fun p hp => by
    rw [h.sound.retired (of_decide_eq_true hd) p hp]
    exact Bool.false_ne_true
  have hbalance := h.sound.balanced.holds i
  unfold events at hclaimed
  dsimp only at hbalance
  obtain ⟨t, r', -, hr', -⟩ := h.sound.results i (List.count_pos_iff.1 (by dsimp only; omega))
  rw [h.ended_unique hr (h.recorded.stored i r' hr').2]
  exact hr'

theorem find?_of_stored (h : Kept Q w b x) (hr : some r ∈ x.stored) :
    x.results.find? r.id = some r := by
  refine Block.find?_results (fun i j r r' hi hj hid => ?_) hr
  obtain ⟨t, ht, he⟩ := h.task_of_stored hi
  obtain ⟨t', ht', he'⟩ := h.task_of_stored hj
  have hnodup := Coordinator.nodup_of_validate h.named
  have hget : (x.tasks.map IsBranch.id)[i]? = (x.tasks.map IsBranch.id)[j]? := by
    rw [List.getElem?_map, List.getElem?_map, ht, ht']
    exact congrArg some (he.symm.trans (hid.trans he'))
  have hlt : i < (x.tasks.map IsBranch.id).length := by
    rw [List.length_map]
    exact (List.getElem?_eq_some_iff.1 ht).1
  exact (List.getElem?_inj hlt hnodup).1 hget

end Kept

/-- **The end of a branch tells what a wait for its block gives.** -/
theorem HasEnded.find?_joined (hr : w.HasEnded b id r) (h : Valid c R Q w) {rs : BranchResults}
    (hj : w.session.Joined b rs) : rs.find? id = some r := by
  obtain ⟨x, i, t, hx, ht, rfl, he⟩ := hr
  obtain ⟨-, y, hy, hd, -, rfl⟩ := hj
  obtain rfl := Option.some.inj (hx.symm.trans hy)
  have hk := h.kept b x hx
  have hstored := hk.stored_of_ended hd he
  obtain ⟨t', ht', hid⟩ := hk.task_of_stored hstored
  obtain rfl := Option.some.inj (ht.symm.trans ht')
  rw [← hid]
  exact hk.find?_of_stored (List.mem_of_getElem? hstored)

/-! ## Originals -/

/-- **The original of a copy**: a result that a slice has kept and is about to store, or that is
stored with a block whose results are not collected. -/
def Original (w : Floor τ) (b : Nat) (id : String) (r : BranchResult) : Prop :=
  ∃ x, w.session.coordinator.block? b = some x ∧ x.collected = none ∧
    ((∃ g, (b, .filed g r) ∈ w.slices ∧ IsBranch.id g.task = id) ∨ some r ∈ x.stored ∧ r.id = id)

/-- An original is the result of a branch that has ended. -/
theorem Original.hasEnded (ho : w.Original b id r) (h : Valid c R Q w) : w.HasEnded b id r := by
  obtain ⟨x, hx, -, ⟨g, hg, rfl⟩ | ⟨hr, rfl⟩⟩ := ho
  · have hk := h.kept b x hx
    have hcrew : Position.filed g r ∈ w.crew b := mem_ofBlock.2 hg
    exact ⟨x, g.index, g.task, hx, (hk.sound.fits _ hcrew).1.task, rfl,
      hk.recorded.hands _ hcrew g r (.inr rfl)⟩
  · have hk := h.kept b x hx
    obtain ⟨i, hi⟩ := List.mem_iff_getElem?.1 hr
    obtain ⟨t, ht, hid⟩ := hk.task_of_stored hi
    exact ⟨x, i, t, hx, ht, hid.symm, (hk.recorded.stored i r hi).2⟩

/-- **Every slot of the cache of branches** has nothing to do with blocks, or has an original. -/
def Backed (foreign : Fingerprint → Prop) (w : Floor τ) : Prop :=
  ∃ o g l, w.session.caches.branch.Holds o g l ∧ ∀ p ∈ l, foreign p.1 ∨
    ∃ b id, .ofBranch b id = p.1 ∧ w.Original b id p.2.value

/-- The names of all branches, with the numbers of their blocks. -/
def names (w : Floor τ) : List (Nat × String) :=
  w.session.coordinator.blocks.flatMap fun x => x.tasks.map fun t => (x.id, IsBranch.id t)

theorem mem_names (hx : w.session.coordinator.block? b = some x) {t : τ}
    (ht : t ∈ x.tasks) : (b, IsBranch.id t) ∈ w.names := by
  obtain rfl : x.id = b := by simpa using List.find?_some hx
  exact List.mem_flatMap.2 ⟨x, List.mem_of_find?_eq_some hx, List.mem_map.2 ⟨t, ht, rfl⟩⟩

theorem HasEnded.mem_names (h : w.HasEnded b id r) : (b, id) ∈ w.names := by
  obtain ⟨x, i, t, hx, ht, rfl, -⟩ := h
  exact Floor.mem_names hx (List.mem_of_getElem? ht)

end Floor

/-- **Fingerprints tell names of branches apart**, and from what has nothing to do with blocks. -/
structure DistinctNames (foreign : Fingerprint → Prop) (names : List (Nat × String)) : Prop where
  inj : ∀ p ∈ names, ∀ q ∈ names, Fingerprint.ofBranch p.1 p.2 = .ofBranch q.1 q.2 → p = q
  home : ∀ p ∈ names, ¬ foreign (.ofBranch p.1 p.2)

namespace Floor

variable {τ : Type} [IsRunnable τ] {c : SessionConfig} {R : Session.Realm τ}
  {Q : τ → Except BranchFailure BranchOutcome → Prop}
  {w w' : Floor τ} {b i : Nat} {x : Block τ} {id : String} {r r' : BranchResult}
  {foreign : Fingerprint → Prop} {names : List (Nat × String)}

/-- **A copy has an original**, when its name is told apart. -/
theorem Backed.original (h : w.Backed foreign) (hv : Valid c R Q w)
    (hd : DistinctNames foreign names) (hnames : ∀ p ∈ w.names, p ∈ names)
    (hn : (b, id) ∈ names) {e : CacheEntry BranchResult} (he : w.session.copy? b id = some e) :
    w.Original b id e.value := by
  obtain ⟨o, g, l, hl, hp⟩ := h
  rw [Session.copy?, hl.entry?_eq_some_iff] at he
  obtain hf | ⟨b', id', hk, ho⟩ := hp _ he
  · exact absurd hf (hd.home (b, id) hn)
  · have hpair : (b', id') = (b, id) :=
      hd.inj (b', id') (hnames _ (ho.hasEnded hv).mem_names) (b, id) hn hk
    obtain ⟨rfl, rfl⟩ := Prod.mk.inj hpair
    exact ho

/-- Slots stay backed when all originals of copies stay and new slots have one. -/
theorem Backed.step (h : w.Backed foreign)
    (hcache : ∀ o g l, w.session.caches.branch.Holds o g l →
      ∃ l', w'.session.caches.branch.Holds o g l' ∧ ∀ p ∈ l', p ∈ l ∨ foreign p.1 ∨
        ∃ b id, .ofBranch b id = p.1 ∧ w'.Original b id p.2.value)
    (horiginal : ∀ b id r, (w.session.copy? b id).isSome = true → w.Original b id r →
      w'.Original b id r) : w'.Backed foreign := by
  obtain ⟨o, g, l, hl, hp⟩ := h
  obtain ⟨l', hl', hp'⟩ := hcache o g l hl
  refine ⟨o, g, l', hl', fun p hm => ?_⟩
  obtain hm | hnew := hp' p hm
  · refine (hp p hm).imp_right fun ⟨b, id, hk, ho⟩ => ⟨b, id, hk, horiginal b id _ ?_ ho⟩
    rw [Session.copy?, hk, hl.entry?_eq_some_iff.2 hm]
    rfl
  · exact hnew

end Floor

/-! ## Steps of slices -/

section Slices

variable {τ : Type} [IsRunnable τ]

/-- A slice at work leaves stored results where they are. -/
theorem Position.Effect.mem_stored {x y : Block τ} {p p' : Position τ} {e : Event}
    (h : Effect x p e p' y) (hfree : ∀ g r, p = .filed g r → x.stored[g.index]? = some none)
    {r : BranchResult} (hr : some r ∈ x.stored) : some r ∈ y.stored := by
  cases h with
  | go h => rwa [h.stored]
  | finish =>
    unfold Block.after
    split
    · exact hr
    · exact hr
  | @store g r' =>
    obtain ⟨j, hj⟩ := List.mem_iff_getElem?.1 hr
    have hne : g.index ≠ j := fun he => by
      have hnone := hfree g r' rfl
      rw [he, hj] at hnone
      cases Option.some.inj hnone
    exact List.mem_of_getElem? ((List.getElem?_set_ne hne).trans hj)
  | _ => exact hr

/-- **The cache of branches after a step of a slice** outside of bodies: a result is kept when the
slice has it in hand. -/
theorem Position.Next.branch {b : Nat} {p p' : Position τ} {s s' : Session τ} {e : Event}
    {x : Block τ} (h : Next b p s e p' s') (hx : s.coordinator.block? b = some x) :
    (∃ g q q', p = .running g q ∧ p' = .running g q') ∨
      s'.caches.branch = s.caches.branch ∨
      ∃ g r, p = .ended g r ∧ p' = .filed g r ∧
        s'.caches.branch =
          (s.caches.branch.put s.now (.ofBranch b (IsBranch.id g.task)) r none none).value.2 := by
  have hsame : ∀ {α : Type} {o o' : Process.Stop (Session τ) α} {t : Session τ},
      (o, t) = (o', s') → t.caches.branch = s.caches.branch →
        s'.caches.branch = s.caches.branch := fun h ht =>
    (congrArg (fun t : Session τ => t.caches.branch) (Prod.mk.inj h).2).symm.trans ht
  cases h with
  | enter _ => exact .inr (.inl rfl)
  | claim h =>
    rw [Session.advance_claim hx] at h
    exact .inr (.inl (hsame h rfl))
  | exhaust h =>
    rw [Session.advance_claim hx] at h
    exact .inr (.inl (hsame h rfl))
  | begin h => exact .inr (.inl (hsame h rfl))
  | cancel h => exact .inr (.inl (hsame h rfl))
  | go _ => exact .inl ⟨_, _, _, rfl, rfl⟩
  | finish h => exact .inr (.inl (hsame h rfl))
  | @file g r kept _ _ h =>
    exact .inr (.inr ⟨g, r, rfl, rfl,
      (congrArg (fun t : Session τ => t.caches.branch) (Prod.mk.inj h).2).symm⟩)
  | store h => exact .inr (.inl (hsame h rfl))
  | retire h => exact .inr (.inl (hsame h rfl))

end Slices

namespace Floor

variable {τ : Type} [IsRunnable τ] {c : SessionConfig} {R : Session.Realm τ}
  {Q : τ → Except BranchFailure BranchOutcome → Prop}
  {w w' : Floor τ} {b : Nat} {x : Block τ} {id : String} {r : BranchResult}
  {foreign : Fingerprint → Prop}

/-- A stored result has the name of a branch. -/
theorem Valid.mem_names_of_stored (h : Valid c R Q w)
    (hx : w.session.coordinator.block? b = some x) (hr : some r ∈ x.stored) :
    (b, r.id) ∈ w.names := by
  obtain ⟨i, hi⟩ := List.mem_iff_getElem?.1 hr
  obtain ⟨t, ht, hid⟩ := (h.kept b x hx).task_of_stored hi
  exact hid ▸ mem_names hx (List.mem_of_getElem? ht)

section Works

variable {ps qs : List (Nat × Position τ)} {p p' : Position τ} {s s' : Session τ} {e : Event}
  {log log' : List (Nat × Record)} {f : Block τ → Block τ}

/-- **Originals stay** when a slice makes a step outside of bodies. -/
theorem Original.works {k : Nat} (ho : Original ⟨ps ++ (b, p) :: qs, s, log⟩ k id r)
    (h : Kept Q ⟨ps ++ (b, p) :: qs, s, log⟩ b x) (hx : s.coordinator.block? b = some x)
    (hf : Block.Alters f) (heff : Position.Effect x p e p' (f x))
    (hw : Coordinator.Works b f (e, p'.result?) s.coordinator s'.coordinator)
    (extra : List (Nat × Position τ)) :
    Original ⟨ps ++ (b, p') :: qs ++ extra, s', log'⟩ k id r := by
  obtain ⟨z, hz, hc, ho⟩ := ho
  dsimp only at hz
  have hblock := block?_of_works hw hf k
  rw [hz] at hblock
  -- Results in the hands of the other slices.
  have hother : ∀ {g}, (k, .filed g r) ∈ ps ∨ (k, .filed g r) ∈ qs →
      (k, Position.filed g r) ∈ ps ++ (b, p') :: qs ++ extra := fun h => by
    simp only [List.mem_append, List.mem_cons]
    obtain h | h := h
    · exact .inl (.inl h)
    · exact .inl (.inr (.inr h))
  by_cases hkb : b = k
  · subst hkb
    obtain rfl := Option.some.inj (hx.symm.trans hz)
    have hfree : ∀ g r, p = .filed g r → x.stored[g.index]? = some none := fun g r hp => by
      subst hp
      exact h.free
    refine ⟨f x, hblock.trans (if_pos rfl), (hf.collected x).trans hc, ?_⟩
    obtain ⟨g, hg, rfl⟩ | ⟨hr, hid⟩ := ho
    · simp only [List.mem_append, List.mem_cons, Prod.mk.injEq, true_and] at hg
      obtain hg | rfl | hg := hg
      · exact .inl ⟨g, hother (.inl hg), rfl⟩
      · -- The result comes from the hand of the slice to the store.
        have hfits : g.Fits x.tasks x.next ∧ r.id = IsBranch.id g.task :=
          h.sound.fits (.filed g r) (mem_ofBlock.2 (by simp))
        have hlt := (List.getElem?_eq_some_iff.1 (hfree g r rfl)).1
        generalize hy : f x = y at heff
        cases heff
        exact .inr ⟨List.mem_of_getElem? (List.getElem?_set_self hlt), hfits.2⟩
      · exact .inl ⟨g, hother (.inr hg), rfl⟩
    · exact .inr ⟨heff.mem_stored hfree hr, hid⟩
  · refine ⟨z, hblock.trans (if_neg hkb), hc, ho.imp_left ?_⟩
    rintro ⟨g, hg, hid⟩
    simp only [List.mem_append, List.mem_cons, Prod.mk.injEq] at hg
    obtain hg | ⟨hk, -⟩ | hg := hg
    · exact ⟨g, hother (.inl hg), hid⟩
    · exact absurd hk.symm hkb
    · exact ⟨g, hother (.inr hg), hid⟩

/-- **A slice at work keeps all slots backed.** -/
theorem Backed.works (hb : Backed foreign ⟨ps ++ (b, p) :: qs, s, log⟩)
    (h : Valid c R Q ⟨ps ++ (b, p) :: qs, s, log⟩) (hn : Position.Next b p s e p' s')
    (hx : s.coordinator.block? b = some x) (hf : Block.Alters f)
    (heff : Position.Effect x p e p' (f x))
    (hw : Coordinator.Works b f (e, p'.result?) s.coordinator s'.coordinator)
    (hbody : ∀ g q q', p = .running g q → p' ≠ .running g q') (extra : List (Nat × Position τ)) :
    Backed foreign ⟨ps ++ (b, p') :: qs ++ extra, s', log'⟩ := by
  have hk := h.kept b x hx
  refine hb.step (fun o g l hl => ?_) fun k id r _ ho => ho.works hk hx hf heff hw extra
  obtain ⟨g, q, q', hp, hp'⟩ | hsame | ⟨g, r, rfl, rfl, hput⟩ := hn.branch hx
  · exact absurd hp' (hbody g q q' hp)
  · exact ⟨l, hsame ▸ hl, fun p hm => .inl hm⟩
  · obtain ⟨l', hl', hnew⟩ := hl.put s.now (.ofBranch b (IsBranch.id g.task)) r none none
    refine ⟨l', hput ▸ hl', fun p hm => (hnew p hm).imp_right ?_⟩
    rintro ⟨-, hkey, hvalue⟩
    -- The new slot is a copy of the result that the slice has kept.
    have hnone := (hk.not_done (p := .ended g r) (by simp) rfl).2
    refine .inr ⟨b, IsBranch.id g.task, hkey.symm, f x, ?_, (hf.collected x).trans hnone,
      .inl ⟨g, ?_, rfl⟩⟩
    · exact (block?_of_works hw hf b).trans (by rw [if_pos rfl, hx]; rfl)
    · rw [hvalue]
      simp

/-- **A slice at work leads onward**, when names are told apart: the copy that it keeps is not one
of a block that is done. -/
theorem Backed.onward_works (hb : Backed foreign ⟨ps ++ (b, p) :: qs, s, log⟩)
    (h : Valid c R Q ⟨ps ++ (b, p) :: qs, s, log⟩)
    (hd : DistinctNames foreign (names ⟨ps ++ (b, p) :: qs, s, log⟩))
    (hn : Position.Next b p s e p' s') (hx : s.coordinator.block? b = some x) (hf : Block.Alters f)
    (heff : Position.Effect x p e p' (f x))
    (hw : Coordinator.Works b f (e, p'.result?) s.coordinator s'.coordinator)
    (hbody : ∀ g q q', p = .running g q → p' ≠ .running g q') : s.Onward s' where
  next := Nat.le_of_eq hw.next.symm
  block k z _ hz := by
    obtain ⟨hdone, hnone⟩ := (h.kept b x hx).not_done (p := p) (by simp) heff.isAtWork
    have hblock := block?_of_works hw hf k
    rw [hz] at hblock
    by_cases hkb : b = k
    · subst hkb
      obtain rfl := Option.some.inj (hx.symm.trans hz)
      refine ⟨f x, hblock.trans (if_pos rfl), hf.tasks x, fun _ r hr => ?_, fun hd => ?_,
        fun hd => ?_,
        fun hc => ?_, fun hd => ?_⟩
      · exact nomatch (((hf.collected x).trans hnone).symm.trans hr)
      · exact nomatch hdone.symm.trans hd
      · exact nomatch hdone.symm.trans hd
      · rwa [hf.collected]
      · exact nomatch hdone.symm.trans hd
    · refine ⟨z, hblock.trans (if_neg hkb), .of_keeps (.refl z) fun r hr habsent => ?_⟩
      obtain ⟨o, g, l, hl, -⟩ := hb
      obtain ⟨g, q, q', hp, hp'⟩ | hsame | ⟨g, r', rfl, rfl, hput⟩ := hn.branch hx
      · exact absurd hp' (hbody g q q' hp)
      · rwa [Session.copy?, hsame]
      · obtain ⟨l', hl', hnew⟩ := hl.put s.now (.ofBranch b (IsBranch.id g.task)) r' none none
        rw [Session.copy?, hput]
        refine hl.entry?_eq_none hl' (fun p hm => (hnew p hm).imp_right fun hp he => hkb ?_) habsent
        have hfits : g.Fits x.tasks x.next ∧ r'.id = IsBranch.id g.task :=
          (h.kept b x hx).sound.fits (.ended g r') (mem_ofBlock.2 (by simp))
        have hmem := mem_names (w := ⟨ps ++ (b, .ended g r') :: qs, s, log⟩) hx
          (List.mem_of_getElem? hfits.1.task)
        have hpair : (b, IsBranch.id g.task) = (k, r.id) := hd.inj (b, IsBranch.id g.task) hmem
          (k, r.id) (h.mem_names_of_stored hz hr) (hp.2.1.symm.trans he)
        exact (Prod.mk.inj hpair).1

end Works

end Floor

/-! ## Steps of all others -/

section Others

variable {τ : Type} [IsRunnable τ]

/-- **One step of code other than that of slices**: it brings in no copies, and no results are
collected of which there is one. -/
structure Session.Yields (foreign : Fingerprint → Prop) (s t : Session τ) : Prop where
  moves : s.Moves t
  brings : ∀ o g l, s.caches.branch.Holds o g l →
    ∃ l', t.caches.branch.Holds o g l' ∧ ∀ p ∈ l', p ∈ l ∨ foreign p.1
  closes : ∀ b x y, s.coordinator.block? b = some x → t.coordinator.block? b = some y →
    x.collected = none → y.collected = none ∨
      x.isDone = true ∧ ∀ r, some r ∈ x.stored → s.copy? b r.id = none

/-- A step that leaves the blocks alone. -/
theorem Session.Yields.of_blocks {foreign : Fingerprint → Prop} {s t : Session τ} (h : s.Moves t)
    (hblocks : t.coordinator.blocks = s.coordinator.blocks)
    (hbrings : ∀ o g l, s.caches.branch.Holds o g l →
      ∃ l', t.caches.branch.Holds o g l' ∧ ∀ p ∈ l', p ∈ l ∨ foreign p.1) :
    s.Yields foreign t where
  moves := h
  brings := hbrings
  closes b x y hx hy hc := by
    rw [Coordinator.block?, hblocks] at hy
    obtain rfl := Option.some.inj (hx.symm.trans hy)
    exact .inl hc

theorem Session.Yields.refl (foreign : Fingerprint → Prop) (s : Session τ) : s.Yields foreign s :=
  .of_blocks (.refl s) rfl fun _ _ l hl => ⟨l, hl, fun _ hp => .inl hp⟩

/-- Code that tends to blocks makes such steps. -/
theorem Session.Tends.yields {own : Nat → Prop} {s t : Session τ} (h : s.Tends own t)
    (hs : s.coordinator.Tidy) (foreign : Fingerprint → Prop) : s.Yields foreign t := by
  have hsame : t.caches.branch = s.caches.branch → ∀ o g l, s.caches.branch.Holds o g l →
      ∃ l', t.caches.branch.Holds o g l' ∧ ∀ p ∈ l', p ∈ l ∨ foreign p.1 := fun hk o g l hl =>
    ⟨l, hk ▸ hl, fun p hm => .inl hm⟩
  have hmoves := h.moves
  cases h with
  | rest h => exact .of_blocks hmoves h.coordinator.blocks (hsame h.branch)
  | start tasks workers hc hk _ =>
    refine ⟨hmoves, hsame hk, fun b x y hx hy hnone => .inl ?_⟩
    obtain ⟨e, he⟩ | ⟨z, hz, -⟩ := Coordinator.start_cases hs.below tasks workers
    · rw [hc, congrArg Prod.snd he] at hy
      obtain rfl := Option.some.inj (hx.symm.trans hy)
      exact hnone
    · rw [← hc] at hz
      obtain ⟨hm, hid⟩ := (Coordinator.block?_eq_some_iff hs).1 hx
      have hne : b ≠ z.id := fun he => by
        have := hs.below x hm
        rw [hid, he, hz.id] at this
        exact Nat.lt_irrefl _ this
      obtain rfl := Option.some.inj (hx.symm.trans ((hz.block?_of_ne hne).symm.trans hy))
      exact hnone
  | drop b x r _ _ _ _ hc hk _ =>
    refine .of_blocks hmoves (by rw [hc]) fun o g l hl => ?_
    obtain ⟨l', hl', hm⟩ := hl.invalidate (.ofBranch b r.id)
    exact ⟨l', hk ▸ hl', fun p hp => .inl (hm p hp)⟩
  | deposit b x _ hx hd habsent hc hk _ =>
    refine ⟨hmoves, hsame hk, fun k z y hz hy hnone => ?_⟩
    by_cases hkb : b = k
    · subst hkb
      obtain rfl := Option.some.inj (hx.symm.trans hz)
      exact .inr ⟨hd, habsent⟩
    · have hblock := Coordinator.block?_modifyBlock
        (f := fun y => { y with collected := some x.results }) (fun _ => rfl) s.coordinator b k
      rw [hc, hblock, if_neg hkb] at hy
      obtain rfl := Option.some.inj (hz.symm.trans hy)
      exact .inl hnone

end Others

namespace Floor

variable {τ : Type} [IsRunnable τ] {c : SessionConfig} {R : Session.Realm τ}
  {Q : τ → Except BranchFailure BranchOutcome → Prop}
  {w w' : Floor τ} {foreign : Fingerprint → Prop}

/-- **Code other than that of slices keeps all slots backed.** -/
theorem Backed.yields (hb : w.Backed foreign) (h : Valid c R Q w)
    (hy : w.session.Yields foreign w'.session)
    (hslices : ∀ b g r, (b, .filed g r) ∈ w.slices → (b, .filed g r) ∈ w'.slices) :
    w'.Backed foreign := by
  refine hb.step (fun o g l hl => ?_) fun b id r hcopy ho => ?_
  · obtain ⟨l', hl', hm⟩ := hy.brings o g l hl
    exact ⟨l', hl', fun p hp => (hm p hp).imp_right .inl⟩
  · obtain ⟨x, hx, hnone, ho⟩ := ho
    obtain ⟨y, hy', hk⟩ := (hy.moves.coordinator.spares (h.lt hx)).block x hx
    have hcollected : y.collected = none := by
      refine (hy.closes b x y hx hy' hnone).resolve_right fun ⟨hd, habsent⟩ => ?_
      obtain ⟨g, hg, -⟩ | ⟨hr, rfl⟩ := ho
      · exact nomatch ((h.kept b x hx).not_done hg rfl).1.symm.trans hd
      · rw [habsent r hr] at hcopy
        cases hcopy
    refine ⟨y, hy', hcollected, ho.imp (fun ⟨g, hg, hid⟩ => ⟨g, hslices b g r hg, hid⟩) ?_⟩
    exact And.imp_left fun hr => hk.stored ▸ hr

/-- **Code other than that of slices leads onward**, when names are told apart. -/
theorem Backed.onward_yields (hb : w.Backed foreign) (h : Valid c R Q w)
    (hd : DistinctNames foreign w.names) {t : Session τ} (hy : w.session.Yields foreign t) :
    w.session.Onward t := by
  refine .of_moves hy.moves.coordinator fun b x r hx hr habsent => ?_
  obtain ⟨o, g, l, hl, -⟩ := hb
  obtain ⟨l', hl', hm⟩ := hy.brings o g l hl
  refine hl.entry?_eq_none hl' (fun p hp => (hm p hp).imp_right fun hf he => ?_) habsent
  exact hd.home (b, r.id) (h.mem_names_of_stored hx hr) (he ▸ hf)

end Floor

end MemoFlow
