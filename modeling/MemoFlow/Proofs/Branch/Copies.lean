import MemoFlow.Proofs.Branch.Moves
import MemoFlow.Proofs.Cache.Recall

/-!
# Copies of results

A slice keeps the result of a branch in the cache of branches before it stores it with the block.
The copy leaves the cache when the results are collected, if it has not been evicted by then.

* `Session.copy?`, `Block.IsHonest`: copies, and collected results;
* **`Session.Onward`**: what never changes back, the lack of copies of a block that is done
  included;
* **`Session.Tends`**, `Session.care`: one step of code that collects results of some blocks, and
  the pact of such code;
* **`Session.assures_collect_joined`**: who collects the results of a block has dropped all copies;
* **`Session.Plain.cares`**: plain code makes such steps only.
-/

namespace MemoFlow

variable {τ : Type}

/-- Collected results are those of a block that is done. -/
def Block.IsHonest (x : Block τ) : Prop :=
  ∀ r, x.collected = some r → x.isDone = true ∧ r = x.results

theorem Block.Keeps.isDone_eq {x y : Block τ} (h : x.Keeps y) : y.isDone = x.isDone := by
  rw [Block.isDone, Block.isDone, h.remaining]

theorem Block.Keeps.results_eq {x y : Block τ} (h : x.Keeps y) : y.results = x.results := by
  rw [Block.results, Block.results, h.stored]

theorem Block.Keeps.isHonest {x y : Block τ} (h : x.Keeps y) (hx : x.IsHonest) : y.IsHonest := by
  intro r hr
  rw [h.isDone_eq, h.results_eq]
  obtain hc | ⟨hd, hc⟩ := h.collected
  · exact hx r (hc ▸ hr)
  · exact ⟨hd, Option.some.inj (hr.symm.trans hc)⟩

theorem Block.Keeps.isSome_collected {x y : Block τ} (h : x.Keeps y)
    (hx : x.collected.isSome = true) : y.collected.isSome = true := by
  obtain hc | ⟨-, hc⟩ := h.collected
  · rwa [hc]
  · rw [hc]
    rfl

namespace Session

open Process

/-- The copy of the result of a branch. -/
def copy? (s : Session τ) (b : Nat) (id : String) : Option (CacheEntry BranchResult) :=
  s.caches.branch.entry? (.ofBranch b id)

/-! ## Later sessions -/

/-- **What becomes of a block**: it keeps its branches, and when it is done, also what is stored and
collected, and no copy of a stored result comes back. -/
structure Carries (s t : Session τ) (b : Nat) (x y : Block τ) : Prop where
  tasks : y.tasks = x.tasks
  honest : x.IsHonest → y.IsHonest
  done : x.isDone = true → y.isDone = true
  stored : x.isDone = true → y.stored = x.stored
  collected : x.collected.isSome = true → y.collected.isSome = true
  absent : x.isDone = true → ∀ r, some r ∈ x.stored → s.copy? b r.id = none → t.copy? b r.id = none

theorem Carries.trans {s t u : Session τ} {b : Nat} {x y z : Block τ}
    (h : Carries s t b x y) (h' : Carries t u b y z) : Carries s u b x z where
  tasks := h'.tasks.trans h.tasks
  honest hx := h'.honest (h.honest hx)
  done hd := h'.done (h.done hd)
  stored hd := (h'.stored (h.done hd)).trans (h.stored hd)
  collected hc := h'.collected (h.collected hc)
  absent hd r hr hn := h'.absent (h.done hd) r (h.stored hd ▸ hr) (h.absent hd r hr hn)

theorem Carries.of_keeps {s t : Session τ} {b : Nat} {x y : Block τ} (h : x.Keeps y)
    (habsent : ∀ r, some r ∈ x.stored → s.copy? b r.id = none → t.copy? b r.id = none) :
    Carries s t b x y where
  tasks := h.tasks
  honest := h.isHonest
  done hd := h.isDone_eq.trans hd
  stored _ := h.stored
  collected := h.isSome_collected
  absent _ := habsent

/-- **A later session.** -/
structure Onward (s t : Session τ) : Prop where
  next : s.coordinator.nextBlock ≤ t.coordinator.nextBlock
  block : ∀ b x, b < s.coordinator.nextBlock → s.coordinator.block? b = some x →
    ∃ y, t.coordinator.block? b = some y ∧ Carries s t b x y

namespace Onward

variable {s t u : Session τ}

theorem refl (s : Session τ) : s.Onward s :=
  ⟨Nat.le_refl _, fun _ x _ hx => ⟨x, hx, .of_keeps (.refl x) fun _ _ => id⟩⟩

theorem trans (h : s.Onward t) (h' : t.Onward u) : s.Onward u where
  next := Nat.le_trans h.next h'.next
  block b x hb hx := by
    obtain ⟨y, hy, hc⟩ := h.block b x hb hx
    obtain ⟨z, hz, hc'⟩ := h'.block b y (Nat.lt_of_lt_of_le hb h.next) hy
    exact ⟨z, hz, hc.trans hc'⟩

/-- A move after which no copy of a stored result is new. -/
theorem of_moves [IsBranch τ] (hm : s.coordinator.Moves t.coordinator)
    (habsent : ∀ b x r, s.coordinator.block? b = some x → some r ∈ x.stored →
      s.copy? b r.id = none → t.copy? b r.id = none) : s.Onward t where
  next := hm.later.next
  block b x hb hx := by
    obtain ⟨y, hy, hk⟩ := (hm.spares hb).block x hx
    exact ⟨y, hy, .of_keeps hk fun r => habsent b x r hx⟩

end Onward

/-- **The results of a block are collected.** -/
def Joined (s : Session τ) (b : Nat) (r : BranchResults) : Prop :=
  b < s.coordinator.nextBlock ∧ ∃ x, s.coordinator.block? b = some x ∧ x.isDone = true ∧
    x.collected.isSome = true ∧ x.results = r

theorem Joined.onward {s t : Session τ} {b : Nat} {r : BranchResults} (h : s.Joined b r)
    (ht : s.Onward t) : t.Joined b r := by
  obtain ⟨hb, x, hx, hd, hc, rfl⟩ := h
  obtain ⟨y, hy, hk⟩ := ht.block b x hb hx
  refine ⟨Nat.lt_of_lt_of_le hb ht.next, y, hy, hk.done hd, hk.collected hc, ?_⟩
  rw [Block.results, Block.results, hk.stored hd]

/-! ## Tending to blocks -/

variable [IsRunnable τ]

/-- **One step of code other than that of slices**: it leaves the blocks alone, or starts one, or
drops a copy or collects the results of one of its own that is done. -/
inductive Tends (own : Nat → Prop) (s t : Session τ) : Prop where
  | rest (h : s.Rests t)
  | start (tasks : List τ) (workers : Option Nat)
    (hc : t.coordinator = (s.coordinator.start tasks workers).value.2)
    (hk : t.caches.branch = s.caches.branch) (hs : t.config = s.config)
  | drop (b : Nat) (x : Block τ) (r : BranchResult) (hb : own b)
    (hx : s.coordinator.block? b = some x) (hd : x.isDone = true) (hr : some r ∈ x.stored)
    (hc : t.coordinator = s.coordinator)
    (hk : t.caches.branch = (s.caches.branch.invalidate (.ofBranch b r.id)).2)
    (hs : t.config = s.config)
  | deposit (b : Nat) (x : Block τ) (hb : own b)
    (hx : s.coordinator.block? b = some x) (hd : x.isDone = true)
    (habsent : ∀ r, some r ∈ x.stored → s.copy? b r.id = none)
    (hc : t.coordinator =
      s.coordinator.modifyBlock b fun y => { y with collected := some x.results })
    (hk : t.caches.branch = s.caches.branch) (hs : t.config = s.config)

namespace Tends

variable {own : Nat → Prop} {s t : Session τ}

/-- Such a step is a move. -/
theorem moves (h : Tends own s t) : s.Moves t := by
  cases h with
  | rest h => exact ⟨.rest h.coordinator, h.config⟩
  | start tasks workers hc hk hs => exact ⟨.start tasks workers hc, hs⟩
  | drop b x r hb hx hd hr hc hk hs => exact ⟨.rest (hc ▸ .refl _), hs⟩
  | deposit b x hb hx hd habsent hc hk hs => exact ⟨.collect b x hx hd hc, hs⟩

/-- Such a step brings in no copy. -/
theorem copy?_eq_none (h : Tends own s t) {b : Nat} {id : String} (hn : s.copy? b id = none) :
    t.copy? b id = none := by
  unfold copy? at hn ⊢
  cases h with
  | rest h => rwa [h.branch]
  | start tasks workers hc hk hs => rwa [hk]
  | deposit b x hb hx hd habsent hc hk hs => rwa [hk]
  | drop b x r hb hx hd hr hc hk hs =>
    rw [hk, Cache.entry?_invalidate, hn]
    split <;> rfl

/-- Such a step drops at most one copy. -/
theorem copy?_cases (h : Tends own s t) : (∀ k id, t.copy? k id = s.copy? k id) ∨
    ∃ b x r, own b ∧ s.coordinator.block? b = some x ∧ some r ∈ x.stored ∧
      ∀ k id, Fingerprint.ofBranch k id ≠ .ofBranch b r.id → t.copy? k id = s.copy? k id := by
  unfold copy?
  cases h with
  | rest h => exact .inl fun _ _ => by rw [h.branch]
  | start tasks workers hc hk hs => exact .inl fun _ _ => by rw [hk]
  | deposit b x hb hx hd habsent hc hk hs => exact .inl fun _ _ => by rw [hk]
  | drop b x r hb hx hd hr hc hk hs =>
    refine .inr ⟨b, x, r, hb, hx, hr, fun k id hne => ?_⟩
    rw [hk, Cache.entry?_invalidate, if_neg hne]

theorem onward (h : Tends own s t) : s.Onward t :=
  .of_moves h.moves.coordinator fun _ _ _ _ _ => h.copy?_eq_none

end Tends

/-- **The pact of code that tends to blocks of its own.** -/
def care (own : Nat → Prop) : Pact (Session τ) where
  holds _ := True
  later := Onward
  allows := Tends own
  isDone s b := site.isDone s b = true
  refl := .refl
  trans := .trans
  later_of_allows := Tends.onward
  holds_of_later _ := id

/-! ## Collecting results -/

variable {own : Nat → Prop} {s : Session τ} {b : Nat} {x : Block τ}

/-- **Dropping the copies** of results that are stored. -/
theorem assures_dropAll (ho : own b) (hb : b < s.coordinator.nextBlock)
    (hx : s.coordinator.block? b = some x) (hd : x.isDone = true) (l l' : List BranchResult)
    (hl : ∀ r ∈ l ++ l', some r ∈ x.stored) (hgone : ∀ r ∈ l, s.copy? b r.id = none) :
    Assures (care own) (fun t _ => ∀ r ∈ l ++ l', t.copy? b r.id = none) s (dropAll b l') := by
  -- The copies of the results in `l` are gone already.
  unfold dropAll
  induction l' generalizing s x l with
  | nil =>
    refine .done fun t ht r hr => ?_
    obtain ⟨y, -, hk⟩ := ht.block b x hb hx
    exact hk.absent hd r (hl r hr) (hgone r (by simpa using hr))
  | cons r l' ih =>
    rw [List.forIn_cons, List.append_cons]
    have hdrop : Assures (care own) (fun t _ => t.copy? b r.id = none) s
        (onBranch fun c _ => ⟨c.invalidate (.ofBranch b r.id), []⟩) := by
      refine .update fun t ht => ?_
      obtain ⟨y, hy, hk⟩ := ht.block b x hb hx
      have hr : some r ∈ y.stored := hk.stored hd ▸ hl r (by simp)
      refine ⟨.drop b y r ho hy (hk.done hd) hr rfl rfl rfl, fun u hu => ?_⟩
      obtain ⟨z, -, hk'⟩ := hu.block b y (Nat.lt_of_lt_of_le hb ht.next) hy
      refine hk'.absent (hk.done hd) r hr ?_
      exact (Cache.entry?_invalidate _ _ _).trans (if_pos rfl)
    rw [bind_assoc]
    refine hdrop.bind fun _ t ht hnone => ?_
    obtain ⟨y, hy, hk⟩ := ht.block b x hb hx
    refine ih (Nat.lt_of_lt_of_le hb ht.next) hy (hk.done hd) _ (fun q hq => ?_) fun q hq => ?_
    · rw [hk.stored hd]
      exact hl q (by simpa using hq)
    · obtain hq | hq := List.mem_append.1 hq
      · exact hk.absent hd q (hl q (List.mem_append_left _ hq)) (hgone q hq)
      · rwa [List.mem_singleton.1 hq]

/-- **Who collects the results of a block that is done** comes to them, and has dropped all copies
by then. -/
theorem assures_collect_joined (ho : own b) (hb : b < s.coordinator.nextBlock)
    (hx : s.coordinator.block? b = some x) (hd : x.isDone = true) (hh : x.IsHonest) :
    Assures (care own) (fun t r => t.Joined b r) s (collect b) := by
  rw [collect_eq]
  refine .read fun t ht => ?_
  obtain ⟨y, hy, hk⟩ := ht.block b x hb hx
  have htb : b < t.coordinator.nextBlock := Nat.lt_of_lt_of_le hb ht.next
  have hyd := hk.done hd
  simp only [Process.bind, hy]
  cases hc : y.collected with
  | some r =>
    obtain ⟨-, rfl⟩ := hk.honest hh r hc
    exact .done fun u hu => Joined.onward ⟨htb, y, hy, hyd, by rw [hc]; rfl, rfl⟩ hu
  | none =>
    have hdrop := assures_dropAll ho htb hy hyd [] (y.stored.filterMap fun r => r) (by simp)
      (by simp)
    refine hdrop.bind fun _ u hu hgone => ?_
    obtain ⟨y', hy', hk'⟩ := hu.block b y htb hy
    have hub := Nat.lt_of_lt_of_le htb hu.next
    -- From here on the block is as it was when its results were read.
    have hkept : ∀ v, u.Onward v → ∃ z, v.coordinator.block? b = some z ∧ z.isDone = true ∧
        z.results = y.results ∧ ∀ r, some r ∈ z.stored → v.copy? b r.id = none := fun v hv => by
      obtain ⟨z, hz, hk''⟩ := hv.block b y' hub hy'
      have hyd' := hk'.done hyd
      have hstored : z.stored = y.stored := (hk''.stored hyd').trans (hk'.stored hyd)
      refine ⟨z, hz, hk''.done hyd', ?_, fun r hr => ?_⟩
      · rw [Block.results, Block.results, hstored]
      · have hr' : r ∈ y.stored.filterMap fun r => r :=
          List.mem_filterMap.2 ⟨some r, hstored ▸ hr, rfl⟩
        exact hk''.absent hyd' r (hk''.stored hyd' ▸ hr) (hgone r hr')
    refine .change (fun v hv => ?_) fun v hv => .done fun w hw => ?_
    · obtain ⟨z, hz, hzd, hresults, habsent⟩ := hkept v hv
      exact .deposit b z ho hz hzd habsent (by rw [hresults]) rfl rfl
    · obtain ⟨z, hz, hzd, hresults, -⟩ := hkept v hv
      have hz' := Coordinator.block?_modifyBlock_self
        (fun x => { x with collected := some y.results }) (fun _ => rfl) hz
      have hjoined : Joined { v with coordinator := v.coordinator.modifyBlock b fun x =>
          { x with collected := some y.results } } b y.results :=
        ⟨Nat.lt_of_lt_of_le hub hv.next, _, hz', hzd, rfl, hresults⟩
      exact hjoined.onward hw

/-! ## Plain code -/

/-- **A block that is started** is there from then on, and its results are not collected before its
end. -/
theorem assures_start (tasks : List τ) (workers : Option Nat) :
    Assures (care own) (fun t r => ∀ id, r = .ok id → id < t.coordinator.nextBlock ∧
      ∃ x, t.coordinator.block? id = some x ∧ x.IsHonest) s (start tasks workers) := by
  refine .update fun t _ => ⟨.start tasks workers rfl rfl rfl, fun u hu id hid => ?_⟩
  obtain ⟨hb, x, hx, hc⟩ := Coordinator.block?_of_start (Prod.ext hid rfl)
  obtain ⟨y, hy, hk⟩ := hu.block id x hb hx
  exact ⟨Nat.lt_of_lt_of_le hb hu.next, y, hy, hk.honest fun r hr => nomatch hc.symm.trans hr⟩

theorem Plain.cares {α : Type} {p : ActOf τ α} (hp : Plain p) (hall : ∀ b, own b) :
    Honours (care own) (fun _ => True) p := by
  have hnote : ∀ n, Honours (care own) (fun _ => True) (note (τ := τ) n) := fun n s _ =>
    .change (fun t _ => .rest (.of_eq rfl rfl rfl)) fun t _ => .done fun _ _ => trivial
  refine hp.honours_of (π := care own) .rest fun tasks workers timed => ?_
  refine honours_runBranches_of (K := fun t id => id < t.coordinator.nextBlock ∧
      ∃ x, t.coordinator.block? id = some x ∧ x.IsHonest) hnote tasks workers
    (fun s _ => assures_start tasks workers) (fun t u id hk _ hu hd => ?_) timed
  obtain ⟨hb, x, hx, hh⟩ := hk
  obtain ⟨y, hy, hk⟩ := hu.block id x hb hx
  exact (assures_collect_joined (hall id) (Nat.lt_of_lt_of_le hb hu.next) hy
    (block?_of_isDone hy hd) (hk.honest hh)).imp fun _ _ _ => trivial

end Session

end MemoFlow
