import MemoFlow.Proofs.Branch.Moves

/-!
# What a step of a slice does

A step of a slice changes its own block and the counters of branches, and nothing else of the
coordinator, unless it is a step in the body of a branch.

* `Record`, `Position.result?`, `Record.tally`: an event with the result in hand after it;
* **`Position.Effect`**: what each step makes of the block;
* `Coordinator.Works`: what it makes of the coordinator;
* **`Position.Next.effect`**: each step has its effect.
-/

namespace MemoFlow

/-! ## Records -/

/-- An event, with the result that the slice has in hand after it. -/
abbrev Record : Type := Event × Option BranchResult

variable {τ : Type}

/-- The result in the hand of a slice. -/
def Position.result? : Position τ → Option BranchResult
  | .ended _ r | .filed _ r => some r
  | _ => none

/-- How many branches have ended in a way. -/
def Record.tally (σ : BranchStatus) : Record → Nat
  | (.finish _, some r) | (.cancel _, some r) => if r.status = σ then 1 else 0
  | _ => 0

/-! ## Effects -/

/-- A block that has changed at most in its collected results. -/
structure Block.Same (x y : Block τ) : Prop where
  id : y.id = x.id
  policy : y.policy = x.policy
  workers : y.workers = x.workers
  tasks : y.tasks = x.tasks
  stored : y.stored = x.stored
  next : y.next = x.next
  remaining : y.remaining = x.remaining
  aborted : y.aborted = x.aborted

theorem Block.Same.refl (x : Block τ) : x.Same x :=
  ⟨rfl, rfl, rfl, rfl, rfl, rfl, rfl, rfl⟩

/-- The block after the end of a body: a failure aborts it under the fast policy. -/
def Block.after (x : Block τ) (r : BranchResult) : Block τ :=
  if r.isOk = false ∧ x.policy = .fast then x.raiseAbort else x

/-- **What a step of a slice makes of its block.** -/
inductive Position.Effect [IsRunnable τ] (x : Block τ) :
    Position τ → Event → Position τ → Block τ → Prop where
  | enter {c : SessionConfig} : Effect x .waiting .other (.idle c (x.tasks.length + 1)) x
  | claim {c : SessionConfig} {n : Nat} {t : τ} (h : x.tasks[x.next]? = some t) :
    Effect x (.idle c (n + 1)) (.claim x.next) (.claimed ⟨c, n, x.next, t⟩) x.claim.2
  | exhaust {c : SessionConfig} {n : Nat} (h : x.tasks.length ≤ x.next) :
    Effect x (.idle c (n + 1)) .other .leaving x.claim.2
  | begin {e : Errand τ} (h : x.aborted = false) :
    Effect x (.claimed e) (.begin e.index)
      (.running e ((Session.branchHost e.config).answer (IsRunnable.toTask e.config e.task))) x
  | cancel {e : Errand τ} (h : x.aborted = true) :
    Effect x (.claimed e) (.cancel e.index)
      (.ended e (.ofCancelled (IsBranch.id e.task) (IsBranch.env e.task))) x
  | go {e : Errand τ} {p q : ActOf τ (Except BranchFailure BranchOutcome)} {y : Block τ}
    (h : x.Same y) : Effect x (.running e p) .other (.running e q) y
  | finish {e : Errand τ} {o : Except BranchFailure BranchOutcome} :
    Effect x (.running e (.done o)) (.finish e.index) (.ended e (.ofOutcome (IsBranch.id e.task) o))
      (x.after (.ofOutcome (IsBranch.id e.task) o))
  | file {e : Errand τ} {r : BranchResult} : Effect x (.ended e r) .other (.filed e r) x
  | store {e : Errand τ} {r : BranchResult} :
    Effect x (.filed e r) (.store e.index) (.idle e.config e.rest) (x.store e.index r)
  | retire : Effect x .leaving .other .retired x.retire

/-- **What a step of a slice makes of the coordinator**, when it makes `f` of the block and puts `a`
on record. -/
structure Coordinator.Works (b : Nat) (f : Block τ → Block τ) (a : Record)
    (c c' : Coordinator τ) : Prop where
  blocks : c'.blocks = (c.modifyBlock b f).blocks
  next : c'.nextBlock = c.nextBlock
  config : c'.config = c.config
  branches : c'.stats.branches = c.stats.branches
  failed : c'.stats.failed = c.stats.failed + a.tally .failed
  cancelled : c'.stats.cancelled = c.stats.cancelled + a.tally .cancelled

/-- A change of a block that leaves alone what it is made of. -/
structure Block.Alters (f : Block τ → Block τ) : Prop where
  id : ∀ x, (f x).id = x.id
  policy : ∀ x, (f x).policy = x.policy
  workers : ∀ x, (f x).workers = x.workers
  tasks : ∀ x, (f x).tasks = x.tasks
  collected : ∀ x, (f x).collected = x.collected

namespace Block.Alters

theorem refl : Alters fun x : Block τ => x :=
  ⟨fun _ => rfl, fun _ => rfl, fun _ => rfl, fun _ => rfl, fun _ => rfl⟩

theorem claim : Alters fun x : Block τ => x.claim.2 :=
  ⟨fun _ => rfl, fun _ => rfl, fun _ => rfl, fun _ => rfl, fun _ => rfl⟩

theorem raiseAbort : Alters (Block.raiseAbort : Block τ → Block τ) :=
  ⟨fun _ => rfl, fun _ => rfl, fun _ => rfl, fun _ => rfl, fun _ => rfl⟩

theorem store (i : Nat) (r : BranchResult) : Alters fun x : Block τ => x.store i r :=
  ⟨fun _ => rfl, fun _ => rfl, fun _ => rfl, fun _ => rfl, fun _ => rfl⟩

theorem retire : Alters (Block.retire : Block τ → Block τ) :=
  ⟨fun _ => rfl, fun _ => rfl, fun _ => rfl, fun _ => rfl, fun _ => rfl⟩

end Block.Alters

theorem Coordinator.modifyBlock_id (c : Coordinator τ) (b : Nat) :
    (c.modifyBlock b id).blocks = c.blocks := by
  simp [modifyBlock]

/-- A step that changes no counter. -/
theorem Coordinator.Works.of_eq {b : Nat} {f : Block τ → Block τ} {a : Record}
    {c c' : Coordinator τ} (h : c' = c.modifyBlock b f) (ha : ∀ σ, a.tally σ = 0) :
    Works b f a c c' := by
  subst h
  exact ⟨rfl, rfl, rfl, rfl, by rw [ha]; rfl, by rw [ha]; rfl⟩

namespace Session

variable {b : Nat} {s s' : Session τ} {x : Block τ}

/-- Whether a branch may start tells whether the block is aborted. -/
theorem of_permit {r : Bool} {a : Record} (hx : s.coordinator.block? b = some x)
    (h : (permit b).advance s = (.done r, s')) (hf : a.tally .failed = 0)
    (hc : a.tally .cancelled = (!r).toNat) :
    x.aborted = !r ∧ Coordinator.Works b id a s.coordinator s'.coordinator := by
  obtain ⟨h1, h2⟩ := Prod.mk.inj h
  have hr : (s.coordinator.permit b).1 = r := Process.Stop.done.inj h1
  have hs : s'.coordinator = (s.coordinator.permit b).2 := (congrArg Session.coordinator h2).symm
  have hid := s.coordinator.modifyBlock_id b
  rw [hs]
  unfold Coordinator.permit at hr ⊢
  rw [hx] at hr ⊢
  dsimp only at hr ⊢
  cases ha : x.aborted <;> simp only [ha, if_true, Bool.false_eq_true, if_false] at hr ⊢ <;>
    subst hr <;> exact ⟨rfl, hid.symm, rfl, rfl, rfl, by rw [hf]; rfl, by rw [hc]; rfl⟩

/-- The end of a body is counted, and a failure aborts the block under the fast policy. -/
theorem of_conclude {r : BranchResult} {a : Record}
    (hpol : x.policy = s.coordinator.config.policy)
    (h : (conclude b r).advance s = (.done (), s')) (hf : a.tally .failed = (!r.isOk).toNat)
    (hc : a.tally .cancelled = 0) :
    ∃ f : Block τ → Block τ, f x = x.after r ∧ Block.Alters f ∧
      Coordinator.Works b f a s.coordinator s'.coordinator := by
  have hs : s'.coordinator = (s.coordinator.conclude b r).value :=
    (congrArg Session.coordinator (Prod.mk.inj h).2).symm
  have hid := s.coordinator.modifyBlock_id b
  rw [hs]
  unfold Coordinator.conclude Block.after
  rw [hpol]
  cases hr : r.isOk with
  | true =>
    refine ⟨id, by simp, .refl, hid.symm, rfl, rfl, rfl, ?_, ?_⟩
    · rw [hf, hr]
      rfl
    · rw [hc]
      rfl
  | false =>
    rw [if_neg Bool.false_ne_true]
    dsimp only [Coordinator.count]
    by_cases hfast : s.coordinator.config.policy = .fast
    · rw [if_pos ⟨rfl, hfast⟩, if_pos hfast]
      refine ⟨Block.raiseAbort, rfl, .raiseAbort, rfl, rfl, rfl, rfl, ?_, ?_⟩
      · rw [hf, hr]
        rfl
      · rw [hc]
        rfl
    · rw [if_neg fun h => hfast h.2, if_neg hfast]
      refine ⟨id, rfl, .refl, hid.symm, rfl, rfl, rfl, ?_, ?_⟩
      · rw [hf, hr]
        rfl
      · rw [hc]
        rfl

end Session

/-- **Each step of a slice has its effect** on the block and the coordinator, or it is a step in the
body of a branch. -/
theorem Position.Next.effect [IsRunnable τ] {b : Nat} {p p' : Position τ} {s s' : Session τ}
    {e : Event} {x : Block τ} (h : Next b p s e p' s') (hx : s.coordinator.block? b = some x)
    (hpol : x.policy = s.coordinator.config.policy) :
    (∃ f : Block τ → Block τ, Block.Alters f ∧ Effect x p e p' (f x) ∧
      Coordinator.Works b f (e, p'.result?) s.coordinator s'.coordinator ∧ s'.config = s.config) ∨
    ∃ g q q', p = .running g q ∧ e = .other ∧ p' = .running g q' ∧ Process.Step q s q' s' := by
  have hid : Block.Alters (id : Block τ → Block τ) := .refl
  -- Steps that leave all blocks alone, and those that change this one at once.
  have hsame : ∀ {c' : Coordinator τ} {a : Record}, c' = s.coordinator →
      (∀ σ, a.tally σ = 0) → Coordinator.Works b id a s.coordinator c' := fun hc ha => by
    subst hc
    exact ⟨(Coordinator.modifyBlock_id _ b).symm, rfl, rfl, rfl, by rw [ha]; rfl, by rw [ha]; rfl⟩
  cases h with
  | enter hx' =>
    obtain rfl := Option.some.inj (hx.symm.trans hx')
    exact .inl ⟨id, hid, .enter, hsame rfl fun _ => rfl, rfl⟩
  | @claim c n i t _ _ ha =>
    rw [Session.advance_claim hx] at ha
    obtain ⟨h1, h2⟩ := Prod.mk.inj ha
    obtain ⟨rfl, ht⟩ := Block.claim_eq_some (Process.Stop.done.inj h1)
    exact .inl ⟨fun y => y.claim.2, .claim,
      .claim ht, .of_eq (congrArg Session.coordinator h2).symm fun _ => rfl,
      (congrArg Session.config h2).symm⟩
  | @exhaust c n _ _ ha =>
    rw [Session.advance_claim hx] at ha
    obtain ⟨h1, h2⟩ := Prod.mk.inj ha
    exact .inl ⟨fun y => y.claim.2, .claim,
      .exhaust (Block.claim_eq_none (Process.Stop.done.inj h1)),
      .of_eq (congrArg Session.coordinator h2).symm fun _ => rfl, (congrArg Session.config h2).symm⟩
  | @begin g _ _ ha =>
    obtain ⟨hab, hw⟩ := Session.of_permit (a := (.begin g.index, none)) hx ha rfl rfl
    exact .inl ⟨id, hid, .begin hab, hw, (congrArg Session.config (Prod.mk.inj ha).2).symm⟩
  | @cancel g _ _ ha =>
    obtain ⟨hab, hw⟩ := Session.of_permit
      (a := (.cancel g.index, some (.ofCancelled (IsBranch.id g.task) (IsBranch.env g.task))))
      hx ha rfl rfl
    exact .inl ⟨id, hid, .cancel hab, hw, (congrArg Session.config (Prod.mk.inj ha).2).symm⟩
  | go hstep => exact .inr ⟨_, _, _, rfl, rfl, rfl, hstep⟩
  | @finish g o _ _ ha =>
    obtain ⟨f, hfx, hf, hw⟩ := Session.of_conclude
      (a := (.finish g.index, some (.ofOutcome (IsBranch.id g.task) o))) hpol ha
      (by cases o <;> rfl) (by cases o <;> rfl)
    exact .inl ⟨f, hf, hfx ▸ .finish, hw, (congrArg Session.config (Prod.mk.inj ha).2).symm⟩
  | @file g r kept _ _ ha =>
    have hc : s'.coordinator = s.coordinator :=
      (congrArg Session.coordinator (Prod.mk.inj ha).2).symm
    exact .inl ⟨id, hid, .file, hsame hc fun _ => rfl,
      (congrArg Session.config (Prod.mk.inj ha).2).symm⟩
  | @store g r _ _ ha =>
    exact .inl ⟨fun y => y.store g.index r, .store g.index r, .store,
      .of_eq (congrArg Session.coordinator (Prod.mk.inj ha).2).symm fun _ => rfl,
      (congrArg Session.config (Prod.mk.inj ha).2).symm⟩
  | retire ha =>
    exact .inl ⟨Block.retire, .retire, .retire,
      .of_eq (congrArg Session.coordinator (Prod.mk.inj ha).2).symm fun _ => rfl,
      (congrArg Session.config (Prod.mk.inj ha).2).symm⟩

end MemoFlow
