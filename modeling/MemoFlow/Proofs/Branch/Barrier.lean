import Mathlib.Logic.Relation
import MemoFlow.Proofs.Branch.Slices

/-!
# The slices of a block at work

The slices of a block make their steps in any order, and anything that spares the block may happen
between them. The block is done when all of them have retired, and by then each of its branches has
been claimed by one slice, run at most once, and stored.

* **`Shift`**, `Shift.Step`, `Shift.start`: the slices with the session and with what happened so
  far;
* `Shift.Balanced`, **`Shift.Sound`**: the account of the events, and the invariant;
* `Shift.Sound.slice`, `Shift.Sound.around`, **`Shift.Sound.reach`**: every step keeps it.
-/

namespace MemoFlow

/-! ## Claims -/

namespace Block

variable {τ : Type} {x : Block τ}

theorem claim_eq_some {i : Nat} {t : τ} (h : x.claim.1 = some (i, t)) :
    x.next = i ∧ x.tasks[x.next]? = some t := by
  obtain ⟨t', ht, he⟩ := Option.map_eq_some_iff.1 h
  obtain ⟨rfl, rfl⟩ := Prod.mk.inj he
  exact ⟨rfl, ht⟩

theorem claim_eq_none (h : x.claim.1 = none) : x.tasks.length ≤ x.next :=
  List.getElem?_eq_none_iff.1 (Option.map_eq_none_iff.1 h)

end Block

theorem BranchResult.id_ofOutcome (id : String) (o : Except BranchFailure BranchOutcome) :
    (ofOutcome id o).id = id := by
  cases o <;> rfl

variable {τ : Type}

theorem Session.advance_claim {b : Nat} {s : Session τ} {x : Block τ}
    (hx : s.coordinator.block? b = some x) : (Session.claim b).advance s =
      (.done x.claim.1,
        { s with coordinator := s.coordinator.modifyBlock b fun y => y.claim.2 }) := by
  unfold Session.claim Process.update
  simp only [Process.advance, hx]

/-! ## Shifts -/

/-- **The slices of a block at work**: where they stand, the session, and what happened so far. -/
structure Shift (τ : Type) where
  /-- The slices. -/
  slices : List (Position τ)
  /-- The session. -/
  session : Session τ
  /-- What happened, the first event first. -/
  log : List Event

namespace Shift

/-- **A step**: one of the slices makes its next one, or something else happens that spares the
block. -/
inductive Step [IsRunnable τ] (b : Nat) : Shift τ → Shift τ → Prop where
  | slice {ps qs : List (Position τ)} {p p' : Position τ} {s s' : Session τ} {e : Event}
    {log : List Event}
    (h : Position.Next b p s e p' s') :
    Step b ⟨ps ++ p :: qs, s, log⟩ ⟨ps ++ p' :: qs, s', log ++ [e]⟩
  | around {ps : List (Position τ)} {s s' : Session τ} {log : List Event}
    (h : s.coordinator.Spares b s'.coordinator) : Step b ⟨ps, s, log⟩ ⟨ps, s', log⟩

/-- Slices that wait in the pool. -/
def start (k : Nat) (s : Session τ) : Shift τ := ⟨List.replicate k .waiting, s, []⟩

/-! ## The account of the events -/

/-- **The account of the slices**: a branch that was claimed is in the hand of a slice or stored,
and it is not begun, begun or cancelled. A body that has begun is running or has come to its end. -/
structure Balanced (slices : List (Position τ)) (log : List Event) : Prop where
  holds : ∀ i, log.count (.claim i) = slices.countP (·.holds i) + log.count (.store i)
  begins : ∀ i, log.count (.claim i) =
    slices.countP (·.isBefore i) + log.count (.begin i) + log.count (.cancel i)
  finishes : log.countP Event.isBegin = slices.countP Position.isRunning + log.countP Event.isFinish

theorem balanced_start (k : Nat) : Balanced (τ := τ) (List.replicate k .waiting) [] := by
  refine ⟨fun i => ?_, fun i => ?_, ?_⟩ <;> simp [List.countP_replicate, Position.holds,
    Position.isBefore, Position.isRunning]

theorem countP_slice (f : Position τ → Bool) (ps qs : List (Position τ)) (p : Position τ) :
    (ps ++ p :: qs).countP f = ps.countP f + [p].countP f + qs.countP f := by
  rw [List.append_cons, List.countP_append, List.countP_append]

/-- **A step keeps the account.** -/
theorem Balanced.next [IsRunnable τ] {b : Nat} {ps qs : List (Position τ)} {p p' : Position τ}
    {s s' : Session τ} {e : Event} {log : List Event} (h : Balanced (ps ++ p :: qs) log)
    (hn : Position.Next b p s e p' s') : Balanced (ps ++ p' :: qs) (log ++ [e]) := by
  refine ⟨fun i => ?_, fun i => ?_, ?_⟩
  · have h1 := h.holds i
    have h2 := hn.holds_add i
    rw [countP_slice] at h1 ⊢
    rw [List.count_append, List.count_append]
    omega
  · have h1 := h.begins i
    have h2 := hn.isBefore_add i
    rw [countP_slice] at h1 ⊢
    rw [List.count_append, List.count_append, List.count_append]
    omega
  · have h1 := h.finishes
    have h2 := hn.isRunning_add
    rw [countP_slice] at h1 ⊢
    rw [List.countP_append, List.countP_append]
    omega

/-! ## The invariant -/

theorem collected_of_keeps {x y : Block τ} (h : x.Keeps y)
    (hx : x.collected = none ∨ x.isDone = true ∧ x.collected = some x.results) :
    y.collected = none ∨ y.isDone = true ∧ y.collected = some y.results := by
  have hd : y.isDone = x.isDone := by rw [Block.isDone, Block.isDone, h.remaining]
  have hr : y.results = x.results := by rw [Block.results, Block.results, h.stored]
  rw [hd, hr]
  obtain hc | hc := h.collected
  · rw [hc]
    exact hx
  · exact .inr hc

variable [IsRunnable τ]

/-- **The invariant of the slices at work** on a block with the branches `ts`, whose present state
is `x`. -/
structure Sound (b : Nat) (ts : List τ) (x : Block τ) (w : Shift τ) :
    Prop where
  block : w.session.coordinator.block? b = some x
  given : b < w.session.coordinator.nextBlock
  tasks : x.tasks = ts
  length : x.stored.length = ts.length
  remaining : x.remaining = w.slices.countP Position.isAtWork
  claims : ∀ i, w.log.count (.claim i) = if i < min x.next ts.length then 1 else 0
  balanced : Balanced w.slices w.log
  fits : ∀ p ∈ w.slices, p.Fits b ts x.next
  results : ∀ i, .store i ∈ w.log → ∃ t r, ts[i]? = some t ∧
    x.stored[i]? = some (some r) ∧ r.id = IsBranch.id t
  collected : x.collected = none ∨ x.isDone = true ∧ x.collected = some x.results

variable {b : Nat} {ts : List τ} {x y : Block τ}

/-- What happens around the slices keeps the invariant. -/
theorem Sound.around {ps : List (Position τ)} {s s' : Session τ} {log : List Event}
    (h : Sound b ts x ⟨ps, s, log⟩) (hs : s.coordinator.Spares b s'.coordinator) :
    ∃ y, Sound b ts y ⟨ps, s', log⟩ := by
  obtain ⟨y, hy, hk⟩ := hs.block x h.block
  refine ⟨y, hy, Nat.lt_of_lt_of_le h.given hs.next, hk.tasks.trans h.tasks, ?_, ?_, ?_, h.balanced,
    ?_, ?_, collected_of_keeps hk h.collected⟩
  · rw [hk.stored]
    exact h.length
  · rw [hk.remaining]
    exact h.remaining
  · rw [hk.next]
    exact h.claims
  · rw [hk.next]
    exact h.fits
  · rw [hk.stored]
    exact h.results

section Slice

variable {ps qs : List (Position τ)} {p p' : Position τ} {s s' : Session τ} {e : Event}
  {log : List Event}

/-- **A step of a slice keeps the invariant**, when what it makes of the block goes with where it
stands afterwards. -/
theorem Sound.slice (h : Sound b ts x ⟨ps ++ p :: qs, s, log⟩) (hn : Position.Next b p s e p' s')
    (hy : s'.coordinator.block? b = some y) (hb : b < s'.coordinator.nextBlock)
    (htasks : y.tasks = x.tasks) (hlength : y.stored.length = x.stored.length)
    (hnext : x.next ≤ y.next) (hfits : p'.Fits b ts y.next)
    (hremaining : y.remaining + [p].countP Position.isAtWork =
      x.remaining + [p'].countP Position.isAtWork)
    (hclaims : ∀ i, [e].count (.claim i) + (if i < min x.next ts.length then 1 else 0) =
      if i < min y.next ts.length then 1 else 0)
    (hresults : ∀ i, .store i ∈ log ++ [e] → ∃ t r, ts[i]? = some t ∧
      y.stored[i]? = some (some r) ∧ r.id = IsBranch.id t)
    (hcollected : y.collected = none ∨ y.isDone = true ∧ y.collected = some y.results) :
    Sound b ts y ⟨ps ++ p' :: qs, s', log ++ [e]⟩ where
  block := hy
  given := hb
  tasks := htasks.trans h.tasks
  length := hlength.trans h.length
  remaining := by
    have hr := h.remaining
    change x.remaining = (ps ++ p :: qs).countP Position.isAtWork at hr
    show y.remaining = (ps ++ p' :: qs).countP Position.isAtWork
    rw [countP_slice] at hr ⊢
    omega
  claims i := by
    have hc := h.claims i
    change log.count (.claim i) = _ at hc
    show (log ++ [e]).count (.claim i) = _
    rw [List.count_append, hc, Nat.add_comm, hclaims]
  balanced := h.balanced.next hn
  fits q hq := by
    change q ∈ ps ++ p' :: qs at hq
    have hold : q ∈ ps ++ p :: qs → q.Fits b ts y.next := fun hm => (h.fits q hm).mono hnext
    simp only [List.mem_append, List.mem_cons] at hq hold
    obtain hq | rfl | hq := hq
    · exact hold (.inl hq)
    · exact hfits
    · exact hold (.inr (.inr hq))
  results := hresults
  collected := hcollected

/-- The place of the slice that makes a step. -/
theorem Sound.fits_self (h : Sound b ts x ⟨ps ++ p :: qs, s, log⟩) : p.Fits b ts x.next :=
  h.fits p (List.mem_append_right ps List.mem_cons_self)

/-- A block with a slice at work is not done, and nothing is collected. -/
theorem Sound.remaining_pos (h : Sound b ts x ⟨ps ++ p :: qs, s, log⟩) (hp : p.isAtWork = true) :
    0 < x.remaining ∧ x.collected = none := by
  have hr := h.remaining
  change x.remaining = (ps ++ p :: qs).countP Position.isAtWork at hr
  rw [countP_slice, List.countP_singleton, if_pos hp] at hr
  have hpos : 0 < x.remaining := by omega
  refine ⟨hpos, h.collected.resolve_right fun hd => ?_⟩
  exact Nat.ne_of_gt hpos (of_decide_eq_true hd.1)

/-- The stored results stay when no other one is stored. -/
theorem Sound.results_of_stored (h : Sound b ts x ⟨ps, s, log⟩) (hs : y.stored = x.stored)
    (he : ∀ i, e ≠ .store i) (i : Nat) (hi : .store i ∈ log ++ [e]) :
    ∃ t r, ts[i]? = some t ∧ y.stored[i]? = some (some r) ∧ r.id = IsBranch.id t := by
  rw [hs]
  obtain hi | hi := List.mem_append.1 hi
  · exact h.results i hi
  · exact absurd (List.mem_singleton.1 hi).symm (he i)

/-- A step that spares the block. -/
theorem Sound.spared (h : Sound b ts x ⟨ps ++ p :: qs, s, log⟩) (hn : Position.Next b p s e p' s')
    (hs : s.coordinator.Spares b s'.coordinator) (hp : p'.isAtWork = p.isAtWork)
    (hc : ∀ i, e ≠ .claim i) (he : ∀ i, e ≠ .store i) (hf : p'.Fits b ts x.next) :
    ∃ y, Sound b ts y ⟨ps ++ p' :: qs, s', log ++ [e]⟩ := by
  obtain ⟨y, hy, hk⟩ := hs.block x h.block
  refine ⟨y, h.slice hn hy (Nat.lt_of_lt_of_le h.given hs.next) hk.tasks ?_ ?_ ?_ ?_ ?_ ?_ ?_⟩
  · rw [hk.stored]
  · exact Nat.le_of_eq hk.next.symm
  · rw [hk.next]
    exact hf
  · rw [hk.remaining, List.countP_singleton, List.countP_singleton, hp]
  · intro i
    rw [hk.next, List.count_singleton, if_neg (by simpa using hc i), Nat.zero_add]
  · exact h.results_of_stored hk.stored he
  · exact collected_of_keeps hk h.collected

/-! ## The steps on the block -/

/-- A claim that comes to a branch. -/
theorem Sound.claim {c : SessionConfig} {n i : Nat} {t : τ}
    (h : Sound b ts x ⟨ps ++ .idle c (n + 1) :: qs, s, log⟩)
    (ha : (Session.claim b).advance s = (.done (some (i, t)), s')) :
    Sound b ts x.claim.2 ⟨ps ++ .claimed ⟨c, n, i, t⟩ :: qs, s', log ++ [.claim i]⟩ := by
  have hn := Position.Next.claim (c := c) (n := n) ha
  rw [Session.advance_claim h.block] at ha
  obtain ⟨h1, rfl⟩ := Prod.mk.inj ha
  obtain ⟨rfl, ht⟩ := Block.claim_eq_some (Process.Stop.done.inj h1)
  rw [h.tasks] at ht
  have hlt : x.next < ts.length := (List.getElem?_eq_some_iff.1 ht).1
  -- The slice may still claim more branches than are left, so one claim less is enough.
  have hfit : ts.length < n + 1 + min x.next ts.length := h.fits_self
  have hy := Coordinator.block?_modifyBlock_self (fun y => y.claim.2) (fun _ => rfl) h.block
  refine h.slice hn hy h.given rfl rfl (Nat.le_succ _) ?_ rfl ?_ ?_ ?_
  · refine ⟨ht, ?_⟩
    show ts.length < n + min (x.next + 1) ts.length
    omega
  · intro i
    show _ = if i < min (x.next + 1) ts.length then 1 else 0
    rw [List.count_singleton]
    simp only [beq_iff_eq, Event.claim.injEq]
    split <;> split <;> split <;> omega
  · exact h.results_of_stored rfl nofun
  · exact .inl (h.remaining_pos rfl).2

/-- A claim that comes too late. -/
theorem Sound.exhaust {c : SessionConfig} {n : Nat}
    (h : Sound b ts x ⟨ps ++ .idle c (n + 1) :: qs, s, log⟩)
    (ha : (Session.claim b).advance s = (.done none, s')) :
    Sound b ts x.claim.2 ⟨ps ++ .leaving :: qs, s', log ++ [.other]⟩ := by
  have hn := Position.Next.exhaust (c := c) (n := n) ha
  rw [Session.advance_claim h.block] at ha
  obtain ⟨h1, rfl⟩ := Prod.mk.inj ha
  have hle := Block.claim_eq_none (Process.Stop.done.inj h1)
  rw [h.tasks] at hle
  have hy := Coordinator.block?_modifyBlock_self (fun y => y.claim.2) (fun _ => rfl) h.block
  refine h.slice hn hy h.given rfl rfl (Nat.le_succ _) ?_ rfl ?_ ?_ ?_
  · exact Nat.le_succ_of_le hle
  · intro i
    show _ = if i < min (x.next + 1) ts.length then 1 else 0
    rw [Nat.min_eq_right hle, Nat.min_eq_right (Nat.le_succ_of_le hle)]
    exact Nat.zero_add _
  · exact h.results_of_stored rfl nofun
  · exact .inl (h.remaining_pos rfl).2

/-- The result of a branch is stored at its place. -/
theorem Sound.store {g : Errand τ} {r : BranchResult}
    (h : Sound b ts x ⟨ps ++ .filed g r :: qs, s, log⟩)
    (ha : (Session.onBlock b fun x => x.store g.index r).advance s = (.done (), s')) :
    Sound b ts (x.store g.index r) ⟨ps ++ .idle g.config g.rest :: qs, s',
      log ++ [.store g.index]⟩ := by
  have hn := Position.Next.store ha
  obtain ⟨-, rfl⟩ := Prod.mk.inj ha
  obtain ⟨hg, hid⟩ : g.Fits ts x.next ∧ r.id = IsBranch.id g.task := h.fits_self
  have hlt : g.index < x.stored.length := by
    rw [h.length]
    exact (List.getElem?_eq_some_iff.1 hg.task).1
  have hy := Coordinator.block?_modifyBlock_self (fun y => y.store g.index r) (fun _ => rfl) h.block
  refine h.slice hn hy h.given rfl List.length_set (Nat.le_refl _)
    hg.rest rfl (fun i => Nat.zero_add _) (fun i hi => ?_) (.inl (h.remaining_pos rfl).2)
  show ∃ t r', _ ∧ (x.stored.set g.index (some r))[i]? = _ ∧ _
  by_cases hgi : g.index = i
  · subst hgi
    exact ⟨g.task, r, hg.task, List.getElem?_set_self hlt, hid⟩
  · rw [List.getElem?_set_ne hgi]
    obtain hi | hi := List.mem_append.1 hi
    · exact h.results i hi
    · exact absurd (Event.store.inj (List.mem_singleton.1 hi)).symm hgi

/-- A slice retires. -/
theorem Sound.retire (h : Sound b ts x ⟨ps ++ .leaving :: qs, s, log⟩)
    (ha : (Session.onBlock b Block.retire).advance s = (.done (), s')) :
    Sound b ts x.retire ⟨ps ++ .retired :: qs, s', log ++ [.other]⟩ := by
  have hn := Position.Next.retire ha
  obtain ⟨-, rfl⟩ := Prod.mk.inj ha
  obtain ⟨hpos, hnone⟩ := h.remaining_pos rfl
  have hy := Coordinator.block?_modifyBlock_self Block.retire (fun _ => rfl) h.block
  refine h.slice hn hy h.given rfl rfl (Nat.le_refl _) h.fits_self
    (Nat.sub_add_cancel hpos) (fun i => Nat.zero_add _) (h.results_of_stored rfl nofun)
    (.inl hnone)

/-- **Every step of a slice keeps the invariant.** -/
theorem Sound.next [IsPlainBranch τ] (h : Sound b ts x ⟨ps ++ p :: qs, s, log⟩)
    (hn : Position.Next b p s e p' s') :
    ∃ y, Sound b ts y ⟨ps ++ p' :: qs, s', log ++ [e]⟩ := by
  have hp := h.fits_self
  -- A claim, the store of a result and a retirement change the block. All other steps spare it.
  cases hn with
  | enter hx =>
    have hx : some x = some _ := h.block.symm.trans hx
    obtain rfl := Option.some.inj hx
    refine h.spared (.enter h.block) (.refl b _) rfl nofun nofun ?_
    show ts.length < x.tasks.length + 1 + min x.next ts.length
    rw [h.tasks]
    omega
  | claim ha => exact ⟨_, h.claim ha⟩
  | exhaust ha => exact ⟨_, h.exhaust ha⟩
  | @begin g _ _ ha =>
    have hn := Position.Next.begin (e := g) ha
    obtain ⟨-, rfl⟩ := Prod.mk.inj ha
    exact h.spared hn (Coordinator.spares_permit b b _) rfl nofun nofun
      ⟨hp, Session.obeys_answer _ _⟩
  | @cancel g _ _ ha =>
    have hn := Position.Next.cancel (e := g) ha
    obtain ⟨-, rfl⟩ := Prod.mk.inj ha
    exact h.spared hn (Coordinator.spares_permit b b _) rfl nofun nofun ⟨hp, rfl⟩
  | go hs =>
    -- The body may run scripts, pipelines and blocks of its own, in any number of steps.
    obtain ⟨hspare, hq⟩ := hp.2.of_step h.given hs
    refine h.spared (.go hs) ?_ rfl nofun nofun ⟨hp.1, hq⟩
    obtain rfl | hspare := hspare
    · exact .refl b _
    · exact hspare
  | finish ha =>
    have hn := Position.Next.finish ha
    obtain ⟨-, rfl⟩ := Prod.mk.inj ha
    exact h.spared hn (Coordinator.spares_conclude b b _ _) rfl nofun nofun
      ⟨hp.1, BranchResult.id_ofOutcome _ _⟩
  | file ha =>
    have hn := Position.Next.file ha
    obtain ⟨-, rfl⟩ := Prod.mk.inj ha
    exact h.spared hn (.of_blocks rfl rfl) rfl nofun nofun hp
  | store ha => exact ⟨_, h.store ha⟩
  | retire ha => exact ⟨_, h.retire ha⟩

end Slice

/-- **Every reachable state is sound.** -/
theorem Sound.reach [IsPlainBranch τ] {w w' : Shift τ} (h : Sound b ts x w)
    (hr : Relation.ReflTransGen (Step b) w w') : ∃ y, Sound b ts y w' := by
  induction hr with
  | refl => exact ⟨x, h⟩
  | tail _ hs ih =>
    obtain ⟨y, hy⟩ := ih
    cases hs with
    | slice hn => exact hy.next hn
    | around hs => exact hy.around hs

/-- The number of the slices stays. -/
theorem length_of_reach {w w' : Shift τ} (hr : Relation.ReflTransGen (Step b) w w') :
    w'.slices.length = w.slices.length := by
  induction hr with
  | refl => rfl
  | tail _ hs ih =>
    rw [← ih]
    cases hs with
    | slice hn => simp only [List.length_append, List.length_cons]
    | around hs => rfl

end Shift

end MemoFlow
