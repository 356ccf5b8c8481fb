import MemoFlow.Proofs.Branch.Effects

/-!
# What the slices of a block put on record

The records of a block tell where each of its results comes from, and what a failure has done to the
branches that were not begun by then.

* `Record.IsFailure`, `Ended`, `Record.Follows`: failures, the end of a branch, and what a record
  says of those before it;
* `Position.Effect.runs_add`, `Position.Effect.tally_add`: bodies and results add up;
* **`Recorded`**, `Recorded.next`: the invariant of a block and its records;
* **`InOrder`**, `InOrder.next`: what holds besides with one slice.
-/

namespace MemoFlow

variable {τ : Type}

/-! ## What a record says -/

/-- Whether a slice is in the body of a branch. -/
def Position.runs (i : Nat) : Position τ → Bool
  | .running e _ => e.index = i
  | _ => false

/-- The branch in the hand of a slice. -/
def Position.errand? : Position τ → Option (Errand τ)
  | .claimed e | .running e _ | .ended e _ | .filed e _ => some e
  | _ => none

/-- Whether a slice has a result of some status in hand. -/
def Position.hands (σ : BranchStatus) (p : Position τ) : Bool :=
  p.result?.any fun r => r.status = σ

/-- How many results of some status are stored. -/
def Block.tally (σ : BranchStatus) (x : Block τ) : Nat :=
  x.stored.countP fun r => r.any fun r => r.status = σ

/-- The place of the branch of an event. -/
def Event.place? : Event → Option Nat
  | .claim i | .begin i | .cancel i | .finish i | .store i => some i
  | .other => none

/-- **A branch has failed.** -/
def Record.IsFailure (a : Record) : Prop := ∃ i r, a = (.finish i, some r) ∧ r.isOk = false

/-- **A branch has ended with a result**: its body has come to its end, or it was cancelled. -/
def Ended (l : List Record) (i : Nat) (r : BranchResult) : Prop :=
  (.finish i, some r) ∈ l ∨ (.cancel i, some r) ∈ l

theorem Ended.append {l : List Record} {i : Nat} {r : BranchResult} (h : Ended l i r)
    (l' : List Record) : Ended (l ++ l') i r :=
  h.imp (List.mem_append_left l') (List.mem_append_left l')

/-- **What a record says of those before it**: a branch is cancelled under the fast policy only, and
after a failure; under that policy no body begins after a failure. -/
structure Record.Follows (policy : FailurePolicy) (l : List Record) (a : Record) : Prop where
  cancel : ∀ i, a.1 = .cancel i → policy = .fast ∧ ∃ f ∈ l, f.IsFailure
  begin : ∀ i, a.1 = .begin i → policy = .fast → ∀ f ∈ l, ¬ f.IsFailure

namespace Position.Effect

variable [IsRunnable τ] {x y : Block τ} {p p' : Position τ} {e : Event}

/-- A slice is in the body of a branch from its begin to its end. -/
theorem runs_add (h : Effect x p e p' y) (i : Nat) :
    [e].count (.begin i) + [p].countP (·.runs i) =
      [p'].countP (·.runs i) + [e].count (.finish i) := by
  cases h <;> simp [List.count_singleton, Position.runs]

theorem isAtWork (h : Effect x p e p' y) : p.isAtWork = true := by
  cases h <;> rfl

/-- Where a slice has a branch in hand, it is the branch of the event. -/
theorem place_eq (h : Effect x p e p' y) {i : Nat} (hi : e.place? = some i) :
    p.holds i = true ∨ e = .claim i ∧ i = x.next := by
  cases h <;> simp_all [Event.place?, Position.holds]

/-- A result comes into the hand of a slice at the end of its branch, and leaves it when it is
stored. -/
theorem tally_add (h : Effect x p e p' y) (σ : BranchStatus)
    (hs : ∀ g r, p = .filed g r → x.stored[g.index]? = some none) :
    Record.tally σ (e, p'.result?) + [p].countP (·.hands σ) + x.tally σ =
      [p'].countP (·.hands σ) + y.tally σ := by
  cases h with
  | go h =>
    rw [Block.tally, Block.tally, h.stored]
    rfl
  | @finish g o =>
    have ht : (x.after (.ofOutcome (IsBranch.id g.task) o)).tally σ = x.tally σ := by
      unfold Block.after
      split <;> rfl
    rw [ht, List.countP_singleton, List.countP_singleton]
    simp [Record.tally, Position.hands, Position.result?]
  | @store g r =>
    have hnone := hs g r rfl
    obtain ⟨hlt, hget⟩ := List.getElem?_eq_some_iff.1 hnone
    have ht : (x.store g.index r).tally σ = x.tally σ + if r.status = σ then 1 else 0 := by
      rw [Block.tally, Block.store, List.countP_set hlt, hget]
      simp [Block.tally]
    rw [ht]
    simp [Record.tally, Position.hands, Position.result?]
    omega
  | _ =>
    simp [Record.tally, Position.hands, Position.result?, Block.tally, Block.claim, Block.retire]

end Position.Effect

/-! ## The invariant -/

/-- **A block and its records.** The bodies are promised to end as `Q` says. -/
structure Recorded [IsRunnable τ] (Q : τ → Except BranchFailure BranchOutcome → Prop)
    (x : Block τ) (ps : List (Position τ)) (l : List Record) : Prop where
  runs : ∀ i, (l.map Prod.fst).count (.begin i) =
    ps.countP (·.runs i) + (l.map Prod.fst).count (.finish i)
  hands : ∀ p ∈ ps, ∀ e r, p = .ended e r ∨ p = .filed e r → Ended l e.index r
  stored : ∀ i r, x.stored[i]? = some (some r) → .store i ∈ l.map Prod.fst ∧ Ended l i r
  finished : ∀ i o, (.finish i, o) ∈ l → ∃ t out, x.tasks[i]? = some t ∧ Q t out ∧
    o = some (.ofOutcome (IsBranch.id t) out)
  cancelled : ∀ i o, (.cancel i, o) ∈ l → ∃ t, x.tasks[i]? = some t ∧
    o = some (.ofCancelled (IsBranch.id t) (IsBranch.env t))
  aborted : x.aborted = true ↔ x.policy = .fast ∧ ∃ f ∈ l, f.IsFailure
  follows : ∀ l₁ a l₂, l = l₁ ++ a :: l₂ → a.Follows x.policy l₁

variable {Q : τ → Except BranchFailure BranchOutcome → Prop}
  {x y : Block τ} {ps qs : List (Position τ)} {p p' : Position τ} {l : List Record}
  {e : Event}

namespace Recorded

variable [IsRunnable τ]

/-- A block that is not begun. -/
theorem new (id : Nat) (policy : FailurePolicy) (workers k m : Nat) (tasks : List τ) :
    Recorded Q { Block.new id policy workers tasks with remaining := k }
      (List.replicate m .waiting) [] where
  runs i := by simp [List.countP_replicate, Position.runs]
  hands p hp e r h := by
    rw [List.eq_of_mem_replicate hp] at h
    obtain h | h := h <;> cases h
  stored i r h := by
    change (List.replicate tasks.length none)[i]? = _ at h
    rw [List.getElem?_replicate] at h
    split at h <;> cases h
  finished _ _ h := nomatch h
  cancelled _ _ h := nomatch h
  aborted := iff_of_false Bool.false_ne_true fun ⟨_, _, h, _⟩ => nomatch h
  follows l₁ a l₂ h := by simp at h

theorem of_same (h : Recorded Q x ps l) (hs : x.Same y) : Recorded Q y ps l where
  runs := h.runs
  hands := h.hands
  stored := by rw [hs.stored]; exact h.stored
  finished := by rw [hs.tasks]; exact h.finished
  cancelled := by rw [hs.tasks]; exact h.cancelled
  aborted := by rw [hs.aborted, hs.policy]; exact h.aborted
  follows := by rw [hs.policy]; exact h.follows

/-- **A step of a slice keeps the invariant**, when its record goes with what it makes of the
block. -/
theorem slice (h : Recorded Q x (ps ++ p :: qs) l) (he : Position.Effect x p e p' y)
    (htasks : y.tasks = x.tasks) (hpolicy : y.policy = x.policy)
    (hhand : ∀ g r, p' = .ended g r ∨ p' = .filed g r → Ended (l ++ [(e, p'.result?)]) g.index r)
    (hstored : ∀ i r, y.stored[i]? = some (some r) →
      x.stored[i]? = some (some r) ∨ e = .store i ∧ Ended l i r)
    (haborted : y.aborted = true ↔ x.aborted = true ∨
      x.policy = .fast ∧ Record.IsFailure (e, p'.result?))
    (hfinish : ∀ i, e = .finish i → ∃ t out, x.tasks[i]? = some t ∧ Q t out ∧
      p'.result? = some (.ofOutcome (IsBranch.id t) out))
    (hcancel : ∀ i, e = .cancel i → ∃ t, x.tasks[i]? = some t ∧
      p'.result? = some (.ofCancelled (IsBranch.id t) (IsBranch.env t)))
    (hfollows : Record.Follows x.policy l (e, p'.result?)) :
    Recorded Q y (ps ++ p' :: qs) (l ++ [(e, p'.result?)]) where
  runs i := by
    have h1 := h.runs i
    have h2 := he.runs_add i
    rw [Shift.countP_slice] at h1 ⊢
    rw [List.map_append, List.map_singleton, List.count_append, List.count_append]
    dsimp only
    omega
  hands q hq g r hr := by
    rw [List.mem_append, List.mem_cons] at hq
    obtain hq | rfl | hq := hq
    · exact (h.hands q (List.mem_append_left _ hq) g r hr).append _
    · exact hhand g r hr
    · exact (h.hands q (List.mem_append_right _ (List.mem_cons_of_mem _ hq)) g r hr).append _
  stored i r hr := by
    rw [List.map_append]
    obtain hr | ⟨rfl, hr⟩ := hstored i r hr
    · exact ⟨List.mem_append_left _ (h.stored i r hr).1, (h.stored i r hr).2.append _⟩
    · exact ⟨List.mem_append_right _ (List.mem_singleton_self _), hr.append _⟩
  finished i o ho := by
    rw [htasks]
    obtain ho | ho := List.mem_append.1 ho
    · exact h.finished i o ho
    · obtain ⟨he, rfl⟩ := Prod.mk.inj (List.mem_singleton.1 ho)
      exact hfinish i he.symm
  cancelled i o ho := by
    rw [htasks]
    obtain ho | ho := List.mem_append.1 ho
    · exact h.cancelled i o ho
    · obtain ⟨he, rfl⟩ := Prod.mk.inj (List.mem_singleton.1 ho)
      exact hcancel i he.symm
  aborted := by
    rw [haborted, h.aborted, hpolicy]
    simp only [List.mem_append, List.mem_singleton, or_and_right, exists_or, exists_eq_left,
      and_or_left]
  follows l₁ a l₂ hl := by
    rw [hpolicy]
    -- The record is the new one, or all that comes before it is as it was.
    obtain rfl | ⟨l₂, c, rfl⟩ := List.eq_nil_or_concat l₂
    · obtain ⟨rfl, ha⟩ := List.append_inj' hl rfl
      obtain rfl := List.singleton_inj.1 ha
      exact hfollows
    · rw [List.concat_eq_append, ← List.cons_append, ← List.append_assoc] at hl
      exact h.follows l₁ a l₂ (List.append_inj' hl rfl).1

/-- A step that neither asks for a branch nor ends one. -/
theorem quiet (h : Recorded Q x (ps ++ p :: qs) l) (he : Position.Effect x p e p' y)
    (hs : y.tasks = x.tasks ∧ y.policy = x.policy ∧ y.stored = x.stored ∧ y.aborted = x.aborted)
    (hhand : ∀ g r, p' = .ended g r ∨ p' = .filed g r → p = .ended g r)
    (hne : ∀ i, e ≠ .begin i ∧ e ≠ .cancel i ∧ e ≠ .finish i) :
    Recorded Q y (ps ++ p' :: qs) (l ++ [(e, p'.result?)]) := by
  obtain ⟨htasks, hpolicy, hstored, haborted⟩ := hs
  have hno : ¬ Record.IsFailure (e, p'.result?) := fun ⟨i, r, hf, _⟩ =>
    (hne i).2.2 (congrArg Prod.fst hf)
  refine h.slice he htasks hpolicy (fun g r hg => ?_) (fun i r hr => .inl (hstored ▸ hr)) ?_
    (fun i hi => absurd hi (hne i).2.2) (fun i hi => absurd hi (hne i).2.1)
    ⟨fun i hi => absurd hi (hne i).2.1, fun i hi => absurd hi (hne i).1⟩
  · exact (h.hands p (by simp) g r (.inl (hhand g r hg))).append _
  · rw [haborted]
    exact ⟨.inl, fun hor => hor.elim id fun hf => absurd hf.2 hno⟩

theorem isFailure_iff {i : Nat} {r : BranchResult} :
    Record.IsFailure (.finish i, some r) ↔ r.isOk = false := by
  constructor
  · rintro ⟨i, r, hf, hr⟩
    cases hf
    exact hr
  · exact fun hr => ⟨i, r, rfl, hr⟩

/-- **Every step of a slice keeps the invariant.** -/
theorem next (h : Recorded Q x (ps ++ p :: qs) l) (he : Position.Effect x p e p' y)
    (htask : ∀ g, p.errand? = some g → x.tasks[g.index]? = some g.task)
    (hq : ∀ g o, p = .running g (.done o) → Q g.task o) :
    Recorded Q y (ps ++ p' :: qs) (l ++ [(e, p'.result?)]) := by
  have hcopy := he
  cases he with
  | enter => exact h.quiet hcopy ⟨rfl, rfl, rfl, rfl⟩ (by simp) (by simp)
  | claim _ => exact h.quiet hcopy ⟨rfl, rfl, rfl, rfl⟩ (by simp) (by simp)
  | exhaust _ => exact h.quiet hcopy ⟨rfl, rfl, rfl, rfl⟩ (by simp) (by simp)
  | file => exact h.quiet hcopy ⟨rfl, rfl, rfl, rfl⟩ (by simp) (by simp)
  | retire => exact h.quiet hcopy ⟨rfl, rfl, rfl, rfl⟩ (by simp) (by simp)
  | go hs =>
    exact h.quiet hcopy ⟨hs.tasks, hs.policy, hs.stored, hs.aborted⟩ (by simp) (by simp)
  | begin hab =>
    refine h.slice hcopy rfl rfl (by simp) (fun i r hr => .inl hr) ?_ nofun nofun ⟨nofun, ?_⟩
    · exact ⟨.inl, fun hor => hor.elim id fun ⟨_, _, _, hf, _⟩ => nomatch hf⟩
    · intro i _ hfast f hf hfail
      have hraised := h.aborted.2 ⟨hfast, f, hf, hfail⟩
      rw [hab] at hraised
      cases hraised
  | @cancel g hab =>
    refine h.slice hcopy rfl rfl ?_ (fun i r hr => .inl hr) ?_ nofun ?_ ⟨fun _ _ => ?_, nofun⟩
    · rintro g' r (hg | hg) <;> cases hg
      exact .inr (List.mem_append_right _ (List.mem_singleton.2 rfl))
    · exact ⟨.inl, fun hor => hor.elim id fun ⟨_, _, _, hf, _⟩ => nomatch hf⟩
    · rintro i ⟨⟩
      exact ⟨g.task, htask g rfl, rfl⟩
    · exact h.aborted.1 hab
  | @finish g o =>
    refine h.slice hcopy ?_ ?_ ?_ (fun i r hr => .inl ?_) ?_ ?_ nofun ⟨nofun, nofun⟩
    · unfold Block.after
      split <;> rfl
    · unfold Block.after
      split <;> rfl
    · rintro g' r (hg | hg) <;> cases hg
      exact .inl (List.mem_append_right _ (List.mem_singleton.2 rfl))
    · unfold Block.after at hr
      split at hr <;> exact hr
    · rw [show (Position.ended g (.ofOutcome (IsBranch.id g.task) o)).result? =
        some (.ofOutcome (IsBranch.id g.task) o) from rfl, isFailure_iff, Block.after]
      split
      · next hif => exact ⟨fun _ => .inr ⟨hif.2, hif.1⟩, fun _ => rfl⟩
      · next hif => exact ⟨.inl, fun hor => hor.elim id fun hf => absurd ⟨hf.2, hf.1⟩ hif⟩
    · rintro i ⟨⟩
      exact ⟨g.task, o, htask g rfl, hq g o rfl, rfl⟩
  | @store g r =>
    refine h.slice hcopy rfl rfl (by simp) (fun i r' hr => ?_) ?_ nofun nofun ⟨nofun, nofun⟩
    · change (x.stored.set g.index (some r))[i]? = _ at hr
      by_cases hi : g.index = i
      · subst hi
        have hlt : g.index < x.stored.length := by
          have := (List.getElem?_eq_some_iff.1 hr).1
          rwa [List.length_set] at this
        rw [List.getElem?_set_self hlt] at hr
        obtain rfl := Option.some.inj (Option.some.inj hr)
        exact .inr ⟨rfl, h.hands _ (by simp) g r (.inr rfl)⟩
      · rw [List.getElem?_set_ne hi] at hr
        exact .inl hr
    · exact ⟨.inl, fun hor => hor.elim id fun ⟨_, _, _, hf, _⟩ => nomatch hf⟩

end Recorded

/-! ## One slice -/

/-- **A block with one slice**: the branches are taken in their order, one after the other. -/
structure InOrder (x : Block τ) (p : Position τ) (l : List Record) : Prop where
  sorted : ((l.map Prod.fst).filterMap Event.place?).Pairwise (· ≤ ·)
  below : ∀ i ∈ (l.map Prod.fst).filterMap Event.place?, i < x.next
  hand : ∀ i, p.holds i = true → i + 1 = x.next

/-- **Every step of the slice keeps the order.** -/
theorem InOrder.next [IsRunnable τ] (h : InOrder x p l) (he : Position.Effect x p e p' y) :
    InOrder y p' (l ++ [(e, p'.result?)]) := by
  have hnext : x.next ≤ y.next := by
    cases he with
    | go hs => exact Nat.le_of_eq hs.next.symm
    | finish =>
      unfold Block.after
      split <;> exact Nat.le_refl _
    | claim => exact Nat.le_succ _
    | exhaust => exact Nat.le_succ _
    | _ => exact Nat.le_refl _
  have hplace : ∀ i, e.place? = some i → x.next ≤ i + 1 ∧ i < y.next := fun i hi => by
    obtain hp | ⟨rfl, rfl⟩ := he.place_eq hi
    · have := h.hand i hp
      omega
    · cases he
      exact ⟨Nat.le_succ _, Nat.lt_succ_self _⟩
  have hmap : ((l ++ [(e, p'.result?)]).map Prod.fst).filterMap Event.place? =
      (l.map Prod.fst).filterMap Event.place? ++ [e].filterMap Event.place? := by
    rw [List.map_append, List.filterMap_append]
    rfl
  have hlast : ∀ i ∈ [e].filterMap Event.place?, e.place? = some i := fun i hi => by
    obtain ⟨e', he', hplace⟩ := List.mem_filterMap.1 hi
    rw [← List.mem_singleton.1 he']
    exact hplace
  refine ⟨?_, fun i hi => ?_, fun i hi => ?_⟩
  · rw [hmap, List.pairwise_append]
    refine ⟨h.sorted, ?_, fun j hj i hi => ?_⟩
    · cases hp : e.place? <;> simp [hp]
    · have := h.below j hj
      have := (hplace i (hlast i hi)).1
      omega
  · rw [hmap, List.mem_append] at hi
    obtain hi | hi := hi
    · exact Nat.lt_of_lt_of_le (h.below i hi) hnext
    · exact (hplace i (hlast i hi)).2
  · have hold : p.holds i = true → y.next = x.next → i + 1 = y.next := fun hp hy =>
      hy ▸ h.hand i hp
    cases he with
    | claim _ => exact congrArg (· + 1) (of_decide_eq_true hi).symm
    | go hs => exact hold hi hs.next
    | finish =>
      refine hold hi ?_
      unfold Block.after
      split <;> rfl
    | begin _ => exact hold hi rfl
    | cancel _ => exact hold hi rfl
    | file => exact hold hi rfl
    | _ => exact nomatch hi

section Places

variable {l₁ l₂ : List Record} {e' : Event} {o : Option BranchResult} {i j : Nat}

/-- With one slice, what comes later is no branch from before. -/
theorem InOrder.place_le (h : InOrder x p l) (hl : l = l₁ ++ (e, o) :: l₂) (he : e.place? = some i)
    (he' : e'.place? = some j) (hmem : e' ∈ l₂.map Prod.fst) : i ≤ j := by
  have hsorted := h.sorted
  rw [hl, List.map_append, List.map_cons, List.filterMap_append,
    List.filterMap_cons_some he, List.pairwise_append] at hsorted
  exact List.rel_of_pairwise_cons hsorted.2.1 (List.mem_filterMap.2 ⟨e', hmem, he'⟩)

theorem InOrder.place_ge (h : InOrder x p l) (hl : l = l₁ ++ (e, o) :: l₂) (he : e.place? = some i)
    (he' : e'.place? = some j) (hmem : e' ∈ l₁.map Prod.fst) : j ≤ i := by
  have hsorted := h.sorted
  rw [hl, List.map_append, List.map_cons, List.filterMap_append,
    List.filterMap_cons_some he, List.pairwise_append] at hsorted
  exact hsorted.2.2 j (List.mem_filterMap.2 ⟨e', hmem, he'⟩) i List.mem_cons_self

end Places

end MemoFlow
