import MemoFlow.Proofs.Branch.Apart

/-!
# Where a slice stands

A slice claims a branch of its block, runs it, keeps its result in the cache of branches and stores
it, over and over. Between any two of its steps it stands at one of a few places of its code, and
each step is an event in the life of a branch.

* `Event`, `Errand`, **`Position`**, `Position.process`: events, a branch in hand, the places, and
  the code that is left there;
* **`Position.Next`**, **`Position.step_iff`**: the steps from place to place are those of the code;
* `Position.Next.holds_add`, `Position.Next.isBefore_add`, `Position.Next.isRunning_add`: events and
  branches in hand add up;
* **`Position.Fits`**: what holds of a slice at its place, given how far the block is claimed.
-/

namespace MemoFlow

/-! ## Steps of a slice -/

/-- What happens to the branches of a block, by their places. -/
inductive Event where
  /-- A slice claims a branch. -/
  | claim (i : Nat)
  /-- The body of a branch begins. -/
  | begin (i : Nat)
  /-- A branch is not started. -/
  | cancel (i : Nat)
  /-- The body of a branch has come to its end. -/
  | finish (i : Nat)
  /-- The result of a branch is stored. -/
  | store (i : Nat)
  /-- Anything else. -/
  | other
deriving DecidableEq

/-- A branch that a slice has claimed. -/
structure Errand (τ : Type) where
  /-- The setup of the session. -/
  config : SessionConfig
  /-- How many branches the slice may claim after this one. -/
  rest : Nat
  /-- The place of the branch. -/
  index : Nat
  /-- The branch. -/
  task : τ

variable {τ : Type}

namespace Session

/-- Ask whether a branch of a block may start. -/
def permit (b : Nat) : ActOf τ Bool := onCoordinator fun co => ⟨co.permit b, []⟩

/-- Report the end of a branch that was started. -/
def conclude (b : Nat) (r : BranchResult) : ActOf τ Unit :=
  onCoordinator fun co => (co.conclude b r).map fun co => ((), co)

/-- Keep the result of a branch. -/
def file (b : Nat) (id : String) (r : BranchResult) : ActOf τ Bool :=
  onBranch fun c now => c.put now (.ofBranch b id) r none none

end Session

variable [IsRunnable τ]

namespace Errand

/-- The body of the branch has come to its end. -/
def close (e : Errand τ) (b : Nat) (o : Except BranchFailure BranchOutcome) :
    ActOf τ BranchResult := do
  Session.conclude b (.ofOutcome (IsBranch.id e.task) o)
  return .ofOutcome (IsBranch.id e.task) o

/-- Store the result, and go on with the next branch. -/
def storeResult (e : Errand τ) (b : Nat) (r : BranchResult) : ActOf τ Unit := do
  Session.onBlock b fun x => x.store e.index r
  Session.sliceUpTo e.config b e.rest

/-- The rest of the slice, once the branch has a result. -/
def goOn (e : Errand τ) (b : Nat) (r : BranchResult) : ActOf τ Unit := do
  let _ ← Session.file b (IsBranch.id e.task) r
  e.storeResult b r

end Errand

namespace Errand

/-- Running the branch: the question whether it may start, its body, and the report of its end. -/
theorem runBranch_eq (e : Errand τ) (b : Nat) : Session.runBranch e.config b e.task =
    Session.permit b >>= fun ok =>
      if ok then
        (Session.branchHost e.config).answer (IsRunnable.toTask e.config e.task) >>= e.close b
      else pure (.ofCancelled (IsBranch.id e.task) (IsBranch.env e.task)) := rfl

theorem close_bind (e : Errand τ) (b : Nat) (o : Except BranchFailure BranchOutcome) :
    e.close b o >>= e.goOn b =
      Session.conclude b (.ofOutcome (IsBranch.id e.task) o) >>= fun _ =>
        e.goOn b (.ofOutcome (IsBranch.id e.task) o) :=
  rfl

theorem isMild_close (e : Errand τ) (b : Nat) (o : Except BranchFailure BranchOutcome) :
    (e.close b o >>= e.goOn b).IsMild := by
  rw [close_bind]
  exact Process.isMild_update

end Errand

/-- **Where a slice stands.** -/
inductive Position (τ : Type) where
  /-- In the pool. -/
  | waiting
  /-- Before the claim of a branch, with the number of branches that it may still claim. -/
  | idle (c : SessionConfig) (n : Nat)
  /-- With a branch that is not begun. -/
  | claimed (e : Errand τ)
  /-- In the body of a branch. -/
  | running (e : Errand τ) (p : ActOf τ (Except BranchFailure BranchOutcome))
  /-- With a result. -/
  | ended (e : Errand τ) (r : BranchResult)
  /-- With a result that is kept in the cache of branches. -/
  | filed (e : Errand τ) (r : BranchResult)
  /-- Before its retirement. -/
  | leaving
  /-- At its end. -/
  | retired

namespace Position

/-- **The code that is left of a slice** of the block `b`. -/
def process (b : Nat) : Position τ → ActOf τ Unit
  | .waiting => Session.slice b
  | .idle c n => Session.sliceUpTo c b n
  | .claimed e => Session.runBranch e.config b e.task >>= e.goOn b
  | .running e p => (p >>= e.close b) >>= e.goOn b
  | .ended e r => e.goOn b r
  | .filed e r => e.storeResult b r
  | .leaving => Session.onBlock b Block.retire
  | .retired => pure ()

/-- **The steps of a slice.** -/
inductive Next (b : Nat) : Position τ → Session τ → Event → Position τ → Session τ → Prop where
  | enter {s : Session τ} {x : Block τ} (h : s.coordinator.block? b = some x) :
    Next b .waiting s .other (.idle s.config (x.tasks.length + 1)) s
  | claim {c : SessionConfig} {n i : Nat} {t : τ} {s s' : Session τ}
    (h : (Session.claim b).advance s = (.done (some (i, t)), s')) :
    Next b (.idle c (n + 1)) s (.claim i) (.claimed ⟨c, n, i, t⟩) s'
  | exhaust {c : SessionConfig} {n : Nat} {s s' : Session τ}
    (h : (Session.claim b).advance s = (.done none, s')) :
    Next b (.idle c (n + 1)) s .other .leaving s'
  | begin {e : Errand τ} {s s' : Session τ} (h : (Session.permit b).advance s = (.done true, s')) :
    Next b (.claimed e) s (.begin e.index)
      (.running e ((Session.branchHost e.config).answer (IsRunnable.toTask e.config e.task))) s'
  | cancel {e : Errand τ} {s s' : Session τ}
    (h : (Session.permit b).advance s = (.done false, s')) :
    Next b (.claimed e) s (.cancel e.index)
      (.ended e (.ofCancelled (IsBranch.id e.task) (IsBranch.env e.task))) s'
  | go {e : Errand τ} {p q : ActOf τ (Except BranchFailure BranchOutcome)} {s s' : Session τ}
    (h : Process.Step p s q s') : Next b (.running e p) s .other (.running e q) s'
  | finish {e : Errand τ} {o : Except BranchFailure BranchOutcome} {s s' : Session τ}
    (h : (Session.conclude b (.ofOutcome (IsBranch.id e.task) o)).advance s = (.done (), s')) :
    Next b (.running e (.done o)) s (.finish e.index)
      (.ended e (.ofOutcome (IsBranch.id e.task) o)) s'
  | file {e : Errand τ} {r : BranchResult} {kept : Bool} {s s' : Session τ}
    (h : (Session.file b (IsBranch.id e.task) r).advance s = (.done kept, s')) :
    Next b (.ended e r) s .other (.filed e r) s'
  | store {e : Errand τ} {r : BranchResult} {s s' : Session τ}
    (h : (Session.onBlock b fun x => x.store e.index r).advance s = (.done (), s')) :
    Next b (.filed e r) s (.store e.index) (.idle e.config e.rest) s'
  | retire {s s' : Session τ} (h : (Session.onBlock b Block.retire).advance s = (.done (), s')) :
    Next b .leaving s .other .retired s'

/-- The steps of the code that is left of a slice are steps of the slice. -/
theorem Next.of_step {b : Nat} {p : Position τ} {s s' : Session τ} {q : ActOf τ Unit}
    {x : Block τ} (hx : s.coordinator.block? b = some x)
    (h : Process.Step (p.process b) s q s') : ∃ e p', Next b p s e p' s' ∧ p'.process b = q := by
  cases p with
  | waiting =>
    change Process.Step (.read _) s q s' at h
    cases h with
    | read h =>
      refine ⟨_, _, .enter hx, ?_⟩
      simp only [Process.bind, hx]
      rfl
    | change h =>
      simp only [Process.bind, hx] at h
      cases h
  | idle c n =>
    cases n with
    | zero => cases h
    | succ n =>
      obtain ⟨r, hr, rfl⟩ := Process.step_update_iff.1 h
      cases r with
      | none => exact ⟨_, _, .exhaust hr, rfl⟩
      | some r => exact ⟨_, _, .claim hr, rfl⟩
  | claimed e =>
    rw [process, e.runBranch_eq, bind_assoc] at h
    obtain ⟨r, hr, rfl⟩ := Process.step_update_iff.1 h
    cases r with
    | true => exact ⟨_, _, .begin hr, rfl⟩
    | false => exact ⟨_, _, .cancel hr, rfl⟩
  | running e p =>
    rw [process, bind_assoc] at h
    obtain ⟨o, rfl, hc⟩ | ⟨r, hr, rfl⟩ := h.of_bind (e.isMild_close b)
    · rw [e.close_bind] at hc
      obtain ⟨r, hr, rfl⟩ := Process.step_update_iff.1 hc
      exact ⟨_, _, .finish hr, rfl⟩
    · exact ⟨_, _, .go hr, bind_assoc ..⟩
  | ended e r =>
    obtain ⟨r', hr, rfl⟩ := Process.step_update_iff.1 h
    exact ⟨_, _, .file hr, rfl⟩
  | filed e r =>
    obtain ⟨hr, rfl⟩ := Process.step_modify_iff.1 h
    exact ⟨_, _, .store hr, rfl⟩
  | leaving =>
    change Process.Step (Session.onBlock b Block.retire >>= pure) s q s' at h
    obtain ⟨hr, rfl⟩ := Process.step_modify_iff.1 h
    exact ⟨_, _, .retire hr, rfl⟩
  | retired => cases h

/-- The steps of a slice are steps of the code that is left of it. -/
theorem Next.step {b : Nat} {p p' : Position τ} {s s' : Session τ} {e : Event}
    (h : Next b p s e p' s') : Process.Step (p.process b) s (p'.process b) s' := by
  cases h with
  | enter hx =>
    show Process.Step (.read _) s _ s
    refine .read_of_eq ?_ Process.isMild_update
    simp only [Process.bind, hx]
    rfl
  | claim h => exact Process.step_update_iff.2 ⟨_, h, rfl⟩
  | exhaust h => exact Process.step_update_iff.2 ⟨_, h, rfl⟩
  | begin h =>
    rw [process, Errand.runBranch_eq, bind_assoc]
    exact Process.step_update_iff.2 ⟨_, h, rfl⟩
  | cancel h =>
    rw [process, Errand.runBranch_eq, bind_assoc]
    exact Process.step_update_iff.2 ⟨_, h, rfl⟩
  | @go e _ _ _ _ h =>
    rw [process, process, bind_assoc, bind_assoc]
    exact h.bind (e.isMild_close b)
  | @finish e o _ _ h =>
    exact (Process.step_update_iff
      (g := fun _ => e.goOn b (.ofOutcome (IsBranch.id e.task) o))).2 ⟨(), h, rfl⟩
  | file h => exact Process.step_update_iff.2 ⟨_, h, rfl⟩
  | store h => exact Process.step_modify_iff.2 ⟨h, rfl⟩
  | retire h => exact (Process.step_modify_iff (g := pure)).2 ⟨h, rfl⟩

/-- **The steps of a slice are just those of its code.** -/
theorem step_iff {b : Nat} {p : Position τ} {s s' : Session τ} {q : ActOf τ Unit}
    {x : Block τ} (hx : s.coordinator.block? b = some x) :
    Process.Step (p.process b) s q s' ↔ ∃ e p', Next b p s e p' s' ∧ p'.process b = q := by
  constructor
  · exact Next.of_step hx
  · rintro ⟨e, p', h, rfl⟩
    exact h.step

/-! ## What a slice has in hand -/

/-- Whether a slice has a branch in hand. -/
def holds (i : Nat) : Position τ → Bool
  | .claimed e | .running e _ | .ended e _ | .filed e _ => e.index = i
  | _ => false

/-- Whether a slice has a branch in hand that is not begun. -/
def isBefore (i : Nat) : Position τ → Bool
  | .claimed e => e.index = i
  | _ => false

/-- Whether a slice is in the body of a branch. -/
def isRunning : Position τ → Bool
  | .running _ _ => true
  | _ => false

/-- Whether a slice has not retired. -/
def isAtWork : Position τ → Bool
  | .retired => false
  | _ => true

end Position

namespace Event

/-- Whether a body begins. -/
def isBegin : Event → Bool
  | .begin _ => true
  | _ => false

/-- Whether a body comes to its end. -/
def isFinish : Event → Bool
  | .finish _ => true
  | _ => false

end Event

namespace Position.Next

variable {b : Nat} {p p' : Position τ} {s s' : Session τ} {e : Event}

/-- A branch comes into the hand of a slice by a claim and leaves it when its result is stored. -/
theorem holds_add (h : Next b p s e p' s') (i : Nat) :
    [e].count (.claim i) + [p].countP (·.holds i) =
      [p'].countP (·.holds i) + [e].count (.store i) := by
  cases h <;> simp [List.count_singleton, Position.holds]

/-- A claimed branch is begun or cancelled. -/
theorem isBefore_add (h : Next b p s e p' s') (i : Nat) :
    [e].count (.claim i) + [p].countP (·.isBefore i) =
      [p'].countP (·.isBefore i) + [e].count (.begin i) + [e].count (.cancel i) := by
  cases h <;> simp [List.count_singleton, Position.isBefore]

/-- A slice is in a body from its begin to its end. -/
theorem isRunning_add (h : Next b p s e p' s') :
    [e].countP Event.isBegin + [p].countP isRunning =
      [p'].countP isRunning + [e].countP Event.isFinish := by
  cases h <;> simp [Position.isRunning, Event.isBegin, Event.isFinish]

end Position.Next

/-! ## What a slice relies on -/

/-- A branch in hand is one of the block, and the slice may go on until all branches are claimed. -/
structure Errand.Fits (e : Errand τ) (ts : List τ) (next : Nat) : Prop where
  task : ts[e.index]? = some e.task
  rest : ts.length < e.rest + min next ts.length

namespace Position

/-- **What holds of a slice**, when the branches before `next` are claimed: its branch is one of the
block, its body spares the block, its result has the name of the branch, and it leaves only when all
branches are claimed. -/
def Fits (b : Nat) (ts : List τ) (next : Nat) : Position τ → Prop
  | .waiting => True
  | .idle _ n => ts.length < n + min next ts.length
  | .claimed e => e.Fits ts next
  | .running e p => e.Fits ts next ∧ Process.Obeys (Session.apart b) p
  | .ended e r | .filed e r => e.Fits ts next ∧ r.id = IsBranch.id e.task
  | .leaving | .retired => ts.length ≤ next

theorem Fits.mono {b : Nat} {ts : List τ} {n n' : Nat} {p : Position τ}
    (h : p.Fits b ts n) (hn : n ≤ n') : p.Fits b ts n' := by
  have he : ∀ {e : Errand τ}, e.Fits ts n → e.Fits ts n' := fun he =>
    ⟨he.task, by have := he.rest; omega⟩
  cases p with
  | waiting => trivial
  | idle c m =>
    have : ts.length < m + min n ts.length := h
    show ts.length < m + min n' ts.length
    omega
  | claimed e => exact he h
  | running e p => exact ⟨he h.1, h.2⟩
  | ended e r => exact ⟨he h.1, h.2⟩
  | filed e r => exact ⟨he h.1, h.2⟩
  | leaving => exact Nat.le_trans h hn
  | retired => exact Nat.le_trans h hn

end Position

end MemoFlow
