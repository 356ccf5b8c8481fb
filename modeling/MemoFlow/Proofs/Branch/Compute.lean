import MemoFlow.Branch.Run
import MemoFlow.Fault
import MemoFlow.Pipeline.Stage
import MemoFlow.Proofs.Branch.Edit
import MemoFlow.Proofs.Pipeline.Perform

/-!
# Plans of branches, and branches on a desk

The stages and the work of a branch edit bindings and give values, or throw. A plan says for each of
them which edits these are.

A branch that is run follows a plan when the bodies of its stages and its work do what is planned.
It then ends as planned, as long as its stages give what they give without reuse.

* `Deed`: edits with a value;
* **`BranchPlan`**, `BranchPlan.result`: the value and the bindings at the end of a plan;
* `BranchPlan.touch`: what a plan does to a name;
* **`BranchPlan.replay_iff`**: when the record of a plan on some bindings does to others what the
  plan does;
* `Desk.branchHost`, `BranchTask.onDesk`: branches that share a desk;
* `BranchHost.compute_of_thrown`, `BranchHost.compute_of_failed`, `BranchHost.compute_of_ok`: how a
  branch ends, and on a desk `Desk.compute_of_failed`, `Desk.compute_of_ok`;
* `BranchHost.answer_of_found`, `BranchHost.answer_of_absent`: a branch that finds a record, or
  none;
* `BranchTask.request?`, **`BranchTask.Follows`**: the request of a branch, and the plan it follows;
* `Desk.Unseen`, `Desk.runStages_of_follows`: stages whose reuse cannot be seen;
* **`Desk.compute_of_follows`**: the end of a branch that follows a plan.
-/

/-! ## What a branch does -/

namespace MemoFlow

open NameMap

/-- Edits with a value. -/
structure Deed (α : Type) where
  /-- The edits, the first one first. -/
  edits : List Edit
  /-- The value. -/
  value : α

namespace Deed

/-- The value, and the bindings after the edits. -/
def run {α : Type} (a : Deed α) (env : Environment) : α × Environment :=
  (a.value, Edit.applyAll a.edits env)

/-- What a stage gives when its body does this. -/
def outputs (a : Deed (Option Value)) (env : Environment) : Computation :=
  ⟨(Edit.applyAll a.edits env.clearWrites).outputsSince env, a.value⟩

end Deed

/-- **What the stages and the work of a branch do.** -/
structure BranchPlan where
  /-- The stages, the first one first. -/
  stages : List (Except Thrown (Deed (Option Value))) := []
  /-- The work, if there is any. -/
  work : Option (Except Thrown (Deed Value)) := none

namespace BranchPlan

/-- The last value of stages and the bindings after them, when none of them throws. -/
def stagesFrom : List (Except Thrown (Deed (Option Value))) → Option Value → Environment →
    Option (Option Value × Environment)
  | [], v, env => some (v, env)
  | .error _ :: _, _, _ => none
  | .ok a :: rest, v, env =>
    stagesFrom rest (if a.value.isSome then a.value else v) (env.overlay (a.outputs env).bindings)

/-- **The value and the bindings at the end of a plan**, when nothing throws. -/
def result (p : BranchPlan) (env : Environment) : Option (Value × Environment) :=
  match stagesFrom p.stages none env with
  | none => none
  | some (v, env) =>
    match p.work with
    | none => some (v.getD .nil, env)
    | some (.error _) => none
    | some (.ok a) => some (a.run env)

/-- What stages do to a name. -/
def stagesTouch (n : String) : List (Except Thrown (Deed (Option Value))) → Touch
  | .ok a :: rest => (Edit.touches n a.edits).settled.comp (stagesTouch n rest)
  | _ => .none

/-- What the work does to a name. -/
def workTouch (n : String) : Option (Except Thrown (Deed Value)) → Touch
  | some (.ok a) => Edit.touches n a.edits
  | _ => .none

/-- What a plan does to a name. -/
def touch (p : BranchPlan) (n : String) : Touch :=
  (stagesTouch n p.stages).comp (workTouch n p.work)

variable {n : String} {base env env' : Environment} {t : Touch}

theorem bears_stagesFrom {xs : List (Except Thrown (Deed (Option Value)))} {v v' : Option Value}
    (h : stagesFrom xs v env = some (v', env')) (hb : env.Bears base n t) :
    env'.Bears base n (t.comp (stagesTouch n xs)) := by
  induction xs generalizing v env t with
  | nil =>
    obtain ⟨-, rfl⟩ := Prod.mk.inj (Option.some.inj h)
    rwa [stagesTouch, Touch.comp_none]
    nofun
  | cons x rest ih =>
    cases x with
    | error e => cases h
    | ok a =>
      rw [stagesTouch, ← Touch.comp_assoc]
      exact ih h (hb.overlay_outputs a.edits)

/-- **A plan touches a name.** -/
theorem bears_of_result {p : BranchPlan} {v : Value}
    (h : p.result base.clearWrites = some (v, env)) : env.Bears base n (p.touch n) := by
  rw [result] at h
  split at h
  · cases h
  · next w env₁ hs =>
    have hb := bears_stagesFrom hs (.refl base n)
    rw [Touch.none_comp] at hb
    rw [touch]
    split at h
    · next hw =>
      obtain ⟨-, rfl⟩ := Prod.mk.inj (Option.some.inj h)
      rwa [hw, workTouch, Touch.comp_none]
      nofun
    · cases h
    · next a hw =>
      obtain ⟨-, rfl⟩ := Prod.mk.inj (Option.some.inj h)
      rw [hw]
      exact hb.applyAll a.edits

theorem stagesFrom_value (xs : List (Except Thrown (Deed (Option Value)))) (v : Option Value)
    (a b : Environment) : (stagesFrom xs v a).map Prod.fst = (stagesFrom xs v b).map Prod.fst := by
  induction xs generalizing v a b with
  | nil => rfl
  | cons x rest ih =>
    cases x with
    | error e => rfl
    | ok d => exact ih ..

/-- The value at the end of a plan does not depend on the bindings. -/
theorem result_value (p : BranchPlan) (a b : Environment) :
    (p.result a).map Prod.fst = (p.result b).map Prod.fst := by
  have hv := stagesFrom_value p.stages none a b
  rw [result, result]
  rcases ha : stagesFrom p.stages none a with _ | ⟨v, a'⟩ <;>
    rcases hb : stagesFrom p.stages none b with _ | ⟨w, b'⟩ <;> rw [ha, hb] at hv
  · cases hv
  · cases hv
  · obtain rfl : v = w := Option.some.inj hv
    rcases p.work with _ | _ | d <;> rfl

/-- **The record of a plan on some bindings does to others what the plan does**, exactly when the
touch of every name fits. -/
theorem replay_iff {p : BranchPlan} {a b a' b' : Environment} {v w : Value}
    (ha : p.result a.clearWrites = some (v, a')) (hb : p.result b.clearWrites = some (w, b')) :
    (b.overlay (a'.outputsSince a.clearWrites)).bindings = b'.bindings ↔
      ∀ n, (p.touch n).Fits (a.find? n) (b.find? n) := by
  have hr : ∀ n, (b.overlay (a'.outputsSince a.clearWrites)).find? n =
      ((p.touch n).kept (a.find? n)).or (b.find? n) := fun n => by
    rw [Environment.find?_overlay_of_sorted _ (Environment.sorted_outputsSince _ _)]
    exact congrArg (Option.or · _) (bears_of_result ha).findIn_outputsSince
  have hf : ∀ n, b'.find? n = (p.touch n).run (b.find? n) := fun n => (bears_of_result hb).find
  constructor
  · intro h n
    rw [← Touch.fits_iff, ← hr, ← hf]
    exact congrArg (NameMap.find? · n) h
  · intro h
    refine NameMap.ext_find? fun n => ?_
    have hn := (Touch.fits_iff _ _ _).2 (h n)
    rw [← hr, ← hf] at hn
    exact hn

end BranchPlan

end MemoFlow

/-! ## Branches on a desk -/

namespace MemoFlow

variable {ω : Type}

/-! ## The ends of a branch -/

namespace BranchHost

variable {σ : Type} {h : BranchHost (StateM σ)} {t : BranchTask (StateM σ)} {k : Fingerprint}
  {v v' : Value} {env env' : Environment} {w w₁ w₂ : σ}

/-- A branch fails with its stages. -/
theorem compute_of_thrown {e : Thrown}
    (hx : h.runStages t t.env.clearWrites w = (.error e, w₁)) :
    h.compute t k w = (.error ⟨e, .nil⟩, w₁) := by
  rw [compute]
  exact Desk.bind_of_eq hx

/-- A branch fails with its work. -/
theorem compute_of_failed {f : BranchFailure}
    (hx : h.runStages t t.env.clearWrites w = (.ok (v, env), w₁))
    (hy : runWork t v env w₁ = (.error f, w₂)) : h.compute t k w = (.error f, w₂) := by
  rw [compute]
  exact (Desk.bind_of_eq hx).trans (Desk.bind_of_eq hy)

/-- A branch that comes to its end keeps the record of it when it can be identified. -/
theorem compute_of_ok (hx : h.runStages t t.env.clearWrites w = (.ok (v, env), w₁))
    (hy : runWork t v env w₁ = (.ok (v', env'), w₂)) :
    h.compute t k w =
      (do
        if k.cacheable then h.keep k ⟨env'.outputsSince t.env.clearWrites, some v'⟩
        return .ok ⟨v', env', false⟩ : StateM σ _) w₂ := by
  rw [compute]
  exact (Desk.bind_of_eq hx).trans (Desk.bind_of_eq hy)

/-! ## What a branch finds -/

/-- The record that a branch finds. -/
def found? (h : BranchHost (StateM σ)) (t : BranchTask (StateM σ)) (w : σ) : Option Computation :=
  if t.source = "" then none else (h.kept? (key t) w).1

/-- The state after a branch has looked for a record. -/
def opened (h : BranchHost (StateM σ)) (t : BranchTask (StateM σ)) (w : σ) : σ :=
  if t.source = "" then w else (h.kept? (key t) w).2

/-- A branch that finds a record is served with it. -/
theorem answer_of_found {c : Computation} (hc : h.found? t w = some c) :
    h.answer t w = (.ok (replay t c), (h.countReused (h.opened t w)).2) := by
  unfold found? at hc
  unfold answer opened
  split at hc
  · cases hc
  · next hs =>
    rw [if_neg hs, if_neg hs]
    have hk : h.kept? (key t) w = (some c, (h.kept? (key t) w).2) := Prod.ext hc rfl
    rw [Desk.bind_of_eq hk]
    rfl

/-- A branch that finds none is run. -/
theorem answer_of_absent (hc : h.found? t w = none) :
    h.answer t w = h.compute t (key t) (h.opened t w) := by
  unfold found? at hc
  unfold answer opened
  split at hc
  · next hs => rw [if_pos hs, if_pos hs, key, if_pos hs]
  · next hs =>
    rw [if_neg hs, if_neg hs]
    have hk : h.kept? (key t) w = (none, (h.kept? (key t) w).2) := Prod.ext hc rfl
    exact Desk.bind_of_eq hk

end BranchHost

/-! ## Branches over one cache -/

namespace Desk

/-- What branches need around them; the results of stages are reused only if `memoize` is set. -/
def branchHost (memoize : Bool) : BranchHost (StateM (Desk ω)) where
  pipeline := host memoize
  kept? := (host memoize).kept?
  keep := (host memoize).keep
  countReused := pure ()

end Desk

namespace BranchTask

/-- The branch as one that shares a desk. -/
def onDesk (t : BranchTask (StateM ω)) : BranchTask (StateM (Desk ω)) :=
  { id := t.id
    env := t.env
    work := t.work.map fun f env => Desk.onWorld (f env)
    stages := t.stages.map Stage.onDesk
    source := t.source
    inputs := t.inputs }

variable {m : Type → Type}

/-- The request of a branch, if it has one. -/
def request? (t : BranchTask m) : Option Request :=
  if t.source = "" then none else Request.ofText t.source t.env t.inputs

theorem key_of_request (t : BranchTask m) :
    (BranchHost.key t).cacheable = t.request?.isSome ∧
      ∀ q, t.request? = some q → q.key = BranchHost.key t := by
  rw [BranchHost.key, request?]
  split
  · exact ⟨rfl, nofun⟩
  · next hs => exact Request.key_ofText hs t.env t.inputs

end BranchTask

/-! ## Branches and their plans -/

/-- The bodies of stages do what is planned, each on the bindings that it is run on. -/
def Stage.FollowAll {m : Type → Type} [Monad m] :
    List (Stage m) → List (Except Thrown (Deed (Option Value))) → Environment → Prop
  | [], [], _ => True
  | s :: ss, x :: xs, env =>
    s.act env.clearWrites = pure (x.map fun a => a.run env.clearWrites) ∧
      ∀ a, x = .ok a → FollowAll ss xs (env.overlay (a.outputs env).bindings)
  | _, _, _ => False

/-- **A branch follows a plan**: its stages and its work do what is planned. -/
structure BranchTask.Follows {m : Type → Type} [Monad m] (t : BranchTask m) (p : BranchPlan) :
    Prop where
  stages : Stage.FollowAll t.stages p.stages t.env.clearWrites
  work : ∀ v env, BranchPlan.stagesFrom p.stages none t.env.clearWrites = some (v, env) →
    t.work.map (fun f => f env) = p.work.map fun x => pure (x.map fun a => a.run env)

namespace Desk

variable {a : Bool} {d : Desk ω} {t : BranchTask (StateM ω)}

/-! ## A branch that is run -/

/-- Stages that follow a plan end as planned. -/
theorem runFrom_of_follows {ss : List (Stage (StateM ω))}
    {xs : List (Except Thrown (Deed (Option Value)))} {env : Environment}
    (h : Stage.FollowAll ss xs env) (r : PipelineReport) (i : Nat) :
    (((host false).runFrom i (ss.map Stage.onDesk) env r d).1.1.toOption.map fun e =>
        (((host false).runFrom i (ss.map Stage.onDesk) env r d).1.2.lastValue, e)) =
      BranchPlan.stagesFrom xs r.lastValue env := by
  induction ss generalizing xs env r i d with
  | nil =>
    cases xs with
    | nil => rfl
    | cons x xs => exact h.elim
  | cons s rest ih =>
    cases xs with
    | nil => exact h.elim
    | cons x xs =>
      obtain ⟨hs, hn⟩ := h
      have hf : (s.fresh env d.world).1 = x.map fun a => a.outputs env := by
        rw [Stage.fresh, hs, pure_bind]
        cases x <;> rfl
      obtain ⟨h1, -, -⟩ := perform_of_plain (a := false) (s := s) env d rfl
      rw [hf] at h1
      cases x with
      | error e =>
        have hx := perform_eq_error (congrArg (Except.map Prod.fst) h1)
        rw [List.map_cons, runFrom_of_error hx, abort_apply, BranchPlan.stagesFrom]
        cases e.isStandard <;> rfl
      | ok c =>
        obtain ⟨b, hx⟩ := perform_eq_ok (congrArg (Except.map Prod.fst) h1)
        obtain ⟨r', hr, hl⟩ : ∃ r', (host false).runFrom i ((s :: rest).map Stage.onDesk) env r d =
            (host false).runFrom (i + 1) (rest.map Stage.onDesk)
              (env.overlay (c.outputs env).bindings) r' ((host false).perform s.onDesk env d).2 ∧
            r'.lastValue = if c.value.isSome then c.value else r.lastValue := by
          refine ⟨_, runFrom_of_ok hx, ?_⟩
          split <;> rfl
        rw [hr, BranchPlan.stagesFrom, ← hl]
        exact ih (hn c rfl) r' (i + 1)

/-- Reuse of the stages of a branch cannot be seen: they give what they give without it. -/
def Unseen (a : Bool) (t : BranchTask (StateM ω)) (d : Desk ω) : Prop :=
  ((host a).outcomes (t.stages.map Stage.onDesk) t.env.clearWrites d).1 =
    ((host false).outcomes (t.stages.map Stage.onDesk) t.env.clearWrites d).1

theorem runStages_snd (t : BranchTask (StateM ω)) (env : Environment) :
    ((branchHost a).runStages t.onDesk env d).2 =
      ((host a).outcomes (t.stages.map Stage.onDesk) env d).2 := by
  rw [BranchHost.runStages]
  split
  · next he =>
    have hn : t.stages = [] := by simpa [BranchTask.onDesk] using he
    rw [hn]
    rfl
  · exact run_snd ..

theorem runStages_of_follows {xs : List (Except Thrown (Deed (Option Value)))}
    (h : Stage.FollowAll t.stages xs t.env.clearWrites) (hu : Unseen a t d) :
    ((branchHost a).runStages t.onDesk t.env.clearWrites d).1.toOption =
      (BranchPlan.stagesFrom xs none t.env.clearWrites).map fun r => (r.1.getD .nil, r.2) := by
  obtain ⟨h1, h2⟩ := run_congr hu
  have hr := runFrom_of_follows (d := d) h (PipelineReport.enter { } (.pending 0)) 0
  change (((host false).run (t.stages.map Stage.onDesk) t.env.clearWrites d).1.1.toOption.map
    fun e =>
      (((host false).run (t.stages.map Stage.onDesk) t.env.clearWrites d).1.2.plain.lastValue,
      e)) = BranchPlan.stagesFrom xs none t.env.clearWrites at hr
  rw [← h1, ← h2] at hr
  rw [← hr, BranchHost.runStages]
  split
  · next he =>
    have hn : t.stages = [] := by simpa [BranchTask.onDesk] using he
    rw [hn]
    rfl
  · change (((host a).run (t.stages.map Stage.onDesk) t.env.clearWrites d).1.1.map fun env =>
      (((host a).run (t.stages.map Stage.onDesk) t.env.clearWrites d).1.2.lastValue.getD .nil,
        env)).toOption = _
    cases ((host a).run (t.stages.map Stage.onDesk) t.env.clearWrites d).1.1 <;> rfl

theorem runWork_onDesk (t : BranchTask (StateM ω)) (v : Value) (env : Environment) :
    BranchHost.runWork t.onDesk v env = onWorld (BranchHost.runWork t v env) := by
  rw [BranchHost.runWork, BranchHost.runWork, BranchTask.onDesk]
  cases t.work with
  | none => rfl
  | some f =>
    simp only [Option.map_some]
    rw [onWorld_bind]
    refine congrArg _ (funext fun x => ?_)
    cases x <;> rfl

/-- What a branch keeps of its end. -/
def recordOf (t : BranchTask (StateM ω)) (v : Value) (env : Environment) : Computation :=
  ⟨env.outputsSince t.env.clearWrites, some v⟩

section Run

variable {k : Fingerprint} {v v' : Value} {env env' : Environment} {d₁ : Desk ω}

/-- A branch fails with its work, which works on the world alone. -/
theorem compute_of_failed {f : BranchFailure}
    (hx : (branchHost a).runStages t.onDesk t.env.clearWrites d = (.ok (v, env), d₁))
    (hy : (BranchHost.runWork t v env d₁.world).1 = .error f) :
    ∃ w, (branchHost a).compute t.onDesk k d = (.error f, { d₁ with world := w }) := by
  have hd : BranchHost.runWork t.onDesk v env d₁ =
      (.error f, { d₁ with world := (BranchHost.runWork t v env d₁.world).2 }) := by
    rw [runWork_onDesk]
    simp only [onWorld, hy]
  exact ⟨_, BranchHost.compute_of_failed hx hd⟩

/-- A branch that comes to its end keeps its record in the cache. -/
theorem compute_of_ok
    (hx : (branchHost a).runStages t.onDesk t.env.clearWrites d = (.ok (v, env), d₁))
    (hy : (BranchHost.runWork t v env d₁.world).1 = .ok (v', env')) :
    ((branchHost a).compute t.onDesk k d).1 = .ok ⟨v', env', false⟩ ∧
      ((branchHost a).compute t.onDesk k d).2.cache =
        keptIn d₁.cache (d₁.clock 0) k (.ok (recordOf t v' env')) := by
  have hd : BranchHost.runWork t.onDesk v env d₁ =
      (.ok (v', env'), { d₁ with world := (BranchHost.runWork t v env d₁.world).2 }) := by
    rw [runWork_onDesk]
    simp only [onWorld, hy]
  rw [BranchHost.compute_of_ok (k := k) hx hd, keptIn]
  cases k.cacheable <;> exact ⟨rfl, rfl⟩

end Run

/-- A branch that is run is not reused. -/
theorem reused_compute (t : BranchTask (StateM ω)) (id : String) (k : Fingerprint) :
    (BranchResult.ofOutcome id ((branchHost a).compute t.onDesk k d).1).reused = false := by
  rcases hx : (branchHost a).runStages t.onDesk t.env.clearWrites d with ⟨e | ⟨v, env⟩, d₁⟩
  · rw [BranchHost.compute_of_thrown hx]
    rfl
  · cases hy : (BranchHost.runWork t v env d₁.world).1 with
    | error f =>
      obtain ⟨w, hc⟩ := compute_of_failed (k := k) hx hy
      rw [hc]
      rfl
    | ok r =>
      rw [(compute_of_ok (k := k) hx hy).1]
      rfl

theorem runWork_of_follows {p : BranchPlan} {v : Value} {env : Environment}
    (h : t.work.map (fun f => f env) = p.work.map fun x => pure (x.map fun a => a.run env))
    (w : ω) :
    (BranchHost.runWork t v env w).1.toOption =
      match p.work with
      | none => some (v, env)
      | some x => (x.map fun a => a.run env).toOption := by
  rw [BranchHost.runWork]
  rcases ht : t.work with _ | f <;> rcases hp : p.work with _ | x <;> rw [ht, hp] at h
  · rfl
  · cases h
  · cases h
  · have hf : f env = pure (x.map fun a => a.run env) := Option.some.inj h
    simp only [hf, pure_bind]
    cases x <;> rfl

/-- **A branch that follows a plan** ends as planned. -/
theorem compute_of_follows {p : BranchPlan} (h : t.Follows p) (hu : Unseen a t d)
    (k : Fingerprint) :
    (((branchHost a).compute t.onDesk k d).1.toOption.map fun o => (o.value, o.env)) =
      p.result t.env.clearWrites := by
  have hs := runStages_of_follows h.stages hu
  rw [BranchPlan.result]
  rcases hx : (branchHost a).runStages t.onDesk t.env.clearWrites d with ⟨e | ⟨v, env⟩, d₁⟩ <;>
    rw [hx] at hs <;>
    rcases hp : BranchPlan.stagesFrom p.stages none t.env.clearWrites with _ | ⟨w, env'⟩ <;>
    rw [hp] at hs
  · rw [BranchHost.compute_of_thrown hx]
    rfl
  · cases hs
  · cases hs
  · obtain ⟨rfl, rfl⟩ := Prod.mk.inj (Option.some.inj hs)
    have hw := runWork_of_follows (h.work w env hp) (v := w.getD .nil) d₁.world
    cases hy : (BranchHost.runWork t (w.getD .nil) env d₁.world).1 with
    | error f =>
      obtain ⟨w', hc⟩ := compute_of_failed (k := k) hx hy
      rw [hy] at hw
      rw [hc]
      rcases hq : p.work with _ | _ | b <;> rw [hq] at hw
      · cases hw
      · rfl
      · cases hw
    | ok r =>
      rw [(compute_of_ok (k := k) hx hy).1]
      rw [hy] at hw
      rcases hq : p.work with _ | _ | b <;> rw [hq] at hw
      · exact congrArg some (Option.some.inj hw)
      · cases hw
      · exact congrArg some (Option.some.inj hw)

end Desk

end MemoFlow
