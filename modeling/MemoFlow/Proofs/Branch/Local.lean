import Mathlib.Data.List.Forall2
import MemoFlow.Proofs.Branch.Moves

/-!
# Branches that are functions of their bindings

The stages and the work of a branch may be functions of the bindings that they are given, whatever
the session does in the meantime. If the branch has no source text and its stages cannot be reused,
its outcome is a function of its own bindings, too: that of running it alone, with nothing around
it.

A script is local when it counts on no counter, runs no tensor operation and starts no branches. It
may wait at gates, and it may run pipelines whose stages are local and cannot be reused. Such a
script is a function of its bindings, whatever the session does in the meantime, and so is a branch
whose stages and work are local.

* `PipelineHost.alone`, **`BranchHost.alone`**: runs with nothing around them;
* `Stage.Computes`, **`BranchTask.Computes`**: stages and branches whose bodies are functions;
* `PipelineHost.IsPlain.comes_run`: their pipelines;
* **`BranchHost.IsPlain.comes_answer`**: they come to the outcome that they have alone;
* `Script.Expr.isLocal`, **`Script.Expr.eval_of_isLocal`**: expressions that leave the counters
  alone;
* `Script.scriptLocal`, `Script.scriptAlone`: local scripts, and what they do to their bindings;
* **`Script.computes_runScript`**, `Script.computes_toStages`: they are functions of their bindings;
* `PreparedTask.isLocal`, **`PreparedTask.computes_toTask`**: branches.
-/

namespace MemoFlow

open Process

/-! ## Runs with nothing around them -/

/-- A pipeline with nothing around it. -/
def PipelineHost.alone : PipelineHost Id where
  memoize := false
  note _ := pure ()
  kept? _ := pure none
  keep _ _ := pure ()
  count _ := pure ()

/-- A branch with nothing around it. -/
def BranchHost.alone : BranchHost Id where
  pipeline := .alone
  kept? _ := pure none
  keep _ _ := pure ()
  countReused := pure ()

/-- **The outcome of a branch alone**, when its stages and its work are functions. -/
def BranchTask.outcome (t : BranchTask Id) : Except BranchFailure BranchOutcome :=
  BranchHost.alone.answer t

/-! ## Stages and branches that compute functions -/

section Computes

variable {τ : Type} (π : Pact (Session τ))

/-- A body is a function of the bindings. -/
def Body.Computes {α : Type} (p : Body (ActOf τ) α) (f : Body Id α) : Prop :=
  ∀ env, Comes π (f env) (p env)

/-- **A stage that cannot be reused, with a body that is a function of the bindings.** -/
structure Stage.Computes (s : Stage (ActOf τ)) (f : Stage Id) : Prop where
  name : f.name = s.name
  source : s.source = ""
  identity : s.identity = none
  body : Option.Rel (Body.Computes π) s.body f.body

/-- **A branch without a source text, with stages and work that are functions of the bindings.** -/
structure BranchTask.Computes (t : BranchTask (ActOf τ)) (f : BranchTask Id) : Prop where
  env : f.env = t.env
  source : t.source = "" ∧ f.source = ""
  stages : List.Forall₂ (Stage.Computes π) t.stages f.stages
  work : Option.Rel (Body.Computes π) t.work f.work

end Computes

/-! ## Pipelines -/

theorem isEmpty_eq {α β : Type} {r : α → β → Prop} {l : List α} {l' : List β}
    (h : List.Forall₂ r l l') : l'.isEmpty = l.isEmpty := by
  cases h <;> rfl

variable {τ : Type} [IsRunnable τ] {R : Session.Realm τ}

namespace PipelineHost.IsPlain

variable {h : PipelineHost (ActOf τ)} {s : Stage (ActOf τ)} {f : Stage Id}

theorem comes_count (hh : h.IsPlain) (g : PipelineStats → PipelineStats) :
    Comes (Session.pact R) (PipelineHost.alone.count g) (h.count g) := .of_unit (hh.count g).honours

theorem comes_note (hh : h.IsPlain) (n : Note) :
    Comes (Session.pact R) (PipelineHost.alone.note n) (h.note n) := .of_unit (hh.note n).honours

theorem comes_execute (hh : h.IsPlain) (hs : s.Computes (Session.pact R) f) (env : Environment) :
    Comes (Session.pact R) (PipelineHost.alone.execute f env .uncacheable)
      (h.execute s env .uncacheable) := by
  have hbody := hs.body
  unfold PipelineHost.execute
  generalize s.body = p, f.body = q at hbody
  cases hbody with
  | none => exact .pure _
  | @some p q hpq =>
    refine (hpq env.clearWrites).bind ?_
    match q env.clearWrites with
    | .error t => exact .pure _
    | .ok (v, scratch) =>
      refine (hh.comes_count _).bind ?_
      -- A result without an identity is not kept.
      have hcold : Fingerprint.uncacheable.cacheable = false := rfl
      simp only [hcold, Bool.and_false, Bool.false_eq_true, if_false]
      exact .pure _

theorem comes_perform (hh : h.IsPlain) (hs : s.Computes (Session.pact R) f) (env : Environment) :
    Comes (Session.pact R) (PipelineHost.alone.perform f env) (h.perform s env) := by
  have hreuse : s.isReusable = false := by
    rw [Stage.isReusable, hs.identity, hs.source]
    rfl
  unfold PipelineHost.perform
  rw [hreuse, Bool.and_false, if_neg Bool.false_ne_true]
  exact (hh.comes_execute hs env).bind (.pure _)

theorem comes_abort (hh : h.IsPlain) (hs : s.Computes (Session.pact R) f) (i : Nat)
    (env : Environment) (r : PipelineReport) (t : Thrown) :
    Comes (Session.pact R) (PipelineHost.alone.abort i f env r t) (h.abort i s env r t) := by
  unfold PipelineHost.abort
  rw [hs.name]
  split
  · exact (hh.comes_count _).bind ((hh.comes_note _).bind (.pure _))
  · exact .pure _

theorem comes_runFrom (hh : h.IsPlain) {stages : List (Stage (ActOf τ))} {fs : List (Stage Id)}
    (hs : List.Forall₂ (Stage.Computes (Session.pact R)) stages fs) (i : Nat) (env : Environment)
    (r : PipelineReport) : Comes (Session.pact R) (PipelineHost.alone.runFrom i fs env r)
      (h.runFrom i stages env r) := by
  induction hs generalizing i env r with
  | nil => exact (hh.comes_count _).bind (.pure _)
  | @cons s f stages fs hsf hrest ih =>
    unfold PipelineHost.runFrom
    have hempty : fs.isEmpty = stages.isEmpty := isEmpty_eq hrest
    rw [hsf.name, hempty]
    refine (hh.comes_note _).bind ((hh.comes_perform hsf env).bind ?_)
    match PipelineHost.alone.perform f env with
    | .error t => exact hh.comes_abort hsf i env _ t
    | .ok (c, reused) => exact ih _ _ _

/-- **A pipeline of functions** comes to what it gives alone. -/
theorem comes_run (hh : h.IsPlain) {stages : List (Stage (ActOf τ))} {fs : List (Stage Id)}
    (hs : List.Forall₂ (Stage.Computes (Session.pact R)) stages fs) (env : Environment) :
    Comes (Session.pact R) (PipelineHost.alone.run fs env) (h.run stages env) :=
  (hh.comes_count _).bind (hh.comes_runFrom hs 0 env _)

end PipelineHost.IsPlain

/-! ## Branches -/

namespace BranchHost.IsPlain

variable {h : BranchHost (ActOf τ)} {t : BranchTask (ActOf τ)} {f : BranchTask Id}

theorem comes_runStages (hh : h.IsPlain) (ht : t.Computes (Session.pact R) f) (env : Environment) :
    Comes (Session.pact R) (BranchHost.alone.runStages f env) (h.runStages t env) := by
  have hempty : f.stages.isEmpty = t.stages.isEmpty := isEmpty_eq ht.stages
  unfold BranchHost.runStages
  rw [hempty]
  split
  · exact .pure _
  · exact (hh.pipeline.comes_run ht.stages env).bind (.pure _)

theorem comes_runWork (ht : t.Computes (Session.pact R) f) (v : Value) (env : Environment) :
    Comes (Session.pact R) (BranchHost.runWork f v env) (BranchHost.runWork t v env) := by
  have hwork := ht.work
  unfold BranchHost.runWork
  generalize t.work = p, f.work = q at hwork
  cases hwork with
  | none => exact .pure _
  | @some p q hpq =>
    refine (hpq env).bind ?_
    cases q env <;> exact .pure _

theorem comes_compute (hh : h.IsPlain) (ht : t.Computes (Session.pact R) f) :
    Comes (Session.pact R) (BranchHost.alone.compute f .uncacheable)
      (h.compute t .uncacheable) := by
  unfold BranchHost.compute
  rw [ht.env]
  refine (hh.comes_runStages ht _).bind ?_
  match BranchHost.alone.runStages f t.env.clearWrites with
  | .error e => exact .pure _
  | .ok (v, env) =>
    refine (comes_runWork ht v env).bind ?_
    match BranchHost.runWork f v env with
    | .error e => exact .pure _
    | .ok (v, env) => exact .pure _

/-- **A branch whose stages and work are functions** comes to the outcome that it has alone. -/
theorem comes_answer (hh : h.IsPlain) (ht : t.Computes (Session.pact R) f) :
    Comes (Session.pact R) f.outcome (h.answer t) := by
  unfold BranchTask.outcome BranchHost.answer
  rw [if_pos ht.source.1, if_pos ht.source.2]
  exact hh.comes_compute ht

end BranchHost.IsPlain

end MemoFlow

/-! ## Local scripts -/

namespace MemoFlow

open Process

namespace Script

/-! ## Expressions -/

/-- A computation has one result, and leaves the counters as they are. -/
def Still {α : Type} (p : Counting α) : Prop := ∃ r, ∀ t, p.run.run t = (r, t)

namespace Still

variable {α β : Type}

theorem pure (a : α) : Still (Pure.pure a) := ⟨.ok a, fun _ => rfl⟩

theorem lift (r : Except Thrown α) : Still (liftExcept r) := ⟨r, fun _ => rfl⟩

theorem bind {p : Counting α} {f : α → Counting β} (hp : Still p) (hf : ∀ a, Still (f a)) :
    Still (p >>= f) := by
  obtain ⟨r, hr⟩ := hp
  have hbind : ∀ t, (p >>= f).run.run t = (ExceptT.bindCont f r).run t := fun t =>
    congrArg (fun q : Except Thrown α × Ticks => (ExceptT.bindCont f q.1).run q.2) (hr t)
  cases r with
  | error e => exact ⟨.error e, hbind⟩
  | ok a =>
    obtain ⟨r, h⟩ := hf a
    exact ⟨r, fun t => (hbind t).trans (h t)⟩

end Still

namespace Expr

mutual

/-- An expression counts on no counter. -/
def isLocal : Expr → Bool
  | .value _ | .var _ | .has _ | .size | .keys => true
  | .num e | .str e => e.isLocal
  | .list es => allLocal es
  | .add a b | .mul a b => a.isLocal && b.isLocal
  | .tick _ => false

/-- No expression of a list counts on a counter. -/
def allLocal : List Expr → Bool
  | [] => true
  | e :: es => e.isLocal && allLocal es

end

/-- The value of an expression when no counter has counted yet. -/
def result (env : Environment) (e : Expr) : Except Thrown Value := ((e.eval env).run.run ∅).1

mutual

theorem still_eval (env : Environment) : (e : Expr) → e.isLocal = true → Still (e.eval env)
  | .value v, _ => .pure v
  | .var n, _ => .lift (env.get n)
  | .num e, h => (still_eval env e h).bind fun _ => .lift _
  | .str e, h => (still_eval env e h).bind fun _ => .pure _
  | .has _, _ | .size, _ | .keys, _ => .pure _
  | .list es, h => (still_evalAll env es h).bind fun _ => .pure _
  | .add a b, h | .mul a b, h => by
    obtain ⟨ha, hb⟩ := Bool.and_eq_true_iff.1 h
    exact (still_eval env a ha).bind fun _ => (still_eval env b hb).bind fun _ => .lift _

theorem still_evalAll (env : Environment) :
    (es : List Expr) → allLocal es = true → Still (evalAll env es)
  | [], _ => .pure _
  | e :: es, h => by
    obtain ⟨he, hes⟩ := Bool.and_eq_true_iff.1 h
    exact (still_eval env e he).bind fun _ => (still_evalAll env es hes).bind fun _ => .pure _

end

/-- **A local expression** has its result whatever the counters are, and leaves them as they are. -/
theorem eval_of_isLocal {e : Expr} (h : e.isLocal = true) (env : Environment) (t : Ticks) :
    (e.eval env).run.run t = (e.result env, t) := by
  obtain ⟨r, hr⟩ := still_eval env e h
  rw [result, hr, hr]

end Expr

/-! ## Scripts and stages -/

/-- A stage has neither a source text nor an identity, so that it cannot be reused. -/
def StageHead.isFresh (h : StageHead) : Bool := h.source = "" && h.identity.isNone

theorem StageHead.source_of_isFresh {h : StageHead} (hh : h.isFresh = true) : h.source = "" :=
  of_decide_eq_true (Bool.and_eq_true_iff.1 hh).1

mutual

/-- An instruction depends on its own bindings only. -/
def Instr.isLocal : Instr → Bool
  | .define _ e | .assign _ e | .result e => e.isLocal
  | .erase _ | .merge _ | .throwing _ | .gate _ => true
  | .pipeline stages => stagesLocal stages
  | .tensor .. | .branches .. => false

/-- A script depends on its own bindings only. -/
def scriptLocal : List Instr → Bool
  | [] => true
  | i :: is => i.isLocal && scriptLocal is

/-- A stage depends on its own bindings only, and cannot be reused. -/
def StageSpec.isLocal : StageSpec → Bool
  | .block h body => h.isFresh && scriptLocal body
  | .expression h e _ => h.isFresh && e.isLocal
  | .empty h => h.isFresh
  | .unit .. | .source .. => false

/-- All stages depend on their own bindings only. -/
def stagesLocal : List StageSpec → Bool
  | [] => true
  | s :: ss => s.isLocal && stagesLocal ss

end

theorem StageSpec.identity_of_isLocal {s : StageSpec} (h : s.isLocal = true) :
    s.head.identity = none := by
  have hfresh : s.head.isFresh = true := by
    cases s with
    | block | expression => exact (Bool.and_eq_true_iff.1 h).1
    | empty => exact h
    | unit | source => cases h
  exact Option.isNone_iff_eq_none.1 (Bool.and_eq_true_iff.1 hfresh).2

mutual

/-- What a local instruction does to the bindings. -/
def Instr.alone (env : Environment) : Instr → Except Thrown Environment
  | .define n e => (e.result env).map fun v => env.define n v
  | .assign n e => (e.result env).map fun v => (env.set? n v).getD env
  | .erase n => .ok (env.erase n)
  | .merge bindings => .ok (env.merge bindings)
  | .throwing t => .error t
  | .pipeline stages => (PipelineHost.alone.run (stagesAlone stages) env).1
  | .result _ | .gate _ | .tensor .. | .branches .. => .ok env

/-- **What a local script gives**: its value and the changed bindings. -/
def scriptAlone : List Instr → Body Id (Option Value)
  | [], env => .ok (none, env)
  | .result e :: _, env => (e.result env).map fun v => (some v, env)
  | i :: is, env =>
    match i.alone env with
    | .error t => .error t
    | .ok env => scriptAlone is env

/-- A local stage as a function. -/
def StageSpec.alone : StageSpec → Stage Id
  | .block h body => Stage.block h.name (scriptAlone body) h.source h.inputs
  | .expression h e target =>
    Stage.expression h.name h.source (fun env => e.result env) target h.inputs
  | .unit h _ | .source h _ | .empty h => { name := h.name, source := h.source }

/-- Local stages as functions. -/
def stagesAlone : List StageSpec → List (Stage Id)
  | [] => []
  | s :: ss => s.alone :: stagesAlone ss

end

variable {R : Session.Realm PreparedTask}

theorem comes_evalExpr {e : Expr} (h : e.isLocal = true) (env : Environment) :
    Comes (Session.pact R) (e.result env) (evalExpr env e) :=
  .update (fun _ => ⟨.rest (.refl _), rfl⟩) fun s =>
    congrArg Prod.fst (Expr.eval_of_isLocal h env s.ticks)

/-- Local stages are put together as they are. -/
theorem comes_prepareAll (stages : List StageSpec) (h : stagesLocal stages = true) :
    Comes (Session.pact R) (.ok (stages.map fun s => ⟨s, none⟩)) (Session.prepareAll stages) := by
  induction stages with
  | nil => exact .pure _
  | cons s ss ih =>
    obtain ⟨hs, hss⟩ := Bool.and_eq_true_iff.1 h
    have hprepare : Comes (Session.pact R) (.ok ⟨s, none⟩) (Session.prepare s) := by
      cases s with
      | block | expression | empty => exact .pure _
      | unit | source => cases hs
    exact hprepare.after ((ih hss).after (.pure _))

mutual

theorem comes_runInstr (c : SessionConfig) (env : Environment) : (i : Instr) → i.isLocal = true →
    Comes (Session.pact R) (i.alone env) (runInstr c env i)
  | .define n e, h | .assign n e, h => (comes_evalExpr h env).after (.pure _)
  | .erase _, _ | .merge _, _ | .throwing _, _ | .result _, _ => .pure _
  | .gate g, _ => (Comes.of_unit (Session.Plain.pass g).honours).after (.pure _)
  | .pipeline stages, h => by
    -- The stages are put together without a unit, so they are those that run alone.
    unfold runInstr Instr.alone
    refine (comes_prepareAll stages h).after ?_
    have hstages := fun units => computes_toStages c stages units h
    exact ((Session.isPlain_pipelineHost c).comes_run (hstages _) env).after (.pure _)

/-- **A local script is a function of its bindings.** -/
theorem computes_runScript (c : SessionConfig) : (is : List Instr) → scriptLocal is = true →
    Body.Computes (Session.pact R) (runScript c is) (scriptAlone is)
  | [], _ => fun _ => .pure _
  | i :: is, h => fun env => by
    obtain ⟨hi, his⟩ := Bool.and_eq_true_iff.1 h
    have hinstr := comes_runInstr c env i hi
    have hrest := computes_runScript c is his
    cases i with
    | result e => exact (comes_evalExpr hi env).after (.pure _)
    | _ =>
      refine hinstr.after ?_
      simp only [scriptAlone]
      cases Instr.alone env _ with
      | error t => exact .pure _
      | ok env => exact hrest env

theorem computes_toStage (c : SessionConfig) (unit : Option ParsedUnit) :
    (s : StageSpec) → s.isLocal = true → (toStage c unit s).Computes (Session.pact R) s.alone
  | .block h body, hs => by
    obtain ⟨hfresh, hbody⟩ := Bool.and_eq_true_iff.1 hs
    exact ⟨rfl, StageHead.source_of_isFresh hfresh, rfl, .some (computes_runScript c body hbody)⟩
  | .expression h e target, hs => by
    obtain ⟨hfresh, he⟩ := Bool.and_eq_true_iff.1 hs
    refine ⟨rfl, StageHead.source_of_isFresh hfresh, rfl, .some fun env => ?_⟩
    refine (comes_evalExpr he env).bind ?_
    cases e.result env <;> exact .pure _
  | .empty h, hs => ⟨rfl, StageHead.source_of_isFresh hs, rfl, .none⟩

theorem computes_toStages (c : SessionConfig) : (ss : List StageSpec) →
    (units : List (Option ParsedUnit)) → stagesLocal ss = true →
    List.Forall₂ (Stage.Computes (Session.pact R)) (toStages c ss units) (stagesAlone ss)
  | [], _, _ => .nil
  | s :: ss, units, h => by
    obtain ⟨hs, hss⟩ := Bool.and_eq_true_iff.1 h
    unfold toStages
    rw [StageSpec.identity_of_isLocal hs]
    exact .cons (computes_toStage c _ s hs) (computes_toStages c ss _ hss)

end

end Script

/-! ## Branches -/

/-- A branch has no source text, and its stages and its work depend on its own bindings only. -/
def PreparedTask.isLocal (t : PreparedTask) : Bool :=
  t.source = "" && Script.stagesLocal (t.stages.map PreparedStage.spec) &&
    t.work.all Script.scriptLocal

/-- A local branch as a function of its bindings. -/
def PreparedTask.alone (t : PreparedTask) : BranchTask Id where
  id := t.id
  env := t.env
  work := t.work.map fun body env =>
    (Script.scriptAlone body env).map fun r => (r.1.getD .nil, r.2)
  stages := Script.stagesAlone (t.stages.map PreparedStage.spec)
  source := t.source
  inputs := t.inputs

/-- **A local branch is a function of its bindings.** -/
theorem PreparedTask.computes_toTask {R : Session.Realm PreparedTask} (c : SessionConfig)
    {t : PreparedTask} (h : t.isLocal = true) : (t.toTask c).Computes (Session.pact R) t.alone := by
  obtain ⟨h, hwork⟩ := Bool.and_eq_true_iff.1 h
  obtain ⟨hsource, hstages⟩ := Bool.and_eq_true_iff.1 h
  have hsource : t.source = "" := of_decide_eq_true hsource
  refine ⟨rfl, ⟨hsource, hsource⟩, Script.computes_toStages c _ _ hstages, ?_⟩
  unfold PreparedTask.toTask PreparedTask.alone
  dsimp only
  cases hw : t.work with
  | none => exact .none
  | some body =>
    rw [hw] at hwork
    exact .some fun env => (Script.computes_runScript c body hwork env).after (.pure _)

end MemoFlow
