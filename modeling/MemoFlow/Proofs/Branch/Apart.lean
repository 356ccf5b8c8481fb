import MemoFlow.Proofs.Branch.Parts
import MemoFlow.Proofs.Branch.Started
import MemoFlow.Proofs.Schedule.Steps
import MemoFlow.Session.Blocks

/-!
# What leaves a block alone

While the slices of a block work, everything else goes on around them: pipelines, scripts, other
blocks. None of it touches the branches of the block, which of them are claimed, their results, or
the number of slices at work.

* `Session.Rests`, **`Session.Plain`**: the steps that leave all blocks alone, and the code that is
  put together from them and from blocks of its own;
* `Session.plain`: plain code as a trait of computations;
* `PipelineHost.IsPlain`, `Stage.IsPlain`, `BranchHost.IsPlain`: runs whose parts are plain, and
  `PipelineHost.IsPlain.run`, `BranchHost.IsPlain.answer`: they are plain, too;
* **`Script.plain_runScript`**: scripts are plain;
* **`IsPlainBranch`**, `Session.plain_answer`: types of branches that are plain, prepared ones among
  them;
* **`Session.apart`**: the rule that a block is spared;
* `Session.Plain.obeys`, `Session.obeys_answer`: plain code spares all blocks that were started
  before;
* `Session.obeys_slice`: so do the slices of other blocks.
-/

namespace MemoFlow

open Process Script

/-! ## Plain code -/

/-- **A step leaves all blocks alone**, and the counters of their branches. -/
structure Coordinator.Rests {τ : Type} (c c' : Coordinator τ) : Prop where
  blocks : c'.blocks = c.blocks
  next : c'.nextBlock = c.nextBlock
  config : c'.config = c.config
  branches : c'.stats.branches = c.stats.branches
  failed : c'.stats.failed = c.stats.failed
  cancelled : c'.stats.cancelled = c.stats.cancelled

theorem Coordinator.Rests.refl {τ : Type} (c : Coordinator τ) : c.Rests c :=
  ⟨rfl, rfl, rfl, rfl, rfl, rfl⟩

section Plain

variable {τ : Type}

/-- **A step leaves all blocks alone**, the cache of branches, and the setup. -/
structure Session.Rests (s s' : Session τ) : Prop where
  coordinator : s.coordinator.Rests s'.coordinator
  branch : s'.caches.branch = s.caches.branch
  config : s'.config = s.config

theorem Session.Rests.of_eq {s s' : Session τ} (h : s'.coordinator = s.coordinator)
    (hb : s'.caches.branch = s.caches.branch) (hc : s'.config = s.config) : s.Rests s' :=
  ⟨h ▸ .refl _, hb, hc⟩

variable [IsBranch τ]

/-- **Plain code**: its steps leave all blocks alone, and it may run blocks of its own. -/
inductive Session.Plain : {α : Type} → ActOf τ α → Prop where
  /-- A result. -/
  | pure {α : Type} (a : α) : Plain (pure a)
  /-- A sequence. -/
  | bind {α β : Type} {p : ActOf τ α} {f : α → ActOf τ β} (hp : Plain p) (hf : ∀ a, Plain (f a)) :
    Plain (p >>= f)
  /-- A look at the state. -/
  | state : Plain Process.state
  /-- A gate. -/
  | pass (g : String) : Plain (Process.pass g)
  /-- A step that leaves the blocks alone. -/
  | update {α : Type} {f : Session τ → α × Session τ}
    (h : ∀ s : Session τ, s.Rests (f s).2) : Plain (Process.update f)
  /-- A block that is started and joined. -/
  | branches (tasks : List τ) (workers : Option Nat) (timed : Bool) :
    Plain (Session.runBranches tasks workers timed)

theorem Session.Plain.modify {f : Session τ → Session τ}
    (h : ∀ s : Session τ, s.Rests (f s)) : Session.Plain (Process.modify f) :=
  .update (f := fun s => ((), f s)) h

end Plain

open Session (Plain)

/-! ## Pipelines and branches -/

section Hosts

variable {τ : Type} [IsBranch τ]

/-- What a run of a pipeline needs around it is plain. -/
structure PipelineHost.IsPlain (h : PipelineHost (ActOf τ)) : Prop where
  note : ∀ n, Plain (h.note n)
  kept : ∀ k, Plain (h.kept? k)
  keep : ∀ k c, Plain (h.keep k c)
  count : ∀ f, Plain (h.count f)

/-- The body of a stage and its identity are plain. -/
structure Stage.IsPlain (s : Stage (ActOf τ)) : Prop where
  body : ∀ body ∈ s.body, ∀ env, Plain (body env)
  identity : ∀ f ∈ s.identity, ∀ env, Plain (f env)

/-- **Plain code as a trait**; any identity may be used. -/
def Session.plain : Trait (ActOf τ) where
  has := Plain
  admits _ := True
  names := Plain
  pure := .pure
  bind := .bind
  bind_names hp hf := hp.bind fun r => hf r fun _ _ => trivial

theorem PipelineHost.IsPlain.has {h : PipelineHost (ActOf τ)} (hh : h.IsPlain) :
    h.Has Session.plain where
  note := hh.note
  kept k _ := hh.kept k
  keep k c _ := hh.keep k c
  count := hh.count

theorem Stage.IsPlain.has {s : Stage (ActOf τ)} (hs : s.IsPlain) : s.Has Session.plain where
  body := hs.body
  key _ env := by
    show Plain (s.key env)
    unfold Stage.key
    split
    · next f hf => exact hs.identity f hf env
    · exact .pure _

/-- **A run of a pipeline is plain** when what is around it and its stages are. -/
theorem PipelineHost.IsPlain.run {h : PipelineHost (ActOf τ)} (hh : h.IsPlain)
    {stages : List (Stage (ActOf τ))} (hs : ∀ s ∈ stages, s.IsPlain) (env : Environment) :
    Plain (h.run stages env) := hh.has.run (fun s hm => (hs s hm).has) env

/-- What a branch needs around it is plain. -/
structure BranchHost.IsPlain (h : BranchHost (ActOf τ)) : Prop where
  pipeline : h.pipeline.IsPlain
  kept : ∀ k, Plain (h.kept? k)
  keep : ∀ k c, Plain (h.keep k c)
  countReused : Plain h.countReused

theorem BranchHost.IsPlain.has {h : BranchHost (ActOf τ)} (hh : h.IsPlain) :
    h.Has Session.plain fun _ => True where
  pipeline := hh.pipeline.has
  kept k _ := hh.kept k
  keep k c _ := hh.keep k c
  countReused := hh.countReused

/-- **A branch is plain** when what is around it, its stages and its work are. -/
theorem BranchHost.IsPlain.answer {h : BranchHost (ActOf τ)} (hh : h.IsPlain)
    {t : BranchTask (ActOf τ)} (hs : ∀ s ∈ t.stages, s.IsPlain)
    (hw : ∀ work ∈ t.work, ∀ env, Plain (work env)) : Plain (h.answer t) :=
  hh.has.answer ⟨fun s hm => (hs s hm).has, hw, fun _ => trivial⟩

end Hosts

/-! ## Steps of a session -/

namespace Session

variable {τ α : Type} [IsBranch τ]

/-- A step with notes that leaves the blocks alone. -/
theorem plain_tell {f : Session τ → Told (α × Session τ)}
    (h : ∀ s : Session τ, s.Rests (f s).value.2) : Plain (tell f) :=
  .update fun s => ⟨(h s).coordinator, (h s).branch, (h s).config⟩

theorem plain_note (n : Note) : Plain (note (τ := τ) n) := .modify fun _ => .of_eq rfl rfl rfl

theorem plain_kept (k : Fingerprint) : Plain (kept? k τ) := plain_tell fun _ => .of_eq rfl rfl rfl

theorem plain_keep (k : Fingerprint) (c : Computation) : Plain (keep (τ := τ) k c) :=
  (plain_tell fun _ => .of_eq rfl rfl rfl).bind fun _ => .pure _

theorem isPlain_pipelineHost (c : SessionConfig) : (pipelineHost (τ := τ) c).IsPlain where
  note := plain_note
  kept := plain_kept
  keep := plain_keep
  count _ := .modify fun _ => .of_eq rfl rfl rfl

theorem isPlain_branchHost (c : SessionConfig) : (branchHost (τ := τ) c).IsPlain where
  pipeline := isPlain_pipelineHost c
  kept := plain_kept
  keep := plain_keep
  countReused := .modify fun _ => ⟨⟨rfl, rfl, rfl, rfl, rfl, rfl⟩, rfl, rfl⟩

/-! ## Stages and branches that are put together -/

theorem plain_prepare (spec : StageSpec) : Plain (prepare spec) := by
  cases spec with
  | source h text =>
    have hload : Plain (loadUnit text) := by
      unfold loadUnit
      refine (plain_tell fun _ => .of_eq rfl rfl rfl).bind fun r => ?_
      match r with
      | some u => exact .pure _
      | none =>
        refine Plain.bind (.update fun _ => .of_eq rfl rfl rfl) fun r => ?_
        match r with
        | .error t => exact .pure _
        | .ok u => exact (plain_tell fun _ => .of_eq rfl rfl rfl).bind fun _ => .pure _
    refine hload.bind fun r => ?_
    cases r <;> exact .pure _
  | unit h label => exact (Plain.state.bind fun _ => .pure _).bind fun _ => .pure _
  | block h body => exact .pure _
  | expression h e target => exact .pure _
  | empty h => exact .pure _

theorem plain_prepareAll (specs : List StageSpec) : Plain (prepareAll specs) := by
  induction specs with
  | nil => exact .pure _
  | cons s ss ih =>
    refine (plain_prepare s).bind fun r => ?_
    cases r with
    | error t => exact .pure _
    | ok p => exact ih.bind fun _ => .pure _

theorem plain_prepareTasks (tasks : List TaskSpec) : Plain (prepareTasks tasks) := by
  induction tasks with
  | nil => exact .pure _
  | cons t ts ih =>
    have hprepare : Plain (prepareTask t) := by
      cases t
      exact (plain_prepareAll _).bind fun _ => .pure _
    refine hprepare.bind fun r => ?_
    cases r with
    | error t => exact .pure _
    | ok p => exact ih.bind fun _ => .pure _

/-! ## Tensor operations -/

theorem plain_tensorOpSelected (name : String) (args : List (Tensor Double)) :
    Plain (tensorOpSelected name args) := by
  refine (plain_tell fun _ => .of_eq rfl rfl rfl).bind fun r => ?_
  cases r with
  | error t => exact .pure _
  | ok h =>
    refine Plain.state.bind fun s => ?_
    split
    · exact .pure _
    · refine Plain.bind (plain_tell fun s => .of_eq rfl ?_ rfl) fun r => ?_
      · -- Whether results are kept or not, it is in the cache of tensors.
        show (match _ with
          | some c => { s.caches with tensor := c }
          | none => s.caches).branch = s.caches.branch
        split <;> rfl
      · cases r <;> exact .pure _

end Session

/-! ## Scripts -/

namespace Script

theorem plain_evalExpr (env : Environment) (e : Expr) : Plain (evalExpr env e) :=
  .update fun _ => .of_eq rfl rfl rfl

theorem isPlain_ofUnit (name : String) (unit : Option ParsedUnit) :
    ((Stage.ofUnit Session.evaluator name unit).toOption.getD { name := name }).IsPlain := by
  cases unit with
  | none => exact ⟨nofun, nofun⟩
  | some u =>
    refine ⟨?_, ?_⟩
    · rintro body ⟨⟩ env
      exact .update fun _ => .of_eq rfl rfl rfl
    · rintro f ⟨⟩ env
      exact .pure _

mutual

theorem plain_runInstr (c : SessionConfig) (env : Environment) :
    (i : Instr) → Plain (runInstr c env i)
  | .define n e | .assign n e => (plain_evalExpr env e).bind fun _ => .pure _
  | .erase _ | .merge _ | .throwing _ | .result _ => .pure _
  | .gate g => (Plain.pass g).bind fun _ => .pure _
  | .tensor n op args => (Session.plain_tensorOpSelected op args).bind fun _ => .pure _
  | .pipeline stages => by
    unfold runInstr
    refine (Session.plain_prepareAll stages).bind fun r => ?_
    cases r with
    | error t => exact .pure _
    | ok ps =>
      have hs := isPlain_toStages c stages (ps.map PreparedStage.unit)
      exact ((Session.isPlain_pipelineHost c).run hs env).bind fun _ => .pure _
  | .branches n tasks workers timed => by
    unfold runInstr
    refine (Session.plain_prepareTasks tasks).bind fun r => ?_
    cases r with
    | error t => exact .pure _
    | ok ts => exact (Plain.branches ts workers timed).bind fun _ => .pure _

/-- **A script is plain.** -/
theorem plain_runScript (c : SessionConfig) : (is : List Instr) → (env : Environment) →
    Plain (runScript c is env)
  | [], _ => .pure _
  | i :: is, env => by
    have hi := plain_runInstr c env i
    have hs := plain_runScript c is
    unfold runScript
    split
    · exact .pure _
    · exact (plain_evalExpr _ _).bind fun _ => .pure _
    · next heq =>
      obtain ⟨rfl, rfl⟩ := List.cons.inj heq
      refine hi.bind fun r => ?_
      cases r with
      | error t => exact .pure _
      | ok env => exact hs env

theorem isPlain_toStage (c : SessionConfig) (unit : Option ParsedUnit) :
    (spec : StageSpec) → (toStage c unit spec).IsPlain
  | .block h body => ⟨by rintro _ ⟨⟩ env; exact plain_runScript c body env, nofun⟩
  | .expression h e target => by
    refine ⟨?_, nofun⟩
    rintro body ⟨⟩ env
    refine (plain_evalExpr env e).bind fun r => ?_
    cases r <;> exact .pure _
  | .unit h label => isPlain_ofUnit h.name unit
  | .source h text => ⟨(isPlain_ofUnit h.name unit).body, (isPlain_ofUnit h.name unit).identity⟩
  | .empty h => ⟨nofun, nofun⟩

theorem isPlain_toStages (c : SessionConfig) : (specs : List StageSpec) →
    (units : List (Option ParsedUnit)) →
    ∀ s ∈ toStages c specs units, s.IsPlain
  | [], _ => nofun
  | spec :: specs, units => by
    have hstage := isPlain_toStage c (units.headD none) spec
    have hrest := isPlain_toStages c specs units.tail
    rw [toStages]
    refine List.forall_mem_cons.2 ⟨?_, hrest⟩
    cases spec.head.identity with
    | none => exact hstage
    | some i =>
      refine ⟨hstage.body, ?_⟩
      rintro f ⟨⟩ env
      exact .pure _

end

end Script

/-! ## Plain branches -/

/-- **Branches whose stages and work are plain**, under any setup of a session. -/
class IsPlainBranch (τ : Type) [IsRunnable τ] : Prop where
  stages : ∀ (c : SessionConfig) (t : τ), ∀ s ∈ (IsRunnable.toTask c t).stages, s.IsPlain
  work : ∀ (c : SessionConfig) (t : τ), ∀ work ∈ (IsRunnable.toTask c t).work, ∀ env,
    Plain (work env)

/-- Prepared branches run scripts. -/
instance : IsPlainBranch PreparedTask where
  stages c _ := isPlain_toStages c _ _
  work c t work hw env := by
    obtain ⟨body, -, rfl⟩ := Option.map_eq_some_iff.1 hw
    exact (plain_runScript c body env).bind fun _ => .pure _

namespace Session

variable {τ : Type}

/-- **A branch is plain.** -/
theorem plain_answer [IsRunnable τ] [IsPlainBranch τ] (c : SessionConfig) (t : τ) :
    Plain ((branchHost c).answer (IsRunnable.toTask c t)) :=
  (isPlain_branchHost c).answer (IsPlainBranch.stages c t) (IsPlainBranch.work c t)

/-! ## Code that spares a block -/

/-- **The rule that a block is spared**, once its number is given away. -/
def apart (b : Nat) : Rule (Session τ) where
  holds s := b < s.coordinator.nextBlock
  allows s s' := s.coordinator.Spares b s'.coordinator

variable {b : Nat} {α : Type}

/-- A step that does nothing to the blocks. -/
theorem obeys_tell {f : Session τ → Told (α × Session τ)}
    (hb : ∀ s, (f s).value.2.coordinator.blocks = s.coordinator.blocks)
    (hn : ∀ s, (f s).value.2.coordinator.nextBlock = s.coordinator.nextBlock) :
    Obeys (apart b) (tell f) :=
  .update fun s _ => Coordinator.Spares.of_blocks (hb s) (hn s)

theorem obeys_note (n : Note) : Obeys (apart b) (note (τ := τ) n) :=
  .modify fun _ _ => Coordinator.Spares.of_blocks rfl rfl

/-- A new block is another one. -/
theorem abides_start [IsBranch τ] (tasks : List τ) (workers : Option Nat) :
    Abides (apart b) (fun r => ∀ id, r = .ok id → id ≠ b) (start tasks workers) :=
  .update fun _ hs => Coordinator.spares_start hs tasks workers

theorem obeys_collect {id : Nat} (h : id ≠ b) : Obeys (apart b) (collect (τ := τ) id) := by
  refine Obeys.state.bind fun s => ?_
  cases s.coordinator.block? id with
  | none => exact .pure _
  | some x =>
    dsimp only
    cases x.collected with
    | some r => exact .pure _
    | none =>
      refine Obeys.bind (.forIn (fun r _ => ?_) _) fun _ => Obeys.bind (.modify fun _ _ => ?_)
        fun _ => .pure _
      · exact (obeys_tell (fun _ => rfl) fun _ => rfl).bind fun _ => .pure _
      · exact Coordinator.Spares.modifyBlock_of_ne (fun _ => rfl) h

theorem obeys_join {id : Nat} (h : id ≠ b) (timed : Bool) :
    Obeys (apart b) (join (τ := τ) id timed) := by
  refine Obeys.bind (.join fun r => .done trivial) fun r => ?_
  cases r with
  | true => exact (obeys_collect h).bind fun _ => .pure _
  | false => exact (obeys_note _).bind fun _ => .pure _

theorem obeys_runBranches [IsBranch τ] (tasks : List τ) (workers : Option Nat) (timed : Bool) :
    Obeys (apart b) (runBranches tasks workers timed) := by
  refine (abides_start tasks workers).bind fun r hr => ?_
  cases r with
  | error t => exact .done trivial
  | ok id => exact (obeys_join (hr id rfl) timed).bind fun _ => .pure _

/-- **Plain code spares the blocks** that were started before. -/
theorem Plain.obeys [IsBranch τ] {p : ActOf τ α} (hp : Plain p) : Obeys (apart b) p := by
  induction hp with
  | pure a => exact .pure a
  | bind _ _ ihp ihf => exact ihp.bind ihf
  | state => exact .state
  | pass g => exact .pass g
  | update h => exact .update fun s _ => .of_blocks (h s).coordinator.blocks (h s).coordinator.next
  | branches tasks workers timed => exact obeys_runBranches tasks workers timed

theorem obeys_onBlock {id : Nat} (h : id ≠ b) (f : Block τ → Block τ)
    (hf : ∀ x, (f x).id = x.id) : Obeys (apart b) (onBlock id f) :=
  .modify fun _ _ => Coordinator.Spares.modifyBlock_of_ne hf h

theorem obeys_claim {id : Nat} (h : id ≠ b) : Obeys (apart b) (claim (τ := τ) id) := by
  refine .update fun s _ => ?_
  show s.coordinator.Spares b _
  split
  · exact Coordinator.Spares.refl b s.coordinator
  · exact Coordinator.Spares.modifyBlock_of_ne (fun _ => rfl) h

section Branches

variable [IsRunnable τ] [IsPlainBranch τ]

/-- A branch spares the blocks that were started before. -/
theorem obeys_answer (c : SessionConfig) (t : τ) :
    Obeys (apart b) ((branchHost c).answer (IsRunnable.toTask c t)) := (plain_answer c t).obeys

/-- Running a branch of a block spares all blocks, its own one, too. -/
theorem obeys_runBranch (c : SessionConfig) (id : Nat) (t : τ) :
    Obeys (apart b) (runBranch c id t) := by
  refine Obeys.bind (.update fun s _ => Coordinator.spares_permit b id s.coordinator) fun r => ?_
  cases r with
  | false => exact .pure _
  | true =>
    refine (obeys_answer c t).bind fun o => Obeys.bind (.update fun s _ => ?_) fun _ => .pure _
    exact Coordinator.spares_conclude b id s.coordinator _

/-- **The slices of other blocks spare a block.** -/
theorem obeys_slice {id : Nat} (h : id ≠ b) :
    Obeys (apart b) (slice (τ := τ) id) := by
  have hslice : ∀ c n, Obeys (apart b) (sliceUpTo (τ := τ) c id n) := fun c n => by
    induction n with
    | zero => exact .pure _
    | succ n ih =>
      refine (obeys_claim h).bind fun r => ?_
      match r with
      | none => exact obeys_onBlock h Block.retire fun _ => rfl
      | some (i, t) =>
        refine (obeys_runBranch c id t).bind fun r => ?_
        refine Obeys.bind (obeys_tell (fun _ => rfl) fun _ => rfl) fun _ => ?_
        exact (obeys_onBlock h (fun x => x.store i r) fun _ => rfl).bind fun _ => ih
  refine Obeys.state.bind fun s => ?_
  cases s.coordinator.block? id with
  | none => exact .pure _
  | some x => exact hslice s.config _

end Branches

end Session

end MemoFlow
