import MemoFlow.Branch.Run

/-!
# Runs and their parts

A run of a pipeline or of a branch is a sequence of look-ups, notes, counters, bodies and stores. So
it has every trait that its parts have, if sequences of computations with the trait have it, too.

* **`Trait`**: a trait of computations, and the identities that they may use;
* `PipelineHost.Has`, `Stage.Has`, `BranchHost.Has`: parts with a trait;
* **`PipelineHost.Has.run`**, **`BranchHost.Has.answer`**: runs and branches have it.
-/

namespace MemoFlow

variable {m : Type → Type} [Monad m]

/-- **A trait of computations** that is closed under sequences, and identities with a property. -/
structure Trait (m : Type → Type) [Monad m] where
  /-- The computation has the trait. -/
  has : {α : Type} → m α → Prop
  /-- The identity may be used. -/
  admits : Fingerprint → Prop
  /-- The computation has the trait, and gives only identities that may be used. -/
  names : m (Except Thrown Fingerprint) → Prop
  pure : ∀ {α : Type} (a : α), has (Pure.pure a : m α)
  bind : ∀ {α β : Type} {p : m α} {f : α → m β}, has p → (∀ a, has (f a)) → has (p >>= f)
  bind_names : ∀ {β : Type} {p : m (Except Thrown Fingerprint)}
    {f : Except Thrown Fingerprint → m β}, names p →
    (∀ r, (∀ k, r = .ok k → admits k) → has (f r)) → has (p >>= f)

variable {π : Trait m}

/-- What a run of a pipeline needs around it has a trait. -/
structure PipelineHost.Has (π : Trait m) (h : PipelineHost m) : Prop where
  note : ∀ n, π.has (h.note n)
  kept : ∀ k, π.admits k → π.has (h.kept? k)
  keep : ∀ k c, π.admits k → π.has (h.keep k c)
  count : ∀ f, π.has (h.count f)

/-- The body of a stage has a trait, and so has its identity. -/
structure Stage.Has (π : Trait m) (s : Stage m) : Prop where
  body : ∀ body ∈ s.body, ∀ env, π.has (body env)
  key : s.isReusable = true → ∀ env, π.names (s.key env)

namespace PipelineHost.Has

variable {h : PipelineHost m}

theorem execute (hh : h.Has π) {s : Stage m} (hs : s.Has π) (env : Environment) {k : Fingerprint}
    (hk : k.cacheable = true → π.admits k) : π.has (h.execute s env k) := by
  unfold PipelineHost.execute
  cases hb : s.body with
  | none => exact π.pure _
  | some body =>
    refine π.bind (hs.body body hb env.clearWrites) fun r => ?_
    match r with
    | .error t => exact π.pure _
    | .ok (v, scratch) =>
      refine π.bind (hh.count _) fun _ => ?_
      split
      · next hc =>
        exact π.bind (hh.keep k _ (hk (Bool.and_eq_true_iff.1 hc).2)) fun _ => π.pure _
      · exact π.pure _

theorem perform (hh : h.Has π) {s : Stage m} (hs : s.Has π) (env : Environment) :
    π.has (h.perform s env) := by
  have hfresh : ∀ k, (k.cacheable = true → π.admits k) → π.has (do
      return (← h.execute s env k).map fun c => (c, false) :
        m (Except Thrown (Computation × Bool))) :=
    fun k hk => π.bind (hh.execute hs env hk) fun _ => π.pure _
  unfold PipelineHost.perform
  dsimp only
  split
  · next hr =>
    refine π.bind_names (hs.key (Bool.and_eq_true_iff.1 hr).2 env) fun r hk => ?_
    match r with
    | .error t => exact π.pure _
    | .ok k =>
      refine π.bind (hh.kept k (hk k rfl)) fun r => ?_
      match r with
      | some c => exact π.bind (hh.count _) fun _ => π.pure _
      | none => exact hfresh k fun _ => hk k rfl
  · exact hfresh .uncacheable nofun

theorem abort (hh : h.Has π) (i : Nat) (s : Stage m) (env : Environment) (r : PipelineReport)
    (t : Thrown) : π.has (h.abort i s env r t) := by
  unfold PipelineHost.abort
  split
  · exact π.bind (hh.count _) fun _ => π.bind (hh.note _) fun _ => π.pure _
  · exact π.pure _

theorem runFrom (hh : h.Has π) {stages : List (Stage m)} (hs : ∀ s ∈ stages, s.Has π) (i : Nat)
    (env : Environment) (r : PipelineReport) : π.has (h.runFrom i stages env r) := by
  induction stages generalizing i env r with
  | nil => exact π.bind (hh.count _) fun _ => π.pure _
  | cons s rest ih =>
    refine π.bind (hh.note _) fun _ => π.bind (hh.perform (hs s List.mem_cons_self) env) fun x => ?_
    match x with
    | .error t => exact hh.abort i s env _ t
    | .ok (c, reused) => exact ih (fun s hm => hs s (List.mem_cons_of_mem _ hm)) _ _ _

/-- **A run of a pipeline has the trait** of what is around it and of its stages. -/
theorem run (hh : h.Has π) {stages : List (Stage m)} (hs : ∀ s ∈ stages, s.Has π)
    (env : Environment) : π.has (h.run stages env) :=
  π.bind (hh.count _) fun _ => hh.runFrom hs 0 env _

end PipelineHost.Has

/-- What a branch needs around it has a trait, for identities with a property of their own. -/
structure BranchHost.Has (π : Trait m) (admits : Fingerprint → Prop) (h : BranchHost m) :
    Prop where
  pipeline : h.pipeline.Has π
  kept : ∀ k, admits k → π.has (h.kept? k)
  keep : ∀ k c, admits k → π.has (h.keep k c)
  countReused : π.has h.countReused

/-- The stages and the work of a branch have a trait, and its identity has the property. -/
structure BranchTask.Has (π : Trait m) (admits : Fingerprint → Prop) (t : BranchTask m) :
    Prop where
  stages : ∀ s ∈ t.stages, s.Has π
  work : ∀ work ∈ t.work, ∀ env, π.has (work env)
  key : t.source ≠ "" → admits (BranchHost.key t)

namespace BranchHost.Has

variable {admits : Fingerprint → Prop} {h : BranchHost m} {t : BranchTask m}

theorem compute (hh : h.Has π admits) (ht : t.Has π admits) {k : Fingerprint}
    (hk : k.cacheable = true → admits k) : π.has (h.compute t k) := by
  have hstages : ∀ env, π.has (h.runStages t env) := fun env => by
    unfold BranchHost.runStages
    split
    · exact π.pure _
    · exact π.bind (hh.pipeline.run ht.stages env) fun _ => π.pure _
  have hwork : ∀ v env, π.has (BranchHost.runWork t v env) := fun v env => by
    unfold BranchHost.runWork
    cases hb : t.work with
    | none => exact π.pure _
    | some work =>
      refine π.bind (ht.work work hb env) fun r => ?_
      cases r <;> exact π.pure _
  unfold BranchHost.compute
  refine π.bind (hstages _) fun r => ?_
  match r with
  | .error e => exact π.pure _
  | .ok (v, env) =>
    refine π.bind (hwork v env) fun r => ?_
    match r with
    | .error e => exact π.pure _
    | .ok (v, env) =>
      dsimp only
      split
      · next hc => exact π.bind (hh.keep k _ (hk hc)) fun _ => π.pure _
      · exact π.pure _

/-- **A branch has the trait** of what is around it, of its stages and of its work. -/
theorem answer (hh : h.Has π admits) (ht : t.Has π admits) : π.has (h.answer t) := by
  unfold BranchHost.answer
  split
  · exact hh.compute ht nofun
  · next hs =>
    refine π.bind (hh.kept _ (ht.key hs)) fun r => ?_
    match r with
    | some c => exact π.bind hh.countReused fun _ => π.pure _
    | none => exact hh.compute ht fun _ => ht.key hs

end BranchHost.Has

end MemoFlow
