import MemoFlow.Proofs.Branch.Compute
import MemoFlow.Proofs.Pipeline.Trail

/-!
# What a failed branch shows

A branch that fails shows what was thrown, no bindings, and no record of its own. Its value is the
one that it had by then: none as long as its stages run, and that of its stages once its work runs.

* **`BranchHost.Staged`**, **`BranchHost.Fails`**: stages that came to their end, and the ways in
  which a branch fails;
* `BranchHost.fails_of_compute`: a branch that is run and gives nothing has failed in one of them;
* **`BranchHost.failed_branch`**: the result of a branch that failed.
-/

namespace MemoFlow

namespace BranchHost

variable {σ : Type} (h : BranchHost (StateM σ)) (t : BranchTask (StateM σ))

/-! ## Ways to fail -/

/-- The state in which the first stage is started. -/
def entered (w : σ) : σ := (h.pipeline.count (fun st => { st with runs := st.runs + 1 }) w).2

/-- **The stages of a branch came to their end**, with the value of the last one that gave one. -/
inductive Staged (w : σ) : Value → Environment → σ → Prop
  | none (empty : t.stages = []) : Staged w .nil t.env.clearWrites w
  | all {xs : List Yield} {w₁ : σ} (trail : Trail h.pipeline.go t.env.clearWrites t.stages xs
      (h.entered w) w₁) (ended : ∀ x ∈ xs, Yield.isOk x = true) :
    Staged w ((Yield.lastValue xs).getD .nil) (t.env.clearWrites.overlay (Yield.outputs xs))
      (h.pipeline.completed w₁)

/-- What leaves a run of stages when the stage of an index throws. -/
def wrapped (i : Nat) (name : String) (env : Environment) (e : Thrown) : Thrown :=
  if e.isStandard then .stage i name e.message env (some e) else e

/-- **The ways in which a branch fails**: a stage throws, when it has no value, or its work throws,
when it has the value of its stages. -/
inductive Fails (w : σ) : Thrown → Value → Prop
  | stage {xs : List Yield} {s : Stage (StateM σ)} {e : Thrown} {w₁ : σ}
      (at_ : t.stages[xs.length]? = some s)
      (trail : Trail h.pipeline.go t.env.clearWrites (t.stages.take (xs.length + 1))
        (xs ++ [.error e]) (h.entered w) w₁)
      (ended : ∀ x ∈ xs, Yield.isOk x = true) :
    Fails w (wrapped xs.length s.name (t.env.clearWrites.overlay (Yield.outputs xs)) e) .nil
  | work {v : Value} {env : Environment} {e : Thrown} {f : Body (StateM σ) Value} {w₁ w₂ : σ}
      (staged : Staged h t w v env w₁) (present : t.work = some f)
      (thrown : f env w₁ = (.error e, w₂)) : Fails w e v

variable {h t} {v : Value} {env : Environment} {e : Thrown} {w w₁ : σ} {k : Fingerprint}

/-! ## A branch that is run -/

theorem runStages_of_empty (hn : t.stages = []) :
    h.runStages t t.env.clearWrites w = (.ok (.nil, t.env.clearWrites), w) := by
  unfold runStages
  rw [if_pos (by rw [hn]; rfl)]
  rfl

/-- The stages of a branch end as their run does. -/
theorem runStages_of_run {r : Except Thrown Environment} {report : PipelineReport}
    (hn : t.stages ≠ []) (hr : h.pipeline.run t.stages t.env.clearWrites w = ((r, report), w₁)) :
    h.runStages t t.env.clearWrites w =
      (r.map fun env => (report.lastValue.getD .nil, env), w₁) := by
  unfold runStages
  rw [if_neg (by simpa using hn)]
  exact Desk.bind_of_eq hr

/-- Stages that gave a value came to their end. -/
theorem staged_of_runStages (hx : h.runStages t t.env.clearWrites w = (.ok (v, env), w₁)) :
    h.Staged t w v env w₁ := by
  by_cases hn : t.stages = []
  · rw [runStages_of_empty hn] at hx
    cases hx
    exact .none hn
  · obtain ⟨xs, w₂, htrail, hfinish⟩ := h.pipeline.finish_run t.stages t.env.clearWrites w
    rcases hr : h.pipeline.run t.stages t.env.clearWrites w with ⟨⟨r, report⟩, w₃⟩
    rw [runStages_of_run hn hr] at hx
    rw [hr] at hfinish
    cases hfinish with
    | completed all ended =>
      cases hx
      rw [all, List.length_map, List.take_length] at htrail
      exact .all htrail ended
    | failed at_ ended standard => cases hx
    | escaped ended object => cases hx

/-- Stages that threw ended at the first one that did. -/
theorem fails_of_runStages (hx : h.runStages t t.env.clearWrites w = (.error e, w₁)) :
    h.Fails t w e .nil := by
  by_cases hn : t.stages = []
  · rw [runStages_of_empty hn] at hx
    cases hx
  · obtain ⟨xs, w₂, htrail, hfinish⟩ := h.pipeline.finish_run t.stages t.env.clearWrites w
    rcases hr : h.pipeline.run t.stages t.env.clearWrites w with ⟨⟨r, report⟩, w₃⟩
    rw [runStages_of_run hn hr] at hx
    rw [hr] at hfinish
    cases hfinish with
    | completed all ended => cases hx
    | @failed ys name e' at_ ended standard =>
      rw [List.getElem?_map, Option.map_eq_some_iff] at at_
      obtain ⟨s, hs, rfl⟩ := at_
      rw [List.length_append] at htrail
      have hfails := Fails.stage (h := h) hs htrail ended
      rw [wrapped, if_pos standard] at hfails
      cases hx
      exact hfails
    | @escaped ys e' ended object =>
      have hlength := htrail.length_eq
      rw [List.length_append, List.length_take, List.length_singleton] at hlength
      have hlt : ys.length < t.stages.length := by omega
      rw [List.length_append] at htrail
      have hfails := Fails.stage (h := h) (List.getElem?_eq_getElem hlt) htrail ended
      rw [wrapped, if_neg (by simp [object])] at hfails
      cases hx
      exact hfails

/-- **A branch that is run and gives nothing has failed.** It would have gone the same way whatever
is done to keep records. -/
theorem fails_of_compute {f : BranchFailure} (hf : (h.compute t k w).1 = .error f)
    (keep : Fingerprint → Computation → StateM σ Unit) :
    h.Fails t w f.thrown f.value ∧
      ({ h with keep := keep } : BranchHost (StateM σ)).compute t k w = h.compute t k w := by
  rcases hx : h.runStages t t.env.clearWrites w with ⟨e | ⟨v, env⟩, w₁⟩
  · rw [compute_of_thrown hx] at hf ⊢
    obtain rfl := Except.error.inj hf
    exact ⟨fails_of_runStages hx, compute_of_thrown hx⟩
  · rcases hy : runWork t v env w₁ with ⟨f' | ⟨v', env'⟩, w₂⟩
    · rw [compute_of_failed hx hy] at hf ⊢
      obtain rfl := Except.error.inj hf
      refine ⟨?_, compute_of_failed hx hy⟩
      cases hwork : t.work with
      | none =>
        simp only [runWork, hwork] at hy
        cases hy
      | some body =>
        rcases hb : body env w₁ with ⟨e | r, w₃⟩
        · simp only [runWork, hwork] at hy
          rw [Desk.bind_of_eq hb] at hy
          cases hy
          exact .work (staged_of_runStages hx) hwork hb
        · simp only [runWork, hwork] at hy
          rw [Desk.bind_of_eq hb] at hy
          cases hy
    · rw [compute_of_ok hx hy] at hf
      cases hk : k.cacheable <;> rw [hk] at hf <;> cases hf

/-! ## The result -/

/-- **The result of a branch that failed.** Whatever surrounds a branch, whatever it does and in
whatever way it fails: its result has no bindings, is not a reused one, and holds what was thrown
with its text. The branch found no record, and keeps none: all would have gone the same way whatever
is done to keep records of branches. Its value is the one that it had by then: none when a stage
threw, and that of its stages when its work did. -/
theorem failed_branch (h : BranchHost (StateM σ)) (t : BranchTask (StateM σ)) (w : σ)
    (hf : (BranchResult.ofOutcome t.id (h.answer t w).1).status = .failed) :
    let r := BranchResult.ofOutcome t.id (h.answer t w).1
    r.env = ∅ ∧ r.reused = false ∧ h.found? t w = none ∧
      (∀ keep, ({ h with keep := keep } : BranchHost (StateM σ)).answer t w = h.answer t w) ∧
      ∃ e, r.error = some e ∧ r.cause = Thrown.describe (some e) ∧
        h.Fails t (h.opened t w) e r.value := by
  intro r
  cases hc : h.found? t w with
  | some c =>
    rw [answer_of_found hc] at hf
    cases hf
  | none =>
    have hanswer := answer_of_absent hc
    cases hx : (h.answer t w).1 with
    | ok o =>
      rw [hx] at hf
      cases hf
    | error f =>
      have hr : r = .ofOutcome t.id (.error f) := congrArg (BranchResult.ofOutcome t.id) hx
      rw [hanswer] at hx
      refine ⟨by rw [hr]; rfl, by rw [hr]; rfl, rfl, fun keep => ?_, f.thrown, by rw [hr]; rfl,
        by rw [hr]; rfl, ?_⟩
      · have hc' : ({ h with keep := keep } : BranchHost (StateM σ)).found? t w = none := hc
        rw [hanswer, answer_of_absent hc']
        exact (fails_of_compute hx keep).2
      · rw [hr]
        exact (fails_of_compute hx h.keep).1

/-- A branch whose stage gives a value and whose work throws. -/
def halfway : BranchTask (StateM (Desk Unit)) where
  id := "b"
  env := .ofList [("a", .int 1)]
  stages := [.block "s" (fun env => pure (.ok (some (.int 7), env))) "" []]
  work := some fun _ => pure (.error (.evaluation "no"))

/-- A branch that failed shows the value of its stages. -/
theorem failed_branch_of_halfway :
    let d : Desk Unit := ⟨.new .unbounded fun _ => 1, fun _ => 0, ()⟩
    let r := BranchResult.ofOutcome "b" ((Desk.branchHost true).answer halfway d).1
    r.status = .failed ∧ r.value = .int 7 ∧ r.env = ∅ ∧ r.reused = false ∧
      ∃ e, r.error = some e ∧ r.cause = Thrown.describe (some e) ∧
        (Desk.branchHost true).Fails halfway ((Desk.branchHost true).opened halfway d) e
          (.int 7) := by
  intro d r
  have hf : r.status = .failed := rfl
  obtain ⟨henv, hreused, -, -, e, he, hcause, hfails⟩ :=
    failed_branch (Desk.branchHost true) halfway d hf
  exact ⟨hf, rfl, henv, hreused, e, he, hcause, hfails⟩

end BranchHost

end MemoFlow
