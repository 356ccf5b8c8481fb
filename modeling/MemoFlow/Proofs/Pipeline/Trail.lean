import MemoFlow.Proofs.Pipeline.Perform

/-!
# The trail of a run

A run is followed stage by stage. Each stage works on the bindings at the start, overlaid by the
outputs of the stages before it; the first one that throws is the last one that is started. How the
run ends and what its report says is read off what the stages gave.

* **`Trail`**: stages of a run, what they give, and the states before and after them;
* `PipelineReport.Stands`: a report between two stages;
* `PipelineHost.Finish`, **`PipelineHost.finish_run`**: every run finishes a trail;
* **`PipelineHost.run_eq_fold`**: a run without reuse is a fold over the bindings, and its report
  traces it.
-/

namespace MemoFlow

/-! ## What stages give -/

/-- **What a stage of a run gives**: a computation, with a mark when it was reused, or what is
thrown. -/
abbrev Yield : Type := Except Thrown (Computation × Bool)

namespace Yield

/-- The bindings that a stage leaves to those after it. -/
def bindings : Yield → List (String × Value)
  | .ok (c, _) => c.bindings
  | .error _ => []

/-- The value of a stage. -/
def value : Yield → Option Value
  | .ok (c, _) => c.value
  | .error _ => none

/-- Whether a stage came to its end. -/
def isOk : Yield → Bool
  | .ok _ => true
  | .error _ => false

/-- The record of a stage of a name. -/
def record (name : String) : Yield → StageRecord
  | .ok (c, reused) =>
    { name := name, reused := reused, produced := c.bindings.map Prod.fst, value := c.value }
  | .error _ => { name := name, failed := true }

/-- The bindings that stages leave behind, those of the first one first. -/
def outputs (xs : List Yield) : List (String × Value) := xs.flatMap bindings

/-- The value of the last stage that gave one. -/
def lastValue (xs : List Yield) : Option Value := (xs.filterMap value).getLast?

theorem outputs_concat (xs : List Yield) (x : Yield) :
    outputs (xs ++ [x]) = outputs xs ++ bindings x := by
  simp [outputs]

theorem outputs_concat_error (xs : List Yield) (t : Thrown) :
    outputs (xs ++ [.error t]) = outputs xs := by
  rw [outputs_concat]
  exact List.append_nil _

theorem lastValue_concat (xs : List Yield) (x : Yield) :
    lastValue (xs ++ [x]) = (value x).or (lastValue xs) := by
  rw [lastValue, lastValue, List.filterMap_append]
  cases h : value x <;> simp [h]

theorem lastValue_concat_error (xs : List Yield) (t : Thrown) :
    lastValue (xs ++ [.error t]) = lastValue xs := by
  rw [lastValue_concat]
  rfl

end Yield

namespace Environment

theorem overlay_append (env : Environment) (l r : List (String × Value)) :
    env.overlay (l ++ r) = (env.overlay l).overlay r := List.foldl_append

/-- An overlay forgets no name. -/
theorem contains_overlay {env : Environment} {n : String} (h : env.contains n = true)
    (l : List (String × Value)) : (env.overlay l).contains n = true := by
  have hs : (env.find? n).isSome = true := h
  change ((env.overlay l).find? n).isSome = true
  rw [find?_overlay, Option.isSome_or, hs, Bool.or_true]

end Environment

/-! ## Trails -/

section Trail

variable {σ : Type}

/-- **Stages of a run, one after the other**, with what they give and the states before and after
them. `go` runs the stage of an index on bindings: on those at the start, overlaid by the outputs of
all stages before it. All stages but the last one came to their end. -/
inductive Trail (go : Nat → Stage (StateM σ) → Environment → StateM σ Yield) (env : Environment) :
    List (Stage (StateM σ)) → List Yield → σ → σ → Prop
  | start (w : σ) : Trail go env [] [] w w
  | next {ss : List (Stage (StateM σ))} {xs : List Yield} {w w₁ w₂ : σ} {s : Stage (StateM σ)}
      {x : Yield} (before : Trail go env ss xs w w₁) (ended : ∀ y ∈ xs, Yield.isOk y = true)
      (this : go xs.length s (env.overlay (Yield.outputs xs)) w₁ = (x, w₂)) :
      Trail go env (ss ++ [s]) (xs ++ [x]) w w₂

namespace Trail

variable {go : Nat → Stage (StateM σ) → Environment → StateM σ Yield} {env : Environment}
  {ss : List (Stage (StateM σ))} {xs : List Yield} {w w' : σ}

theorem length_eq (h : Trail go env ss xs w w') : xs.length = ss.length := by
  induction h with
  | start w => rfl
  | next _ _ _ ih => rw [List.length_append, List.length_append, ih]; rfl

/-- What holds of all that stages can give holds along a trail. -/
theorem forall_mem {P : Yield → Prop} (h : Trail go env ss xs w w')
    (hp : ∀ s ∈ ss, ∀ i e w, P (go i s e w).1) : ∀ x ∈ xs, P x := by
  induction h with
  | start w => simp
  | @next ss xs w w₁ w₂ s x _ _ this ih =>
    intro y hy
    rcases List.mem_append.1 hy with hy | hy
    · exact ih (fun s hs => hp s (List.mem_append_left _ hs)) y hy
    · rw [List.mem_singleton.1 hy]
      have hx := hp s (List.mem_append_right _ (List.mem_singleton_self s)) xs.length
        (env.overlay (Yield.outputs xs)) w₁
      rwa [this] at hx

end Trail

end Trail

/-! ## Reports along a trail -/

/-- The states of a run that starts `k` stages: each of them is waited for and runs. A run without
stages waits for the first one. -/
def PipelineState.path (k : Nat) : List PipelineState :=
  if k = 0 then [.pending 0] else (List.range k).flatMap fun i => [.pending i, .running i]

theorem PipelineState.path_succ (k : Nat) :
    path (k + 1) = ((List.range k).flatMap fun i => [.pending i, .running i]) ++
      [.pending k, .running k] := by
  rw [path, if_neg (Nat.succ_ne_zero k), List.range_succ, List.flatMap_append]
  simp

namespace PipelineReport

/-- **A report between two stages** of `n` that have the given names: it has a record of each stage
that gave something, and waits for the next one, if there is one. -/
structure Stands (r : PipelineReport) (names : List String) (xs : List Yield) (n : Nat) : Prop where
  stages : r.stages = List.zipWith Yield.record names xs
  transitions : r.transitions =
    if xs.length < n then ((List.range xs.length).flatMap fun i => [.pending i, .running i]) ++
      [.pending xs.length] else PipelineState.path xs.length
  lastValue : r.lastValue = Yield.lastValue xs

theorem Stands.start (n : Nat) : (enter { } (.pending 0)).Stands [] [] n := by
  refine ⟨rfl, ?_, rfl⟩
  by_cases hn : 0 < n <;> simp [hn, enter, PipelineState.path]

variable {r : PipelineReport} {names : List String} {xs : List Yield} {n : Nat}

/-- The states of a report that goes over to the next stage. -/
theorem Stands.running (h : r.Stands names xs n) (hn : xs.length < n) :
    (r.enter (.running xs.length)).transitions = PipelineState.path (xs.length + 1) := by
  rw [enter, PipelineState.path_succ, h.transitions, if_pos hn]
  simp

theorem Stands.recordStage {ss : List String} (h : r.Stands ss xs n) (c : Computation)
    (reused : Bool) (name : String) (hl : xs.length = ss.length) (hn : xs.length < n) :
    (let r := PipelineHost.recordStage (r.enter (.running xs.length)) name c reused
      if xs.length + 1 = n then r else r.enter (.pending (xs.length + 1))).Stands (ss ++ [name])
        (xs ++ [.ok (c, reused)]) n := by
  have hs : (PipelineHost.recordStage (r.enter (.running xs.length)) name c reused).stages =
      List.zipWith Yield.record (ss ++ [name]) (xs ++ [.ok (c, reused)]) := by
    rw [List.zipWith_append hl.symm, ← h.stages]
    rfl
  have hv : (PipelineHost.recordStage (r.enter (.running xs.length)) name c reused).lastValue =
      Yield.lastValue (xs ++ [.ok (c, reused)]) := by
    rw [Yield.lastValue_concat, ← h.lastValue]
    cases hc : c.value <;> simp [PipelineHost.recordStage, hc, Yield.value, enter]
  have ht := h.running hn
  dsimp only
  split
  · next he =>
    refine ⟨hs, ?_, hv⟩
    rw [List.length_append, List.length_singleton, if_neg (by omega)]
    exact ht
  · next hne =>
    refine ⟨hs, ?_, hv⟩
    rw [List.length_append, List.length_singleton, if_pos (by omega)]
    change (r.enter (.running xs.length)).transitions ++ [.pending (xs.length + 1)] = _
    rw [ht, PipelineState.path, if_neg (Nat.succ_ne_zero _)]

end PipelineReport

/-! ## Runs -/

/-- **A stage throws errors only**, no objects without a text. -/
def Stage.IsOrderly {σ : Type} (s : Stage (StateM σ)) : Prop :=
  ∀ env w t, (s.act env w).1 = .error t → t.isStandard = true

namespace PipelineHost

variable {σ : Type} (h : PipelineHost (StateM σ)) {env : Environment}
  {ss rest : List (Stage (StateM σ))} {xs : List Yield} {w w₁ : σ} {r : PipelineReport}

/-- One stage of a run, with the note that it is started. -/
def go (i : Nat) (s : Stage (StateM σ)) (env : Environment) : StateM σ Yield := do
  h.note (.plain "pipeline" (label i s.name ++ " running"))
  h.perform s env

/-- The state after a run that was counted as completed. -/
def completed (w : σ) : σ := (h.count (fun st => { st with completed := st.completed + 1 }) w).2

/-- The state after a run that was counted as failed, with the note on it. -/
def failed (i : Nat) (name : String) (t : Thrown) (w : σ) : σ :=
  (h.note (.plain "pipeline" (label i name ++ " failed: " ++ t.message))
    (h.count (fun st => { st with failed := st.failed + 1 }) w).2).2

/-- **How a run ends** that came along a trail: after all stages, at a stage that threw an error, or
at one that threw an object without a text. -/
inductive Finish (env : Environment) (names : List String) (w : σ) :
    List Yield → (Except Thrown Environment × PipelineReport) × σ → Prop
  | completed {xs : List Yield} (all : xs.length = names.length)
      (ended : ∀ x ∈ xs, Yield.isOk x = true) :
      Finish env names w xs
        ((.ok (env.overlay (Yield.outputs xs)),
          { stages := List.zipWith Yield.record names xs
            transitions := PipelineState.path xs.length ++ [.completed xs.length]
            final := .completed xs.length
            lastValue := Yield.lastValue xs }), h.completed w)
  | failed {xs : List Yield} {name : String} {t : Thrown} (at_ : names[xs.length]? = some name)
      (ended : ∀ x ∈ xs, Yield.isOk x = true) (standard : t.isStandard = true) :
      Finish env names w (xs ++ [.error t])
        ((.error (.stage xs.length name t.message (env.overlay (Yield.outputs xs)) (some t)),
          { stages := List.zipWith Yield.record names (xs ++ [.error t])
            transitions := PipelineState.path (xs.length + 1) ++ [.failed xs.length t.message]
            final := .failed xs.length t.message
            lastValue := Yield.lastValue xs }), h.failed xs.length name t w)
  | escaped {xs : List Yield} {t : Thrown} (ended : ∀ x ∈ xs, Yield.isOk x = true)
      (object : t.isStandard = false) :
      Finish env names w (xs ++ [.error t])
        ((.error t,
          { stages := List.zipWith Yield.record names xs
            transitions := PipelineState.path (xs.length + 1)
            final := .running xs.length
            lastValue := Yield.lastValue xs }), w)

variable {h}

theorem runFrom_of_thrown {i : Nat} {s : Stage (StateM σ)} {t : Thrown}
    (hg : h.go i s env w = (.error t, w₁)) :
    h.runFrom i (s :: rest) env r w = h.abort i s env (r.enter (.running i)) t w₁ := by
  have hr : h.runFrom i (s :: rest) env r w =
      (h.go i s env >>= fun x => match x with
        | .error t => h.abort i s env (r.enter (.running i)) t
        | .ok (c, reused) =>
          let r := recordStage (r.enter (.running i)) s.name c reused
          let r := if rest.isEmpty then r else r.enter (.pending (i + 1))
          h.runFrom (i + 1) rest (env.overlay c.bindings) r) w := rfl
  rw [hr, Desk.bind_of_eq hg]

theorem runFrom_of_yielded {i : Nat} {s : Stage (StateM σ)} {c : Computation} {reused : Bool}
    (hg : h.go i s env w = (.ok (c, reused), w₁)) :
    h.runFrom i (s :: rest) env r w =
      h.runFrom (i + 1) rest (env.overlay c.bindings)
        (let r := recordStage (r.enter (.running i)) s.name c reused
        if rest.isEmpty then r else r.enter (.pending (i + 1))) w₁ := by
  have hr : h.runFrom i (s :: rest) env r w =
      (h.go i s env >>= fun x => match x with
        | .error t => h.abort i s env (r.enter (.running i)) t
        | .ok (c, reused) =>
          let r := recordStage (r.enter (.running i)) s.name c reused
          let r := if rest.isEmpty then r else r.enter (.pending (i + 1))
          h.runFrom (i + 1) rest (env.overlay c.bindings) r) w := rfl
  rw [hr, Desk.bind_of_eq hg]

/-- What a stage throws finishes a run. -/
theorem finish_abort {s : Stage (StateM σ)} {t : Thrown} {names : List String}
    (hr : r.Stands (ss.map Stage.name) xs (ss.length + (rest.length + 1)))
    (hl : xs.length = ss.length) (hok : ∀ x ∈ xs, Yield.isOk x = true)
    (hn : names = (ss ++ s :: rest).map Stage.name) :
    h.Finish env names w₁ (xs ++ [.error t])
      (h.abort xs.length s (env.overlay (Yield.outputs xs)) (r.enter (.running xs.length)) t
        w₁) := by
  have hs : names[xs.length]? = some s.name := by simp [hn, hl]
  have ht := hr.running (show xs.length < ss.length + (rest.length + 1) by omega)
  have hz : List.zipWith Yield.record names xs = r.stages := by
    rw [hr.stages, hn, List.map_append, ← List.append_nil xs,
      List.zipWith_append (by simpa using hl.symm)]
    simp
  cases hi : t.isStandard with
  | true =>
    have he : List.zipWith Yield.record names (xs ++ [.error t]) =
        r.stages ++ [{ name := s.name, failed := true }] := by
      rw [hr.stages, hn, List.map_append, List.zipWith_append (by simpa using hl.symm)]
      simp [Yield.record]
    have hf : h.Finish env names w₁ _ _ := .failed hs hok hi
    rw [he, ← ht, ← hr.lastValue] at hf
    rw [abort, if_pos hi]
    exact hf
  | false =>
    have hf : h.Finish env names w₁ _ _ := .escaped hok hi
    rw [hz, ← ht, ← hr.lastValue] at hf
    rw [abort, if_neg (by rw [hi]; exact Bool.false_ne_true)]
    exact hf

/-- **The rest of a run finishes the trail so far.** -/
theorem finish_runFrom (htr : Trail h.go env ss xs w w₁) (hok : ∀ x ∈ xs, Yield.isOk x = true)
    (hr : r.Stands (ss.map Stage.name) xs (ss.length + rest.length)) :
    ∃ ys w₂, Trail h.go env ((ss ++ rest).take ys.length) ys w w₂ ∧
      h.Finish env ((ss ++ rest).map Stage.name) w₂ ys
        (h.runFrom xs.length rest (env.overlay (Yield.outputs xs)) r w₁) := by
  induction rest generalizing ss xs w₁ r with
  | nil =>
    have hl := htr.length_eq
    refine ⟨xs, w₁, ?_, ?_⟩
    · rwa [List.append_nil, hl, List.take_length]
    · have hf : h.Finish env (ss.map Stage.name) w₁ _ _ := .completed (by simpa using hl) hok
      have ht := hr.transitions
      rw [if_neg (by simp [hl])] at ht
      rw [← hr.stages, ← ht, ← hr.lastValue] at hf
      rw [List.append_nil]
      exact hf
  | cons s rest ih =>
    have hl := htr.length_eq
    rcases hg : h.go xs.length s (env.overlay (Yield.outputs xs)) w₁ with ⟨t | ⟨c, b⟩, w₂⟩
    · refine ⟨xs ++ [.error t], w₂, ?_, ?_⟩
      · have hk : (ss ++ s :: rest).take (xs ++ [(.error t : Yield)]).length = ss ++ [s] := by
          rw [List.length_append, List.length_singleton, hl, List.take_length_add_append]
          rfl
        rw [hk]
        exact .next htr hok hg
      · rw [runFrom_of_thrown hg]
        exact finish_abort hr hl hok rfl
    · have hn := Trail.next htr hok hg
      have hok' : ∀ x ∈ xs ++ [(.ok (c, b) : Yield)], Yield.isOk x = true := fun x hx =>
        (List.mem_append.1 hx).elim (hok x) fun hx => by rw [List.mem_singleton.1 hx]; rfl
      have hs := hr.recordStage c b s.name (by simpa using hl)
        (by simp only [List.length_cons]; omega)
      have he : (xs.length + 1 = ss.length + (s :: rest).length) ↔ rest.isEmpty = true := by
        rw [List.isEmpty_iff_length_eq_zero, List.length_cons]
        omega
      simp only [he] at hs
      have hc : ss.length + (s :: rest).length = (ss ++ [s]).length + rest.length := by
        rw [List.length_append, List.length_cons, List.length_singleton]
        omega
      rw [hc, ← List.map_singleton, ← List.map_append] at hs
      obtain ⟨ys, w₃, h1, h2⟩ := ih hn hok' hs
      rw [List.append_assoc] at h1 h2
      rw [Yield.outputs_concat, List.length_append] at h2
      rw [runFrom_of_yielded hg, ← Environment.overlay_append]
      exact ⟨ys, w₃, h1, h2⟩

/-- **Every run finishes a trail** of its stages. -/
theorem finish_run (h : PipelineHost (StateM σ)) (ss : List (Stage (StateM σ))) (env : Environment)
    (w : σ) :
    ∃ xs w₁, Trail h.go env (ss.take xs.length) xs
        (h.count (fun st => { st with runs := st.runs + 1 }) w).2 w₁ ∧
      h.Finish env (ss.map Stage.name) w₁ xs (h.run ss env w) := by
  have hs : (PipelineReport.enter { } (.pending 0)).Stands (([] : List (Stage (StateM σ))).map
      Stage.name) [] (([] : List (Stage (StateM σ))).length + ss.length) := .start _
  exact finish_runFrom (.start _) (by simp) hs

/-! ## Runs without reuse -/

/-- One stage of a run without reuse, with the note that it is started: its body is run on a copy of
the bindings, and is counted when it comes to its end. -/
def runBody (h : PipelineHost (StateM σ)) (i : Nat) (s : Stage (StateM σ)) (env : Environment) :
    StateM σ Yield := do
  h.note (.plain "pipeline" (label i s.name ++ " running"))
  match ← s.fresh env with
  | .error t => return .error t
  | .ok c =>
    h.count fun st => { st with executed := st.executed + 1 }
    return .ok (c, false)

theorem go_eq_runBody (hm : h.memoize = false) : h.go = h.runBody := by
  funext i s env
  have hp : h.perform s env =
      (do return (← h.execute s env .uncacheable).map fun c => (c, false)) := by
    rw [perform, hm]
    rfl
  rw [go, runBody, hp, Desk.execute_eq, hm, Stage.fresh]
  congr 1
  funext _
  simp only [bind_assoc, pure_bind]
  congr 1
  funext x
  rcases x with t | ⟨v, scratch⟩ <;> simp [Except.map]

/-- What a stage gives in a run without reuse is what its body gives. -/
theorem fst_runBody (i : Nat) (s : Stage (StateM σ)) (env : Environment) (w : σ) :
    ∃ w₁, (h.runBody i s env w).1 = (s.fresh env w₁).1.map fun c => (c, false) := by
  refine ⟨(h.note (.plain "pipeline" (label i s.name ++ " running")) w).2, ?_⟩
  rw [runBody, Desk.bind_of_eq (Prod.mk.eta (p := h.note _ w)).symm]
  rcases hf : s.fresh env (h.note (.plain "pipeline" (label i s.name ++ " running")) w).2 with
    ⟨t | c, w₂⟩ <;> rw [Desk.bind_of_eq hf] <;> rfl

theorem isStandard_of_fresh {s : Stage (StateM σ)} (hs : s.IsOrderly) {t : Thrown}
    (hx : (s.fresh env w).1 = .error t) : t.isStandard = true := by
  rcases ha : s.act env.clearWrites w with ⟨t' | r, w₁⟩ <;>
    rw [Stage.fresh, Desk.bind_of_eq ha] at hx
  · obtain rfl : t' = t := Except.error.inj hx
    exact hs env.clearWrites w t' (by rw [ha])
  · cases hx

/-- **A run without reuse is a fold over the bindings, and its report traces it.** Every stage that
is started works on the bindings at the start, overlaid by the outputs of the stages before it. The
run gives the bindings at the start, overlaid by the outputs of all stages, or the failure of the
first stage that threw, with the bindings that this stage was started on. No name that is bound at
the start is lost. The report has a record of every stage that was started, the states that the run
went through, and the value of the last stage that gave one. -/
theorem run_eq_fold (h : PipelineHost (StateM σ)) (hm : h.memoize = false)
    {ss : List (Stage (StateM σ))} (ho : ∀ s ∈ ss, s.IsOrderly) (env : Environment) (w : σ) :
    ∃ xs w₁,
      Trail h.runBody env (ss.take xs.length) xs
        (h.count (fun st => { st with runs := st.runs + 1 }) w).2 w₁ ∧
      (∀ n, env.contains n = true → (env.overlay (Yield.outputs xs)).contains n = true) ∧
      ((xs.length = ss.length ∧ (∀ x ∈ xs, Yield.isOk x = true) ∧
          h.run ss env w =
            ((.ok (env.overlay (Yield.outputs xs)),
              { stages := List.zipWith Yield.record (ss.map Stage.name) xs
                transitions := PipelineState.path xs.length ++ [.completed xs.length]
                final := .completed xs.length
                lastValue := Yield.lastValue xs }), h.completed w₁)) ∨
        ∃ ys s t, xs = ys ++ [.error t] ∧ (∀ y ∈ ys, Yield.isOk y = true) ∧
          ss[ys.length]? = some s ∧
          h.run ss env w =
            ((.error (.stage ys.length s.name t.message (env.overlay (Yield.outputs xs)) (some t)),
              { stages := List.zipWith Yield.record (ss.map Stage.name) xs
                transitions := PipelineState.path xs.length ++ [.failed ys.length t.message]
                final := .failed ys.length t.message
                lastValue := Yield.lastValue xs }), h.failed ys.length s.name t w₁)) := by
  obtain ⟨xs, w₁, htr, hf⟩ := h.finish_run ss env w
  rw [go_eq_runBody hm] at htr
  refine ⟨xs, w₁, htr, fun n hn => Environment.contains_overlay hn _, ?_⟩
  have hx : ∀ x ∈ xs, ∀ t, x = .error t → t.isStandard = true :=
    htr.forall_mem fun s hs i e w t hx => by
      obtain ⟨w', hw'⟩ := fst_runBody (h := h) i s e w
      rw [hw'] at hx
      rcases hf' : (s.fresh e w').1 with t' | c <;> rw [hf'] at hx <;> cases hx
      exact isStandard_of_fresh (ho s (List.mem_of_mem_take hs)) hf'
  generalize hrun : h.run ss env w = out at hf ⊢
  cases hf with
  | completed all ended => exact .inl ⟨by simpa using all, ended, rfl⟩
  | @failed ys name t at_ ended standard =>
    refine .inr ⟨ys, ?_⟩
    rw [List.getElem?_map, Option.map_eq_some_iff] at at_
    obtain ⟨s, hs, rfl⟩ := at_
    rw [Yield.outputs_concat_error, Yield.lastValue_concat_error, List.length_append]
    exact ⟨s, t, rfl, ended, hs, rfl⟩
  | @escaped ys t ended object =>
    have hs := hx (.error t) (List.mem_append_right _ (List.mem_singleton_self _)) t rfl
    rw [object] at hs
    cases hs

/-- A stage that binds `x` and forgets `k`. -/
def seed : Stage (StateM (Desk Unit)) :=
  .block "seed" (fun env => pure (.ok (some (.int 1), (env.define "x" (.int 1)).erase "k"))) "" []

/-- A stage that throws. -/
def explode : Stage (StateM (Desk Unit)) :=
  .block "explode" (fun _ => pure (.error (.evaluation "no"))) "" []

/-- A run whose second stage throws: the name that the first one forgets is still bound. -/
theorem run_eq_fold_of_explode :
    ∃ xs w₁ ys t,
      Trail (Desk.host false).runBody (.ofList [("k", .nil)]) ([seed, explode].take xs.length) xs
        ⟨.new .unbounded fun _ => 1, fun _ => 0, ()⟩ w₁ ∧
      (Environment.overlay (.ofList [("k", .nil)]) (Yield.outputs xs)).contains "k" = true ∧
      xs = ys ++ [.error t] ∧
      ((Desk.host false).run [seed, explode] (.ofList [("k", .nil)])
          ⟨.new .unbounded fun _ => 1, fun _ => 0, ()⟩).1.2.transitions =
        PipelineState.path xs.length ++ [.failed ys.length t.message] := by
  have ho : ∀ s ∈ [seed, explode], s.IsOrderly := by
    intro s hs env w t ht
    rcases List.mem_cons.1 hs with rfl | hs
    · cases ht
    · rw [List.mem_singleton.1 hs] at ht
      cases ht
      rfl
  obtain ⟨xs, w₁, htr, hc, ⟨-, -, hr⟩ | ⟨ys, s, t, hx, -, -, hr⟩⟩ :=
    run_eq_fold (Desk.host false) rfl ho (.ofList [("k", .nil)])
      ⟨.new .unbounded fun _ => 1, fun _ => 0, ()⟩
  · have he := congrArg (fun out => out.1.1) hr
    cases he
  · exact ⟨xs, w₁, ys, t, htr, hc "k" (by decide +kernel), hx, by rw [hr]⟩

end PipelineHost

end MemoFlow
