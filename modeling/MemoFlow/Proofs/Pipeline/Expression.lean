import MemoFlow.Proofs.Pipeline.Reuse

/-!
# Expressions and their targets

A stage that computes one value binds it under a target. The target is no part of what the stage
asks for: a record of the same request binds the value under the target that it was made for.

* **`Expression`**, `Expression.stage`, `Expression.Answers`: values with their targets, the stages
  that compute them, and values that are functions of what is asked;
* `Expression.effect`, `Expression.fresh_of_value`: what such a stage does to bindings;
* `Expression.matches_iff`, `Expression.record_eq_iff`: two expressions of one request match when
  they leave the same record, which takes the same target;
* **`Desk.journal_eq_iff_targets`**: when runs keep expressions of one request apart.
-/

namespace MemoFlow

open NameMap

variable {ω : Type}

/-- **A value that is computed and bound under a target.** -/
structure Expression (ω : Type) where
  name : String
  source : String
  inputs : List String
  value : Environment → StateM ω (Except Thrown Value)
  target : String

namespace Expression

/-- The stage of an expression. -/
def stage (x : Expression ω) : Stage (StateM ω) :=
  .expression x.name x.source x.value x.target x.inputs

/-- **The value of an expression is a function of what is asked.** -/
def Answers (val : Request → Except Thrown Value) (x : Expression ω) : Prop :=
  ∀ env q, x.stage.Asks env (some q) → x.value env.clearWrites = pure (val q)

/-- What an expression does with its value. -/
def effect (x : Expression ω) (v : Value) : Effect :=
  ⟨if x.target = "" then [] else [(x.target, v)], some v⟩

variable {x y : Expression ω} {env env' : Environment} {w w' w₁ : ω} {v : Value}

theorem bindAs_eq (x : Expression ω) (v : Value) (env : Environment) :
    Stage.bindAs x.target v env = env.overlay (x.effect v).writes := by
  unfold Stage.bindAs effect
  split <;> rfl

/-- A value that is computed is bound under the target. -/
theorem fresh_of_value (h : x.value env.clearWrites w = (.ok v, w₁)) :
    x.stage.fresh env w = (.ok ((x.effect v).record env), w₁) := by
  have hact : x.stage.act env.clearWrites w =
      (.ok (some v, env.clearWrites.overlay (x.effect v).writes), w₁) := by
    rw [← bindAs_eq]
    exact Desk.bind_of_eq h
  rw [Stage.fresh, Desk.bind_of_eq hact]
  rfl

theorem fresh_of_thrown {t : Thrown} (h : x.value env.clearWrites w = (.error t, w₁)) :
    x.stage.fresh env w = (.error t, w₁) := by
  have hact : x.stage.act env.clearWrites w = (.error t, w₁) := Desk.bind_of_eq h
  rw [Stage.fresh, Desk.bind_of_eq hact]
  rfl

/-- A stage that gave a value has bound it under its target. -/
theorem bound_of_fresh {c : Computation} (h : (x.stage.fresh env w).1 = .ok c)
    (ht : x.target ≠ "") :
    ∃ v, c.value = some v ∧ ∀ e : Environment, (e.overlay c.bindings).find? x.target = some v := by
  rcases hv : x.value env.clearWrites w with ⟨t | v, w₁⟩
  · rw [fresh_of_thrown hv] at h
    cases h
  · rw [fresh_of_value hv] at h
    obtain rfl := Except.ok.inj h
    refine ⟨v, rfl, fun e => ?_⟩
    rw [Environment.find?_overlay_of_sorted _ (Effect.sorted_record _ env), Effect.findIn_record]
    simp [effect, ht, findIn]

variable {val : Request → Except Thrown Value}

theorem Answers.fresh_eq (h : x.Answers val) {q : Request} (hq : x.stage.Asks env (some q)) :
    x.stage.fresh env = pure ((val q).map fun v => (x.effect v).record env) := by
  funext w
  have hv : x.value env.clearWrites w = (val q, w) := by rw [h env q hq]; rfl
  cases hval : val q with
  | error t =>
    rw [hval] at hv
    exact fresh_of_thrown hv
  | ok v =>
    rw [hval] at hv
    exact fresh_of_value hv

/-- An expression whose value is a function of what is asked replies to its requests. -/
theorem Answers.replies (h : x.Answers val) : x.stage.Replies where
  asks hr env := by
    have hsource : decide (x.source ≠ "") = true := hr
    exact ⟨Request.ofText x.source env x.inputs, of_decide_eq_true hsource, rfl⟩
  gives _ _ hq := ⟨_, h.fresh_eq hq⟩

/-- **Two expressions match** when they leave one record for each value of one request. -/
theorem matches_iff (hx : x.Answers val) (hy : y.Answers val) :
    (x.stage.step env w).Matches (y.stage.step env' w') ↔
      ∀ q v, x.stage.Asks env (some q) → y.stage.Asks env' (some q) → val q = .ok v →
        (x.effect v).record env = (y.effect v).record env' := by
  have hxo : ∀ q, x.stage.Asks env (some q) →
      (x.stage.step env w).outcome = (val q).map fun v => (x.effect v).record env := fun q hq => by
    rw [Stage.step, hx.fresh_eq hq]
    rfl
  have hyo : ∀ q, y.stage.Asks env' (some q) →
      (y.stage.step env' w').outcome = (val q).map fun v => (y.effect v).record env' :=
    fun q hq => by
      rw [Stage.step, hy.fresh_eq hq]
      rfl
  constructor
  · intro h q v hxq hyq hv
    have ho := h q _ hxq hyq (by rw [hxo q hxq, hv]; rfl)
    rw [hyo q hyq, hv] at ho
    exact (Except.ok.inj ho).symm
  · intro h q c hxq hyq ho
    rw [hxo q hxq] at ho
    rw [hyo q hyq]
    cases hv : val q with
    | error t =>
      rw [hv] at ho
      cases ho
    | ok v =>
      rw [hv] at ho
      obtain rfl := Except.ok.inj ho
      exact congrArg Except.ok (h q v hxq hyq hv).symm

/-- The names that an expression leaves in its record, where all bindings are the same as
themselves. -/
theorem findIn_record (x : Expression ω) (v : Value)
    (hs : ∀ p ∈ env.toList, p.2.same p.2 = true) (n : String) :
    findIn n ((x.effect v).record env).bindings =
      if x.target ≠ "" ∧ x.target = n then some v else none := by
  rw [Effect.findIn_record, Effect.strays_eq_nil _ hs, effect]
  by_cases ht : x.target = ""
  · simp [ht, findIn]
  · by_cases hn : x.target = n
    · subst hn
      simp [ht, findIn]
    · simp [ht, hn, findIn]

/-- **Records of one value are the same exactly when they are for one target**, where all bindings
are the same as themselves. -/
theorem record_eq_iff (hs : ∀ p ∈ env.toList, p.2.same p.2 = true)
    (hs' : ∀ p ∈ env'.toList, p.2.same p.2 = true) :
    (x.effect v).record env = (y.effect v).record env' ↔ x.target = y.target := by
  constructor
  · intro h
    have hn : ∀ n, (if x.target ≠ "" ∧ x.target = n then some v else none) =
        if y.target ≠ "" ∧ y.target = n then some v else none := fun n => by
      rw [← findIn_record x v hs n, ← findIn_record y v hs' n, h]
    by_contra hne
    by_cases hx : x.target = ""
    · have hy := hn y.target
      simp [hx, Ne.symm (hx ▸ hne)] at hy
    · have hx' := hn x.target
      simp [hx, Ne.symm hne] at hx'
  · intro h
    have hb : ((x.effect v).record env).bindings = ((y.effect v).record env').bindings :=
      eq_of_findIn (Effect.sorted_record _ env) (Effect.sorted_record _ env') fun n => by
        rw [findIn_record x v hs n, findIn_record y v hs' n, h]
    exact congrArg (fun l => (⟨l, some v⟩ : Computation)) hb

end Expression

/-! ## Runs -/

/-- **After each stage that gave a value, its target is bound to that value.** -/
def PipelineCall.BindsTargets (p : PipelineCall ω) (given : List (Except Thrown Computation)) :
    Prop :=
  ∀ (i : Nat) (x : Expression ω) (c : Computation), p.stages[i]? = some x.stage →
    given[i]? = some (.ok c) → x.target ≠ "" →
      ∃ v, c.value = some v ∧ ∀ e : Environment, (e.overlay c.bindings).find? x.target = some v

/-- Each step without reuse is that of its stage. -/
theorem Stage.step_of_course {ss : List (Stage (StateM ω))} {env : Environment} {w : ω} {i : Nat}
    {a : Step (StateM ω)} (h : (course ss env w).1[i]? = some a) :
    ∃ s e w', ss[i]? = some s ∧ a = s.step e w' := by
  induction ss generalizing env w i with
  | nil => cases h
  | cons s rest ih =>
    rcases hf : s.fresh env w with ⟨t | c, w₁⟩
    · rw [course_of_error hf] at h
      cases i with
      | zero => exact ⟨s, env, w, rfl, (Option.some.inj h).symm⟩
      | succ i => simp at h
    · rw [course_of_ok hf] at h
      cases i with
      | zero => exact ⟨s, env, w, rfl, (Option.some.inj h).symm⟩
      | succ i =>
        obtain ⟨s', e, w', hs, rfl⟩ := ih h
        exact ⟨s', e, w', hs, rfl⟩

theorem PipelineCall.bindsTargets_course (p : PipelineCall ω) (w : ω) :
    p.BindsTargets ((Stage.course p.stages p.env w).1.map Step.outcome) := by
  intro i x c hs hc ht
  rw [List.getElem?_map, Option.map_eq_some_iff] at hc
  obtain ⟨a, ha, hc⟩ := hc
  obtain ⟨s, e, w', hs', rfl⟩ := Stage.step_of_course ha
  obtain rfl := Option.some.inj (hs.symm.trans hs')
  exact Expression.bound_of_fresh hc ht

/-- A step of runs without reuse is that of a stage. -/
theorem PipelineCall.step_of_courses {ps : List (PipelineCall ω)} {w : ω} {a : Step (StateM ω)}
    (h : a ∈ courses ps w) : ∃ w', a = a.stage.step a.env w' := by
  induction ps generalizing w with
  | nil => exact absurd (show a ∈ [] from h) List.not_mem_nil
  | cons p rest ih =>
    rcases List.mem_append.1 h with h | h
    · obtain ⟨i, hi⟩ := List.mem_iff_getElem?.1 h
      obtain ⟨s, e, w', -, rfl⟩ := Stage.step_of_course hi
      exact ⟨w', rfl⟩
    · exact ih h

namespace Desk

/-- Runs without reuse bind the targets of their stages. -/
theorem bindsTargets_journal {ps : List (PipelineCall ω)} {d : Desk ω} {i : Nat}
    {p : PipelineCall ω} (hp : ps[i]? = some p) {r : Except Thrown Environment × PipelineReport ×
      List (Except Thrown Computation)} (hr : (journal false ps d)[i]? = some r) :
    p.BindsTargets r.2.2 := by
  induction ps generalizing d i with
  | nil => simp at hp
  | cons p' rest ih =>
    rw [journal] at hr
    cases i with
    | zero =>
      obtain rfl := Option.some.inj hp
      obtain rfl := Option.some.inj hr
      have hcourse := (outcomes_false p'.stages p'.env d).1
      rw [show ((host false).outcomes (p'.stages.map Stage.onDesk) p'.env d).1 = _ from hcourse]
      exact p'.bindsTargets_course d.world
    | succ i => exact ih hp hr

/-- **Reuse keeps expressions apart exactly when those of one request have one target.** Whatever
the settings of the cache and the clock, runs of stages that reply to their requests give the same
with reuse as without exactly when the steps of each request match. Two expressions with one value
for each request match exactly when they leave the same record for the values of the requests that
they share; where all bindings are the same as themselves, this is to have the same target. Runs
that give the same with reuse as without have bound the target of each stage that gave a value. -/
theorem journal_eq_iff_targets {ps : List (PipelineCall ω)} {w : ω}
    (hs : ∀ p ∈ ps, ∀ s ∈ p.stages, s.Replies) (hd : Step.Distinct (PipelineCall.courses ps w)) :
    ((∀ (o : CacheOptions) (clock : Nat → Int64),
        journal true ps ⟨.new o fun _ => 1, clock, w⟩ =
          journal false ps ⟨.new o fun _ => 1, clock, w⟩) ↔
      (PipelineCall.courses ps w).Pairwise Step.Matches) ∧
    (∀ a ∈ PipelineCall.courses ps w, ∀ b ∈ PipelineCall.courses ps w,
      ∀ (x y : Expression ω) (val : Request → Except Thrown Value),
        a.stage = x.stage → b.stage = y.stage → x.Answers val → y.Answers val →
          (a.Matches b ↔ ∀ q v, a.Asks q → b.Asks q → val q = .ok v →
            (x.effect v).record a.env = (y.effect v).record b.env) ∧
          ((∀ p ∈ a.env.toList, p.2.same p.2 = true) → (∀ p ∈ b.env.toList, p.2.same p.2 = true) →
            (a.Matches b ↔ ∀ q v, a.Asks q → b.Asks q → val q = .ok v → x.target = y.target))) ∧
    ∀ (o : CacheOptions) (clock : Nat → Int64),
      journal true ps ⟨.new o fun _ => 1, clock, w⟩ =
        journal false ps ⟨.new o fun _ => 1, clock, w⟩ →
      ∀ (i : Nat) p r, ps[i]? = some p →
        (journal true ps ⟨.new o fun _ => 1, clock, w⟩)[i]? = some r → p.BindsTargets r.2.2 := by
  refine ⟨⟨fun h => ?_, fun h o clock => ?_⟩, fun a ha b hb x y val hax hby hx hy => ?_,
    fun o clock h i p r hp hr => ?_⟩
  · exact (Knows.new fun _ => 1).matches_of_journal_eq ps rfl hs .nil (h .unbounded fun _ => 0)
  · exact (Recalls.new o _).journal_eq_of_matches ps rfl hs hd h
  · obtain ⟨wa, hwa⟩ := PipelineCall.step_of_courses ha
    obtain ⟨wb, hwb⟩ := PipelineCall.step_of_courses hb
    obtain ⟨s, e, oa⟩ := a
    obtain ⟨t, f, ob⟩ := b
    obtain rfl : s = x.stage := hax
    obtain rfl : t = y.stage := hby
    have hmatch : (x.stage.step e wa).Matches (y.stage.step f wb) ↔ _ :=
      Expression.matches_iff hx hy
    rw [hwa, hwb]
    refine ⟨hmatch, fun he hf => hmatch.trans ?_⟩
    have hrecord : ∀ v, (x.effect v).record e = (y.effect v).record f ↔ x.target = y.target :=
      fun _ => Expression.record_eq_iff he hf
    exact forall₂_congr fun q v => forall₃_congr fun _ _ _ => hrecord v
  · rw [h] at hr
    exact bindsTargets_journal hp hr

/-- The value of `a + 1` under a target. -/
def plusOne (target : String) : Expression Unit :=
  ⟨"plus one", "a + 1", ["a"], fun _ => pure (.ok (.int 2)), target⟩

/-- Bindings of `a`, and of what was bound later. -/
def plusOneEnv (l : List (String × Value)) : Environment :=
  (Environment.ofList [("a", .int 1)]).overlay l

theorem request_plusOne {l : List (String × Value)} (h : "a" ∉ l.map Prod.fst) :
    Request.ofText "a + 1" (plusOneEnv l) ["a"] =
      Request.ofText "a + 1" (plusOneEnv []) ["a"] := by
  have hcontent : Stream.environment (plusOneEnv l) ["a"] = .environment (plusOneEnv []) ["a"] := by
    refine Stream.environment_congr (by simp) fun n hn => ?_
    obtain rfl : n = "a" := by
      simpa [Stream.nameSet, NameMap.ofList, NameMap.keys, NameMap.insert, NameMap.insertIn,
        NameMap.empty, EmptyCollection.emptyCollection] using hn
    have hl : findIn "a" l.reverse = none := findIn_eq_none_iff.2 (by simpa using h)
    rw [plusOneEnv, plusOneEnv, Environment.find?_overlay, hl, Option.none_or]
    rfl
  rw [Request.ofText, hcontent, Request.ofText]

/-- A run of two expressions of one request. -/
def plusOneTwice : List (PipelineCall Unit) :=
  [⟨[(plusOne "x").stage, (plusOne "y").stage], plusOneEnv []⟩]

/-- The second of two expressions of one request is not bound under its own target. -/
theorem journal_ne_of_targets :
    ¬ ∀ (o : CacheOptions) (clock : Nat → Int64),
      journal true plusOneTwice ⟨.new o fun _ => 1, clock, ()⟩ =
        journal false plusOneTwice ⟨.new o fun _ => 1, clock, ()⟩ := by
  have hanswers : ∀ target, (plusOne target).Answers fun _ => .ok (.int 2) := fun _ _ _ _ => rfl
  have hcourse : PipelineCall.courses plusOneTwice () =
      [(plusOne "x").stage.step (plusOneEnv []) (),
        (plusOne "y").stage.step (plusOneEnv [("x", .int 2)]) ()] := rfl
  obtain ⟨q, hq⟩ : ∃ q, Request.ofText "a + 1" (plusOneEnv []) ["a"] = some q :=
    Option.isSome_iff_exists.1 (by decide +kernel)
  have hasks : ∀ target l, "a" ∉ l.map Prod.fst → ∀ r : Request,
      ((plusOne target).stage.step (plusOneEnv l) ()).Asks r ↔ r = q := fun target l hl r => by
    change "a + 1" ≠ "" ∧ some r = Request.ofText "a + 1" (plusOneEnv l) ["a"] ↔ _
    rw [request_plusOne hl, hq]
    simp
  have hx := hasks "x" [] (by simp)
  have hy := hasks "y" [("x", .int 2)] (by simp)
  have hs : ∀ p ∈ plusOneTwice, ∀ s ∈ p.stages, s.Replies := by
    simpa [plusOneTwice] using ⟨(hanswers "x").replies, (hanswers "y").replies⟩
  have heq : ∀ a ∈ PipelineCall.courses plusOneTwice (), ∀ r, a.Asks r → r = q := by
    rw [hcourse]
    simp [hx, hy]
  have hd : Step.Distinct (PipelineCall.courses plusOneTwice ()) := fun a ha b hb r r' har hbr _ =>
    (heq a ha r har).trans (heq b hb r' hbr).symm
  obtain ⟨hiff, hpairs, -⟩ := journal_eq_iff_targets hs hd
  rw [hiff]
  rw [hcourse] at hpairs ⊢
  intro h
  have hmatch := (List.pairwise_cons.1 h).1 _ (List.mem_singleton_self _)
  have htarget := (hpairs _ List.mem_cons_self _ (List.mem_cons_of_mem _ List.mem_cons_self)
    (plusOne "x") (plusOne "y") _ rfl rfl (hanswers "x") (hanswers "y")).2 (by decide) (by decide)
  exact absurd (htarget.1 hmatch q _ ((hx q).2 rfl) ((hy q).2 rfl) rfl) (by decide)

end Desk

end MemoFlow
