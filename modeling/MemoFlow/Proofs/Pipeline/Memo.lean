import MemoFlow.Proofs.Pipeline.Reuse

/-!
# Reuse of results is transparent

A run that reuses results gives what a run without reuse gives, as long as the bodies answer their
requests and no two requests share an identity. One thing can come between: a record also holds the
strays of the bindings it was made on, and writes them over other bindings when it is used again.

* `Step.Agrees`, **`Step.Steady`**: no two steps of one request have different strays;
* `Step.steady_iff`: steps of bodies that answer their requests are steady when they match;
* **`Desk.journal_eq_iff`**: when reuse cannot be seen, whatever the cache and the clock.
-/

namespace MemoFlow

variable {ω : Type}

/-! ## Steps that answer requests -/

namespace Step

variable {m : Type → Type} [Monad m]

/-- What the step gave is what its request does. -/
def Sound (lib : Request → Except Thrown Effect) (x : Step m) : Prop :=
  ∀ q, x.Asks q → x.outcome = (lib q).map fun e => e.record x.env

/-- The two steps have the same strays when they ask one request. -/
def Agrees (lib : Request → Except Thrown Effect) (x y : Step m) : Prop :=
  ∀ q e, x.Asks q → y.Asks q → lib q = .ok e → e.strays x.env = e.strays y.env

/-- **No two steps of one request have different strays.** -/
def Steady (lib : Request → Except Thrown Effect) (xs : List (Step m)) : Prop :=
  xs.Pairwise (Agrees lib)

variable {lib : Request → Except Thrown Effect} {x y : Step m}

/-- Steps that agree give the same for one request. -/
theorem outcome_eq (hx : x.Sound lib) (hy : y.Sound lib) (h : x.Agrees lib y) {q : Request}
    (hxq : x.Asks q) (hyq : y.Asks q) : x.outcome = y.outcome := by
  rw [hx q hxq, hy q hyq]
  cases hl : lib q with
  | error t => rfl
  | ok e => exact congrArg Except.ok (e.record_eq_iff.2 (h q e hxq hyq hl))

theorem agrees_of_outcome_eq (hx : x.Sound lib) (hy : y.Sound lib)
    (h : ∀ q, x.Asks q → y.Asks q → ∀ c, x.outcome = .ok c → y.outcome = .ok c) :
    x.Agrees lib y := by
  intro q e hxq hyq hl
  have hx' := hx q hxq
  have hy' := hy q hyq
  rw [hl] at hx' hy'
  have := h q hxq hyq _ hx'
  rw [hy'] at this
  exact (e.record_eq_iff.1 (Except.ok.inj this)).symm

/-- Steps of bodies that answer their requests match exactly when they agree. -/
theorem matches_iff (hx : x.Sound lib) (hy : y.Sound lib) : x.Matches y ↔ x.Agrees lib y :=
  ⟨fun h => agrees_of_outcome_eq hx hy fun q hxq hyq c => h q c hxq hyq,
    fun h _ _ hxq hyq ho => (outcome_eq hx hy h hxq hyq).symm.trans ho⟩

theorem steady_iff {xs : List (Step m)} (h : ∀ x ∈ xs, x.Sound lib) :
    xs.Pairwise Matches ↔ Steady lib xs :=
  List.Pairwise.iff_of_mem fun hx hy => matches_iff (h _ hx) (h _ hy)

end Step

theorem Stage.Answers.sound {lib : Request → Except Thrown Effect} {s : Stage (StateM ω)}
    (h : s.Answers lib) (env : Environment) (w : ω) : (s.step env w).Sound lib := fun _ hq =>
  congrArg (fun x => (x w).1) (h.fresh_eq hq)

theorem Stage.Answers.replies {lib : Request → Except Thrown Effect} {s : Stage (StateM ω)}
    (h : s.Answers lib) : s.Replies := ⟨h.asks, fun _ _ hq => ⟨_, h.fresh_eq hq⟩⟩

theorem Stage.sound_course {lib : Request → Except Thrown Effect} {ss : List (Stage (StateM ω))}
    (hs : ∀ s ∈ ss, s.Answers lib) (env : Environment) (w : ω) :
    ∀ x ∈ (Stage.course ss env w).1, x.Sound lib := by
  induction ss generalizing env w with
  | nil => exact fun x hx => absurd (show x ∈ [] from hx) List.not_mem_nil
  | cons s rest ih =>
    have h0 := (hs s List.mem_cons_self).sound env w
    rcases h : s.fresh env w with ⟨t | c, w₁⟩
    · rw [Stage.course_of_error h]
      simpa using h0
    · rw [Stage.course_of_ok h]
      exact List.forall_mem_cons.2
        ⟨h0, ih (fun s hm => hs s (List.mem_cons_of_mem _ hm)) _ _⟩

theorem PipelineCall.sound_courses {lib : Request → Except Thrown Effect}
    {ps : List (PipelineCall ω)} (hs : ∀ p ∈ ps, ∀ s ∈ p.stages, s.Answers lib) (w : ω) :
    ∀ x ∈ courses ps w, x.Sound lib := by
  induction ps generalizing w with
  | nil => exact fun x hx => absurd (show x ∈ [] from hx) List.not_mem_nil
  | cons p rest ih =>
    intro x hx
    rcases List.mem_append.1 hx with hx | hx
    · exact Stage.sound_course (hs p List.mem_cons_self) p.env w x hx
    · exact ih (fun p hm => hs p (List.mem_cons_of_mem _ hm)) _ x hx

namespace Desk

variable {lib : Request → Except Thrown Effect} {d : Desk ω} {o : CacheOptions}
  {g : Computation → UInt64} {xs : List (Step (StateM ω))}

/-- **With steady steps, reuse cannot be seen.** -/
theorem Recalls.journal_eq (ps : List (PipelineCall ω)) {d' : Desk ω}
    (h : Recalls d.cache o g xs) (hw : d'.world = d.world)
    (hs : ∀ p ∈ ps, ∀ s ∈ p.stages, s.Answers lib) (hx : ∀ x ∈ xs, x.Sound lib)
    (hd : Step.Distinct (xs ++ PipelineCall.courses ps d.world))
    (ha : Step.Steady lib (xs ++ PipelineCall.courses ps d.world)) :
    journal true ps d = journal false ps d' := by
  have hsound : ∀ x ∈ xs ++ PipelineCall.courses ps d.world, x.Sound lib := fun x hm =>
    (List.mem_append.1 hm).elim (hx x) (PipelineCall.sound_courses hs d.world x)
  exact h.journal_eq_of_matches ps hw (fun p hp s hm => (hs p hp s hm).replies) hd
    ((Step.steady_iff hsound).2 ha)

/-- **Where reuse cannot be seen without bounds, the steps are steady.** -/
theorem Knows.steady_of_journal_eq (ps : List (PipelineCall ω)) {d' : Desk ω}
    (h : Knows d.cache g xs) (hw : d'.world = d.world)
    (hs : ∀ p ∈ ps, ∀ s ∈ p.stages, s.Answers lib) (hx : ∀ x ∈ xs, x.Sound lib)
    (ha : Step.Steady lib xs) (hj : journal true ps d = journal false ps d') :
    Step.Steady lib (xs ++ PipelineCall.courses ps d.world) := by
  have hsound : ∀ x ∈ xs ++ PipelineCall.courses ps d.world, x.Sound lib := fun x hm =>
    (List.mem_append.1 hm).elim (hx x) (PipelineCall.sound_courses hs d.world x)
  refine (Step.steady_iff hsound).1 ?_
  exact h.matches_of_journal_eq ps hw (fun p hp s hm => (hs p hp s hm).replies)
    ((Step.steady_iff hx).2 ha) hj

/-- **Reuse of results cannot be seen, whatever the settings of the cache and the clock, exactly
when the steps are steady**: no request is asked on two sets of bindings with different strays. -/
theorem journal_eq_iff (lib : Request → Except Thrown Effect) {ps : List (PipelineCall ω)} {w : ω}
    (hs : ∀ p ∈ ps, ∀ s ∈ p.stages, s.Answers lib)
    (hd : Step.Distinct (PipelineCall.courses ps w)) :
    (∀ (o : CacheOptions) (clock : Nat → Int64),
      journal true ps ⟨.new o fun _ => 1, clock, w⟩ =
        journal false ps ⟨.new o fun _ => 1, clock, w⟩) ↔
      Step.Steady lib (PipelineCall.courses ps w) := by
  constructor
  · intro h
    exact Knows.steady_of_journal_eq ps (Knows.new fun _ => 1) rfl hs (by simp) .nil
      (h .unbounded fun _ => 0)
  · intro h o clock
    exact Recalls.journal_eq ps (Recalls.new o _) rfl hs (by simp) hd h

/-- A stage that reads `a` and binds `y`. -/
def line : Stage (StateM Unit) :=
  .block "line" (fun env => pure (.ok (none, env.define "y" (.int 1)))) "y = a" ["a"]

/-- Bindings of `a` and `x`. -/
def lineEnv (x : Value) : Environment := .ofList [("a", .int 1), ("x", x)]

theorem find?_lineEnv (x : Value) : (lineEnv x).find? "a" = some (.int 1) := by
  simp [lineEnv, Environment.ofList, Environment.find?, NameMap.ofList, NameMap.find?_insert]

theorem lineEnv_content :
    ∃ bs, ∀ x, Stream.environment (lineEnv x) ["a"] = some bs := by
  have h : (Stream.environment (lineEnv .nil) ["a"]).isSome = true := by decide +kernel
  obtain ⟨bs, hb⟩ := Option.isSome_iff_exists.1 h
  refine ⟨bs, fun x => hb ▸ Stream.environment_congr (by simp) fun n hn => ?_⟩
  obtain rfl : n = "a" := by
    simpa [Stream.nameSet, NameMap.ofList, NameMap.keys, NameMap.insert, NameMap.insertIn,
      NameMap.empty, EmptyCollection.emptyCollection] using hn
  rw [find?_lineEnv, find?_lineEnv]

theorem find?_lineEnv_x (x : Value) : (lineEnv x).find? "x" = some x := by
  simp [lineEnv, Environment.ofList, Environment.find?, NameMap.ofList, NameMap.find?_insert]

theorem answers_line : line.Answers fun _ => .ok ⟨[("y", .int 1)], none⟩ :=
  ⟨fun _ _ => ⟨_, by decide, rfl⟩, fun _ _ _ => rfl⟩

/-- What is not a number is written over a number that it was not computed from. -/
theorem journal_ne_of_nan :
    ¬ ∀ (o : CacheOptions) (clock : Nat → Int64),
      journal true [⟨[line], lineEnv (.dbl (0.0 / 0.0))⟩, ⟨[line], lineEnv (.int 5)⟩]
          ⟨.new o fun _ => 1, clock, ()⟩ =
        journal false [⟨[line], lineEnv (.dbl (0.0 / 0.0))⟩, ⟨[line], lineEnv (.int 5)⟩]
          ⟨.new o fun _ => 1, clock, ()⟩ := by
  obtain ⟨bs, hb⟩ := lineEnv_content
  have hq : ∀ x q, line.Asks (lineEnv x) (some q) ↔
      q = .text "y = a" (Stream.nameSet ["a"]) bs := fun x q => by
    change "y = a" ≠ "" ∧ some q = Request.ofText "y = a" (lineEnv x) ["a"] ↔ _
    rw [Request.ofText, hb]
    simp
  rw [journal_eq_iff fun _ => .ok ⟨[("y", .int 1)], none⟩]
  · intro h
    have hs : Effect.strays ⟨[("y", .int 1)], none⟩ (lineEnv (.dbl (0.0 / 0.0))) =
        Effect.strays ⟨[("y", .int 1)], none⟩ (lineEnv (.int 5)) :=
      (List.pairwise_cons.1 h).1 _ (List.mem_singleton_self _) _ _ ((hq _ _).2 rfl)
        ((hq _ _).2 rfl) rfl
    have hn : ((0.0 / 0.0 : Float) == 0.0 / 0.0) = false := by decide +kernel
    have hx := congrArg (NameMap.findIn "x") hs
    simp [Effect.findIn_strays, find?_lineEnv_x, Option.filter, Value.same, hn] at hx
  · simp [answers_line]
  · intro x hx y hy q r hxq hyr _
    have hs : ∀ z ∈ PipelineCall.courses
        [⟨[line], lineEnv (.dbl (0.0 / 0.0))⟩, ⟨[line], lineEnv (.int 5)⟩] (),
        ∀ q, z.Asks q → q = .text "y = a" (Stream.nameSet ["a"]) bs := by
      intro z hz q hzq
      rcases List.mem_cons.1 hz with rfl | hz
      · exact (hq _ q).1 hzq
      · rw [List.mem_singleton.1 hz] at hzq
        exact (hq _ q).1 hzq
    rw [hs x hx q hxq, hs y hy r hyr]

end Desk

end MemoFlow
