import MemoFlow.Proofs.Pipeline.Trail

/-!
# The ends of runs

A run ends in a terminal state, unless a stage throws an object without a text: that object leaves
the run as it is, the report stays in the middle of the stage, and the run is never counted as
ended.

* `Trail.unique`: a trail is determined by its stages and the state before them;
* `PipelineHost.Ends`, `PipelineHost.Errs`, **`PipelineHost.ends_iff`**: when a run ends in a
  terminal state;
* `Runner`, `Runner.Settles`: a runner of pipelines with its counters, and what leaves no run open;
* **`Runner.endAll_iff`**: when all runs end in a terminal state and the counters add up.
-/

namespace MemoFlow

variable {σ : Type}

namespace Trail

variable {go : Nat → Stage (StateM σ) → Environment → StateM σ Yield} {env : Environment}
  {ss ss' : List (Stage (StateM σ))} {xs ys : List Yield} {w w₁ w₂ : σ}

/-- **A trail is determined by its stages** and the state before them. -/
theorem unique (h : Trail go env ss xs w w₁) (h' : Trail go env ss ys w w₂) :
    xs = ys ∧ w₁ = w₂ := by
  induction h generalizing ys w₂ with
  | start w =>
    generalize hs : ([] : List (Stage (StateM σ))) = l at h'
    cases h' with
    | start => exact ⟨rfl, rfl⟩
    | next => simp at hs
  | @next ss xs w w₁ w₃ s x before ended this ih =>
    generalize hs : ss ++ [s] = l at h'
    cases h' with
    | start => simp at hs
    | @next ss' xs' _ w₁' _ s' x' before' ended' this' =>
      obtain ⟨rfl, hc⟩ := List.append_inj' hs rfl
      obtain rfl : s = s' := (List.cons.inj hc).1
      obtain ⟨rfl, rfl⟩ := ih before'
      rw [this] at this'
      obtain ⟨rfl, rfl⟩ := Prod.mk.inj this'
      exact ⟨rfl, rfl⟩

/-- All stages before the end of a longer trail came to their end. -/
theorem ended_of_lt (h : Trail go env ss xs w w₁) (h' : Trail go env ss' ys w w₂)
    (hp : ss <+: ss') (hl : ss.length < ss'.length) : ∀ x ∈ xs, Yield.isOk x = true := by
  induction h' generalizing xs w₁ with
  | start w => simp at hl
  | @next ss' ys w w₁' w₃ s y before ended this ih =>
    rcases List.prefix_concat_iff.1 hp with rfl | hp
    · exact absurd hl (Nat.lt_irrefl _)
    · rcases Nat.lt_or_eq_of_le hp.length_le with hlt | heq
      · exact ih h hp hlt
      · obtain rfl := hp.eq_of_length heq
        obtain ⟨rfl, rfl⟩ := h.unique before
        exact ended

end Trail

namespace PipelineHost

/-- The state of a run that was counted as started. -/
def started (h : PipelineHost (StateM σ)) (w : σ) : σ :=
  (h.count (fun st => { st with runs := st.runs + 1 }) w).2

/-- **A run ends in a terminal state**: it gives bindings and is completed, or it throws the failure
of the first stage that threw, with the bindings that this stage was started on, and has failed at
this stage. -/
def Ends (h : PipelineHost (StateM σ)) (ss : List (Stage (StateM σ))) (env : Environment) (w : σ) :
    Prop :=
  ∃ xs w₁, Trail h.go env (ss.take xs.length) xs (h.started w) w₁ ∧
    ((xs.length = ss.length ∧ (∀ x ∈ xs, Yield.isOk x = true) ∧
        (h.run ss env w).1.1 = .ok (env.overlay (Yield.outputs xs)) ∧
        (h.run ss env w).1.2.final = .completed ss.length) ∨
      ∃ ys s t, xs = ys ++ [.error t] ∧ (∀ y ∈ ys, Yield.isOk y = true) ∧
        ss[ys.length]? = some s ∧
        (h.run ss env w).1.1 =
          .error (.stage ys.length s.name t.message (env.overlay (Yield.outputs ys)) (some t)) ∧
        (h.run ss env w).1.2.final = .failed ys.length t.message)

/-- **All stages that a run starts throw errors only**, no objects without a text. -/
def Errs (h : PipelineHost (StateM σ)) (ss : List (Stage (StateM σ))) (env : Environment) (w : σ) :
    Prop :=
  ∀ xs w₁, Trail h.go env (ss.take xs.length) xs (h.started w) w₁ →
    ∀ t, (.error t : Yield) ∈ xs → t.isStandard = true

variable {h : PipelineHost (StateM σ)} {ss : List (Stage (StateM σ))} {env : Environment} {w : σ}

/-- The trail that a run finishes decides what its stages throw. -/
theorem errs_iff_of_finish {names : List String} {xs : List Yield} {w₁ : σ}
    {out : (Except Thrown Environment × PipelineReport) × σ}
    (htr : Trail h.go env (ss.take xs.length) xs (h.started w) w₁)
    (hf : h.Finish env names w₁ xs out) (hn : names.length = ss.length) :
    h.Errs ss env w ↔ ∀ t, (.error t : Yield) ∈ xs → t.isStandard = true := by
  refine ⟨fun he => he xs w₁ htr, fun ht ys w₂ htr' t hm => ?_⟩
  have hl : xs.length = ss.length ∨ ∃ t, (.error t : Yield) ∈ xs := by
    cases hf with
    | completed all ended => exact .inl (all.trans hn)
    | @failed ys name t => exact .inr ⟨t, by simp⟩
    | @escaped ys t => exact .inr ⟨t, by simp⟩
  have hx := htr.length_eq
  have hy := htr'.length_eq
  rw [List.length_take] at hx hy
  rcases Nat.lt_trichotomy ys.length xs.length with hlt | heq | hgt
  · have hok := htr'.ended_of_lt htr (List.take_prefix_take_left (Nat.le_of_lt hlt))
      (by rw [List.length_take, List.length_take]; omega)
    cases hok _ hm
  · rw [heq] at htr'
    obtain ⟨rfl, -⟩ := htr.unique htr'
    exact ht t hm
  · have hok := htr.ended_of_lt htr' (List.take_prefix_take_left (Nat.le_of_lt hgt))
      (by rw [List.length_take, List.length_take]; omega)
    rcases hl with hl | ⟨t', ht'⟩
    · omega
    · cases hok _ ht'

/-- What stages that came to their end and a last one throw. -/
theorem forall_error_concat {xs : List Yield} (hok : ∀ x ∈ xs, Yield.isOk x = true) (t : Thrown) :
    (∀ t', (.error t' : Yield) ∈ xs ++ [.error t] → t'.isStandard = true) ↔
      t.isStandard = true := by
  refine ⟨fun h => h t (by simp), fun ht t' hm => ?_⟩
  rcases List.mem_append.1 hm with hm | hm
  · cases hok _ hm
  · cases List.mem_singleton.1 hm
    exact ht

/-- **A run ends in a terminal state exactly when the stages that it starts throw errors only.** -/
theorem ends_iff (h : PipelineHost (StateM σ)) (ss : List (Stage (StateM σ))) (env : Environment)
    (w : σ) : h.Ends ss env w ↔ h.Errs ss env w := by
  obtain ⟨xs, w₁, htr, hf⟩ := h.finish_run ss env w
  rw [errs_iff_of_finish htr hf (List.length_map _), Ends]
  generalize h.run ss env w = out at hf ⊢
  cases hf with
  | completed all ended =>
    rw [List.length_map] at all
    exact iff_of_true ⟨xs, w₁, htr, .inl ⟨all, ended, rfl, congrArg PipelineState.completed all⟩⟩
      fun t hm => by cases ended _ hm
  | @failed ys name t at_ ended standard =>
    rw [List.getElem?_map, Option.map_eq_some_iff] at at_
    obtain ⟨s, hs, rfl⟩ := at_
    exact iff_of_true ⟨_, w₁, htr, .inr ⟨ys, s, t, rfl, ended, hs, rfl, rfl⟩⟩
      ((forall_error_concat ended t).2 standard)
  | @escaped ys t ended object =>
    rw [forall_error_concat ended, object]
    -- What a terminal state gives is no object without a text.
    refine iff_of_false ?_ Bool.false_ne_true
    rintro ⟨zs, w₂, -, ⟨-, -, hr, -⟩ | ⟨us, s, t', -, -, -, hr, -⟩⟩
    · cases hr
    · cases hr
      cases object

end PipelineHost

/-! ## Counters -/

/-- The runs that were started and are not counted as ended. -/
def PipelineStats.unsettled (st : PipelineStats) : Int := st.runs - (st.completed + st.failed)

/-- **A runner of pipelines**: its counters, and the world of everything else that runs read and
change. -/
structure Runner (ω : Type) where
  /-- The counters. -/
  stats : PipelineStats
  /-- The world. -/
  world : ω

namespace Runner

variable {ω α β : Type}

/-- A step on the world. -/
def onWorld (f : StateM ω α) : StateM (Runner ω) α := fun r =>
  let x := f r.world
  (x.1, { r with world := x.2 })

/-- What runs of a runner need around them: a memory of any kind in the world, and the counters. -/
def host (g : PipelineHost (StateM ω)) : PipelineHost (StateM (Runner ω)) where
  memoize := g.memoize
  note n := onWorld (g.note n)
  kept? k := onWorld (g.kept? k)
  keep k c := onWorld (g.keep k c)
  count f := fun r => ((), { r with stats := f r.stats })

/-- **A computation leaves no run open**: it starts as many runs as it ends. Steps on the world do,
and so do runs that end in a terminal state. -/
def Settles (f : StateM (Runner ω) α) : Prop :=
  ∀ r, (f r).2.stats.unsettled = r.stats.unsettled

/-- The body and the identity of a stage leave no run open. -/
structure StageSettles (s : Stage (StateM (Runner ω))) : Prop where
  act : ∀ env, Settles (s.act env)
  key : ∀ env, Settles (s.key env)

theorem settles_onWorld (f : StateM ω α) : Settles (onWorld f) := fun _ => rfl

theorem settles_pure (a : α) : Settles (pure a : StateM (Runner ω) α) := fun _ => rfl

theorem Settles.bind {f : StateM (Runner ω) α} {k : α → StateM (Runner ω) β} (hf : Settles f)
    (hk : ∀ a, Settles (k a)) : Settles (f >>= k) := fun r =>
  (hk (f r).1 (f r).2).trans (hf r)

theorem settles_count {g : PipelineHost (StateM ω)} {f : PipelineStats → PipelineStats}
    (hf : ∀ st, (f st).unsettled = st.unsettled) : Settles ((host g).count f) := fun r =>
  hf r.stats

variable {g : PipelineHost (StateM ω)} {s : Stage (StateM (Runner ω))}

theorem settles_execute (hs : StageSettles s) (env : Environment) (k : Fingerprint) :
    Settles ((host g).execute s env k) := by
  rw [Desk.execute_eq]
  refine (hs.act _).bind fun x => ?_
  rcases x with t | ⟨v, scratch⟩
  · exact settles_pure _
  · have hc : Settles ((host g).count fun st => { st with executed := st.executed + 1 }) :=
      settles_count fun _ => rfl
    refine hc.bind fun _ => ?_
    dsimp only
    split
    · exact (settles_onWorld _).bind fun _ => settles_pure _
    · exact settles_pure _

theorem settles_perform (hs : StageSettles s) (env : Environment) :
    Settles ((host g).perform s env) := by
  have hf : ∀ k, Settles (do
      return (← (host g).execute s env k).map fun c => (c, false) :
        StateM (Runner ω) Yield) := fun k =>
    (settles_execute hs env k).bind fun _ => settles_pure _
  have hc : Settles ((host g).count fun st => { st with reused := st.reused + 1 }) :=
    settles_count fun _ => rfl
  rw [PipelineHost.perform]
  dsimp only
  split
  · refine (hs.key env).bind fun x => ?_
    rcases x with t | k
    · exact settles_pure _
    · refine (settles_onWorld _).bind fun x => ?_
      cases x with
      | none => exact hf k
      | some c => exact hc.bind fun _ => settles_pure _
  · exact hf _

theorem settles_go (hs : StageSettles s) (i : Nat) (env : Environment) :
    Settles ((host g).go i s env) :=
  (settles_onWorld _).bind fun _ => settles_perform hs env

/-- Stages that leave no run open leave none open along a trail. -/
theorem unsettled_of_trail {env : Environment} {ss : List (Stage (StateM (Runner ω)))}
    {xs : List Yield} {r r' : Runner ω} (htr : Trail (host g).go env ss xs r r')
    (hs : ∀ s ∈ ss, StageSettles s) : r'.stats.unsettled = r.stats.unsettled := by
  induction htr with
  | start w => rfl
  | @next ss xs w w₁ w₂ s x before ended this ih =>
    have hg := settles_go (g := g) (hs s (by simp)) xs.length
      (env.overlay (Yield.outputs xs)) w₁
    rw [this] at hg
    exact hg.trans (ih fun s hm => hs s (List.mem_append_left _ hm))

/-- **A run that ends in a terminal state leaves no run open**; one that does not leaves itself
open. -/
theorem unsettled_run {ss : List (Stage (StateM (Runner ω)))} (hs : ∀ s ∈ ss, StageSettles s)
    (env : Environment) (r : Runner ω) :
    ((host g).run ss env r).2.stats.unsettled = r.stats.unsettled ↔ (host g).Errs ss env r := by
  obtain ⟨xs, r₁, htr, hf⟩ := (host g).finish_run ss env r
  have hu := unsettled_of_trail htr fun s hm => hs s (List.mem_of_mem_take hm)
  have hb : ((host g).started r).stats.unsettled = r.stats.unsettled + 1 := by
    simp only [PipelineHost.started, host, PipelineStats.unsettled]
    omega
  have hr : r₁.stats.unsettled = r.stats.unsettled + 1 := hu.trans hb
  rw [PipelineHost.errs_iff_of_finish htr hf (List.length_map _)]
  generalize (host g).run ss env r = out at hf ⊢
  cases hf with
  | completed all ended =>
    refine iff_of_true ?_ fun t hm => by cases ended _ hm
    simp only [PipelineHost.completed, host, PipelineStats.unsettled] at hr ⊢
    omega
  | @failed ys name t at_ ended standard =>
    refine iff_of_true ?_ ((PipelineHost.forall_error_concat ended t).2 standard)
    simp only [PipelineHost.failed, host, onWorld, PipelineStats.unsettled] at hr ⊢
    omega
  | @escaped ys t ended object =>
    rw [PipelineHost.forall_error_concat ended, object]
    refine iff_of_false ?_ Bool.false_ne_true
    rw [hr]
    omega

/-! ## Sequences of runs -/

/-- The runner after a run. -/
def after (g : PipelineHost (StateM ω)) (c : PipelineCall (Runner ω)) (r : Runner ω) : Runner ω :=
  ((host g).run c.stages c.env r).2

/-- All runs of a sequence end in a terminal state, and after each of them every run that was
started is counted as completed or as failed. -/
def EndAll (g : PipelineHost (StateM ω)) : List (PipelineCall (Runner ω)) → Runner ω → Prop
  | [], _ => True
  | c :: cs, r =>
    (host g).Ends c.stages c.env r ∧
      (after g c r).stats.runs = (after g c r).stats.completed + (after g c r).stats.failed ∧
      EndAll g cs (after g c r)

/-- All stages that are started in a sequence of runs throw errors only, no objects without a
text. -/
def ErrAll (g : PipelineHost (StateM ω)) : List (PipelineCall (Runner ω)) → Runner ω → Prop
  | [], _ => True
  | c :: cs, r => (host g).Errs c.stages c.env r ∧ ErrAll g cs (after g c r)

theorem unsettled_eq_zero_iff (st : PipelineStats) :
    st.unsettled = 0 ↔ st.runs = st.completed + st.failed := by
  rw [PipelineStats.unsettled]
  omega

theorem endAll_iff_of_settled {cs : List (PipelineCall (Runner ω))}
    (hs : ∀ c ∈ cs, ∀ s ∈ c.stages, StageSettles s) {r : Runner ω} (hr : r.stats.unsettled = 0) :
    EndAll g cs r ↔ ErrAll g cs r := by
  induction cs generalizing r with
  | nil => exact Iff.rfl
  | cons c cs ih =>
    have hu := unsettled_run (g := g) (hs c List.mem_cons_self) c.env r
    rw [EndAll, ErrAll, PipelineHost.ends_iff, ← unsettled_eq_zero_iff]
    refine and_congr_right fun he => ?_
    have h0 : (after g c r).stats.unsettled = 0 := (hu.2 he).trans hr
    rw [ih (fun c hm => hs c (List.mem_cons_of_mem _ hm)) h0]
    exact and_iff_right h0

/-- **All runs of a runner end in a terminal state, with counters that add up, exactly when the
stages that are started throw errors only**, no objects without a text. -/
theorem endAll_iff (g : PipelineHost (StateM ω)) (world : ω) {cs : List (PipelineCall (Runner ω))}
    (hs : ∀ c ∈ cs, ∀ s ∈ c.stages, StageSettles s) :
    EndAll g cs ⟨{ }, world⟩ ↔ ErrAll g cs ⟨{ }, world⟩ :=
  endAll_iff_of_settled hs rfl

/-- A stage that throws an object without a text. -/
def hurl : Stage (StateM (Runner (Desk Unit))) :=
  .block "hurl" (fun _ => pure (.error .object)) "" []

/-- A run of a stage that throws an object without a text does not end in a terminal state. -/
theorem not_endAll_of_hurl :
    ¬ EndAll (Desk.host true) [⟨[hurl], ∅⟩]
      ⟨{ }, ⟨.new .unbounded fun _ => 1, fun _ => 0, ()⟩⟩ := by
  rw [endAll_iff]
  · rintro ⟨he, -⟩
    have ht := he [.error .object] _
      (.next (.start _) (by simp) rfl) .object (List.mem_singleton_self _)
    cases ht
  · intro c hc s hs
    cases List.mem_singleton.1 hc
    cases List.mem_singleton.1 hs
    exact ⟨fun _ => settles_pure _, fun _ => settles_pure _⟩

end Runner

end MemoFlow
