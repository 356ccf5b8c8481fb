import MemoFlow.Proofs.Cache.Recall
import MemoFlow.Proofs.Pipeline.Desk

/-!
# One stage on a desk

* `Desk.act_onDesk`, `Desk.key_onDesk`: a body acts on the world alone;
* `Desk.execute_apply`, `Desk.keptIn`: a body that is run, and the cache after it;
* **`Desk.perform_of_plain`**, `Desk.perform_of_hit`, `Desk.perform_of_miss`: a stage that is not to
  be reused, a kept result that takes the place of the body, and a body that is run because there
  is none;
* **`Desk.holds_perform`**, `Desk.holds_outcomes`: what stages bring into the cache.
-/

namespace MemoFlow

variable {ω : Type}

namespace Desk

variable {s : Stage (StateM ω)} {env : Environment} {d : Desk ω}

theorem act_onDesk (s : Stage (StateM ω)) (env : Environment) :
    s.onDesk.act env = onWorld (s.act env) := by
  rw [Stage.act, Stage.act, Stage.onDesk]
  cases s.body <;> rfl

theorem key_onDesk (s : Stage (StateM ω)) (env : Environment) :
    s.onDesk.key env = onWorld (s.key env) := by
  rw [Stage.key, Stage.key, Stage.onDesk]
  cases s.identity <;> rfl

theorem isReusable_onDesk (s : Stage (StateM ω)) : s.onDesk.isReusable = s.isReusable := by
  rw [Stage.isReusable, Stage.isReusable, Stage.onDesk, Option.isSome_map]

/-- The cache after a stage was run, when its result can be kept. -/
def keptIn (c : Cache Computation) (now : Int64) (k : Fingerprint) :
    Except Thrown Computation → Cache Computation
  | .ok r => if k.cacheable then (c.put now k r none none).value.2 else c
  | .error _ => c

/-- The result of a stage that was run. -/
def unmarked (x : Except Thrown Computation) : Except Thrown (Computation × Bool) :=
  x.map fun c => (c, false)

theorem map_fst_unmarked (x : Except Thrown Computation) : (unmarked x).map Prod.fst = x := by
  cases x <;> rfl

theorem execute_eq {m : Type → Type} [Monad m] [LawfulMonad m] (h : PipelineHost m) (s : Stage m)
    (env : Environment) (k : Fingerprint) :
    h.execute s env k = do
      match ← s.act env.clearWrites with
      | .error t => return .error t
      | .ok (v, scratch) =>
        h.count fun st => { st with executed := st.executed + 1 }
        if h.memoize && k.cacheable then h.keep k ⟨scratch.outputsSince env, v⟩
        return .ok ⟨scratch.outputsSince env, v⟩ := by
  rw [PipelineHost.execute, Stage.act]
  cases s.body with
  | none => rw [pure_bind]
  | some body => rfl

theorem execute_apply (a : Bool) (s : Stage (StateM ω)) (env : Environment) (k : Fingerprint)
    (d : Desk ω) :
    ((host a).execute s.onDesk env k d).1 = (s.fresh env d.world).1 ∧
      ((host a).execute s.onDesk env k d).2.world = (s.fresh env d.world).2 ∧
      ((host a).execute s.onDesk env k d).2.cache =
        if a then keptIn d.cache (d.clock 0) k (s.fresh env d.world).1 else d.cache := by
  rw [execute_eq, act_onDesk]
  rcases hx : s.act env.clearWrites d.world with ⟨t | ⟨v, scratch⟩, w⟩
  · have hd : onWorld (s.act env.clearWrites) d = (.error t, { d with world := w }) := by
      simp only [onWorld, hx]
    have hf : s.fresh env d.world = (.error t, w) := by
      rw [Stage.fresh, bind_of_eq hx]
      rfl
    rw [bind_of_eq hd, hf]
    exact ⟨rfl, rfl, by cases a <;> rfl⟩
  · have hd : onWorld (s.act env.clearWrites) d = (.ok (v, scratch), { d with world := w }) := by
      simp only [onWorld, hx]
    have hf : s.fresh env d.world = (.ok ⟨scratch.outputsSince env, v⟩, w) := by
      rw [Stage.fresh, bind_of_eq hx]
      rfl
    rw [bind_of_eq hd, hf]
    simp only [count_bind, keptIn]
    cases a <;> cases k.cacheable <;> exact ⟨rfl, rfl, rfl⟩

theorem perform_eq_error {a : Bool} {t : Thrown}
    (h : ((host a).perform s.onDesk env d).1.map Prod.fst = .error t) :
    (host a).perform s.onDesk env d = (.error t, ((host a).perform s.onDesk env d).2) := by
  rcases hp : (host a).perform s.onDesk env d with ⟨t' | c, d₁⟩
  · rw [hp] at h
    obtain rfl : t' = t := Except.error.inj h
    rfl
  · rw [hp] at h
    cases h

theorem perform_eq_ok {a : Bool} {c : Computation}
    (h : ((host a).perform s.onDesk env d).1.map Prod.fst = .ok c) :
    ∃ b, (host a).perform s.onDesk env d = (.ok (c, b), ((host a).perform s.onDesk env d).2) := by
  rcases hp : (host a).perform s.onDesk env d with ⟨t | ⟨c', b⟩, d₁⟩
  · rw [hp] at h
    cases h
  · rw [hp] at h
    obtain rfl : c' = c := Except.ok.inj h
    exact ⟨b, rfl⟩

/-- A stage that is not to be reused is run. -/
theorem perform_of_plain {a : Bool} (env : Environment) (d : Desk ω)
    (h : (a && s.isReusable) = false) :
    ((host a).perform s.onDesk env d).1 = unmarked (s.fresh env d.world).1 ∧
      ((host a).perform s.onDesk env d).2.world = (s.fresh env d.world).2 ∧
      ((host a).perform s.onDesk env d).2.cache = d.cache := by
  have hm : ((host a : PipelineHost (StateM (Desk ω))).memoize && s.onDesk.isReusable) = false := by
    rw [isReusable_onDesk]
    exact h
  obtain ⟨h1, h2, h3⟩ := execute_apply a s env .uncacheable d
  rw [PipelineHost.perform, hm]
  refine ⟨congrArg unmarked h1, h2, h3.trans ?_⟩
  cases a <;> cases (s.fresh env d.world).1 <;> rfl

/-- The desk after a look-up in the cache. -/
def looked (d : Desk ω) (k : Fingerprint) : Desk ω :=
  { d with
    cache := (d.cache.get (d.clock 0) k).value.2
    clock := fun n => d.clock (n + 1) }

section Keyed

variable {k : Fingerprint} (hs : s.isReusable = true) (hk : s.key env = pure (.ok k))

include hs hk

/-- A kept result takes the place of the body. -/
theorem perform_of_hit {c : Computation} (h : (d.cache.get (d.clock 0) k).value.1 = some c) :
    (host true).perform s.onDesk env d = (.ok (c, true), d.looked k) := by
  have hx : (onWorld (s.key env)) d = (.ok k, d) := by rw [hk]; rfl
  have hy : (host true).kept? k d = (some c, d.looked k) := by
    rw [← h]
    rfl
  rw [PipelineHost.perform, isReusable_onDesk, hs, key_onDesk]
  exact (bind_of_eq hx).trans (bind_of_eq hy)

/-- Where nothing is kept, the body is run. -/
theorem perform_of_miss (h : (d.cache.get (d.clock 0) k).value.1 = none) :
    ((host true).perform s.onDesk env d).1 = unmarked (s.fresh env d.world).1 ∧
      ((host true).perform s.onDesk env d).2.world = (s.fresh env d.world).2 ∧
      ((host true).perform s.onDesk env d).2.cache =
        keptIn (d.looked k).cache (d.clock 1) k (s.fresh env d.world).1 := by
  have hx : (onWorld (s.key env)) d = (.ok k, d) := by rw [hk]; rfl
  have hy : (host true).kept? k d = (none, d.looked k) := by
    rw [← h]
    rfl
  obtain ⟨h1, h2, h3⟩ := execute_apply true s env k (d.looked k)
  have hp : (host true).perform s.onDesk env d =
      (unmarked ((host true).execute s.onDesk env k (d.looked k)).1,
        ((host true).execute s.onDesk env k (d.looked k)).2) := by
    rw [PipelineHost.perform, isReusable_onDesk, hs, key_onDesk]
    exact (bind_of_eq hx).trans (bind_of_eq hy)
  rw [hp]
  exact ⟨congrArg unmarked h1, h2, h3⟩

end Keyed

/-! ## The slots of the cache -/

section Slots

variable {o : CacheOptions} {g : Computation → UInt64} {l : List (Slot Computation)}

theorem holds_keptIn {c : Cache Computation} (h : c.Holds o g l)
    (now : Int64) (k : Fingerprint) (x : Except Thrown Computation) :
    ∃ l', (keptIn c now k x).Holds o g l' ∧
      ∀ p ∈ l', p ∈ l ∨ k.cacheable = true ∧ p.1 = k ∧ x = .ok p.2.value := by
  cases x with
  | error t => exact ⟨l, h, fun p hp => .inl hp⟩
  | ok r =>
    rw [keptIn]
    split
    · obtain ⟨l', hl', hp⟩ := h.put now k r none none
      refine ⟨l', hl', fun p hm => (hp p hm).imp_right fun hk => ⟨hk.1, hk.2.1, ?_⟩⟩
      rw [hk.2.2]
    · exact ⟨l, h, fun p hp => .inl hp⟩

/-- **A stage brings in nothing but its records**, each under the identity of its request. -/
theorem holds_perform {a : Bool} (h : d.cache.Holds o g l)
    (hs : s.isReusable → ∃ r, s.Asks env r) :
    ∃ l', ((host a).perform s.onDesk env d).2.cache.Holds o g l' ∧
      ∀ p ∈ l', p ∈ l ∨ ∃ q, s.Asks env (some q) ∧ q.key = p.1 := by
  cases hp : a && s.isReusable with
  | false =>
    rw [(perform_of_plain env d hp).2.2]
    exact ⟨l, h, fun p hm => .inl hm⟩
  | true =>
    obtain ⟨rfl, hr⟩ := Bool.and_eq_true_iff.1 hp
    obtain ⟨r, hq⟩ := hs hr
    obtain ⟨k, hk, hc, hkey⟩ := Stage.key_of_asks hq
    obtain ⟨l', hl', hsub, -⟩ := h.get (d.clock 0) k
    cases hg : (d.cache.get (d.clock 0) k).value.1 with
    | some c =>
      rw [perform_of_hit hr hk hg]
      exact ⟨l', hl', fun p hm => .inl (hsub p hm)⟩
    | none =>
      rw [(perform_of_miss hr hk hg).2.2]
      obtain ⟨l₂, hl₂, hp₂⟩ := holds_keptIn hl' (d.clock 1) k (s.fresh env d.world).1
      refine ⟨l₂, hl₂, fun p hm => (hp₂ p hm).imp (hsub p) ?_⟩
      rintro ⟨hkc, rfl, -⟩
      obtain ⟨q, rfl⟩ := Option.isSome_iff_exists.1 (hc.symm.trans hkc)
      exact ⟨q, hq, hkey q rfl⟩

/-- Stages bring in nothing but their records. -/
theorem holds_outcomes {a : Bool} {ss : List (Stage (StateM ω))} (env : Environment)
    (h : d.cache.Holds o g l) (hs : ∀ s ∈ ss, s.isReusable → ∀ env, ∃ r, s.Asks env r) :
    ∃ l', ((host a).outcomes (ss.map Stage.onDesk) env d).2.cache.Holds o g l' ∧
      ∀ p ∈ l', p ∈ l ∨ ∃ s ∈ ss, ∃ env q, s.Asks env (some q) ∧ q.key = p.1 := by
  induction ss generalizing env d l with
  | nil => exact ⟨l, h, fun p hm => .inl hm⟩
  | cons s rest ih =>
    obtain ⟨l₁, hl₁, hp₁⟩ := holds_perform (a := a) h fun hr => hs s List.mem_cons_self hr env
    rcases hx : (host a).perform s.onDesk env d with ⟨t | ⟨c, b⟩, d₁⟩ <;> rw [hx] at hl₁
    · rw [List.map_cons, outcomes_of_error hx]
      exact ⟨l₁, hl₁, fun p hm => (hp₁ p hm).imp_right fun hq => ⟨s, List.mem_cons_self, env, hq⟩⟩
    · rw [List.map_cons, outcomes_of_ok hx]
      obtain ⟨l₂, hl₂, hp₂⟩ := ih (env.overlay c.bindings) hl₁ fun s hm =>
        hs s (List.mem_cons_of_mem _ hm)
      refine ⟨l₂, hl₂, fun p hm => ?_⟩
      rcases hp₂ p hm with hm | ⟨s', hm, hq⟩
      · exact (hp₁ p hm).imp_right fun hq => ⟨s, List.mem_cons_self, env, hq⟩
      · exact .inr ⟨s', List.mem_cons_of_mem _ hm, hq⟩

end Slots

end Desk

end MemoFlow
