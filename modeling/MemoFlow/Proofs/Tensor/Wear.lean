import MemoFlow.Proofs.Tensor.Faults

/-!
# Wear of a dispatcher

Faults wear a dispatcher: an engine is left out exactly when it has as many faults as the settings
allow. An operation that is tried takes its result from the cache, or from an engine after some
faults, or fails.

* **`Dispatcher.Weighed`**, `Dispatcher.Wears`: counted faults, and what a fault changes;
* `Dispatcher.wears_search`: a search;
* **`Dispatcher.OpEnds`**, `Dispatcher.serve_ends`, `Dispatcher.op_of_admits`: how operations end;
* `Dispatcher.Sane`, `Dispatcher.OpEnds.sane`: counters that add up;
* `Dispatcher.Later`, `Dispatcher.OpEnds.later`: what never changes back.
-/

namespace MemoFlow

theorem PerEngine.total_modify_add_one (p : PerEngine Nat) (e : Engine) :
    (p.modify e (· + 1)).total = p.total + 1 := by
  cases e <;> simp only [modify, total] <;> omega

theorem Engine.rank_le_of_mem_onward {e k : Engine} (h : k ∈ e.onward) : e.rank ≤ k.rank := by
  cases e <;> cases k <;> simp_all [onward, rank]

/-- The number of faults at which an engine is left out. -/
def TensorConfig.faultLimit (c : TensorConfig) : Nat := max 1 c.maxFaults.toNat

namespace Dispatcher

variable {α : Type} {d d₁ d₂ : Dispatcher α}

/-! ## Faults -/

/-- **The counted faults tell which engines are left out.** -/
structure Weighed (d : Dispatcher α) : Prop where
  faults_le : ∀ e, d.stats.faults.get e ≤ d.config.faultLimit
  degraded_iff : ∀ e, d.degraded.get e = true ↔ d.config.faultLimit ≤ d.stats.faults.get e

/-- **A dispatcher after faults**: nothing else has changed. -/
structure Wears (d d' : Dispatcher α) : Prop where
  same : d' = { d with
    stats := { d.stats with faults := d'.stats.faults }
    degraded := d'.degraded }
  degraded : ∀ e, d.degraded.get e = true → d'.degraded.get e = true
  weighed : d.Weighed → d'.Weighed

namespace Wears

theorem refl (d : Dispatcher α) : d.Wears d := ⟨rfl, fun _ => id, id⟩

theorem trans (h : d.Wears d₁) (h' : d₁.Wears d₂) : d.Wears d₂ where
  same := by rw [h'.same, h.same]
  degraded e := h'.degraded e ∘ h.degraded e
  weighed := h'.weighed ∘ h.weighed

/-- The counters other than faults, and the handles, are what they were. -/
theorem fields (h : d.Wears d₁) :
    d₁.config = d.config ∧ d₁.backends = d.backends ∧ d₁.current = d.current ∧
      d₁.generation = d.generation ∧ d₁.stats.ops = d.stats.ops ∧
      d₁.stats.cacheHits = d.stats.cacheHits ∧ d₁.stats.served = d.stats.served ∧
      d₁.stats.fallbacks = d.stats.fallbacks := by
  rw [h.same]
  exact ⟨rfl, rfl, rfl, rfl, rfl, rfl, rfl, rfl⟩

end Wears

/-- A fault of an engine that is not left out yet. -/
theorem wears_recordFault (o : Op) {e : Engine} (reason : String)
    (he : d.degraded.get e = false) : d.Wears (d.recordFault o e reason).value := by
  have hsame : (d.recordFault o e reason).value = { d with
      stats := { d.stats with faults := d.stats.faults.modify e (· + 1) }
      degraded := (d.recordFault o e reason).value.degraded } := by
    rw [recordFault]
    dsimp only
    split <;> rfl
  have hf : (d.recordFault o e reason).value.stats.faults = d.stats.faults.modify e (· + 1) := by
    rw [hsame]
  have hc : (d.recordFault o e reason).value.config = d.config := by rw [hsame]
  have hd : ∀ k, (d.recordFault o e reason).value.degraded.get k = true ↔
      d.degraded.get k = true ∨
        k = e ∧ d.config.maxFaults.toNat ≤ d.stats.faults.get e + 1 := fun k => by
    rw [recordFault]
    simp only [he, Bool.not_false, Bool.and_true, decide_eq_true_eq]
    split
    · next hl =>
      rw [PerEngine.get_modify]
      by_cases hk : k = e <;> simp [hk, hl, count]
    · next hl => simp [count, hl]
  refine ⟨by rw [hf]; exact hsame, fun k hk => (hd k).2 (.inl hk), fun w => ?_⟩
  -- The engine has fewer faults than the limit, so one more does not pass it.
  have hlt : d.stats.faults.get e < d.config.faultLimit := by
    have := w.degraded_iff e
    rw [he] at this
    simpa using this
  have hreach : d.config.maxFaults.toNat ≤ d.stats.faults.get e + 1 ↔
      d.config.faultLimit ≤ d.stats.faults.get e + 1 := by
    rw [TensorConfig.faultLimit]
    omega
  constructor
  · intro k
    rw [hc, hf, PerEngine.get_modify]
    split
    · exact hlt
    · exact w.faults_le k
  · intro k
    rw [hc, hf, hd, hreach, PerEngine.get_modify]
    by_cases hk : k = e
    · simp [hk, he]
    · simp [hk, w.degraded_iff k]

/-- **A search** changes nothing but faults, and ends at an engine that may be used. -/
theorem wears_search (o : Op) (t : DType) (args : List (Tensor α)) (es : List Engine)
    (s : Search α) :
    s.state.Wears (search o t args es s).value.2.state ∧
      ∀ e out, (search o t args es s).value.1 = .served e out →
        e ∈ es ∧ (s.state.backend e).available = true ∧
          (search o t args es s).value.2.state.degraded.get e = false := by
  induction es generalizing s with
  | nil => exact ⟨.refl _, by rintro _ _ ⟨⟩⟩
  | cons e es ih =>
    rw [search]
    split
    · obtain ⟨hw, hs⟩ := ih s
      exact ⟨hw, fun k out hk => ⟨List.mem_cons_of_mem _ (hs k out hk).1, (hs k out hk).2⟩⟩
    · next f hf =>
      have hu : (s.state.backend e).available = true ∧ s.state.degraded.get e = false := by
        rw [usable?] at hf
        split at hf
        · next h => simpa using h
        · cases hf
      split
      · refine ⟨.refl _, ?_⟩
        rintro k out ⟨⟩
        exact ⟨List.mem_cons_self, hu⟩
      · exact ⟨.refl _, by rintro _ _ ⟨⟩⟩
      · next reason _ =>
        have hr := wears_recordFault o reason hu.2
        obtain ⟨hw, hs⟩ := ih ⟨(s.state.recordFault o e reason).value, s.failed ++ [e], reason⟩
        refine ⟨hr.trans hw, fun k out hk => ?_⟩
        obtain ⟨hm, ha, hd⟩ := hs k out hk
        have hb : (s.state.recordFault o e reason).value.backend k = s.state.backend k := by
          rw [backend, hr.same]
          rfl
        exact ⟨List.mem_cons_of_mem _ hm, hb ▸ ha, hd⟩

theorem logFaults_eq (d : Dispatcher α) (o : Op) (reason : String) (target : Option Engine)
    (failed : List Engine) :
    d.logFaults o reason target failed =
      { d with log := (d.logFaults o reason target failed).log } := by
  induction failed generalizing d with
  | nil => rfl
  | cons e rest ih => exact ih _

theorem recordServed_eq (s : Search α) (o : Op) (e : Engine) :
    ∃ more log, more ≤ 1 ∧ recordServed s o e =
      { s.state with
        log := log
        stats := { s.state.stats with
          served := s.state.stats.served.modify e (· + 1)
          fallbacks := s.state.stats.fallbacks + more } } := by
  have hle : (if s.failed.isEmpty then 0 else 1) ≤ 1 := by split <;> decide
  refine ⟨_, (recordServed s o e).log, hle, ?_⟩
  rw [recordServed, logFaults_eq]
  cases s.failed.isEmpty <;> rfl

/-! ## Operations -/

/-- **How an operation that is tried ends**: whether it gives a result, and the dispatcher after
it. -/
inductive OpEnds (d : Dispatcher α) (h : Handle) : Bool → Dispatcher α → Prop
  /-- The result was kept. -/
  | recalled : OpEnds d h true
      (d.count fun s => { s with ops := s.ops + 1, cacheHits := s.cacheHits + 1 })
  /-- An engine served it. -/
  | served (d₁ : Dispatcher α) (e : Engine) (more : Nat) (log : List Degradation)
      (wears : (d.count fun s => { s with ops := s.ops + 1 }).Wears d₁)
      (mem : e ∈ h.engine.onward) (available : (d.backend e).available = true)
      (fresh : d₁.degraded.get e = false) (le : more ≤ 1) :
      OpEnds d h true
        { d₁ with
          log := log
          stats := { d₁.stats with
            served := d₁.stats.served.modify e (· + 1)
            fallbacks := d₁.stats.fallbacks + more } }
  /-- No engine served it. -/
  | failed (d₁ : Dispatcher α) (log : List Degradation)
      (wears : (d.count fun s => { s with ops := s.ops + 1 }).Wears d₁) :
      OpEnds d h false { d₁ with log := log }

theorem serve_ends (d : Dispatcher α) (key : Op → List (Tensor α) → Fingerprint)
    (cache : Option (Results α)) (now : Int64) (h : Handle) (o : Op) (args : List (Tensor α)) :
    d.OpEnds h (d.serve key cache now h o args).value.1.isOk
      (d.serve key cache now h o args).value.2.1 := by
  rw [serve]
  simp only [Told.value_bind]
  split
  · exact .recalled
  · have hs := wears_search o ((args.head?.map Tensor.dtype).getD .f64) args h.engine.onward
      { state := d.count fun s => { s with ops := s.ops + 1 } }
    simp only [Told.value_bind]
    rcases hr : (search o ((args.head?.map Tensor.dtype).getD .f64) args h.engine.onward
      { state := d.count fun s => { s with ops := s.ops + 1 } }).value with ⟨x, s⟩
    rw [hr] at hs
    obtain ⟨hw, hs⟩ := hs
    cases x with
    | served e out =>
      obtain ⟨hm, ha, hd⟩ := hs e out rfl
      obtain ⟨more, log, hle, hr⟩ := recordServed_eq s o e
      have := OpEnds.served (h := h) s.state e more log hw hm ha hd hle
      rw [← hr] at this
      exact this
    | refused r => exact .failed s.state s.state.log hw
    | unserved =>
      have := OpEnds.failed (h := h) s.state (s.state.logFaults o s.reason none s.failed).log hw
      rw [← logFaults_eq] at this
      exact this

/-! ## What holds in every state -/

/-- **A dispatcher is in order** after so many operations that were tried and raised: its counters
add up, its faults tell which engines are left out, and no handle is newer than the last one. -/
structure Sane (d : Dispatcher α) (raised : Nat) : Prop extends d.Weighed where
  ops_eq : d.stats.ops = d.stats.cacheHits + d.stats.served.total + raised
  fallbacks_le : d.stats.fallbacks ≤ d.stats.served.total
  generation_le : ∀ h, d.current = some h → h.generation ≤ d.generation

theorem sane_new (config : TensorConfig) (found : PerEngine (Backend α)) :
    (new config found).value.Sane 0 where
  faults_le e := by cases e <;> exact Nat.zero_le _
  degraded_iff e := by
    have : 0 < config.faultLimit := Nat.lt_of_lt_of_le Nat.zero_lt_one (Nat.le_max_left ..)
    cases e <;> exact iff_of_false Bool.false_ne_true (Nat.not_le.2 this)
  ops_eq := rfl
  fallbacks_le := Nat.le_refl 0
  generation_le _ h := by cases h

theorem OpEnds.sane {h : Handle} {ok : Bool} {n : Nat} (hd : d.Sane n) (he : d.OpEnds h ok d₂) :
    d₂.Sane (n + (!ok).toNat) := by
  have hw : Weighed (d.count fun s => { s with ops := s.ops + 1 }) :=
    ⟨hd.faults_le, hd.degraded_iff⟩
  cases he with
  | recalled =>
    refine ⟨⟨hd.faults_le, hd.degraded_iff⟩, ?_, hd.fallbacks_le, hd.generation_le⟩
    change d.stats.ops + 1 = d.stats.cacheHits + 1 + d.stats.served.total + (n + 0)
    have := hd.ops_eq
    omega
  | served d₁ e more log wears _ _ _ le =>
    obtain ⟨-, -, hcur, hgen, hops, hhits, hserved, hback⟩ := wears.fields
    obtain ⟨hf, hdeg⟩ := wears.weighed hw
    refine ⟨⟨hf, hdeg⟩, ?_, ?_, ?_⟩
    · change d₁.stats.ops =
        d₁.stats.cacheHits + (d₁.stats.served.modify e (· + 1)).total + (n + 0)
      rw [hops, hhits, hserved, PerEngine.total_modify_add_one]
      change d.stats.ops + 1 = d.stats.cacheHits + (d.stats.served.total + 1) + (n + 0)
      have := hd.ops_eq
      omega
    · change d₁.stats.fallbacks + more ≤ (d₁.stats.served.modify e (· + 1)).total
      rw [hback, hserved, PerEngine.total_modify_add_one]
      exact Nat.add_le_add hd.fallbacks_le le
    · change ∀ k, d₁.current = some k → k.generation ≤ d₁.generation
      rw [hcur, hgen]
      exact hd.generation_le
  | failed d₁ log wears =>
    obtain ⟨-, -, hcur, hgen, hops, hhits, hserved, hback⟩ := wears.fields
    obtain ⟨hf, hdeg⟩ := wears.weighed hw
    refine ⟨⟨hf, hdeg⟩, ?_, ?_, ?_⟩
    · change d₁.stats.ops = d₁.stats.cacheHits + d₁.stats.served.total + (n + 1)
      rw [hops, hhits, hserved]
      change d.stats.ops + 1 = d.stats.cacheHits + d.stats.served.total + (n + 1)
      have := hd.ops_eq
      omega
    · change d₁.stats.fallbacks ≤ d₁.stats.served.total
      rw [hback, hserved]
      exact hd.fallbacks_le
    · change ∀ k, d₁.current = some k → k.generation ≤ d₁.generation
      rw [hcur, hgen]
      exact hd.generation_le

/-! ## What never changes back -/

/-- **A later state of a dispatcher**: engines that are left out stay so, and they serve nothing,
like engines that cannot be used. -/
structure Later (d d' : Dispatcher α) : Prop where
  config : d'.config = d.config
  backends : d'.backends = d.backends
  degraded : ∀ e, d.degraded.get e = true → d'.degraded.get e = true
  served : ∀ e, d.degraded.get e = true ∨ (d.backend e).available = false →
    d'.stats.served.get e = d.stats.served.get e

namespace Later

theorem refl (d : Dispatcher α) : d.Later d := ⟨rfl, rfl, fun _ => id, fun _ _ => rfl⟩

theorem trans (h : d.Later d₁) (h' : d₁.Later d₂) : d.Later d₂ where
  config := h'.config.trans h.config
  backends := h'.backends.trans h.backends
  degraded e := h'.degraded e ∘ h.degraded e
  served e he := by
    refine (h'.served e ?_).trans (h.served e he)
    rw [backend, h.backends]
    exact he.imp (h.degraded e) id

end Later

theorem OpEnds.later {h : Handle} {ok : Bool} (he : d.OpEnds h ok d₂) : d.Later d₂ := by
  cases he with
  | recalled => exact ⟨rfl, rfl, fun _ => id, fun _ _ => rfl⟩
  | served d₁ e more log wears _ available fresh _ =>
    obtain ⟨hc, hb, -, -, -, -, hserved, -⟩ := wears.fields
    refine ⟨hc, hb, wears.degraded, fun k hk => ?_⟩
    -- The engine that serves is neither left out nor out of use.
    have hne : k ≠ e := by
      rintro rfl
      rcases hk with hk | hk
      · have := wears.degraded k hk
        rw [fresh] at this
        cases this
      · rw [available] at hk
        cases hk
    change (d₁.stats.served.modify e (· + 1)).get k = _
    rw [PerEngine.get_modify, if_neg hne, hserved]
    rfl
  | failed d₁ log wears =>
    obtain ⟨hc, hb, -, -, -, -, hserved, -⟩ := wears.fields
    refine ⟨hc, hb, wears.degraded, fun k _ => ?_⟩
    change d₁.stats.served.get k = _
    rw [hserved]
    rfl

/-- No operation changes the handles. -/
theorem OpEnds.handles {h : Handle} {ok : Bool} (he : d.OpEnds h ok d₂) :
    d₂.current = d.current ∧ d₂.generation = d.generation := by
  cases he with
  | recalled => exact ⟨rfl, rfl⟩
  | served d₁ _ _ _ wears _ _ _ _ =>
    obtain ⟨-, -, hcur, hgen, -⟩ := wears.fields
    exact ⟨hcur, hgen⟩
  | failed d₁ _ wears =>
    obtain ⟨-, -, hcur, hgen, -⟩ := wears.fields
    exact ⟨hcur, hgen⟩

/-- Engines before that of the handle serve nothing. -/
theorem OpEnds.served_of_rank_lt {h : Handle} {ok : Bool} (he : d.OpEnds h ok d₂) {e : Engine}
    (hr : e.rank < h.engine.rank) : d₂.stats.served.get e = d.stats.served.get e := by
  cases he with
  | recalled => rfl
  | served d₁ k more log wears mem _ _ _ =>
    obtain ⟨-, -, -, -, -, -, hserved, -⟩ := wears.fields
    have hne : e ≠ k := by
      rintro rfl
      exact Nat.not_lt.2 (Engine.rank_le_of_mem_onward mem) hr
    change (d₁.stats.served.modify k (· + 1)).get e = _
    rw [PerEngine.get_modify, if_neg hne, hserved]
    rfl
  | failed d₁ log wears =>
    obtain ⟨-, -, -, -, -, -, hserved, -⟩ := wears.fields
    change d₁.stats.served.get e = _
    rw [hserved]
    rfl

theorem select_of_current {h : Handle} (hc : d.current = some h) :
    d.select.value = (.ok h, d) := by
  rw [select, hc]

/-! ## Operations that are tried -/

variable [Arith α] [Scalar α]

/-- Whether an operation is tried: its name and operands are accepted and the engine of the handle
can be used. -/
def admits (d : Dispatcher α) (h : Handle) (name : String) (args : List (Tensor α)) : Bool :=
  match Op.ofName? name with
  | none => false
  | some o => (o.check args h.engine).isOk && (d.backend h.engine).available

theorem op_of_admits {h : Handle} {name : String} {args : List (Tensor α)}
    (key : Op → List (Tensor α) → Fingerprint) (cache : Option (Results α)) (now : Int64)
    (ha : d.admits h name args = true) :
    d.OpEnds h (d.op key cache now h name args).value.1.isOk
      (d.op key cache now h name args).value.2.1 := by
  rw [admits] at ha
  rw [op]
  cases ho : Op.ofName? name with
  | none =>
    rw [ho] at ha
    cases ha
  | some o =>
    rw [ho] at ha
    dsimp only at ha ⊢
    rw [Bool.and_eq_true] at ha
    rcases hc : o.check args h.engine with r | u
    · rw [hc] at ha
      exact absurd ha.1 (by simp [Except.isOk, Except.toBool])
    · simp only [ha.2, if_true]
      exact serve_ends d key cache now h o args

theorem op_of_not_admits {h : Handle} {name : String} {args : List (Tensor α)}
    (key : Op → List (Tensor α) → Fingerprint) (cache : Option (Results α)) (now : Int64)
    (ha : d.admits h name args = false) : (d.op key cache now h name args).value.2.1 = d := by
  rw [admits] at ha
  rw [op]
  cases ho : Op.ofName? name with
  | none => rfl
  | some o =>
    rw [ho] at ha
    dsimp only at ha ⊢
    rcases hc : o.check args h.engine with r | u
    · rfl
    · rw [hc] at ha
      have hn : (d.backend h.engine).available = false := by
        simpa [Except.isOk, Except.toBool] using ha
      simp [hn]

end Dispatcher

end MemoFlow
