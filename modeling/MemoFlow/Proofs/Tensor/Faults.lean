import MemoFlow.Tensor.Dispatch

/-!
# The log of faults

A fault is counted when an engine fails, and written to the log when the operation ends. A call
that is refused in the end by an engine after one that failed leaves its faults out of the log; all
others are in it.

* `Dispatcher.Call`, `Call.run`, `Dispatcher.afterAll`: the calls of a dispatcher;
* **`Dispatcher.Grows`**: what a step adds to the counters of faults and to the log;
* `Dispatcher.grows_search`, `Call.grows`: the steps of a call, and one call;
* `Dispatcher.Quiet`, `Dispatcher.grows_afterAll`: calls one after the other;
* **`Dispatcher.accounts_iff`**: when the log accounts for every fault.
-/

namespace MemoFlow

/-- The sum over all engines. -/
def PerEngine.total (p : PerEngine Nat) : Nat := p.blas + p.eigen + p.native

theorem Engine.count_add (es : List Engine) :
    es.count .blas + es.count .eigen + es.count .native = es.length := by
  induction es with
  | nil => rfl
  | cons e es ih =>
    rw [List.length_cons, ← ih]
    cases e <;> simp <;> omega

theorem PerEngine.total_of_count {p : PerEngine Nat} {es : List Engine}
    (h : ∀ e, p.get e = es.count e) : p.total = es.length := by
  have hb : p.blas = es.count .blas := h .blas
  have he : p.eigen = es.count .eigen := h .eigen
  have hn : p.native = es.count .native := h .native
  rw [total, hb, he, hn, Engine.count_add]

/-- What belongs to each engine determines the whole. -/
theorem PerEngine.ext_get {β : Type} {p q : PerEngine β} (h : ∀ e, p.get e = q.get e) : p = q := by
  obtain ⟨b, e, n⟩ := p
  obtain ⟨b', e', n'⟩ := q
  obtain rfl : b = b' := h .blas
  obtain rfl : e = e' := h .eigen
  obtain rfl : n = n' := h .native
  rfl

namespace Dispatcher

variable {α : Type}

/-! ## What a step adds -/

/-- **A step grows a dispatcher**: it counts a fault of each of the engines `failed`, and writes one
entry for each of the engines `logged`, with numbers that go on from the last one. -/
structure Grows (d d' : Dispatcher α) (failed logged : List Engine) : Prop where
  faults : ∀ e, d'.stats.faults.get e = d.stats.faults.get e + failed.count e
  sources : d'.log.map Degradation.source = d.log.map Degradation.source ++ logged
  sequences : d'.log.map Degradation.sequence =
    d.log.map Degradation.sequence ++ List.range' (d.log.length + 1) logged.length

/-- **The log accounts for all faults**: it has as many entries as faults were counted, in all and
for each engine. -/
structure Accounts (d : Dispatcher α) : Prop where
  total : d.log.length = d.stats.faults.total
  each : ∀ e, (d.log.map Degradation.source).count e = d.stats.faults.get e

namespace Grows

variable {d d₁ d₂ : Dispatcher α} {fs fs' ls ls' : List Engine}

theorem of_eq (hf : d₁.stats.faults = d.stats.faults) (hl : d₁.log = d.log) : d.Grows d₁ [] [] :=
  ⟨fun e => by rw [hf]; rfl, by rw [hl, List.append_nil], by rw [hl]; simp⟩

theorem refl (d : Dispatcher α) : d.Grows d [] [] := of_eq rfl rfl

theorem length (h : d.Grows d₁ fs ls) : d₁.log.length = d.log.length + ls.length := by
  simpa using congrArg List.length h.sources

theorem trans (h : d.Grows d₁ fs ls) (h' : d₁.Grows d₂ fs' ls') :
    d.Grows d₂ (fs ++ fs') (ls ++ ls') where
  faults e := by rw [h'.faults, h.faults, List.count_append, Nat.add_assoc]
  sources := by rw [h'.sources, h.sources, List.append_assoc]
  sequences := by
    rw [h'.sequences, h.sequences, h.length, List.append_assoc, List.length_append]
    congr 1
    rw [show d.log.length + ls.length + 1 = d.log.length + 1 + 1 * ls.length by omega,
      List.range'_append]

theorem faults_eq_iff (h : d.Grows d₁ fs ls) : d₁.stats.faults = d.stats.faults ↔ fs = [] := by
  constructor
  · intro he
    refine List.eq_nil_iff_forall_not_mem.2 fun e => List.count_eq_zero.1 ?_
    have := h.faults e
    rw [he] at this
    omega
  · rintro rfl
    exact PerEngine.ext_get fun e => (h.faults e).trans (Nat.add_zero _)

/-- What a dispatcher grew by since it was new. -/
theorem of_new {config : TensorConfig} {found : PerEngine (Backend α)}
    (h : (new config found).value.Grows d fs ls) :
    d.log.map Degradation.sequence = List.range' 1 d.log.length ∧
      (ls.Sublist fs → (d.Accounts ↔ ls = fs)) := by
  have hl : d.log.length = ls.length := h.length.trans (Nat.zero_add _)
  have hf : ∀ e, d.stats.faults.get e = fs.count e := fun e =>
    (h.faults e).trans (by cases e <;> exact Nat.zero_add _)
  have ht : d.stats.faults.total = fs.length := PerEngine.total_of_count hf
  have hs : d.log.map Degradation.source = ls := h.sources
  refine ⟨by rw [hl]; exact h.sequences, fun hsub => ⟨fun ha => ?_, ?_⟩⟩
  · exact hsub.eq_of_length (hl.symm.trans (ha.total.trans ht))
  · rintro rfl
    exact ⟨hl.trans ht.symm, fun e => by rw [hs, hf]⟩

end Grows

theorem grows_recordFault (d : Dispatcher α) (o : Op) (e : Engine) (reason : String) :
    d.Grows (d.recordFault o e reason).value [e] [] := by
  have hs : (d.recordFault o e reason).value.stats.faults = d.stats.faults.modify e (· + 1) := by
    rw [recordFault]
    dsimp only
    split <;> rfl
  have hl : (d.recordFault o e reason).value.log = d.log := by
    rw [recordFault]
    dsimp only
    split <;> rfl
  refine ⟨fun k => ?_, by rw [hl, List.append_nil], by rw [hl]; simp⟩
  rw [hs, PerEngine.get_modify, List.count_singleton]
  by_cases hk : k = e
  · rw [if_pos hk, if_pos (by simp [hk]), hk]
  · rw [if_neg hk, if_neg (by simpa using Ne.symm hk), Nat.add_zero]

theorem grows_logFaults (d : Dispatcher α) (o : Op) (reason : String) (target : Option Engine)
    (failed : List Engine) : d.Grows (d.logFaults o reason target failed) [] failed := by
  induction failed generalizing d with
  | nil => exact .refl d
  | cons e rest ih =>
    have h : d.Grows (d.logFaults o reason target [e]) [] [e] :=
      ⟨fun k => rfl, by simp [logFaults], by simp [logFaults]⟩
    exact h.trans (ih _)

theorem grows_recordServed (s : Search α) (o : Op) (e : Engine) :
    s.state.Grows (recordServed s o e) [] s.failed := by
  have hc : s.state.Grows (s.state.count fun st =>
      { st with
        served := st.served.modify e (· + 1)
        fallbacks := if s.failed.isEmpty then st.fallbacks else st.fallbacks + 1 }) [] [] :=
    .of_eq rfl rfl
  rw [recordServed]
  exact hc.trans (grows_logFaults _ o s.reason (some e) s.failed)

/-- **A search** counts a fault of every engine that fails, and writes nothing to the log. -/
theorem grows_search (o : Op) (t : DType) (args : List (Tensor α)) (es : List Engine)
    (s : Search α) :
    ∃ x s' more, (search o t args es s).value = (x, s') ∧ s'.failed = s.failed ++ more ∧
      s.state.Grows s'.state more [] := by
  induction es generalizing s with
  | nil => exact ⟨_, s, [], rfl, (List.append_nil _).symm, .refl _⟩
  | cons e es ih =>
    rw [search]
    split
    · exact ih s
    · split
      · exact ⟨_, s, [], rfl, (List.append_nil _).symm, .refl _⟩
      · exact ⟨_, s, [], rfl, (List.append_nil _).symm, .refl _⟩
      · next reason _ =>
        obtain ⟨x, s', more, hx, hm, hg⟩ :=
          ih ⟨(s.state.recordFault o e reason).value, s.failed ++ [e], reason⟩
        refine ⟨x, s', e :: more, hx, ?_, (grows_recordFault s.state o e reason).trans hg⟩
        rw [hm, List.append_assoc]
        rfl

/-- A request was refused because of its operands. -/
def isRefused {β : Type} : Except DispatchError β → Bool
  | .error (.operands _) => true
  | _ => false

/-- What a call that ends in some way writes to the log of the engines that failed. -/
def logged {β : Type} (x : Except DispatchError β) (failed : List Engine) : List Engine :=
  if isRefused x then [] else failed

theorem logged_sublist {β : Type} (x : Except DispatchError β) (failed : List Engine) :
    (logged x failed).Sublist failed := by
  rw [logged]
  split
  · exact List.nil_sublist _
  · exact .refl _

theorem logged_eq_iff {β : Type} (x : Except DispatchError β) (failed : List Engine) :
    logged x failed = failed ↔ (isRefused x → failed = []) := by
  rw [logged]
  cases isRefused x <;> simp [eq_comm]

/-- **An operation on checked operands** writes every fault that it counts to the log, unless it is
refused. -/
theorem grows_serve (d : Dispatcher α) (key : Op → List (Tensor α) → Fingerprint)
    (cache : Option (Results α)) (now : Int64) (h : Handle) (o : Op) (args : List (Tensor α)) :
    ∃ failed, d.Grows (d.serve key cache now h o args).value.2.1 failed
      (logged (d.serve key cache now h o args).value.1 failed) := by
  rw [serve]
  simp only [Told.value_bind]
  split
  · exact ⟨[], .of_eq rfl rfl⟩
  · obtain ⟨x, s, more, hx, hm, hg⟩ := grows_search o ((args.head?.map Tensor.dtype).getD .f64) args
      h.engine.onward { state := d.count fun s => { s with ops := s.ops + 1 } }
    have hc : d.Grows (d.count fun s => { s with ops := s.ops + 1 }) [] [] := .of_eq rfl rfl
    have hg : d.Grows s.state more [] := hc.trans hg
    obtain rfl : more = s.failed := hm.symm
    refine ⟨s.failed, ?_⟩
    simp only [Told.value_bind, hx]
    cases x with
    | served e out =>
      have hr := hg.trans (grows_recordServed s o e)
      rw [List.append_nil, List.nil_append] at hr
      exact hr
    -- The engines that failed before are counted, and no entry is written for them.
    | refused r => exact hg
    | unserved =>
      have hr := hg.trans (grows_logFaults s.state o s.reason none s.failed)
      rw [List.append_nil, List.nil_append] at hr
      exact hr

theorem grows_select (d : Dispatcher α) : d.Grows d.select.value.2 [] [] := by
  rw [select]
  split
  · exact .refl d
  · split
    · exact .refl d
    · exact .of_eq rfl rfl

theorem grows_migrate (d : Dispatcher α) (h : Handle) (target : Engine) :
    d.Grows (d.migrate h target).value.2 [] [] := by
  rw [migrate]
  split
  · exact .refl d
  · split
    · exact .refl d
    · exact .of_eq rfl rfl

variable [Arith α] [Scalar α]

/-- **An operation** writes every fault that it counts to the log, unless it is refused. -/
theorem grows_op (d : Dispatcher α) (key : Op → List (Tensor α) → Fingerprint)
    (cache : Option (Results α)) (now : Int64) (h : Handle) (name : String)
    (args : List (Tensor α)) :
    ∃ failed, d.Grows (d.op key cache now h name args).value.2.1 failed
      (logged (d.op key cache now h name args).value.1 failed) := by
  rw [op]
  split
  · exact ⟨[], .refl d⟩
  · split
    · exact ⟨[], .refl d⟩
    · split
      · exact grows_serve ..
      · exact ⟨[], .refl d⟩

/-! ## Calls -/

/-- A call of a dispatcher. -/
inductive Call (α : Type) where
  /-- An operation by name, with the cache of results and the time. -/
  | op (key : Op → List (Tensor α) → Fingerprint) (cache : Option (Results α)) (now : Int64)
    (h : Handle) (name : String) (args : List (Tensor α))
  /-- The selected handle. -/
  | select
  /-- A handle of another engine. -/
  | migrate (h : Handle) (target : Engine)

/-- How a call ends, and the dispatcher after it. -/
def Call.run : Call α → Dispatcher α → Except DispatchError Unit × Dispatcher α
  | .op key cache now h name args, d =>
    let r := (d.op key cache now h name args).value
    (r.1.map fun _ => (), r.2.1)
  | .select, d => (d.select.value.1.map fun _ => (), d.select.value.2)
  | .migrate h target, d =>
    ((d.migrate h target).value.1.map fun _ => (), (d.migrate h target).value.2)

/-- **One call** writes every fault that it counts to the log, unless it is refused. -/
theorem Call.grows (c : Call α) (d : Dispatcher α) :
    ∃ failed, d.Grows (c.run d).2 failed (logged (c.run d).1 failed) := by
  cases c with
  | op key cache now h name args =>
    obtain ⟨failed, hg⟩ := grows_op d key cache now h name args
    refine ⟨failed, ?_⟩
    have hl : logged (Call.run (.op key cache now h name args) d).1 failed =
        logged (d.op key cache now h name args).value.1 failed := by
      change logged ((d.op key cache now h name args).value.1.map fun _ => ()) failed = _
      rcases (d.op key cache now h name args).value.1 with e | out
      · cases e <;> rfl
      · rfl
    rw [hl]
    exact hg
  | select =>
    refine ⟨[], ?_⟩
    rw [logged, ite_self]
    exact grows_select d
  | migrate h target =>
    refine ⟨[], ?_⟩
    rw [logged, ite_self]
    exact grows_migrate d h target

/-- The dispatcher after calls, the first one first. -/
def afterAll (cs : List (Call α)) (d : Dispatcher α) : Dispatcher α :=
  cs.foldl (fun d c => (c.run d).2) d

/-- **No call that is refused counts a fault.** -/
def Quiet : List (Call α) → Dispatcher α → Prop
  | [], _ => True
  | c :: cs, d =>
    (isRefused (c.run d).1 → (c.run d).2.stats.faults = d.stats.faults) ∧ Quiet cs (c.run d).2

theorem Quiet.of_append {cs cs' : List (Call α)} {d : Dispatcher α} (h : Quiet (cs ++ cs') d) :
    Quiet cs d := by
  induction cs generalizing d with
  | nil => trivial
  | cons c cs ih => exact ⟨h.1, ih h.2⟩

/-- **All calls** write every fault that they count to the log, exactly when no call that is refused
counts one. -/
theorem grows_afterAll (cs : List (Call α)) (d : Dispatcher α) :
    ∃ failed logged, d.Grows (afterAll cs d) failed logged ∧ logged.Sublist failed ∧
      (Quiet cs d ↔ logged = failed) := by
  induction cs generalizing d with
  | nil => exact ⟨[], [], .refl d, .refl _, by simp [Quiet]⟩
  | cons c cs ih =>
    obtain ⟨failed, hg⟩ := c.grows d
    obtain ⟨fs, ls, hr, hsub, hq⟩ := ih (c.run d).2
    have hs := logged_sublist (c.run d).1 failed
    refine ⟨failed ++ fs, logged (c.run d).1 failed ++ ls, hg.trans hr, hs.append hsub, ?_⟩
    rw [Quiet, hq, hg.faults_eq_iff, ← logged_eq_iff]
    constructor
    · rintro ⟨h1, h2⟩
      rw [h1, h2]
    · intro h
      have hl := congrArg List.length h
      have h1 := hs.length_le
      have h2 := hsub.length_le
      simp only [List.length_append] at hl
      exact ⟨hs.eq_of_length (by omega), hsub.eq_of_length (by omega)⟩

/-- **The log accounts for all faults after each of some calls exactly when no call that is refused
counts a fault.** Its entries are numbered from one in any case. -/
theorem accounts_iff (config : TensorConfig) (found : PerEngine (Backend α))
    (cs : List (Call α)) :
    (∀ cs', cs' <+: cs →
      (afterAll cs' (new config found).value).log.map Degradation.sequence =
        List.range' 1 (afterAll cs' (new config found).value).log.length) ∧
      ((∀ cs', cs' <+: cs → (afterAll cs' (new config found).value).Accounts) ↔
        Quiet cs (new config found).value) := by
  have hall : ∀ cs' : List (Call α),
      (afterAll cs' (new config found).value).log.map Degradation.sequence =
          List.range' 1 (afterAll cs' (new config found).value).log.length ∧
        ((afterAll cs' (new config found).value).Accounts ↔
          Quiet cs' (new config found).value) := fun cs' => by
    obtain ⟨failed, logged, hg, hsub, hq⟩ := grows_afterAll cs' (new config found).value
    obtain ⟨hn, ha⟩ := hg.of_new
    exact ⟨hn, (ha hsub).trans hq.symm⟩
  refine ⟨fun cs' _ => (hall cs').1, fun h => ?_, fun h cs' hp => ?_⟩
  · exact (hall cs).2.1 (h cs (List.prefix_refl cs))
  · obtain ⟨rest, rfl⟩ := hp
    exact (hall cs').2.2 h.of_append

/-- An operation that fails on one engine and is refused by the next one. -/
def forsaken : Call Double :=
  .op Fingerprint.ofOp none 0 ⟨.eigen, "eigen:standin", 1⟩ "cholesky"
    [(Tensor.zeros [1, 1] .f64).onEngine .eigen]

example :
    let d : Dispatcher Double :=
      (new { faults := ["eigen:cholesky"] } (Backend.atHand "" true)).value
    (forsaken.run d).2.log.length = 0 ∧ (forsaken.run d).2.stats.faults.total = 1 := by
  decide +kernel

end Dispatcher

end MemoFlow
