import Mathlib.Data.List.Basic
import MemoFlow.Cache.Basic
import MemoFlow.Pipeline.Run
import MemoFlow.Pipeline.Stage
import MemoFlow.Proofs.Bindings

/-!
# Requests, and runs over one cache

A stage that can be reused asks a request: its source text, the names that it declares and their
content, or the identity that it is given. A body that answers requests writes bindings and gives a
value, or throws, by its request alone.

Runs of pipelines share a cache of results and a clock; everything else that bodies read and change
is a world of any type. The notes and counters of a run are left out, since nothing reads them back.

* `Request`, `Request.key`, `Request.ofText`: requests and their identities;
* **`Effect`**, `Effect.record`, `Effect.strays`: what a body does, what is kept of it, and the
  bindings that get into the record although the body does not touch them;
* **`Effect.record_eq_iff`**: when an effect leaves the same record on two environments;
* `Stage.act`, `Stage.fresh`: the body of a stage, and what it gives;
* `Stage.Asks`, **`Stage.Answers`**: the requests of a stage, and bodies that answer them;
* `Step`, `Stage.course`: what each stage of a pipeline gives when nothing is reused;
* **`Desk`**, `Desk.host`: the state that runs share, and what a run needs around it;
* `PipelineHost.outcomes`: what each stage gives in a run;
* `PipelineCall`, **`Desk.journal`**: sequences of runs, and all that can be seen of them;
* `Desk.run_congr`: a run is determined by what its stages give.
-/

/-! ## Requests and what they do -/

namespace MemoFlow

open NameMap

/-! ## Effects -/

/-- **What a body does**: the bindings that it writes, the first one first, and its value. -/
structure Effect where
  /-- The bindings. -/
  writes : List (String × Value)
  /-- The value. -/
  value : Option Value

namespace Effect

variable (e : Effect) {n : String}

/-- The value of an effect and the bindings after it. -/
def run (env : Environment) : Option Value × Environment := (e.value, env.overlay e.writes)

/-- What is kept of an effect on bindings. -/
def record (env : Environment) : Computation :=
  ⟨(env.clearWrites.overlay e.writes).outputsSince env, e.value⟩

/-- The bindings that an effect leaves as they are, although they are not the same as
themselves. -/
def strays (env : Environment) : List (String × Value) :=
  env.toList.filter fun p => decide (p.1 ∉ e.writes.map Prod.fst) && !p.2.same p.2

theorem sorted_strays (env : Environment) :
    (e.strays env).Pairwise fun a b => a.1 < b.1 := env.bindings.sorted.filter _

theorem findIn_strays (env : Environment) :
    findIn n (e.strays env) =
      if n ∈ e.writes.map Prod.fst then none
      else (env.find? n).filter fun v => !v.same v := by
  rw [strays, Environment.toList, findIn_filter env.bindings.sorted]
  split <;> rename_i h <;> simp only [h, not_true_eq_false, not_false_eq_true, decide_true,
    decide_false, Bool.false_and, Bool.true_and]
  · exact Option.filter_eq_none_iff.2 fun _ _ => Bool.false_ne_true
  · rfl

/-- Bindings that are the same as themselves have no strays. -/
theorem strays_eq_nil {env : Environment} (h : ∀ p ∈ env.toList, p.2.same p.2 = true) :
    e.strays env = [] :=
  List.filter_eq_nil_iff.2 fun p hp => by simp [h p hp]

/-- The record holds what the body wrote, and the strays. -/
theorem findIn_record (env : Environment) :
    findIn n (e.record env).bindings =
      (findIn n e.writes.reverse).or (findIn n (e.strays env)) := by
  rw [record, Environment.findIn_outputsSince, Environment.find?_overlay,
    Environment.find?_clearWrites, Environment.written_overlay, findIn_strays]
  cases hw : findIn n e.writes.reverse with
  | some v =>
    have hm : n ∈ e.writes.map Prod.fst := by
      have h : (findIn n e.writes.reverse).isSome := by rw [hw]; rfl
      simpa [findIn_isSome] using h
    simp [hm]
  | none =>
    have hm : n ∉ e.writes.map Prod.fst := by
      have := findIn_eq_none_iff.1 hw
      simpa using this
    rw [if_neg hm, Option.none_or, Option.none_or]
    cases hv : env.find? n with
    | none => rfl
    | some v =>
      have hc : env.clearWrites.written.contains n = false := rfl
      simp [Option.filter, hm, hc, Environment.differs_self hv]

theorem sorted_record (env : Environment) :
    (e.record env).bindings.Pairwise fun a b => a.1 < b.1 := Environment.sorted_outputsSince _ _

/-- **An effect leaves the same record on two environments exactly when they have the same
strays.** -/
theorem record_eq_iff {a b : Environment} : e.record a = e.record b ↔ e.strays a = e.strays b := by
  constructor
  · intro h
    refine eq_of_findIn (e.sorted_strays a) (e.sorted_strays b) fun n => ?_
    have hn : findIn n (e.record a).bindings = findIn n (e.record b).bindings := by rw [h]
    rw [findIn_record, findIn_record] at hn
    by_cases hm : n ∈ e.writes.map Prod.fst
    · rw [findIn_strays, findIn_strays, if_pos hm, if_pos hm]
    · have hw : findIn n e.writes.reverse = none := findIn_eq_none_iff.2 (by simpa using hm)
      rwa [hw, Option.none_or, Option.none_or] at hn
  · intro h
    have hb : (e.record a).bindings = (e.record b).bindings :=
      eq_of_findIn (e.sorted_record a) (e.sorted_record b) fun n => by
        rw [findIn_record, findIn_record, h]
    exact congrArg (fun l => (⟨l, e.value⟩ : Computation)) hb

end Effect

/-! ## Requests -/

/-- What is asked of declared names is known by what they are bound to. -/
theorem Stream.environment_congr {a b : Environment} {names : List String} (hn : names ≠ [])
    (h : ∀ n ∈ nameSet names, a.find? n = b.find? n) :
    environment a names = environment b names := by
  rw [environment, environment, if_neg (by simpa using hn), if_neg (by simpa using hn)]
  refine List.foldl_ext _ _ _ fun s n hm => ?_
  rw [declared, declared, h n hm]

/-- **What a stage asks for.** -/
inductive Request where
  /-- A source text, the names that it declares, and the bytes of what they are bound to. -/
  | text (source : String) (names : List String) (content : List UInt8)
  /-- An identity that is given. -/
  | given (k : Fingerprint)
deriving DecidableEq

/-- The identity of a request. -/
def Request.key : Request → Fingerprint
  | .text source _ content => .combine (.ofText source) (.ofBytes content)
  | .given k => k

namespace Fingerprint

theorem cacheable_ofStream (s : Stream) : (ofStream s).cacheable = s.isSome := by
  cases s <;> rfl

theorem isSome_append (a b : Stream) : (a ++ b : Stream).isSome = (a.isSome && b.isSome) := by
  cases a <;> cases b <;> rfl

theorem isSome_stream (f : Fingerprint) : f.stream.isSome = f.cacheable := by
  rw [stream]
  split
  · next h => rw [h]; rfl
  · next h => rw [Bool.not_eq_true] at h; rw [h]; rfl

theorem cacheable_combine (a b : Fingerprint) :
    (combine a b).cacheable = (a.cacheable && b.cacheable) := by
  rw [combine, cacheable_ofStream, isSome_append, isSome_stream, isSome_stream]

end Fingerprint

/-- The request of a source text for bindings, or none when their content cannot be identified. -/
def Request.ofText (source : String) (env : Environment) (names : List String) : Option Request :=
  (Stream.environment env names).map (.text source (Stream.nameSet names))

/-- The identity of a source text with its inputs is that of its request. -/
theorem Request.key_ofText {source : String} (hs : source ≠ "") (env : Environment)
    (names : List String) :
    (Fingerprint.ofRequest source env names).cacheable = (ofText source env names).isSome ∧
      ∀ q, ofText source env names = some q → q.key = Fingerprint.ofRequest source env names := by
  rw [Fingerprint.ofRequest, if_neg hs, Fingerprint.cacheable_combine, Fingerprint.ofText,
    Fingerprint.ofEnvironment, Fingerprint.cacheable_ofStream, Fingerprint.cacheable_ofStream,
    ofText]
  cases Stream.environment env names with
  | none => exact ⟨by cases Stream.text source <;> rfl, nofun⟩
  | some bs => exact ⟨rfl, fun q hq => by cases hq; rfl⟩

namespace Stage

variable {m : Type → Type} [Monad m] {s : Stage m} {env : Environment}

/-- The body of a stage; a stage without one throws. -/
def act (s : Stage m) (env : Environment) : m (Except Thrown (Option Value × Environment)) :=
  match s.body with
  | none => return .error (.evaluation "stage has no body")
  | some body => body env

/-- What the body of a stage gives. -/
def fresh (s : Stage m) (env : Environment) : m (Except Thrown Computation) := do
  return (← s.act env.clearWrites).map fun r => ⟨r.2.outputsSince env, r.1⟩

/-- The request of a stage that can be reused, or none when it cannot be identified. -/
def Asks (s : Stage m) (env : Environment) (r : Option Request) : Prop :=
  match s.identity with
  | some f => ∃ k, f env = pure (.ok k) ∧ r = if k.cacheable then some (.given k) else none
  | none => s.source ≠ "" ∧ r = Request.ofText s.source env s.inputs

/-- **The body of a stage answers its requests**: a stage that can be reused has a request, or none,
on all bindings, and what its body does to them is a function of the request. -/
structure Answers (lib : Request → Except Thrown Effect) (s : Stage m) : Prop where
  asks : s.isReusable → ∀ env, ∃ r, s.Asks env r
  acts : ∀ env q, s.Asks env (some q) →
    s.act env.clearWrites = pure ((lib q).map fun e => e.run env.clearWrites)

theorem key_of_asks {r : Option Request} (h : s.Asks env r) :
    ∃ k, s.key env = pure (.ok k) ∧ k.cacheable = r.isSome ∧ ∀ q, r = some q → q.key = k := by
  rw [Asks] at h
  split at h
  · next f hf =>
    obtain ⟨k, hk, rfl⟩ := h
    refine ⟨k, by rw [key, hf]; exact hk, ?_⟩
    cases k.cacheable <;> simp [Request.key]
  · next hf =>
    obtain ⟨hs, rfl⟩ := h
    exact ⟨.ofRequest s.source env s.inputs, by rw [key, hf], Request.key_ofText hs env s.inputs⟩

/-- The identity of a stage is that of its request. -/
theorem key_of_asked {q : Request} (h : s.Asks env (some q)) :
    s.key env = pure (.ok q.key) ∧ q.key.cacheable = true := by
  obtain ⟨k, hk, hc, hq⟩ := key_of_asks h
  rw [hq q rfl]
  exact ⟨hk, hc⟩

theorem isReusable_of_asks {r : Option Request} (h : s.Asks env r) : s.isReusable = true := by
  rw [Asks] at h
  rw [isReusable]
  split at h
  · next f hf => rw [hf]; rfl
  · next hf => simp [h.1]

variable [LawfulMonad m] {lib : Request → Except Thrown Effect}

/-- A body that answers a request gives the record of its effect. -/
theorem Answers.fresh_eq (h : s.Answers lib) {q : Request} (hq : s.Asks env (some q)) :
    s.fresh env = pure ((lib q).map fun e => e.record env) := by
  rw [Stage.fresh, h.acts env q hq, pure_bind]
  cases lib q <;> rfl

end Stage

end MemoFlow

/-! ## Runs over one cache -/

namespace MemoFlow

/-! ## Steps without reuse -/

/-- A stage that was started, the bindings before it, and what it gave. -/
structure Step (m : Type → Type) where
  /-- The stage. -/
  stage : Stage m
  /-- The bindings before it. -/
  env : Environment
  /-- What it gave. -/
  outcome : Except Thrown Computation

/-- The steps of stages that are run one after the other, with no result reused. -/
def Stage.course {m : Type → Type} [Monad m] :
    List (Stage m) → Environment → m (List (Step m))
  | [], _ => return []
  | s :: rest, env => do
    match ← s.fresh env with
    | .error t => return [⟨s, env, .error t⟩]
    | .ok c => return ⟨s, env, .ok c⟩ :: (← course rest (env.overlay c.bindings))

/-- What each stage gives that is started in a run. -/
def PipelineHost.outcomes {m : Type → Type} [Monad m] (h : PipelineHost m) :
    List (Stage m) → Environment → m (List (Except Thrown Computation))
  | [], _ => return []
  | s :: rest, env => do
    match ← h.perform s env with
    | .error t => return [.error t]
    | .ok (c, _) => return .ok c :: (← h.outcomes rest (env.overlay c.bindings))

/-- The report without the marks of what was reused. -/
def PipelineReport.plain (r : PipelineReport) : PipelineReport :=
  { r with stages := r.stages.map fun s => { s with reused := false } }

/-! ## The shared state -/

/-- **What runs share**: a cache of results, the readings of the clock that are still to come, and
the world of the bodies. -/
structure Desk (ω : Type) where
  /-- The cache. -/
  cache : Cache Computation
  /-- The readings of the clock. -/
  clock : Nat → Int64
  /-- The world. -/
  world : ω

/-- A run of a pipeline that is asked for. -/
structure PipelineCall (ω : Type) where
  /-- The stages. -/
  stages : List (Stage (StateM ω))
  /-- The bindings it starts with. -/
  env : Environment

namespace Desk

variable {ω α : Type}

/-- Read the clock for a step on the cache. -/
def onCache (f : Cache Computation → Int64 → Told (α × Cache Computation)) : StateM (Desk ω) α :=
  fun d =>
    let r := (f d.cache (d.clock 0)).value
    (r.1, { d with cache := r.2, clock := fun n => d.clock (n + 1) })

/-- A step on the world. -/
def onWorld (f : StateM ω α) : StateM (Desk ω) α := fun d =>
  let r := f d.world
  (r.1, { d with world := r.2 })

/-- What a run needs around it, with or without reuse of results. -/
def host (memoize : Bool) : PipelineHost (StateM (Desk ω)) where
  memoize := memoize
  note _ := pure ()
  kept? k := onCache fun c now => c.get now k
  keep k r := do
    let _ ← onCache fun c now => c.put now k r none none
    return ()
  count _ := pure ()

end Desk

/-- The stage as a stage of runs that share a desk. -/
def Stage.onDesk {ω : Type} (s : Stage (StateM ω)) : Stage (StateM (Desk ω)) :=
  { name := s.name
    source := s.source
    inputs := s.inputs
    body := s.body.map fun f env => Desk.onWorld (f env)
    identity := s.identity.map fun f env => Desk.onWorld (f env) }

namespace Desk

variable {ω : Type}

/-- **All that can be seen of a sequence of runs**: how each of them ended, its report without the
marks of what was reused, and what each of its stages gave. -/
def journal (memoize : Bool) : List (PipelineCall ω) → Desk ω →
    List (Except Thrown Environment × PipelineReport × List (Except Thrown Computation))
  | [], _ => []
  | p :: rest, d =>
    let stages := p.stages.map Stage.onDesk
    let r := (host memoize).run stages p.env d
    (r.1.1, r.1.2.plain, ((host memoize).outcomes stages p.env d).1) :: journal memoize rest r.2

end Desk

/-- The steps of a sequence of runs, with no result reused. -/
def PipelineCall.courses {ω : Type} : List (PipelineCall ω) → ω → List (Step (StateM ω))
  | [], _ => []
  | p :: rest, w =>
    (Stage.course p.stages p.env w).1 ++ courses rest (Stage.course p.stages p.env w).2

/-! ## Runs and what their stages give -/

namespace Desk

variable {ω : Type} {d d₁ : Desk ω} {a : Bool}

theorem bind_of_eq {σ α β : Type} {x : StateM σ α} {f : α → StateM σ β} {s s₁ : σ} {r : α}
    (h : x s = (r, s₁)) : (x >>= f) s = f r s₁ := by
  change f (x s).1 (x s).2 = _
  rw [h]

theorem onWorld_bind {α β : Type} (x : StateM ω α) (f : α → StateM ω β) :
    onWorld (x >>= f) = onWorld x >>= fun a => onWorld (f a) := rfl

theorem note_bind {β : Type} (n : Note) (f : Unit → StateM (Desk ω) β) :
    ((host a).note n >>= f) = f () := rfl

theorem count_bind {β : Type} (g : PipelineStats → PipelineStats)
    (f : Unit → StateM (Desk ω) β) : ((host a).count g >>= f) = f () := rfl

variable {s : Stage (StateM (Desk ω))} {rest : List (Stage (StateM (Desk ω)))} {env : Environment}
  {r : PipelineReport} {i : Nat}

theorem outcomes_of_error {t : Thrown} (h : (host a).perform s env d = (.error t, d₁)) :
    (host a).outcomes (s :: rest) env d = ([.error t], d₁) := by
  rw [PipelineHost.outcomes, bind_of_eq h]
  rfl

theorem outcomes_of_ok {c : Computation} {b : Bool}
    (h : (host a).perform s env d = (.ok (c, b), d₁)) :
    (host a).outcomes (s :: rest) env d =
      (.ok c :: ((host a).outcomes rest (env.overlay c.bindings) d₁).1,
        ((host a).outcomes rest (env.overlay c.bindings) d₁).2) := by
  rw [PipelineHost.outcomes, bind_of_eq h]
  rfl

theorem runFrom_of_error {t : Thrown} (h : (host a).perform s env d = (.error t, d₁)) :
    (host a).runFrom i (s :: rest) env r d =
      (host a).abort i s env (r.enter (.running i)) t d₁ := by
  rw [PipelineHost.runFrom, note_bind]
  exact bind_of_eq h

theorem runFrom_of_ok {c : Computation} {b : Bool}
    (h : (host a).perform s env d = (.ok (c, b), d₁)) :
    (host a).runFrom i (s :: rest) env r d =
      (host a).runFrom (i + 1) rest (env.overlay c.bindings)
        (let r := PipelineHost.recordStage (r.enter (.running i)) s.name c b
        if rest.isEmpty then r else r.enter (.pending (i + 1))) d₁ := by
  rw [PipelineHost.runFrom, note_bind]
  exact bind_of_eq h

theorem abort_apply {t : Thrown} :
    (host a).abort i s env r t d =
      if t.isStandard then
        ((.error (.stage i s.name t.message env (some t)),
          { r.enter (.failed i t.message) with
            stages := r.stages ++ [{ name := s.name, failed := true }] }), d)
      else ((.error t, r), d) := by
  rw [PipelineHost.abort]
  split <;> rfl

/-- A run leaves the desk as its stages leave it. -/
theorem runFrom_snd (ss : List (Stage (StateM (Desk ω)))) (env : Environment) (r : PipelineReport)
    (i : Nat) (d : Desk ω) :
    ((host a).runFrom i ss env r d).2 = ((host a).outcomes ss env d).2 := by
  induction ss generalizing env r i d with
  | nil => rfl
  | cons s rest ih =>
    rcases h : (host a).perform s env d with ⟨t | ⟨c, b⟩, d₁⟩
    · rw [runFrom_of_error h, outcomes_of_error h, abort_apply]
      split <;> rfl
    · rw [runFrom_of_ok h, outcomes_of_ok h]
      exact ih ..

theorem plain_recordStage (r : PipelineReport) (name : String) (c : Computation) (b : Bool) :
    (PipelineHost.recordStage r name c b).plain =
      (PipelineHost.recordStage r.plain name c false).plain := by
  simp [PipelineHost.recordStage, PipelineReport.plain]

theorem abort_congr {a b : Bool} {d d' : Desk ω} {r r' : PipelineReport} (t : Thrown)
    (hr : r.plain = r'.plain) :
    ((host a).abort i s env r t d).1.1 = ((host b).abort i s env r' t d').1.1 ∧
      ((host a).abort i s env r t d).1.2.plain = ((host b).abort i s env r' t d').1.2.plain := by
  have hp : ∀ r : PipelineReport,
      ({ r.enter (.failed i t.message) with
        stages := r.stages ++ [{ name := s.name, failed := true }] } : PipelineReport).plain =
      { r.plain.enter (.failed i t.message) with
        stages := r.plain.stages ++ [{ name := s.name, failed := true }] } := fun r => by
    simp [PipelineReport.plain, PipelineReport.enter]
  rw [abort_apply, abort_apply]
  split
  · exact ⟨rfl, by rw [hp, hp, hr]⟩
  · exact ⟨rfl, hr⟩

/-- **What the stages give determines a run**, apart from the marks of what was reused. -/
theorem runFrom_congr {a b : Bool} {d d' : Desk ω} (ss : List (Stage (StateM (Desk ω))))
    (env : Environment) {r r' : PipelineReport} (i : Nat) (hr : r.plain = r'.plain)
    (h : ((host a).outcomes ss env d).1 = ((host b).outcomes ss env d').1) :
    ((host a).runFrom i ss env r d).1.1 = ((host b).runFrom i ss env r' d').1.1 ∧
      ((host a).runFrom i ss env r d).1.2.plain = ((host b).runFrom i ss env r' d').1.2.plain := by
  induction ss generalizing env r r' i d d' with
  | nil => exact ⟨rfl, congrArg (PipelineReport.enter · (.completed i)) hr⟩
  | cons s rest ih =>
    have hi : (r.enter (.running i)).plain = (r'.enter (.running i)).plain :=
      congrArg (PipelineReport.enter · (.running i)) hr
    rcases hx : (host a).perform s env d with ⟨t | ⟨c, re⟩, d₁⟩ <;>
      rcases hy : (host b).perform s env d' with ⟨t' | ⟨c', re'⟩, d₁'⟩
    · rw [outcomes_of_error hx, outcomes_of_error hy] at h
      obtain rfl : t = t' := by simpa using h
      rw [runFrom_of_error hx, runFrom_of_error hy]
      exact abort_congr t hi
    · rw [outcomes_of_error hx, outcomes_of_ok hy] at h
      simp at h
    · rw [outcomes_of_ok hx, outcomes_of_error hy] at h
      simp at h
    · rw [outcomes_of_ok hx, outcomes_of_ok hy] at h
      obtain ⟨hc, ht⟩ := List.cons.inj h
      obtain rfl : c = c' := Except.ok.inj hc
      rw [runFrom_of_ok hx, runFrom_of_ok hy]
      refine ih _ _ ?_ ht
      have hs := (plain_recordStage (r.enter (.running i)) s.name c re).trans
        (hi ▸ (plain_recordStage (r'.enter (.running i)) s.name c re').symm)
      split
      · exact hs
      · exact congrArg (PipelineReport.enter · (.pending (i + 1))) hs

theorem run_snd {a : Bool} (ss : List (Stage (StateM (Desk ω)))) (env : Environment)
    (d : Desk ω) : ((host a).run ss env d).2 = ((host a).outcomes ss env d).2 := by
  rw [PipelineHost.run, count_bind]
  exact runFrom_snd ..

theorem run_congr {a b : Bool} {d d' : Desk ω} {ss : List (Stage (StateM (Desk ω)))}
    {env : Environment}
    (h : ((host a).outcomes ss env d).1 = ((host b).outcomes ss env d').1) :
    ((host a).run ss env d).1.1 = ((host b).run ss env d').1.1 ∧
      ((host a).run ss env d).1.2.plain = ((host b).run ss env d').1.2.plain := by
  rw [PipelineHost.run, PipelineHost.run, count_bind, count_bind]
  exact runFrom_congr ss env 0 rfl h

end Desk

end MemoFlow
