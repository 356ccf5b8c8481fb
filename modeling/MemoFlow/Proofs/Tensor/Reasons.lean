import MemoFlow.Proofs.Tensor.Wear

/-!
# Reasons in the log of faults

An operation goes down a chain of engines: some are passed over, some fail, and the first other one
ends it. The faults of a call are written to the log when it ends. The entries name the engines in
their order, but all of them give the reason of the last fault.

* **`Dispatcher.Chain`**, `Dispatcher.exists_chain`: what the engines of a call do, each by itself;
* `Dispatcher.Persists`, `Persists.recordFault`: a fault leaves the other engines as they are;
* **`Dispatcher.search_of_chain`**, `Dispatcher.entries`, `Dispatcher.log_logFaults`: the search,
  and the log;
* `Dispatcher.Tries`, **`Dispatcher.op_of_chain`**, `Dispatcher.log_of_chain`: calls that go down a
  chain;
* **`Dispatcher.own_reasons_iff`**: the entries of a call, and when each of them gives the reason of
  its own fault.
-/

namespace MemoFlow

theorem Engine.nodup_onward (e : Engine) : e.onward.Nodup := by
  cases e <;> decide

namespace Dispatcher

variable {α : Type} {d d' : Dispatcher α} {o : Op} {t : DType} {args : List (Tensor α)}

/-! ## Chains of engines -/

/-- An engine that failed, and what it said. -/
structure Setback where
  /-- The engine. -/
  engine : Engine
  /-- Its message. -/
  reason : String
deriving DecidableEq, Repr

/-- What the last engine said, or the text before it. -/
def lastReason (before : String) (fs : List Setback) : String :=
  (fs.map Setback.reason).getLastD before

/-- The engine that served an operation. -/
def Service.server? : Service α → Option Engine
  | .served e _ => some e
  | _ => none

/-- An engine refused the operands. -/
def Service.isRefused : Service α → Bool
  | .refused _ => true
  | _ => false

/-- **A chain of engines**, as a dispatcher finds them: those that fail, and how it ends. -/
inductive Chain (d : Dispatcher α) (o : Op) (t : DType) (args : List (Tensor α)) :
    List Engine → List Setback → Service α → Prop
  /-- No engine is left. -/
  | exhausted : Chain d o t args [] [] .unserved
  /-- An engine cannot be used, is left out or lacks the operation. -/
  | skipped {e : Engine} {es : List Engine} {fs : List Setback} {x : Service α}
      (unusable : d.usable? o t e = none) (rest : Chain d o t args es fs x) :
      Chain d o t args (e :: es) fs x
  /-- An engine fails. -/
  | failed {e : Engine} {es : List Engine} {fs : List Setback} {x : Service α} {f : Routine α}
      {reason : String} (usable : d.usable? o t e = some f)
      (fault : d.attempt o e f args = .error (.fault reason)) (rest : Chain d o t args es fs x) :
      Chain d o t args (e :: es) (⟨e, reason⟩ :: fs) x
  /-- An engine serves the operation. -/
  | served {e : Engine} {es : List Engine} {f : Routine α} {out : List (Tensor α)}
      (usable : d.usable? o t e = some f) (result : d.attempt o e f args = .ok out) :
      Chain d o t args (e :: es) [] (.served e out)
  /-- An engine refuses the operands. -/
  | refused {e : Engine} {es : List Engine} {f : Routine α} {r : TensorError}
      (usable : d.usable? o t e = some f) (refusal : d.attempt o e f args = .error (.refused r)) :
      Chain d o t args (e :: es) [] (.refused r)

/-- Every list of engines is a chain. -/
theorem exists_chain (d : Dispatcher α) (o : Op) (t : DType) (args : List (Tensor α))
    (es : List Engine) : ∃ fs x, d.Chain o t args es fs x := by
  induction es with
  | nil => exact ⟨[], .unserved, .exhausted⟩
  | cons e es ih =>
    obtain ⟨fs, x, hc⟩ := ih
    cases hu : d.usable? o t e with
    | none => exact ⟨fs, x, .skipped hu hc⟩
    | some f =>
      cases ha : d.attempt o e f args with
      | ok out => exact ⟨[], .served e out, .served hu ha⟩
      | error failure =>
        cases failure with
        | refused r => exact ⟨[], .refused r, .refused hu ha⟩
        | fault reason => exact ⟨⟨e, reason⟩ :: fs, x, .failed hu ha hc⟩

/-! ## The search -/

/-- **Some engines are as they were**: they do on an operation what they did before. -/
structure Persists (d d' : Dispatcher α) (o : Op) (t : DType) (es : List Engine) : Prop where
  config : d'.config = d.config
  usable : ∀ e ∈ es, d'.usable? o t e = d.usable? o t e

theorem Persists.attempt {es : List Engine} (h : d.Persists d' o t es) (e : Engine)
    (f : Routine α) (args : List (Tensor α)) : d'.attempt o e f args = d.attempt o e f args := by
  rw [Dispatcher.attempt, Dispatcher.attempt, isInjected, isInjected, rules, rules, h.config]

theorem Persists.tail {e : Engine} {es : List Engine} (h : d.Persists d' o t (e :: es)) :
    d.Persists d' o t es :=
  ⟨h.config, fun k hk => h.usable k (List.mem_cons_of_mem _ hk)⟩

theorem degraded_recordFault (d : Dispatcher α) (o : Op) {e k : Engine} (reason : String)
    (hk : k ≠ e) : (d.recordFault o e reason).value.degraded.get k = d.degraded.get k := by
  rw [recordFault]
  dsimp only
  split
  · change (d.degraded.modify e fun _ => true).get k = _
    rw [PerEngine.get_modify, if_neg hk]
  · rfl

/-- An engine that may be used is not left out. -/
theorem degraded_of_usable {e : Engine} {f : Routine α} (hu : d.usable? o t e = some f) :
    d.degraded.get e = false := by
  rw [usable?] at hu
  split at hu
  · next h => simpa using And.right (by simpa using h)
  · cases hu

/-- **A fault leaves the other engines as they are.** -/
theorem Persists.recordFault {e : Engine} {es : List Engine} {f : Routine α}
    (h : d.Persists d' o t (e :: es)) (hn : (e :: es).Nodup) (hu : d'.usable? o t e = some f)
    (reason : String) : d.Persists (d'.recordFault o e reason).value o t es := by
  obtain ⟨hc, hb, -⟩ := (wears_recordFault o reason (degraded_of_usable hu)).fields
  refine ⟨hc.trans h.config, fun k hk => ?_⟩
  have hne : k ≠ e := by
    rintro rfl
    exact (List.nodup_cons.1 hn).1 hk
  rw [← h.usable k (List.mem_cons_of_mem _ hk), usable?, usable?,
    degraded_recordFault d' o reason hne, backend, backend, hb]

/-- **A search goes down the chain**: it ends as the chain does, with the engines that failed in
their order, and writes nothing to the log. -/
theorem search_of_chain {es : List Engine} {fs : List Setback} {x : Service α}
    (hc : d.Chain o t args es fs x) (hn : es.Nodup) (s : Search α)
    (hs : d.Persists s.state o t es) :
    ∃ d₁ : Dispatcher α, d₁.log = s.state.log ∧
      (search o t args es s).value =
        (x, ⟨d₁, s.failed ++ fs.map Setback.engine, lastReason s.reason fs⟩) := by
  induction hc generalizing s with
  | exhausted => exact ⟨s.state, rfl, by rw [search, List.map_nil, List.append_nil]; rfl⟩
  | @skipped e es fs x unusable rest ih =>
    have hu := (hs.usable e List.mem_cons_self).trans unusable
    rw [search, hu]
    exact ih (List.nodup_cons.1 hn).2 s hs.tail
  | @failed e es fs x f reason usable fault rest ih =>
    have hu := (hs.usable e List.mem_cons_self).trans usable
    rw [search, hu]
    dsimp only
    rw [(hs.attempt e f args).trans fault]
    obtain ⟨d₁, hl, hr⟩ := ih (List.nodup_cons.1 hn).2
      ⟨(s.state.recordFault o e reason).value, s.failed ++ [e], reason⟩
      (hs.recordFault hn hu reason)
    have hw := wears_recordFault o reason (degraded_of_usable hu)
    refine ⟨d₁, hl.trans (by rw [hw.same]), ?_⟩
    refine hr.trans ?_
    rw [List.append_assoc, lastReason, lastReason, List.map_cons, List.map_cons,
      List.getLastD_cons]
    rfl
  | @served e es f out usable result =>
    have hu := (hs.usable e List.mem_cons_self).trans usable
    refine ⟨s.state, rfl, ?_⟩
    rw [search, hu]
    dsimp only
    rw [(hs.attempt e f args).trans result, List.map_nil, List.append_nil]
    rfl
  | @refused e es f r usable refusal =>
    have hu := (hs.usable e List.mem_cons_self).trans usable
    refine ⟨s.state, rfl, ?_⟩
    rw [search, hu]
    dsimp only
    rw [(hs.attempt e f args).trans refusal, List.map_nil, List.append_nil]
    rfl

/-! ## The log -/

/-- The entries for engines that failed, from a number on and with one reason. -/
def entries (o : Op) (reason : String) (target : Option Engine) :
    Nat → List Engine → List Degradation
  | _, [] => []
  | n, e :: es =>
    ⟨n, e, target.getD e, o, reason, target.isSome⟩ :: entries o reason target (n + 1) es

theorem log_logFaults (d : Dispatcher α) (o : Op) (reason : String) (target : Option Engine)
    (failed : List Engine) :
    (d.logFaults o reason target failed).log =
      d.log ++ entries o reason target (d.log.length + 1) failed := by
  induction failed generalizing d with
  | nil => exact (List.append_nil _).symm
  | cons e rest ih =>
    refine (ih (d.logFaults o reason target [e])).trans ?_
    have hl : (d.logFaults o reason target [e]).log =
        d.log ++ [⟨d.log.length + 1, e, target.getD e, o, reason, target.isSome⟩] := rfl
    rw [hl, List.append_assoc, List.length_append, List.length_singleton]
    rfl

/-- **Entries name the engines**, are numbered one after the other and are alike in the rest. -/
theorem entries_spec (o : Op) (reason : String) (target : Option Engine) (n : Nat)
    (es : List Engine) :
    (entries o reason target n es).map Degradation.source = es ∧
      (entries o reason target n es).map Degradation.sequence = List.range' n es.length ∧
      ∀ g ∈ entries o reason target n es, g.op = o ∧ g.reason = reason ∧
        g.target = target.getD g.source ∧ g.recovered = target.isSome := by
  induction es generalizing n with
  | nil => exact ⟨rfl, rfl, by rintro g ⟨⟩⟩
  | cons e es ih =>
    obtain ⟨hs, hq, hg⟩ := ih (n + 1)
    refine ⟨by rw [entries, List.map_cons, hs], by
      rw [entries, List.map_cons, hq, List.length_cons, List.range'_succ], fun g hm => ?_⟩
    rcases List.mem_cons.1 hm with rfl | hm
    · exact ⟨rfl, rfl, rfl, rfl⟩
    · exact hg g hm

/-! ## Calls -/

variable [Arith α] [Scalar α]

/-- **A call is tried on the engines**: its operation is known, its operands are accepted, the
engine of its handle can be used, and its result was not kept. -/
structure Tries (d : Dispatcher α) (key : Op → List (Tensor α) → Fingerprint)
    (cache : Option (Results α)) (now : Int64) (h : Handle) (name : String) (o : Op)
    (args : List (Tensor α)) : Prop where
  known : Op.ofName? name = some o
  accepted : o.check args h.engine = .ok ()
  available : (d.backend h.engine).available = true
  unkept : (kept? cache now (key o args) (d.config.opCache && o.isCostly)).value.1 = none

variable {key : Op → List (Tensor α) → Fingerprint} {cache : Option (Results α)} {now : Int64}
  {h : Handle} {name : String}

theorem Tries.op_eq (ht : d.Tries key cache now h name o args) :
    d.op key cache now h name args = d.serve key cache now h o args := by
  rw [op, ht.known]
  dsimp only
  rw [ht.accepted]
  exact if_pos ht.available

/-- What a call gives when its search has ended. -/
def Service.reply (x : Service α) (h : Handle) (o : Op) (reason : String) :
    Except DispatchError (List (Tensor α)) :=
  match x with
  | .served _ out => .ok (out.map fun t => t.onEngine h.engine)
  | .refused r => .error (.operands r)
  | .unserved => .error (.exhausted o reason)

/-- The dispatcher after a call whose search has ended. -/
def Service.conclude (x : Service α) (o : Op) (s : Search α) : Dispatcher α :=
  match x with
  | .served e _ => recordServed s o e
  | .refused _ => s.state
  | .unserved => s.state.logFaults o s.reason none s.failed

/-- **A call goes down its chain**: the faults of the chain are counted, and the call ends as the
chain does. -/
theorem op_of_chain {fs : List Setback} {x : Service α}
    (ht : d.Tries key cache now h name o args)
    (hc : d.Chain o ((args.head?.map Tensor.dtype).getD .f64) args h.engine.onward fs x) :
    ∃ d₁ : Dispatcher α, d₁.log = d.log ∧
      (∀ e, d₁.stats.faults.get e =
        d.stats.faults.get e + (fs.map Setback.engine).count e) ∧
      (d.op key cache now h name args).value.1 = x.reply h o (lastReason "" fs) ∧
      (d.op key cache now h name args).value.2.1 =
        x.conclude o ⟨d₁, fs.map Setback.engine, lastReason "" fs⟩ := by
  obtain ⟨d₁, hl, hs⟩ := search_of_chain hc h.engine.nodup_onward
    { state := d.count fun s => { s with ops := s.ops + 1 } } ⟨rfl, fun _ _ => rfl⟩
  obtain ⟨x', s', more, hx', hmore, hgrows⟩ :=
    grows_search o ((args.head?.map Tensor.dtype).getD .f64) args h.engine.onward
      { state := d.count fun s => { s with ops := s.ops + 1 } }
  obtain ⟨rfl, rfl⟩ := Prod.mk.inj (hs.symm.trans hx')
  obtain rfl : fs.map Setback.engine = more := hmore
  refine ⟨d₁, hl, hgrows.faults, ?_⟩
  rw [ht.op_eq, serve]
  simp only [Told.value_bind]
  rw [show (kept? cache now (key o args)
    ((d.count fun s => { s with ops := s.ops + 1 }).config.opCache && o.isCostly)).value.1 = none
    from ht.unkept]
  simp only [Told.value_bind, hs, List.nil_append]
  cases x <;> exact ⟨rfl, rfl⟩

/-- **What a call writes to the log** when no engine refuses its operands: an entry for each engine
of the chain that failed, all with the reason of the last one. -/
theorem log_of_chain {fs : List Setback} {x : Service α}
    (ht : d.Tries key cache now h name o args)
    (hc : d.Chain o ((args.head?.map Tensor.dtype).getD .f64) args h.engine.onward fs x)
    (hx : x.isRefused = false) :
    (d.op key cache now h name args).value.2.1.log =
      d.log ++ entries o (lastReason "" fs) x.server? (d.log.length + 1)
        (fs.map Setback.engine) := by
  obtain ⟨d₁, hl, -, -, hr⟩ := op_of_chain ht hc
  rw [hr, ← hl]
  cases x with
  | refused r => cases hx
  | served e out => exact log_logFaults _ o (lastReason "" fs) (some e) (fs.map Setback.engine)
  | unserved => exact log_logFaults d₁ o (lastReason "" fs) none (fs.map Setback.engine)

/-- **The entries of a call name the engines that failed in their order, the engine that served the
operation and whether one did; and each of them gives the reason of its own fault exactly when all
faults of the call have the reason of the last one.** -/
theorem own_reasons_iff {fs : List Setback} {x : Service α}
    (ht : d.Tries key cache now h name o args)
    (hc : d.Chain o ((args.head?.map Tensor.dtype).getD .f64) args h.engine.onward fs x)
    (hx : x.isRefused = false) :
    ∃ new, (d.op key cache now h name args).value.2.1.log = d.log ++ new ∧
      new.map Degradation.source = fs.map Setback.engine ∧
      new.map Degradation.sequence = List.range' (d.log.length + 1) fs.length ∧
      (∀ g ∈ new, g.op = o ∧ g.reason = lastReason "" fs ∧
        g.target = x.server?.getD g.source ∧ g.recovered = x.server?.isSome) ∧
      (new.map Degradation.reason = fs.map Setback.reason ↔
        ∀ f ∈ fs, f.reason = lastReason "" fs) := by
  obtain ⟨hs, hq, hg⟩ := entries_spec o (lastReason "" fs) x.server? (d.log.length + 1)
    (fs.map Setback.engine)
  refine ⟨_, log_of_chain ht hc hx, hs, by rw [hq, List.length_map], hg, ?_⟩
  have hr : (entries o (lastReason "" fs) x.server? (d.log.length + 1)
      (fs.map Setback.engine)).map Degradation.reason = fs.map fun _ => lastReason "" fs := by
    rw [List.map_congr_left fun g hm => (hg g hm).2.1, List.map_const', List.map_const',
      ← List.length_map (f := Degradation.source), hs, List.length_map]
  rw [hr, List.map_inj_left]
  exact forall₂_congr fun f _ => eq_comm

/-- A dispatcher with faults injected into two engines. -/
def faulty : Dispatcher Double :=
  (new { faults := ["blas", "eigen"] } (Backend.atHand "" true)).value

/-- Two operands of the first engine. -/
def blanks : List (Tensor Double) :=
  List.replicate 2 ((Tensor.zeros [1] .f64).onEngine .blas)

/-- The entry of the first engine that failed gives the reason of the second one. -/
theorem not_own_reasons_of_two_faults :
    ∃ new, (faulty.op Fingerprint.ofOp none 0 ⟨.blas, "blas:", 1⟩ "add" blanks).value.2.1.log =
        new ∧
      new.map Degradation.source = [.blas, .eigen] ∧
      (∀ g ∈ new, g.target = .native ∧ g.recovered = true) ∧
      new.map Degradation.reason ≠
        ["blas: injected device fault", "eigen: injected device fault"] := by
  have hb : faulty.isInjected .blas .add = true := by decide +kernel
  have he : faulty.isInjected .eigen .add = true := by decide +kernel
  have hn : faulty.isInjected .native .add = false := by decide +kernel
  have hc : faulty.Chain .add ((blanks.head?.map Tensor.dtype).getD .f64) blanks
      Engine.blas.onward
      [⟨.blas, "blas: injected device fault"⟩, ⟨.eigen, "eigen: injected device fault"⟩]
      (.served .native
        [Native.elementwise .add (blanks.getD 0 default) (blanks.getD 1 default)]) := by
    refine .failed rfl ?_ (.failed rfl ?_ (.served rfl ?_))
    · rw [attempt, if_pos hb]
      rfl
    · rw [attempt, if_pos he]
      rfl
    · rw [attempt, hn]
      rfl
  have ht : faulty.Tries Fingerprint.ofOp none 0 ⟨.blas, "blas:", 1⟩ "add" .add blanks :=
    ⟨by decide +kernel, rfl, rfl, rfl⟩
  obtain ⟨new, hl, hs, -, hg, hiff⟩ := own_reasons_iff ht hc rfl
  refine ⟨new, hl, hs, fun g hm => (hg g hm).2.2, fun hr => ?_⟩
  exact absurd (hiff.1 hr ⟨.blas, "blas: injected device fault"⟩ List.mem_cons_self)
    (by decide +kernel)

end Dispatcher

end MemoFlow
