import MemoFlow.Proofs.Tensor.Reasons
import MemoFlow.Proofs.Tensor.Rotations
import MemoFlow.Proofs.Tensor.Turns

/-!
# Data that wear out the plain loops

The plain loops are the last engine of every chain. Without injected faults they fail only when the
sweeps of a decomposition run out, which depends on the numbers in its operand. Each such operation
is counted as a fault, and after enough of them no operation is served any more.

* `Native.diverges`, **`Native.isFault_run`**: what makes the plain loops fail;
* **`Native.diverges_eigh_of_isNaN`**: operands that do;
* `Dispatcher.Genuine`, **`Dispatcher.Chain.native`**: the end of a chain;
* `Turn.comes`, `Turn.diverges`, `Turn.stalls`: operations that come to the plain loops and fail;
* **`Dispatcher.worn_by_data`**: faults of the plain loops in a run.
-/

namespace MemoFlow

/-- An engine failed. -/
def OpResult.isFault {β : Type} : Except OpFailure β → Bool
  | .error (.fault _) => true
  | _ => false

namespace Native

section Diverges

variable {α : Type} [Arith α] [Scalar α]

/-- The sweeps of an operation run out. -/
def diverges (o : Op) (args : List (Tensor α)) : Bool :=
  match o, args with
  | .eigh, [a] => (Jacobi.eigh? a.rows (grid a)).isNone
  | .svd, [a] => (Jacobi.svd? a.rows a.cols (grid a)).isNone
  | _, _ => false

/-- **The plain loops fail exactly when the sweeps run out.** -/
theorem isFault_run (o : Op) (args : List (Tensor α)) :
    OpResult.isFault (run o args) = diverges o args := by
  match args with
  | [] | _ :: _ :: _ :: _ | [a, b] => cases o <;> rfl
  | [a] =>
    cases o with
    | eigh => rw [diverges, run, unary, eigh]; cases Jacobi.eigh? a.rows (grid a) <;> rfl
    | svd => rw [diverges, run, unary, svd]; cases Jacobi.svd? a.rows a.cols (grid a) <;> rfl
    | cholesky =>
      change OpResult.isFault (cholesky a) = false
      rw [cholesky]
      cases Cholesky.factor? a.rows (grid a) <;> rfl
    | _ => rfl

end Diverges

/-- A number in the payload of a checked matrix is an entry of its grid. -/
theorem exists_entry {o : Op} {e : Engine} {a : Tensor Double} (hk : o.kind = .decomposition)
    (hc : o.check [a] e = .ok ()) {x : Double} (hx : x ∈ a.data) :
    ∃ i j, i < a.rows ∧ j < a.cols ∧ (grid a).entry i j = x := by
  obtain ⟨-, hargs, hform⟩ := Op.check_eq_ok.1 hc
  obtain ⟨-, hsize⟩ := hargs a List.mem_cons_self
  simp only [Op.checkForm, hk] at hform
  rw [Op.checkDecomposition, Op.checkRank, Op.refuseIf_bind_eq_ok, Op.checkReal,
    Op.refuseIf_bind_eq_ok] at hform
  obtain ⟨hrank, hreal, -⟩ := hform
  obtain ⟨k, hk, rfl⟩ := Array.mem_iff_getElem.1 hx
  have hlen : a.shape.length = 2 := not_not.1 (of_decide_eq_false hrank)
  obtain ⟨m, n, hshape⟩ := List.length_eq_two.1 hlen
  have hrows : a.rows = m.toNat := by rw [Tensor.rows, hshape]; rfl
  have hcols : a.cols = n.toNat := by rw [Tensor.cols, hshape]; rfl
  have hle : a.data.size ≤ a.rows * a.cols := by
    have hd : a.dtype ≠ .c128 := by simpa [Tensor.isComplex] using hreal
    rw [hsize, Tensor.payloadSize, Tensor.stride, if_neg hd, UInt64.mul_one, Tensor.count, hshape,
      hrows, hcols]
    change ((1 : UInt64) * m * n).toNat ≤ _
    rw [UInt64.one_mul, UInt64.toNat_mul]
    exact Nat.mod_le _ _
  have hpos : 0 < a.cols := by
    rcases Nat.eq_zero_or_pos a.cols with h | h
    · rw [h, Nat.mul_zero] at hle
      omega
    · exact h
  refine ⟨k / a.cols, k % a.cols, ?_, Nat.mod_lt _ hpos, ?_⟩
  · exact Nat.div_lt_of_lt_mul (by rw [Nat.mul_comm]; omega)
  · rw [grid, Grid.entry, Grid.ofArray, Nat.mul_comm, Nat.div_add_mod]
    simp [Array.getD, hk]

/-- **Eigenvalues of a matrix with something that is not a number are never found.** -/
theorem diverges_eigh_of_isNaN {e : Engine} {a : Tensor Double} (hc : Op.eigh.check [a] e = .ok ())
    {x : Double} (hx : x ∈ a.data) (hn : x.isNaN = true) : diverges .eigh [a] = true := by
  obtain ⟨i, j, hi, hj, rfl⟩ := exists_entry rfl hc hx
  have hsquare : a.rows = a.cols := by
    obtain ⟨-, -, hform⟩ := Op.check_eq_ok.1 hc
    simp only [Op.checkForm, Op.kind] at hform
    rw [Op.checkDecomposition, Op.checkRank, Op.refuseIf_bind_eq_ok, Op.checkReal,
      Op.refuseIf_bind_eq_ok, Op.checkNonempty, Op.refuseIf_bind_eq_ok] at hform
    obtain ⟨-, -, -, hform⟩ := hform
    rw [if_pos (by simp), Op.refuseIf_bind_eq_ok] at hform
    exact congrArg UInt64.toNat (not_not.1 (of_decide_eq_false hform.1))
  rw [diverges, Jacobi.eigh?_of_isNaN hi (by rwa [hsquare]) hn]
  rfl

end Native

/-- The engines that are tried before the plain loops, from one engine on. -/
def Engine.ahead (e : Engine) : List Engine := e.onward.filter (· ≠ .native)

theorem Engine.onward_eq (e : Engine) : e.onward = e.ahead ++ [.native] := by
  cases e <;> decide

theorem Engine.native_notMem_ahead (e : Engine) : Engine.native ∉ e.ahead := by
  cases e <;> decide

namespace Dispatcher

variable {α : Type} [Arith α] [Scalar α]

/-! ## The end of a chain -/

/-- **No fault is injected and the plain loops can be used.** -/
structure Genuine (d : Dispatcher α) : Prop where
  native : d.backend .native = Backend.native
  rules : d.rules = []

theorem Genuine.later {d d' : Dispatcher α} (hd : d.Genuine) (h : d.Later d') : d'.Genuine where
  native := by rw [backend, h.backends]; exact hd.native
  rules := by rw [Dispatcher.rules, h.config]; exact hd.rules

theorem genuine_new {config : TensorConfig} {found : PerEngine (Backend α)}
    (hn : found.native = Backend.native) (hd : Engine.native ∉ config.disabled)
    (hr : config.faults.filterMap FaultRule.ofEntry? = []) : (new config found).value.Genuine where
  native := by
    change disable config.disabled .native found.native = _
    rw [disable, if_neg (by simpa using hd), hn]
  rules := hr

theorem Genuine.attempt {d : Dispatcher α} (hd : d.Genuine) (o : Op) (e : Engine) (f : Routine α)
    (args : List (Tensor α)) : d.attempt o e f args = f args := by
  rw [Dispatcher.attempt, isInjected, hd.rules]
  rfl

theorem Genuine.usable {d : Dispatcher α} (hd : d.Genuine) (o : Op) (t : DType) :
    d.usable? o t .native = if d.degraded.get .native then none else some (Native.run o) := by
  rw [usable?, hd.native]
  cases d.degraded.get .native <;> rfl

/-- Whether an engine leaves an operation to those after it: it may not be used, or it fails. -/
def passes (d : Dispatcher α) (o : Op) (t : DType) (args : List (Tensor α)) (e : Engine) : Bool :=
  match d.usable? o t e with
  | none => true
  | some f => OpResult.isFault (f args)

/-- No engine served an operation, and none refused it. -/
def Service.isUnserved : Service α → Bool
  | .unserved => true
  | _ => false

/-- **The end of a chain.** The plain loops fail in it when all engines before pass and the sweeps
run out; and when they are left out or fail, the operation is not served. -/
theorem Chain.native {d : Dispatcher α} (hd : d.Genuine) {o : Op} {t : DType}
    {args : List (Tensor α)} {es : List Engine} (hes : .native ∉ es) {fs : List Setback}
    {x : Service α} (hc : d.Chain o t args (es ++ [.native]) fs x) :
    (fs.map Setback.engine).count .native = (es.all (d.passes o t args) &&
        (!d.degraded.get .native && Native.diverges o args)).toNat ∧
      x.isUnserved = (es.all (d.passes o t args) &&
        (d.degraded.get .native || Native.diverges o args)) := by
  induction es generalizing fs with
  | nil =>
    have hu := hd.usable o t
    rw [List.all_nil, Bool.true_and, Bool.true_and, ← Native.isFault_run]
    cases hdeg : d.degraded.get .native <;> rw [hdeg] at hu
    · cases hc with
      | skipped unusable rest =>
        rw [hu] at unusable
        cases unusable
      | failed usable fault rest =>
        obtain rfl := Option.some.inj (hu.symm.trans usable)
        rw [hd.attempt] at fault
        cases rest
        rw [fault]
        exact ⟨rfl, rfl⟩
      | served usable result =>
        obtain rfl := Option.some.inj (hu.symm.trans usable)
        rw [hd.attempt] at result
        rw [result]
        exact ⟨rfl, rfl⟩
      | refused usable refusal =>
        obtain rfl := Option.some.inj (hu.symm.trans usable)
        rw [hd.attempt] at refusal
        rw [refusal]
        exact ⟨rfl, rfl⟩
    · cases hc with
      | skipped unusable rest =>
        cases rest
        exact ⟨rfl, rfl⟩
      | failed usable fault rest => cases hu.symm.trans usable
      | served usable result => cases hu.symm.trans usable
      | refused usable refusal => cases hu.symm.trans usable
  | cons e es ih =>
    have hne : e ≠ .native := fun h => hes (h ▸ List.mem_cons_self)
    have hes : .native ∉ es := fun h => hes (List.mem_cons_of_mem _ h)
    rw [List.all_cons, passes]
    cases hc with
    | skipped unusable rest =>
      rw [unusable]
      exact ih hes rest
    | failed usable fault rest =>
      rw [hd.attempt] at fault
      rw [usable]
      simp only [fault, OpResult.isFault, Bool.true_and, List.map_cons]
      rw [List.count_cons_of_ne hne]
      exact ih hes rest
    | served usable result =>
      rw [hd.attempt] at result
      rw [usable]
      simp only [result, OpResult.isFault, Bool.false_and]
      exact ⟨rfl, rfl⟩
    | refused usable refusal =>
      rw [hd.attempt] at refusal
      rw [usable]
      simp only [refusal, OpResult.isFault, Bool.false_and]
      exact ⟨rfl, rfl⟩

/-! ## Operations -/

/-- A request ended because no engine served it. -/
def isExhausted {β : Type} : Except DispatchError β → Bool
  | .error (.exhausted _ _) => true
  | _ => false

/-- **An operation comes to the plain loops**: it is tried, its result was not kept, and all engines
before pass. -/
def comes (d : Dispatcher α) (key : Op → List (Tensor α) → Fingerprint)
    (cache : Option (Results α)) (now : Int64) (h : Handle) (o : Op) (args : List (Tensor α)) :
    Bool :=
  (kept? cache now (key o args) (d.config.opCache && o.isCostly)).value.1.isNone &&
    h.engine.ahead.all (d.passes o ((args.head?.map Tensor.dtype).getD .f64) args)

variable {d : Dispatcher α} {key : Op → List (Tensor α) → Fingerprint}
  {cache : Option (Results α)} {now : Int64} {h : Handle} {name : String} {o : Op}
  {args : List (Tensor α)}

/-- **An operation on checked operands**: it is a fault of the plain loops when it comes to them and
its sweeps run out, and it is not served when it comes to them and they are left out or fail. -/
theorem serve_native (hd : d.Genuine) (hn : Op.ofName? name = some o)
    (ha : d.admits h name args = true) :
    (d.op key cache now h name args).value.2.1.stats.faults.get .native =
        d.stats.faults.get .native + (d.comes key cache now h o args &&
          (!d.degraded.get .native && Native.diverges o args)).toNat ∧
      isExhausted (d.op key cache now h name args).value.1 = (d.comes key cache now h o args &&
        (d.degraded.get .native || Native.diverges o args)) := by
  obtain ⟨hc, hav⟩ : o.check args h.engine = .ok () ∧ (d.backend h.engine).available = true := by
    rw [admits, hn] at ha
    dsimp only at ha
    rw [Bool.and_eq_true] at ha
    refine ⟨?_, ha.2⟩
    rcases hc : o.check args h.engine with r | u
    · rw [hc] at ha
      cases ha.1
    · rfl
  rw [comes]
  cases hk : (kept? cache now (key o args) (d.config.opCache && o.isCostly)).value.1 with
  | some out =>
    rw [op, hn]
    simp only [hc, hav, if_true]
    rw [serve]
    simp only [Told.value_bind]
    rw [show (kept? cache now (key o args)
      ((d.count fun s => { s with ops := s.ops + 1 }).config.opCache && o.isCostly)).value.1 =
        some out from hk]
    exact ⟨rfl, rfl⟩
  | none =>
    obtain ⟨fs, x, hchain⟩ := d.exists_chain o ((args.head?.map Tensor.dtype).getD .f64) args
      h.engine.onward
    obtain ⟨d₁, -, hf, hr, hd₁⟩ := op_of_chain (d := d) ⟨hn, hc, hav, hk⟩ hchain
    rw [Engine.onward_eq] at hchain
    obtain ⟨hcount, hun⟩ := hchain.native hd h.engine.native_notMem_ahead
    rw [hr, hd₁, Option.isNone_none, Bool.true_and, ← hcount, ← hun, ← hf]
    cases x with
    | served e out => exact ⟨by rw [Service.conclude, recordServed, logFaults_eq]; rfl, rfl⟩
    | refused r => exact ⟨rfl, rfl⟩
    | unserved => exact ⟨by rw [Service.conclude, logFaults_eq], rfl⟩

theorem isExhausted_of_not_admits (ha : d.admits h name args = false) :
    isExhausted (d.op key cache now h name args).value.1 = false := by
  rw [op]
  rw [admits] at ha
  cases hn : Op.ofName? name with
  | none => rfl
  | some o =>
    rw [hn] at ha
    dsimp only at ha ⊢
    rcases hc : o.check args h.engine with r | u
    · rfl
    · rw [hc] at ha
      have hav : (d.backend h.engine).available = false := by
        simpa [Except.isOk, Except.toBool] using ha
      rw [hav]
      rfl

/-! ## Turns -/

namespace Turn

/-- The operation of a turn comes to the plain loops. -/
def comes (t : Turn α) : Bool :=
  match t.request with
  | .op key cache now h name args =>
    t.before.admits h name args &&
      (Op.ofName? name).any fun o => t.before.comes key cache now h o args
  | _ => false

/-- The sweeps of the operation of a turn run out. -/
def diverges (t : Turn α) : Bool :=
  match t.request with
  | .op _ _ _ _ name args => (Op.ofName? name).any fun o => Native.diverges o args
  | _ => false

/-- **A turn stalls**: the plain loops are not left out, its operation comes to them, and its sweeps
run out. -/
def stalls (t : Turn α) : Bool := t.comes && (!t.before.degraded.get .native && t.diverges)

/-- The operation of a turn was not served by any engine. -/
def isUnserved (t : Turn α) : Bool :=
  match t.request with
  | .op _ _ _ _ _ _ => isExhausted t.reply
  | _ => false

/-- **One turn**: a fault of the plain loops is a turn that stalls, and an operation is not served
when it comes to the plain loops and they are left out or fail. -/
theorem native (t : Turn α) (hd : t.before.Genuine) :
    t.after.stats.faults.get .native = t.before.stats.faults.get .native + t.stalls.toNat ∧
      t.isUnserved = (t.comes && (t.before.degraded.get .native || t.diverges)) := by
  obtain ⟨d, r⟩ := t
  cases r with
  | select => exact ⟨(grows_select d).faults .native, rfl⟩
  | migrate h target => exact ⟨(grows_migrate d h target).faults .native, rfl⟩
  | move x h => exact ⟨rfl, rfl⟩
  | op key cache now h name args =>
    have hr : isExhausted (Turn.reply ⟨d, .op key cache now h name args⟩) =
        isExhausted (d.op key cache now h name args).value.1 := by
      change isExhausted ((d.op key cache now h name args).value.1.map Reply.tensors) = _
      rcases (d.op key cache now h name args).value.1 with e | out
      · cases e <;> rfl
      · rfl
    rw [stalls, isUnserved, comes, diverges]
    dsimp only
    rw [hr]
    change (d.op key cache now h name args).value.2.1.stats.faults.get .native = _ ∧ _
    cases ha : d.admits h name args with
    | false =>
      rw [op_of_not_admits key cache now ha, isExhausted_of_not_admits ha]
      exact ⟨rfl, rfl⟩
    | true =>
      cases hn : Op.ofName? name with
      | none =>
        rw [admits, hn] at ha
        cases ha
      | some o => exact serve_native hd hn ha

end Turn

/-! ## Runs -/

/-- **The faults of the plain loops in a run** are its turns that stall. -/
theorem faults_native_afterTurns (rs : List (Request α)) {d : Dispatcher α} (hd : d.Genuine) :
    (afterTurns rs d).stats.faults.get .native =
      d.stats.faults.get .native + (turns rs d).countP Turn.stalls := by
  induction rs generalizing d with
  | nil => rfl
  | cons r rs ih =>
    have hstep := (Turn.native ⟨d, r⟩ hd).1
    have hrest := ih (hd.later (Turn.later ⟨d, r⟩))
    rw [turns, List.countP_cons]
    refine hrest.trans ?_
    rw [hstep]
    cases Turn.stalls ⟨d, r⟩
    · rfl
    · rw [if_pos rfl]
      exact Nat.add_right_comm ..

/-- **Data wear out the plain loops.** Their faults are the turns that stall, they are left out
after as many of them as the settings allow, and from then on no operation that comes to them is
served. Only eigenvalues and singular values stall; eigenvalues of a matrix with something that is
not a number always do. -/
theorem worn_by_data {config : TensorConfig} {found : PerEngine (Backend Double)}
    (hn : found.native = Backend.native) (hd : Engine.native ∉ config.disabled)
    (hr : config.faults.filterMap FaultRule.ofEntry? = []) (rs : List (Request Double)) :
    let d := afterTurns rs (new config found).value
    let stalled := (turns rs (new config found).value).countP Turn.stalls
    d.stats.faults.get .native = stalled ∧
      (d.degraded.get .native = true ↔ config.faultLimit ≤ stalled) ∧
      (∀ r, Turn.isUnserved ⟨d, r⟩ = true ↔ Turn.comes ⟨d, r⟩ = true ∧
        (config.faultLimit ≤ stalled ∨ Turn.diverges ⟨d, r⟩ = true)) ∧
      (∀ (o : Op) (args : List (Tensor Double)), Native.diverges o args = true →
        o = .eigh ∨ o = .svd) ∧
      ∀ (a : Tensor Double) (e : Engine), Op.eigh.check [a] e = .ok () → ∀ x ∈ a.data,
        x.isNaN = true → Native.diverges .eigh [a] = true := by
  intro d stalled
  have hnew := genuine_new hn hd hr
  have hlater := later_afterTurns rs (new config found).value
  have hgen : d.Genuine := hnew.later hlater
  have hfaults : d.stats.faults.get .native = stalled :=
    (faults_native_afterTurns rs hnew).trans (Nat.zero_add _)
  have hdeg : d.degraded.get .native = true ↔ config.faultLimit ≤ stalled := by
    have hw := (sane_afterTurns rs (sane_new config found)).degraded_iff .native
    have hc : d.config = config := hlater.config
    rwa [← hfaults, ← hc]
  refine ⟨hfaults, hdeg, fun r => ?_, fun o args h => ?_, fun a e hc x hx hx' =>
    Native.diverges_eigh_of_isNaN hc hx hx'⟩
  · rw [(Turn.native ⟨d, r⟩ hgen).2, Bool.and_eq_true, Bool.or_eq_true, hdeg]
  · unfold Native.diverges at h
    split at h
    · exact .inl rfl
    · exact .inr rfl
    · cases h

/-- The eigenvalues of something that is not a number. -/
def nonsense : Request Double :=
  .op Fingerprint.ofOp none 0 ⟨.native, "cpu:scalar", 0⟩ "eigh"
    [⟨.f64, [1, 1], #[Double.notANumber], .native⟩]

/-- Three such requests, and no sum is served any more. -/
theorem sum_unserved_of_nonsense :
    let d := afterTurns [nonsense, nonsense, nonsense]
      (new {} (Backend.atHand "" false) : Told (Dispatcher Double)).value
    d.degraded.get .native = true ∧
      Turn.isUnserved ⟨d, .op Fingerprint.ofOp none 0 ⟨.native, "cpu:scalar", 0⟩ "add"
        [Tensor.zeros [1] .f64, Tensor.zeros [1] .f64]⟩ = true := by
  intro d
  obtain ⟨-, hdeg, hun, -⟩ := @worn_by_data {} (Backend.atHand "" false) rfl (by decide) rfl
    [nonsense, nonsense, nonsense]
  have hstalled : (turns [nonsense, nonsense, nonsense]
      (new {} (Backend.atHand "" false) : Told (Dispatcher Double)).value).countP Turn.stalls =
        3 := by
    decide +kernel
  have hle : TensorConfig.faultLimit {} ≤ 3 := by decide
  rw [hstalled] at hdeg hun
  exact ⟨hdeg.2 hle, (hun _).2 ⟨by decide +kernel, .inl hle⟩⟩

end Dispatcher

end MemoFlow
