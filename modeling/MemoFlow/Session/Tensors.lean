import MemoFlow.Session.Script

/-!
# Tensors and kernels of a session

* `Session.migrate`, `Session.runOp`, `Session.moveTensor`: handles and operations;
* `Fallback`, `SessionFunction`: functions of tensors;
* **`Session.callFunction`**, `Session.isCompiled`: calls of them, and whether they run a kernel.
-/

namespace MemoFlow

namespace Session

/-! ## Operations -/

/-- Change over to another engine. -/
def migrate (h : Handle) (target : Engine) : Act (Except Thrown Handle) :=
  tell fun s => (s.dispatcher.migrate h target).map fun r =>
    (r.1.mapError thrownOf, { s with dispatcher := r.2 })

/-- An operation on operands, which the engine of the handle takes over first when `owned` is
set. -/
def runOp (h : Handle) (name : String) (args : List (Tensor Double)) (owned : Bool) :
    Act (Except Thrown (List (Tensor Double))) :=
  tensorOp h name (if owned then args.map fun t => t.onEngine h.engine else args)

/-- A tensor that is moved to the engine of a handle. -/
def moveTensor (h : Handle) (t : Tensor Double) : Act (Except Thrown (Tensor Double)) := do
  return ((← Process.state).dispatcher.move t h).mapError thrownOf

end Session

/-! ## Functions -/

/-- What a function of tensors does by itself. -/
inductive Fallback where
  /-- The shape of the first operand with dimensions, filled with a number. -/
  | fill (x : Double)
  /-- An operand. -/
  | echo (i : Nat)
  /-- It throws. -/
  | throwing (t : Thrown)

/-- The function. -/
def Fallback.toFunction : Fallback → TensorFunction
  | .fill x, args =>
    let shape := ((args.find? fun t => t.rank ≠ 0).map Tensor.shape).getD []
    .ok ⟨.f64, shape, Array.replicate (numel shape).toNat x, .native⟩
  | .echo i, args =>
    match args[i]? with
    | some t => .ok t
    | none =>
      .error (.error .outOfRange ("vector::_M_range_check: __n (which is " ++ toString i ++
        ") >= this->size() (which is " ++ toString args.length ++ ")"))
  | .throwing t, _ => .error t

/-- A function of a session, or none. -/
abbrev SessionFunction : Type := Option AcceleratedFunction

/-- The name of a function. -/
def SessionFunction.name (f : SessionFunction) : String :=
  match f with
  | none => ""
  | some f => f.kernel.name.toText

namespace Session

/-- **A call of a function.** -/
def callFunction (f : SessionFunction) (args : List (Tensor Double)) :
    Act (Except Thrown (Tensor Double)) :=
  match f with
  | none => return .error (.evaluation "call through an empty accelerated function")
  | some f =>
    tell fun s => (s.accelerator.call f args).map fun r => (r.1, { s with accelerator := r.2 })

/-- Whether there is compiled code for a call. -/
def isCompiled (f : SessionFunction) (args : List (Tensor Double)) : Act Bool := do
  let s ← Process.state
  return match f with
    | none => false
    | some f => s.accelerator.hasCode f args

end Session

end MemoFlow
