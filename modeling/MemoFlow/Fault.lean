import MemoFlow.Environment
import MemoFlow.Trace

/-!
# What a computation can throw

* `FaultKind`: the kinds of errors;
* **`Thrown`**: an error with its text, the failure of a pipeline stage with what it wraps, or an
  object that carries no text;
* `Thrown.describe`: the text that is kept of it;
* `Tensor.held`: a tensor, or the error that there is no room for it.
-/

namespace MemoFlow

/-- The kinds of errors that carry only a text. -/
inductive FaultKind where
  /-- Raised by the bodies of stages and branches. -/
  | evaluation
  /-- Any other error of the library. -/
  | runtime
  /-- Operands that an operation does not take. -/
  | tensor
  /-- No engine can serve a request. -/
  | unavailable
  /-- An engine failed. -/
  | engineFault
  /-- The pool of workers cannot serve a request. -/
  | exhausted
  /-- A set of branches that cannot be run. -/
  | branchSet
  /-- A number out of range. -/
  | outOfRange
  /-- An argument that cannot be read. -/
  | invalidArgument
  /-- An error of the environment of the library. -/
  | foreignRuntime
  /-- A payload for which there is no room. -/
  | storage
deriving DecidableEq, Repr

/-- **What a computation can throw.** -/
inductive Thrown where
  /-- An error with its text. -/
  | error (kind : FaultKind) (message : String)
  /-- The failure of a stage: the bindings before it and what it threw. -/
  | stage (index : Nat) (name cause : String) (env : Environment) (nested : Option Thrown)
  /-- An object without a text. -/
  | object
deriving Inhabited

namespace Thrown

/-- The text of an error, up to its first NUL. -/
def message : Thrown → String
  | .error _ m => untilNul m
  | .stage i name cause _ _ =>
    untilNul ("pipeline stage " ++ toString i ++ " (" ++ name ++ ") failed: " ++ cause)
  | .object => ""

/-- Whether the thrown thing carries a text. -/
def isStandard : Thrown → Bool
  | .object => false
  | _ => true

/-- The text that is kept of a thrown thing. -/
def describe : Option Thrown → String
  | none => "unknown error"
  | some .object => "non-standard exception"
  | some t => t.message

/-- An error of the bodies of stages and branches. -/
def evaluation (m : String) : Thrown := .error .evaluation m

end Thrown

namespace Tensor

/-- The most numbers that a payload may have: all of them have an address. -/
def addressable : UInt64 := 0x0fffffffffffffff

/-- The most numbers for which room is ever found. -/
def obtainable : UInt64 := 0x200000000

/-- What a maker of tensors makes of a shape, or the error that there is no room for it. -/
def held {α : Type} (make : Shape → DType → Tensor α) (s : Shape) (d : DType) :
    Except Thrown (Tensor α) :=
  let n := numel s * stride d
  if n > addressable then
    .error (.error .storage "cannot create std::vector larger than max_size()")
  else if n > obtainable then .error (.error .storage "std::bad_alloc")
  else .ok (make s d)

end Tensor

/-- The number of a value, or the error that it has none. -/
def Value.number (v : Value) : Except Thrown Float :=
  match v.number? with
  | some x => .ok x
  | none => .error (.evaluation ("expected numeric value, got " ++ v.text))

/-- The value of a name, or the error that it has none. -/
def Environment.get (env : Environment) (n : String) : Except Thrown Value :=
  match env.find? n with
  | some v => .ok v
  | none => .error (.evaluation ("undefined variable: " ++ n))

end MemoFlow
