import MemoFlow.NameMap
import MemoFlow.Value

/-!
# Environments

The bindings visible at one point of a run, with a log of the names written. Environments are plain
values; a copy is a snapshot. Names and the strings in values are texts of one type.

* **`Environment`**: bindings and write log;
* `define`, `set`, `erase`, `merge`, `clearWrites`: changes;
* `diffFrom`, **`outputsSince`**: the bindings that differ from a base, and those together with
  all that were written;
* `overlay`: bindings defined over an environment.
-/

namespace MemoFlow

/-- **Bindings and the names written** since the log was last cleared. -/
structure Environment (σ : Type := String) [IsText σ] where
  /-- The bindings. -/
  bindings : NameMap (Value σ) σ
  /-- The names written. -/
  written : NameSet σ
deriving Inhabited

namespace Environment

variable {σ : Type} [IsText σ]

/-- The environment without bindings. -/
def empty : Environment σ := ⟨∅, ∅⟩

instance : EmptyCollection (Environment σ) := ⟨empty⟩

/-- The environment of a list of bindings, with an empty log. -/
def ofList (l : List (σ × Value σ)) : Environment σ := ⟨NameMap.ofList l, ∅⟩

/-- The value of a name. -/
def find? (env : Environment σ) (n : σ) : Option (Value σ) := env.bindings.find? n

/-- Whether a name is bound. -/
def contains (env : Environment σ) (n : σ) : Bool := env.bindings.contains n

/-- Bind a name. -/
def define (env : Environment σ) (n : σ) (v : Value σ) : Environment σ :=
  ⟨env.bindings.insert n v, env.written.insert n ()⟩

/-- Bind a name that is bound already; none when it is not. -/
def set? (env : Environment σ) (n : σ) (v : Value σ) : Option (Environment σ) :=
  if env.contains n then some (env.define n v) else none

/-- Forget a name; the log keeps it. -/
def erase (env : Environment σ) (n : σ) : Environment σ :=
  ⟨env.bindings.erase n, env.written⟩

/-- The bound names, ascending. -/
def keys (env : Environment σ) : List σ := env.bindings.keys

/-- The number of bindings. -/
def size (env : Environment σ) : Nat := env.bindings.size

/-- The bindings in ascending order of their names. -/
def toList (env : Environment σ) : List (σ × Value σ) := env.bindings.entries

/-- Define a list of bindings, one after the other. -/
def overlay (env : Environment σ) (l : List (σ × Value σ)) : Environment σ :=
  l.foldl (fun e p => e.define p.1 p.2) env

/-- Write all bindings of another environment. -/
def merge (env other : Environment σ) : Environment σ := env.overlay other.toList

/-- Empty the write log. -/
def clearWrites (env : Environment σ) : Environment σ := { env with written := ∅ }

/-- Whether a binding is new or changed relative to a base. -/
def differs (base : Environment σ) (p : σ × Value σ) : Bool :=
  match base.find? p.1 with
  | none => true
  | some v => !v.sameKind p.2 || !v.same p.2

/-- The bindings that are new or changed relative to a base. -/
def diffFrom (env base : Environment σ) : List (σ × Value σ) :=
  env.toList.filter base.differs

/-- **The outputs relative to a base**: bindings written, new or changed. A written value counts
even when it is the same as before. -/
def outputsSince (env base : Environment σ) : List (σ × Value σ) :=
  env.toList.filter fun p => env.written.contains p.1 || base.differs p

/-- Whether two lists of bindings agree. -/
def sameBindings : List (σ × Value σ) → List (σ × Value σ) → Bool
  | [], [] => true
  | a :: as, b :: bs => a.1 = b.1 && a.2.same b.2 && sameBindings as bs
  | _, _ => false

/-- Whether two environments bind the same names to the same values. -/
def same (a b : Environment σ) : Bool := sameBindings a.toList b.toList

end Environment

end MemoFlow
