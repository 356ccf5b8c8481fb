import MemoFlow.Code.Predefined
import MemoFlow.Code.Remarks
import MemoFlow.Code.Shape
import MemoFlow.Code.Value

/-!
# Statements and declared names

* **`Statement`**: what a function of a text may do before it returns;
* `Locals`: the names that it declares, with their values;
* **`Statement.run`**: what some statements lead to;
* `Loop`, `Body`, `Definition`: what a function does;
* `Entity`: what a declared name stands for;
* **`Names`**: the names that a text declares;
* **`Names.declare?`**: one more name, none when it contradicts what was declared before.
-/

/-! ## Statements of functions -/

namespace MemoFlow.Code

/-- **A statement.** -/
inductive Statement where
  /-- A name is declared, maybe with a value. -/
  | declare (w : Bytes) (k : Kind) (e : Option Expr)
  /-- A row is declared, with the values at its start. -/
  | row (w : Bytes) (k : Kind) (es : List Expr)
  /-- A name gets a value. -/
  | assign (w : Bytes) (e : Expr)
  /-- A place in a row gets a value. -/
  | store (w : Bytes) (i e : Expr)
  /-- A value is computed for nothing. -/
  | value (e : Expr)
  /-- Some statements stand together. -/
  | block (ss : List Statement)
  /-- One of two lists of statements is run. -/
  | branch (c : Expr) (t e : List Statement)
  /-- Statements are run from one of some labels on, each of which stands in front of one of them;
  the label without a value is for all other values. -/
  | select (e : Expr) (labels : List (Option Expr × Nat)) (ss : List Statement)
  /-- Statements are run again and again, a late loop at least once. -/
  | loop (isLate : Bool) (c : Option Expr) (step body : List Statement)
  /-- The function returns. -/
  | result (e : Option Expr)
  /-- The loop ends. -/
  | stop
  /-- The loop goes on with its next round. -/
  | next
deriving Repr, Inhabited

/-- **The names that are declared**, the last one first. -/
abbrev Locals : Type := List (Bytes × Kind × Val)

namespace Locals

/-- The types of the names. -/
def kinds (ls : Locals) : List (Bytes × Kind) := ls.map fun p => (p.1, p.2.1)

/-- The value of a name. -/
def value (ls : Locals) (w : Bytes) : Val := ((ls.lookup w).map Prod.snd).getD .void

/-- The names with a new value for one of them. -/
def assign (w : Bytes) (v : Val) : Locals → Locals
  | [] => []
  | p :: ls => if p.1 = w then (w, p.2.1, v.convert p.2.1) :: ls else p :: assign w v ls

/-- The names with a new value at a place in the row that one of them names. -/
def store (w : Bytes) (i : Nat) (v : Val) (ls : Locals) : Locals :=
  match ls.lookup w with
  | some (.pointer k, .row cells) => ls.assign w (.row (Val.setCell cells i (v.convert k)))
  | _ => ls

/-- The names that are left behind the end of a block. -/
def leave (outer inner : Locals) : Locals := inner.drop (inner.length - outer.length)

end Locals

namespace Statement

/-- How statements end. -/
inductive Ending where
  /-- The next statement follows. -/
  | onward
  /-- The loop ends. -/
  | stop
  /-- The loop goes on with its next round. -/
  | next
  /-- The function returns. -/
  | result (v : Val)
deriving Inhabited

/-- **What some statements lead to**, with the names that they declare; at most `n` of them are run
inside and behind each other. -/
def run (frame : Locals → Frame) : Nat → List Statement → Locals → Ending × Locals
  | 0, _, ls => (.result .void, ls)
  | _ + 1, [], ls => (.onward, ls)
  | n + 1, s :: ss, ls =>
    let holds (c : Expr) : Bool := (c.eval (frame ls)).isTrue
    match s with
    | .declare w k e =>
      let v := (e.map fun e => e.eval (frame ls)).getD .void
      run frame n ss ((w, k, v.convert k) :: ls)
    | .row w k es =>
      let cells := es.map fun e => (e.eval (frame ls)).convert k
      run frame n ss ((w, .pointer k, .row cells) :: ls)
    | .assign w e => run frame n ss (ls.assign w (e.eval (frame ls)))
    | .store w i e =>
      run frame n ss (ls.store w (i.eval (frame ls)).toInt.toNat (e.eval (frame ls)))
    | .value _ => run frame n ss ls
    | .block b =>
      match run frame n b ls with
      | (.onward, inner) => run frame n ss (ls.leave inner)
      | (e, inner) => (e, ls.leave inner)
    | .branch c t e =>
      match run frame n (if holds c then t else e) ls with
      | (.onward, inner) => run frame n ss (ls.leave inner)
      | (e, inner) => (e, ls.leave inner)
    | .select e labels b =>
      let v := (e.eval (frame ls)).toInt
      let isChosen (p : Option Expr × Nat) : Bool :=
        p.1.any fun c => (c.eval (frame ls)).toInt = v
      match (labels.find? isChosen).or (labels.find? fun p => p.1.isNone) with
      | none => run frame n ss ls
      | some p =>
        match run frame n (b.drop p.2) ls with
        | (.onward, inner) | (.stop, inner) => run frame n ss (ls.leave inner)
        | (e, inner) => (e, ls.leave inner)
    | .loop isLate c step body =>
      if isLate || c.all holds then
        match run frame n body ls with
        | (.onward, inner) | (.next, inner) =>
          let stepped := (run frame n step (ls.leave inner)).2
          run frame n (.loop false c step body :: ss) stepped
        | (.stop, inner) => run frame n ss (ls.leave inner)
        | (.result v, inner) => (.result v, inner)
      else run frame n ss ls
    | .result e => (.result ((e.map fun e => e.eval (frame ls)).getD .void), ls)
    | .stop => (.stop, ls)
    | .next => (.next, ls)

mutual

/-- The expressions of a statement. -/
def exprs : Statement → List Expr
  | .declare _ _ e | .result e => e.toList
  | .row _ _ es => es
  | .assign _ e | .value e => [e]
  | .store _ i e => [i, e]
  | .select e labels ss => e :: (labels.filterMap Prod.fst ++ allExprs ss)
  | .block ss => allExprs ss
  | .branch c t e => c :: (allExprs t ++ allExprs e)
  | .loop _ c step body => c.toList ++ allExprs step ++ allExprs body
  | .stop | .next => []

/-- The expressions of some statements. -/
def allExprs : List Statement → List Expr
  | [] => []
  | s :: ss => exprs s ++ allExprs ss

end

end Statement

end MemoFlow.Code

/-! ## Declared names -/

namespace MemoFlow.Code

/-! ## Functions -/

/-- **A loop over elements**, with operands that are read at the element or at their first place. -/
structure Loop where
  /-- The number of elements. -/
  count : Nat
  /-- The name of that number. -/
  countName : Bytes
  /-- The name of the place of an element. -/
  index : Bytes
  /-- The operands, and whether each is a single number. -/
  operands : List (Bytes × Bool)
  /-- The result of an element. -/
  body : Expr
deriving Repr

/-- The operands of a loop and its numbers with their types, the inner ones first. -/
def Loop.locals (l : Loop) : List (Bytes × Kind) :=
  l.operands.map (fun p => (p.1, .double)) ++
    [(l.index, .number .unsignedLong), (l.countName, .number .unsignedLong)]

/-- What a function does. -/
inductive Body where
  /-- It returns the value of an expression, or nothing. -/
  | value (e : Option Expr)
  /-- It computes the elements of a row. -/
  | loop (l : Loop)
  /-- It goes through statements. -/
  | steps (ss : List Statement)
  /-- It does something else. -/
  | other
deriving Repr

/-- A function with its body. -/
structure Definition where
  /-- The arguments. -/
  params : List (Bytes × Kind)
  /-- The type of the result. -/
  result : Kind
  /-- What it does. -/
  body : Body
deriving Repr

/-- **What a declared name stands for.** -/
inductive Entity where
  /-- A type. -/
  | type (s : Shape)
  /-- A value that is kept, if it is given. -/
  | object (s : Shape) (value : Option Val)
  /-- A function. -/
  | function (s : Shape) (isStatic : Bool) (definition : Option Definition)

/-! ## Names -/

/-- **The names that a text declares.** -/
structure Names where
  /-- What each one stands for. -/
  entities : Std.HashMap Bytes Entity := ∅
  /-- The parts of records, by their tags. -/
  records : List (Bytes × List (Bytes × Shape)) := []
  /-- Functions that only the text itself can call. -/
  owned : List Bytes := []
  /-- What the compiler remarks. -/
  remarks : List Remark := []

namespace Names

/-- Add remarks. -/
def remark (ns : Names) (rs : List Remark) : Names := { ns with remarks := ns.remarks ++ rs }

/-- The type that a name stands for. -/
def type? (ns : Names) (w : Bytes) : Option Shape :=
  match ns.entities[w]? with
  | some (.type s) => some s
  | _ => none

/-- The type of expressions that a name stands for. -/
def typeKind? (ns : Names) (w : Bytes) : Option Kind := (ns.type? w).bind Shape.kind?

/-- The types that have a name from the start. -/
def initial : Names where
  entities := .ofList (["__float80", "__float128", "__bf16"].map fun w =>
    (Bytes.ofString w, .type (.plain [w])))

/-- The type of a function of the library that is called without a declaration. -/
def implicit? (w : Bytes) : Option Kind :=
  (Library.signature? w).map fun p => .function p.1 p.2

/-- The type of the values that a name stands for. -/
def valueKind? (ns : Names) (w : Bytes) : Option Kind :=
  match ns.entities[w]? with
  | some (.object s _) => s.kind?
  | some (.function s _ d) => s.kind?.or (d.map fun _ => .routine w)
  | some (.type _) => none
  | none => implicit? w

/-- The types of the arguments and the result of a function of the text. -/
def routine? (ns : Names) (w : Bytes) : Option (List Kind × Kind) :=
  match ns.entities[w]? with
  | some (.function _ _ (some d)) => some (d.params.map Prod.snd, d.result)
  | _ => none

/-- A function with its body. Functions of the library stand in front of those of the text unless
these are static. -/
def definition? (ns : Names) (w : Bytes) : Option Definition :=
  match ns.entities[w]? with
  | some (.function _ isStatic (some d)) =>
    if isStatic || (Library.signature? w).isNone then some d else none
  | _ => none

/-- Whether the text declares a function of the library with other types. -/
def mismatch (w : Bytes) (s : Shape) : List Remark :=
  match Library.signature? w with
  | some p =>
    match s.bare with
    | .function (some _) _ =>
      if s.kind? = some (.function p.1 p.2) then [] else [.usual "builtin-declaration-mismatch"]
    | .function none _ => []
    | _ => [.usual "builtin-declaration-mismatch"]
  | none => []

/-- What a name stands for after two declarations. -/
def merge? (a b : Entity) : Option Entity :=
  match a, b with
  | .type s, .type t => if s.agrees t then some b else none
  | .object s p, .object t q =>
    if s.agrees t && !(p.isSome && q.isSome) then some (.object t (p.or q)) else none
  | .function s p d, .function t q e =>
    if !s.agrees t || (q && !p) || (d.isSome && e.isSome) then none
    else some (.function t p (d.or e))
  | _, _ => none

/-- **One more name.** -/
def declare? (ns : Names) (w : Bytes) (e : Entity) : Option Names :=
  match ns.entities[w]? with
  | some a => (merge? a e).map fun e => { ns with entities := ns.entities.insert w e }
  | none =>
    let remarks := match e with
      | .type _ => []
      | .object s _ | .function s _ _ => mismatch w s
    some { ns with entities := ns.entities.insert w e, remarks := ns.remarks ++ remarks }

/-- The parts of a record of a type. -/
def parts? (ns : Names) (s : Shape) : Option (List (Bytes × Shape)) :=
  match s.kind? with
  | some (.record tag) => ns.records.lookup tag
  | _ => none

/-- The type of a part of a record. -/
def partKind? (ns : Names) (tag part : Bytes) : Option Kind :=
  (((ns.records.lookup tag).getD []).lookup part).bind Shape.kind?

/-- The value of a type before anything is kept in it; records stand inside each other at most `n`
times. -/
def blank (ns : Names) : Nat → Shape → Val
  | 0, _ => .void
  | n + 1, s =>
    match s.bare, ns.parts? s with
    | .array _, _ => .row []
    | _, some ps => .record (ps.map fun p => (p.1, ns.blank n p.2))
    | s, none => (s.kind?.map fun k => Val.void.convert k).getD .void

/-- The value that a name keeps. -/
def kept? (ns : Names) (w : Bytes) : Option Val :=
  match ns.entities[w]? with
  | some (.object s v) => some (v.getD (ns.blank 8 s))
  | _ => none

end Names

end MemoFlow.Code
