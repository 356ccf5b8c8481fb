import MemoFlow.Code.Directive
import MemoFlow.Code.Rewriting
import MemoFlow.Code.Function
import MemoFlow.Code.Options
import MemoFlow.Code.Remark

/-!
# Libraries of generated code

* `Failure`: why there is no function;
* `Code.declared?`: the names that a text declares under some options;
* **`Code.build`**: the function that a library offers.
-/

namespace MemoFlow.Code

open Ascii

/-- **Why a text gives no function.** -/
inductive Failure where
  /-- The compiler refuses it. -/
  | refused
  /-- There is no library, or it cannot be loaded. -/
  | unloadable (reason : String)
  /-- The library does not offer the function. -/
  | nameless
deriving DecidableEq, Repr

/-! ## Reading -/

/-- The text of a definition that an option asks for. -/
def definitionText (b : Bytes) : Bytes :=
  let line := b.takeWhile fun c => c ≠ byte '\n'
  let name := line.takeWhile fun c => c ≠ byte '='
  match line.drop name.length with
  | [] => name ++ Bytes.ofString " 1"
  | _ :: value => name ++ [byte ' '] ++ value

/-- Whether groups of three characters stand for one. -/
def Options.three (o : Options) : Bool :=
  o.trigraphs || (o.dialect.isStrict && o.dialect.year < 2023)

/-- What is defined and read before the text. -/
def opening? (o : Options) : Option Draft := do
  let d ← o.macros.reverse.foldlM (fun d (p : Bool × Bytes) =>
    match p.1, lexemes? o.three (if p.1 then definitionText p.2 else p.2) with
    | true, some ls => d.define? ls
    | false, some ls => d.undefine? ls
    | _, none => none) (Draft.new o.dialect)
  o.headers.reverse.foldlM (fun d h => d.include? h) d

/-- **The names that a text declares**, and what the compiler remarks; none when it refuses the
text. -/
def declared? (o : Options) (text : Bytes) : Option Names := do
  if o.dialect.year < 1999 then none
  let d ← opening? o
  let ls ← lexemes? o.three text
  let d ← (linesOf ls).foldlM Draft.line? d
  let ts ← d.finish?
  let ns ← Reader.names? ⟨o.dialect, o.suffixes⟩ ts
  return ns.remark (d.remarks ++ characterRemarks o.three .text (lineEnds text))

/-! ## Building -/

/-- The name of the function that a library offers. -/
def entryName : Bytes := Bytes.ofString "synapse_kernel"

/-- The functions that a function of the text calls, by name. -/
def Definition.calls (d : Definition) : List Bytes :=
  let inside (e : Expr) (locals : List (Bytes × Kind)) : List Bytes :=
    (e.names false).filter fun w => (locals.lookup w).isNone
  match d.body with
  | .value (some e) => inside e d.params
  | .loop l => inside l.body l.locals
  | .steps ss => (Statement.allExprs ss).flatMap fun e => inside e d.params
  | _ => []

/-- Remarks on functions that nothing calls. -/
def Names.unusedRemarks (ns : Names) : List Remark :=
  let called := ns.entities.toList.flatMap fun p =>
    match p.2 with
    | .function _ _ (some d) => d.calls
    | _ => []
  if ns.owned.all called.contains then [] else [.chosen "unused-function"]

/-- Whether a name is one of a function that is nowhere defined. -/
def Names.isMissing (ns : Names) (wrapped : List String) (w : Bytes) : Bool :=
  (wrapped.any (fun n => Bytes.ofString n = w) && !isOneOf Expr.steps w) ||
  match ns.entities[w]? with
  | some (.function _ _ none) =>
    (Library.signature? w).isNone && !isOneOf Header.otherFunctions w
  | _ => false

/-- **The function that a library offers**, or why there is none. -/
def build (o : Options) (text : Bytes) : Except Failure Function :=
  if o.stage = .report then .error (.unloadable "no library")
  else if !o.hasText then .error .nameless
  else if !o.hasHeaders || (o.isPlain && text.any fun c => 128 ≤ c) then .error .refused
  else
    match declared? o text with
    | none => if o.stage = .prepare then .error (.unloadable "no library") else .error .refused
    | some ns =>
      if (o.remarks ++ ns.remarks ++ ns.unusedRemarks).any o.isRefused then .error .refused
      else if o.stage ≠ .link then .error (.unloadable "no library")
      else if o.linking.fate = .absent then .error (.unloadable "no library")
      else if o.isHidden || !o.isNative || o.linking.fate = .nameless then .error .nameless
      else
        match ns.entities[entryName]? with
        | some (.function _ false (some d)) =>
          if d.calls.any (ns.isMissing o.linking.wrapped) then
            .error (if o.linking.isStrict then .refused else .unloadable "undefined symbol")
          else if o.linking.fate = .broken then .error (.unloadable "the library cannot be loaded")
          else
            match d.body with
            | .loop l =>
              let e := if o.finite then l.body.finite l.locals else l.body
              let e := if o.machine.isFused then e.fused (Reader.scope ns l.locals) else e
              .ok ⟨{ l with body := e }, ns, o.machine⟩
            | _ => .error .nameless
        | _ => .error .nameless

end MemoFlow.Code
