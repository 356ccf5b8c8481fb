import MemoFlow.Code.Constant
import MemoFlow.Code.Library

/-!
# Expressions of generated code

* `Unary`, `Binary`: the operators;
* **`Expr`**: expressions;
* `Expr.isClosed`: whether an expression is known without operands;
* `Scope`: what the words of an expression stand for;
* **`Expr.kind?`**: the type of an expression; none when it has none and the compiler refuses it.
-/

namespace MemoFlow.Code

/-- Operators on one value. -/
inductive Unary where
  | plus | minus | not | complement | address | deref
deriving DecidableEq, Repr

/-- Operators on two values. -/
inductive Binary where
  | add | sub | mul | div | mod | shiftLeft | shiftRight | bitAnd | bitXor | bitOr
  | less | greater | lessEq | greaterEq | equal | unequal | and | or | comma
deriving DecidableEq, Repr

namespace Binary

/-- Whether the operator compares two values by their order. -/
def isOrder : Binary → Bool
  | .less | .greater | .lessEq | .greaterEq => true
  | _ => false

/-- Whether the operator asks for equality. -/
def isEquality : Binary → Bool
  | .equal | .unequal => true
  | _ => false

/-- Whether the operator compares two values. -/
def isComparison (o : Binary) : Bool := o.isOrder || o.isEquality

end Binary

/-- **An expression.** -/
inductive Expr where
  /-- A constant. -/
  | constant (c : Constant)
  /-- An operand or a function. -/
  | name (w : Bytes)
  /-- An expression in parentheses. -/
  | group (e : Expr)
  /-- An empty block, which has no value. -/
  | block
  /-- A call. -/
  | call (f : Expr) (args : List Expr)
  /-- The place at a distance from an address. -/
  | subscript (a i : Expr)
  /-- The bytes that a value takes. -/
  | size (e : Expr)
  /-- A part of a record. -/
  | member (e : Expr) (part : Bytes)
  /-- A value in another type. -/
  | cast (k : Kind) (e : Expr)
  /-- An operator on one value. -/
  | unary (o : Unary) (e : Expr)
  /-- An operator on two values. -/
  | binary (o : Binary) (a b : Expr)
  /-- A choice; without a middle part the condition itself is the value. -/
  | choice (c : Expr) (t : Option Expr) (e : Expr)
deriving Repr, Inhabited, BEq

/-- **What words stand for.** -/
structure Scope where
  /-- The operands, with their types. -/
  operands : List (Bytes × Kind)
  /-- The types of functions and of values that are kept. -/
  functions : Bytes → Option Kind := fun _ => none
  /-- The types of the parts of records, by the tag and the name. -/
  parts : Bytes → Bytes → Option Kind := fun _ _ => none
  /-- The types of the arguments and the result of functions of other values. -/
  routines : Bytes → Option (List Kind × Kind) := fun _ => none

namespace Scope

/-- The type of an operand. -/
def operand? (s : Scope) (w : Bytes) : Option Kind := s.operands.lookup w

/-- The type of a word. -/
def kind? (s : Scope) (w : Bytes) : Option Kind := (s.operand? w).or (s.functions w)

/-- The question that a word asks when it is called. -/
def test? (s : Scope) (w : Bytes) : Option Test :=
  if (s.kind? w).isSome then none else Test.ofWord? w

end Scope

/-! ## Types -/

namespace Kind

/-- The type of an operator on one value; `place` tells whether the value has an address. -/
def unary? (o : Unary) (place : Bool) (k : Kind) : Option Kind :=
  match o with
  | .plus | .minus => if k.isArithmetic then some k.promote else none
  | .not => if k.isScalar then some .int else none
  | .complement =>
    match k with
    | .number n => if n.isInteger then some k.promote else none
    | .complex _ => some k
    | _ => none
  | .address =>
    match k with
    | .function _ _ | .routine _ => some (.pointer k)
    | _ => if place then some (.pointer k) else none
  | .deref => k.target?

/-- The type of a sum or difference with an address. -/
def shifted? (o : Binary) (a b : Kind) : Option Kind :=
  match o, a.target?, b.target? with
  | .add, some _, none => if b.isInteger then some a.decay else none
  | .add, none, some _ => if a.isInteger then some b.decay else none
  | .sub, some _, none => if b.isInteger then some a.decay else none
  | .sub, some s, some t => if s = t then some (.number .long) else none
  | _, _, _ => none

/-- Whether values can be compared: numbers with numbers, and addresses with addresses and with
integers. -/
def compares (o : Binary) (a b : Kind) : Bool :=
  match a.target?, b.target? with
  | some _, some _ => true
  | some _, none => b.isInteger
  | none, some _ => a.isInteger
  | none, none =>
    match a.meet? b with
    | some (.number _) => true
    | some _ => o.isEquality
    | none => false

/-- The type of an operator on two values. -/
def binary? (o : Binary) (a b : Kind) : Option Kind :=
  match o with
  | .add | .sub => (a.meet? b).or (shifted? o a b)
  | .mul | .div => a.meet? b
  | .mod | .bitAnd | .bitXor | .bitOr => if a.isInteger && b.isInteger then a.meet? b else none
  | .shiftLeft | .shiftRight => if a.isInteger && b.isInteger then some a.promote else none
  | .less | .greater | .lessEq | .greaterEq | .equal | .unequal =>
    if compares o a b then some .int else none
  | .and | .or => if a.isScalar && b.isScalar then some .int else none
  | .comma => some b.decay

/-- The type of a choice between two values. -/
def choice? (a b : Kind) : Option Kind :=
  match a.target?, b.target? with
  | some s, some t => if s = t then some (.pointer s) else some (.pointer .void)
  | some s, none =>
    if b.isInteger then some (.pointer s) else if b = .void then some .void else none
  | none, some t =>
    if a.isInteger then some (.pointer t) else if a = .void then some .void else none
  | none, none =>
    if a = .void || b = .void then some .void else if a.isArithmetic then a.meet? b
    else if a = b then some a else none

/-- The type of a place at a distance from an address. -/
def place? (a i : Kind) : Option Kind :=
  match a.target?, i.target? with
  | some (.function _ _), _ | _, some (.function _ _) => none
  | some t, none => if i.isInteger then some t else none
  | none, some t => if a.isInteger then some t else none
  | _, _ => none

/-- The type of a value that is cast. -/
def cast? (k a : Kind) : Option Kind :=
  match k with
  | .void => some .void
  | .number n => if a.isArithmetic || (n.isInteger && a.target?.isSome) then some k else none
  | .complex _ => if a.isArithmetic then some k else none
  | .pointer _ => if a.target?.isSome || a.isInteger then some k else none
  | .function _ _ | .routine _ | .record _ => none

/-- Whether a value can be passed for an argument. -/
def passes (param k : Kind) : Bool :=
  (param.isArithmetic && k.isArithmetic) || (param.target?.isSome && k.target?.isSome) || param = k

/-- Whether a question can be asked about numbers of some types. -/
def answers (t : Test) (ks : List Kind) : Bool :=
  let isFraction (k : Kind) : Bool := match k with
    | .number n => !n.isInteger
    | _ => false
  let isNumber (k : Kind) : Bool := match k with
    | .number _ => true
    | _ => false
  ks.length = t.arity && ks.all isNumber &&
    if t.arity = 2 then ks.any isFraction else (ks.getLast?.map isFraction).getD false

end Kind

namespace Expr

/-- An expression without the parentheses around it. -/
def bare : Expr → Expr
  | .group e => e.bare
  | e => e

/-- The word that an expression consists of. -/
def word? (e : Expr) : Option Bytes :=
  match e.bare with
  | .name w => some w
  | _ => none

/-- Whether an expression has an address. -/
def isPlace (e : Expr) : Bool :=
  match e.bare with
  | .name _ | .subscript _ _ | .member _ _ | .unary .deref _ => true
  | _ => false

mutual

/-- Whether an expression consists of constants and operators. -/
def isClosed : Expr → Bool
  | .constant _ => true
  | .name _ | .block | .call _ _ | .subscript _ _ | .size _ | .member _ _ | .unary .address _
  | .unary .deref _ => false
  | .group e | .cast _ e | .unary _ e => isClosed e
  | .binary _ a b => isClosed a && isClosed b
  | .choice c t e => isClosed c && middleClosed t && isClosed e

/-- Whether the middle part of a choice consists of constants and operators. -/
def middleClosed : Option Expr → Bool
  | none => true
  | some e => isClosed e

end

mutual

/-- **The type of an expression.** -/
def kind? (s : Scope) : Expr → Option Kind
  | .constant c => some (if c.imaginary then .complex c.number else .number c.number)
  | .name w => s.kind? w
  | .group e => kind? s e
  | .block => some .void
  | .call f args =>
    match f.word?.bind s.test?, kinds? s args with
    | some t, some ks => if Kind.answers t ks then some .int else none
    | none, some ks =>
      match (kind? s f).bind Kind.target? with
      | some (.function params result) =>
        if ks.length = params.length ∧ ks.all Kind.isArithmetic = true then some (.number result)
        else none
      | some (.routine w) =>
        match s.routines w with
        | some (params, result) =>
          if ks.length = params.length ∧ ((params.zip ks).all fun p => p.1.passes p.2) = true then
            some result
          else none
        | none => none
      | _ => none
    | _, none => none
  | .subscript a i =>
    match kind? s a, kind? s i with
    | some a, some i => Kind.place? a i
    | _, _ => none
  | .size e => (kind? s e).map fun _ => .number .unsignedLong
  | .member e w =>
    match kind? s e with
    | some (.record t) => s.parts t w
    | _ => none
  | .cast k e => (kind? s e).bind (Kind.cast? k)
  | .unary o e => (kind? s e).bind (Kind.unary? o e.isPlace)
  | .binary o a b =>
    match kind? s a, kind? s b with
    | some x, some y => Kind.binary? o x y
    | _, _ => none
  | .choice c t e =>
    match kind? s c, middleKind? s t, kind? s e with
    | some x, some y, some z => if x.isScalar then Kind.choice? (y.getD x) z else none
    | _, _, _ => none

/-- The types of a list of expressions. -/
def kinds? (s : Scope) : List Expr → Option (List Kind)
  | [] => some []
  | e :: es =>
    match kind? s e, kinds? s es with
    | some k, some ks => some (k :: ks)
    | _, _ => none

/-- The type of the middle part of a choice, if there is one. -/
def middleKind? (s : Scope) : Option Expr → Option (Option Kind)
  | none => some none
  | some e => (kind? s e).map some

end

end Expr

end MemoFlow.Code
