import MemoFlow.Code.Expr

/-!
# Expressions that the compiler changes

A compiler that takes all numbers to be finite knows some values before it knows the operands, and
a machine that computes a product and a sum in one step rounds only once.

* `Expr.isSame`: whether both sides of an operator are one operand;
* **`Expr.finite`**: an expression with these values in it;
* `Expr.product?`: the factors of an expression that is a product;
* **`Expr.fused`**: an expression with such steps in it, as calls.
-/

/-! ## Expressions over finite numbers -/

namespace MemoFlow.Code.Expr

/-- An integer. -/
def ofNat (n : Nat) : Expr := .constant { number := .int, imaginary := false, num := n, den := 1 }

/-- Whether two expressions are one operand. -/
def isSame (locals : List (Bytes × Kind)) (a b : Expr) : Bool :=
  match a.word?, b.word? with
  | some v, some w => v = w && locals.lookup v = some .double
  | _, _ => false

/-- What an operator gives for one operand on both sides, if that is known. -/
def sameValue? : Binary → Option Expr
  | .equal | .lessEq | .greaterEq => some (ofNat 1)
  | .unequal | .less | .greater => some (ofNat 0)
  | .sub => some (.cast .double (ofNat 0))
  | .div => some (.cast .double (ofNat 1))
  | _ => none

/-- The answer to a question about finite numbers, if that is known. -/
def answer? : Test → Option Expr
  | .isNaN | .isInf | .unordered => some (ofNat 0)
  | .isFinite => some (ofNat 1)
  | _ => none

mutual

/-- **An expression over finite numbers.** -/
def finite (locals : List (Bytes × Kind)) : Expr → Expr
  | .binary o a b =>
    let e := .binary o (finite locals a) (finite locals b)
    if isSame locals a b then (sameValue? o).getD e else e
  | .call f args =>
    let e := .call (finite locals f) (allFinite locals args)
    match f.word?.bind Test.ofWord? with
    | some t => (answer? t).getD e
    | none => e
  | .group e => .group (finite locals e)
  | .cast k e => .cast k (finite locals e)
  | .size e => .size e
  | .member e w => .member (finite locals e) w
  | .unary o e => .unary o (finite locals e)
  | .subscript a i => .subscript (finite locals a) (finite locals i)
  | .choice c t e => .choice (finite locals c) (middleFinite locals t) (finite locals e)
  | .constant c => .constant c
  | .name w => .name w
  | .block => .block

/-- Some expressions over finite numbers. -/
def allFinite (locals : List (Bytes × Kind)) : List Expr → List Expr
  | [] => []
  | e :: es => finite locals e :: allFinite locals es

/-- The middle part of a choice over finite numbers. -/
def middleFinite (locals : List (Bytes × Kind)) : Option Expr → Option Expr
  | none => none
  | some e => some (finite locals e)

end

end MemoFlow.Code.Expr

/-! ## Products within sums -/

namespace MemoFlow.Code.Expr

/-- The function that computes a product and a sum of numbers of a type. -/
def step? : Number → Option Expr
  | .double => some (.name (Bytes.ofString "__builtin_fma"))
  | .single => some (.name (Bytes.ofString "__builtin_fmaf"))
  | _ => none

/-- The factors of an expression that is a product, the first one with the sign of the product. -/
def product? : Expr → Option (Expr × Expr)
  | .group e | .unary .plus e => product? e
  | .unary .minus e => (product? e).map fun p => (.unary .minus p.1, p.2)
  | .binary .mul a b => some (a, b)
  | _ => none

/-- The type of numbers that some expression gives. -/
def numberIn? (s : Scope) (e : Expr) : Option Number :=
  match e.kind? s with
  | some (.number n) => some n
  | _ => none

/-- The sum of `a` and `b`, or their difference, in one step with the product that one of them is,
the first one if both are. -/
def sum? (s : Scope) (isDifference : Bool) (a b : Expr) : Option Expr :=
  let signed (e : Expr) : Expr := if isDifference then .unary .minus e else e
  match numberIn? s (.binary .add a b) with
  | none => none
  | some n =>
    let factors? (e : Expr) : Option (Expr × Expr) :=
      if numberIn? s e = some n then e.product? else none
    (step? n).bind fun f =>
      match factors? a, factors? b with
      | some (x, y), _ => some (.call f [x, y, signed b])
      | none, some (x, y) => some (.call f [signed x, y, a])
      | none, none => none

mutual

/-- **An expression with products and sums in one step.** -/
def fused (s : Scope) : Expr → Expr
  | .binary o a b =>
    let x := fused s a
    let y := fused s b
    let e := .binary o x y
    match o with
    | .add => (sum? s false x y).getD e
    | .sub => (sum? s true x y).getD e
    | _ => e
  | .call f args => .call (fused s f) (allFused s args)
  | .group e => .group (fused s e)
  | .cast k e => .cast k (fused s e)
  | .size e => .size e
  | .member e w => .member (fused s e) w
  | .unary o e => .unary o (fused s e)
  | .subscript a i => .subscript (fused s a) (fused s i)
  | .choice c t e => .choice (fused s c) (middleFused s t) (fused s e)
  | .constant c => .constant c
  | .name w => .name w
  | .block => .block

/-- Some expressions with such steps. -/
def allFused (s : Scope) : List Expr → List Expr
  | [] => []
  | e :: es => fused s e :: allFused s es

/-- The middle part of a choice with such steps. -/
def middleFused (s : Scope) : Option Expr → Option Expr
  | none => none
  | some e => some (fused s e)

end

end MemoFlow.Code.Expr
