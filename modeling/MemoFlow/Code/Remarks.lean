import MemoFlow.Code.Value

/-!
# Remarks on expressions

Two expressions are alike when the same operators stand in both around the same constants and names.
Parentheses, casts that change nothing, and the order of the terms of a sum or a product do not
count.

* `Expr.plain`: an expression without parentheses and casts that change nothing;
* **`Expr.isAlike`**: whether two expressions are alike;
* `Expr.hasEffect`: whether an expression does more than give a value;
* `Expr.closed?`: the integer of an expression without operands;
* `Expr.tested`: remarks on an expression that is used as a condition;
* **`Expr.remarks`**: what the compiler remarks on an expression.
-/

/-! ## Expressions that are alike -/

namespace MemoFlow.Code

namespace Binary

/-- Whether the operands of the operator can change places. -/
def isSymmetric : Binary → Bool
  | .add | .mul | .bitAnd | .bitXor | .bitOr | .equal | .unequal => true
  | _ => false

/-- The operator that says the same with its operands in the other order. -/
def swapped? : Binary → Option Binary
  | .less => some .greater
  | .greater => some .less
  | .lessEq => some .greaterEq
  | .greaterEq => some .lessEq
  | _ => none

end Binary

/-- Whether two constants have the same value. -/
def Constant.isAlike (c d : Constant) : Bool :=
  c.imaginary = d.imaginary && c.num * d.den = d.num * c.den &&
    (c.number = d.number || c.num % c.den = 0)

namespace Expr

mutual

/-- An expression without parentheses and casts that change nothing. -/
def plain (s : Scope) : Expr → Expr
  | .constant c => .constant c
  | .name w => .name w
  | .block => .block
  | .group e | .unary .plus e => plain s e
  | .cast k e => if e.kind? s = some k then plain s e else .cast k (plain s e)
  | .call f args => .call (plain s f) (allPlain s args)
  | .subscript a i => .subscript (plain s a) (plain s i)
  | .size e => .size (plain s e)
  | .member e w => .member (plain s e) w
  | .unary o e => .unary o (plain s e)
  | .binary o a b => .binary o (plain s a) (plain s b)
  | .choice c t e => .choice (plain s c) (middlePlain s t) (plain s e)

/-- The same for a list of expressions. -/
def allPlain (s : Scope) : List Expr → List Expr
  | [] => []
  | e :: es => plain s e :: allPlain s es

/-- The same for the middle part of a choice. -/
def middlePlain (s : Scope) : Option Expr → Option Expr
  | none => none
  | some e => some (plain s e)

end

mutual

/-- Whether two expressions without parentheses are alike; with `turned` comparisons may be turned
around. -/
def matched (turned : Bool) : Expr → Expr → Bool
  | .constant c, .constant d => c.isAlike d
  | .name v, .name w => v = w
  | .cast k a, .cast l b => k = l && matched turned a b
  | .call f as, .call g bs => matched turned f g && allMatched turned as bs
  | .subscript a i, .subscript b j => matched turned a b && matched turned i j
  | .size a, .size b => matched turned a b
  | .member a v, .member b w => v = w && matched turned a b
  | .unary o a, .unary p b => o = p && matched turned a b
  | .binary o a b, .binary p c d =>
    (o = p && matched turned a c && matched turned b d) ||
      (((o = p && o.isSymmetric) || (turned && o.swapped? = some p)) &&
        matched turned a d && matched turned b c)
  | _, _ => false

/-- Whether two lists of expressions are alike. -/
def allMatched (turned : Bool) : List Expr → List Expr → Bool
  | [], [] => true
  | a :: as, b :: bs => matched turned a b && allMatched turned as bs
  | _, _ => false

end

/-- **Whether two expressions are alike.** -/
def isAlike (s : Scope) (turned : Bool) (a b : Expr) : Bool :=
  matched turned (a.plain s) (b.plain s)

end Expr

end MemoFlow.Code

/-! ## Remarks on expressions -/

namespace MemoFlow.Code

namespace Expr

/-! ## Forms of expressions -/

/-- Functions that report no errors and do nothing but give a value. -/
def silent : List String :=
  ["atan", "cbrt", "ceil", "cos", "erf", "fabs", "floor", "fmax", "fmin", "round", "sin", "tan",
    "tanh", "trunc"]

mutual

/-- Whether an expression does more than give a value. -/
def hasEffect : Expr → Bool
  | .constant _ | .name _ | .size _ => false
  | .block => true
  | .call f args =>
    match f.word? with
    | some w => !silent.any (fun s => Bytes.ofString s = w) || anyEffect args
    | none => true
  | .group e | .cast _ e | .unary _ e | .member e _ => hasEffect e
  | .subscript a b | .binary _ a b => hasEffect a || hasEffect b
  | .choice c t e => hasEffect c || middleEffect t || hasEffect e

/-- Whether one of some expressions does more than give a value. -/
def anyEffect : List Expr → Bool
  | [] => false
  | e :: es => hasEffect e || anyEffect es

/-- Whether the middle part of a choice does more than give a value. -/
def middleEffect : Option Expr → Bool
  | none => false
  | some e => hasEffect e

end

/-- Functions that are steps of the machine. -/
def steps : List String := ["fabs", "floor", "ceil", "trunc", "rint", "copysign"]

mutual

/-- How many calls an expression makes. -/
def callCount : Expr → Nat
  | .constant _ | .name _ | .block | .size _ => 0
  | .group e | .cast _ e | .unary _ e | .member e _ => callCount e
  | .subscript a b | .binary _ a b => callCount a + callCount b
  | .choice c t e => callCount c + middleCount t + callCount e
  | .call f args =>
    let w := f.word?.getD []
    let isStep : Bool := steps.any fun t => Bytes.ofString t = w
    allCount args +
      if (Library.signature? w).isNone || isStep || args.all isClosed then 0 else 1

/-- How many calls some expressions make. -/
def allCount : List Expr → Nat
  | [] => 0
  | e :: es => callCount e + allCount es

/-- How many calls the middle part of a choice makes. -/
def middleCount : Option Expr → Nat
  | none => 0
  | some e => callCount e

end

/-- A frame without operands. -/
def emptyFrame : Frame where
  scope := { operands := [] }
  value _ := .void
  position _ := 0
  call _ _ := .void

/-- The integer of an expression without operands. -/
def closed? (e : Expr) : Option Int :=
  if e.isClosed then
    match e.eval emptyFrame with
    | .int _ v => some v
    | _ => none
  else none

/-- Whether an expression gives a truth value. -/
def isTruth (e : Expr) : Bool :=
  match e.bare with
  | .binary o _ _ => o.isComparison || o = .and || o = .or
  | .unary .not _ => true
  | _ => false

/-- The last one of expressions with commas between them. -/
def lastPart (e : Expr) : Expr :=
  match e with
  | .group e => e.lastPart
  | .binary .comma _ b => b.lastPart
  | e => e

/-- The operator of an expression that is not in parentheses. -/
def openBinary? : Expr → Option Binary
  | .binary o _ _ => some o
  | _ => none

/-- Whether an expression is the address of an operand or a function. -/
def isAddress (s : Scope) (e : Expr) : Bool :=
  match e.bare with
  | .name w => (s.operand? w).isNone
  | .unary .address a => a.word?.isSome
  | _ => false

/-- Whether an expression is a constant, maybe with a sign. -/
def isSignedConstant (e : Expr) : Bool :=
  match e.bare with
  | .constant c => !c.imaginary
  | .unary .minus e | .unary .plus e =>
    match e.bare with
    | .constant c => !c.imaginary
    | _ => false
  | _ => false

/-- Whether a number may be a fraction. -/
def isFraction (s : Scope) (e : Expr) : Bool :=
  match e.kind? s with
  | some (.number n) => !n.isInteger
  | some (.complex _) => true
  | _ => false

/-- Remarks on an expression that is used as a condition. -/
def tested (s : Scope) (e : Expr) : List Remark :=
  let fraction :=
    if e.isFraction s && !e.isSignedConstant then [.chosen "float-equal"] else []
  let isInteger : Bool := ((e.kind? s).map Kind.isInteger).getD false
  let address := if e.isAddress s then [.chosen "address"] else []
  let context := match e.bare with
    | .binary .mul _ _ => [.chosen "int-in-bool-context"]
    | .binary .shiftLeft _ _ => if isInteger then [.chosen "int-in-bool-context"] else []
    | _ => []
  fraction ++ address ++ context

/-! ## Operators -/

/-- Remarks on operands that stand without parentheses. -/
def openRemarks (s : Scope) (o : Binary) (a b : Expr) : List Remark :=
  let isOpen (p : Binary → Bool) (e : Expr) : Bool := (e.openBinary?.map p).getD false
  let either (p : Binary → Bool) : Bool := isOpen p a || isOpen p b
  let isSum (o : Binary) : Bool := o = .add || o = .sub
  let isInteger (e : Expr) : Bool := ((e.kind? s).map Kind.isInteger).getD false
  let isChain (e : Expr) : Bool :=
    match e.bare with
    | .binary o _ _ => o.isOrder && isInteger e
    | _ => false
  let suspicious : Bool := match o with
    | .shiftLeft | .shiftRight => either isSum
    | .or => either (· = .and)
    | .bitOr => either fun p => isSum p || p = .bitAnd || p = .bitXor || p.isComparison
    | .bitXor => either fun p => isSum p || p = .bitAnd || p.isComparison
    | .bitAnd => either fun p => isSum p || p.isComparison
    | .equal | .unequal => either Binary.isComparison
    | .less | .greater | .lessEq | .greaterEq =>
      (isChain a && !(a matches .group _)) || (isChain b && !(b matches .group _))
    | _ => false
  let negated : Bool := match a, o.isComparison with
    | .unary .not _, true => !b.isTruth
    | _, _ => false
  (if suspicious then [.chosen "parentheses"] else []) ++
    if negated then [.chosen "logical-not-parentheses"] else []

/-- Remarks on operands of different kinds. -/
def kindRemarks (s : Scope) (o : Binary) (a b : Expr) : List Remark :=
  match a.kind? s, b.kind? s with
  | some x, some y =>
    if o.isComparison then
      match x.target?, y.target? with
      | some t, some u =>
        if t = u then
          if a.isAddress s && b.isAddress s && a.bare == b.bare then
            [.chosen "tautological-compare"] else []
        else [.required ""]
      | some _, none | none, some _ => [.required ""]
      | none, none =>
        match x.meet? y with
        | some (.number n) =>
          if o.isEquality && !n.isInteger then [.chosen "float-equal"] else []
        | _ => if o.isEquality then [.chosen "float-equal"] else []
    else
      match o, x.target?, y.target? with
      | .add, some (.function _ _), _ | .add, _, some (.function _ _)
      | .sub, some (.function _ _), _ | .add, some .void, _ | .add, _, some .void
      | .sub, some .void, _ => [.extension "pointer-arith"]
      | .div, none, none | .mod, none, none =>
        if x.isInteger && y.isInteger && b.closed? = some 0 then [.usual "div-by-zero"] else []
      | .shiftLeft, none, none | .shiftRight, none, none =>
        match b.closed? with
        | some k =>
          if k < 0 then [.usual "shift-count-negative"]
          else if 32 ≤ k then [.usual "shift-count-overflow"]
          else []
        | none => []
      | _, _, _ => []
  | _, _ => []

/-- Remarks on numbers of a short type that meet numbers of the usual one. -/
def meetRemarks (s : Scope) (a b : Expr) : List Remark :=
  let number? (e : Expr) : Option Number := match e.kind? s with
    | some (.number n) | some (.complex n) => some n
    | _ => none
  match number? a, number? b with
  | some x, some y =>
    let isShort (n : Number) : Bool := n = .single || n = .half
    if (isShort x && y = .double) || (isShort y && x = .double) then [.chosen "double-promotion"]
    else []
  | _, _ => []

/-- A condition without the negations in front of it. -/
def positive (e : Expr) : Expr :=
  match e with
  | .group e => e.positive
  | .unary .not e => if e.isTruth then e.positive else .unary .not e
  | e => e

/-- Whether a condition holds one of two truth values already. -/
def isLogical (s : Scope) (e : Expr) : Bool :=
  e.isTruth ||
    match e.bare with
    | .name _ | .cast _ _ => ((e.kind? s).map Kind.isInteger).getD false
    | _ => false

/-- Remarks on two conditions of which one says nothing more. -/
def repeatRemarks (s : Scope) (a b : Expr) : List Remark :=
  if a.isLogical s && b.isLogical s && !a.hasEffect && a.positive.isAlike s true b.positive then
    [.chosen "logical-op"]
  else []

/-- Remarks on an operator on two values. -/
def binaryRemarks (s : Scope) (o : Binary) (a b : Expr) : List Remark :=
  openRemarks s o a b ++ kindRemarks s o a b ++
    match o with
    | .and | .or => tested s a ++ tested s b ++ repeatRemarks s a b
    | .add | .sub | .mul | .div | .less | .greater | .lessEq | .greaterEq | .equal | .unequal =>
      meetRemarks s a b
    | .comma => if a.hasEffect || a.kind? s = some .void then [] else [.chosen "unused-value"]
    | _ => []

/-- Remarks on an operator on one value. -/
def unaryRemarks (s : Scope) (o : Unary) (e : Expr) : List Remark :=
  match o with
  | .not => tested s e
  | .complement =>
    match e.kind? s with
    | some (.complex _) => [.extension "pedantic"]
    | _ => if e.lastPart.isTruth then [.chosen "bool-operation"] else []
  | .deref => if (e.kind? s).bind Kind.target? = some .void then [.usual ""] else []
  | _ => []

/-- Remarks on a choice. -/
def choiceRemarks (s : Scope) (c : Expr) (t : Option Expr) (e : Expr) : List Remark :=
  let branches := match ((t.getD c).kind? s), (e.kind? s) with
    | some x, some y =>
      match x.target?, y.target? with
      | some t, some u => if t = u then [] else [.required ""]
      | none, none => if (x = .void) = (y = .void) then [] else [.extension "pedantic"]
      | _, _ => if x = .void || y = .void then [.extension "pedantic"] else [.required ""]
    | _, _ => []
  let missing := match t with
    | some _ => []
    | none => .extension "pedantic" :: if c.isTruth then [.chosen "parentheses"] else []
  let alike := if (t.getD c).isAlike s false e then [.chosen "duplicated-branches"] else []
  tested s c ++ branches ++ missing ++ alike ++ meetRemarks s (t.getD c) e

mutual

/-- **What the compiler remarks on an expression.** -/
def remarks (s : Scope) : Expr → List Remark
  | .constant c => c.remarks
  | .name _ => []
  | .block => [.extension "pedantic"]
  | .group e | .cast _ e | .member e _ | .size e => remarks s e
  | .call f args => remarks s f ++ allRemarks s args
  | .subscript a b => remarks s a ++ remarks s b
  | .unary o e => unaryRemarks s o e ++ remarks s e
  | .binary o a b => binaryRemarks s o a b ++ remarks s a ++ remarks s b
  | .choice c t e => choiceRemarks s c t e ++ remarks s c ++ middleRemarks s t ++ remarks s e

/-- Remarks on some expressions. -/
def allRemarks (s : Scope) : List Expr → List Remark
  | [] => []
  | e :: es => remarks s e ++ allRemarks s es

/-- Remarks on the middle part of a choice. -/
def middleRemarks (s : Scope) : Option Expr → List Remark
  | none => []
  | some e => remarks s e

end

end Expr

end MemoFlow.Code
