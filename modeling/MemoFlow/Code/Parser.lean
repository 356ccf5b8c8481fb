import MemoFlow.Code.Expr
import MemoFlow.Code.Token

/-!
# Reading expressions

* `Code.binary?`, `Code.unary?`: the operators of punctuators;
* `Code.typeName?`: the type that the tokens at the start of a list name;
* **`Code.expr?`**: the expression at the start of a list of tokens.

Operands are constants, so there is no reading of assignments.
-/

namespace MemoFlow.Code

open Ascii

/-- The operator of a punctuator with its precedence, the tightest one highest. -/
def binary? : String → Option (Binary × Nat)
  | "||" => some (.or, 1)
  | "&&" => some (.and, 2)
  | "|" => some (.bitOr, 3)
  | "^" => some (.bitXor, 4)
  | "&" => some (.bitAnd, 5)
  | "==" => some (.equal, 6)
  | "!=" => some (.unequal, 6)
  | "<" => some (.less, 7)
  | ">" => some (.greater, 7)
  | "<=" => some (.lessEq, 7)
  | ">=" => some (.greaterEq, 7)
  | "<<" => some (.shiftLeft, 8)
  | ">>" => some (.shiftRight, 8)
  | "+" => some (.add, 9)
  | "-" => some (.sub, 9)
  | "*" => some (.mul, 10)
  | "/" => some (.div, 10)
  | "%" => some (.mod, 10)
  | _ => none

/-- The operator of a punctuator in front of a value. -/
def unary? : String → Option Unary
  | "+" => some .plus
  | "-" => some .minus
  | "!" => some .not
  | "~" => some .complement
  | "&" => some .address
  | "*" => some .deref
  | _ => none

/-- What is read, and the tokens behind it. -/
abbrev Read (β : Type) : Type := Option (β × List Token)

/-- How texts are read. -/
structure Reading where
  /-- The constants of numeric tokens. -/
  constant : Bytes → Option Constant := Constant.ofBytes? { }
  /-- The types that words stand for. -/
  types : Bytes → Option Kind := fun _ => none

/-- The value of a character between quotes. -/
def characterValue? : Bytes → Option Nat
  | [a, c, b] => if a = byte '\'' && b = byte '\'' then some c.toNat else none
  | [a, s, c, b] =>
    if a = byte '\'' && s = byte '\\' && b = byte '\'' then
      ([('n', 10), ('t', 9), ('0', 0), ('r', 13), ('a', 7), ('b', 8), ('f', 12), ('v', 11),
        ('e', 27), ('\\', 92), ('\'', 39), ('"', 34), ('?', 63)].find? fun p => byte p.1 = c).map
          Prod.snd
    else none
  | _ => none

/-- An integer of the usual type. -/
def Constant.ofInt (v : Nat) : Constant :=
  { number := .int, imaginary := false, num := v, den := 1 }

/-- Words that types are made of. -/
def typeWords : List String :=
  ["void", "char", "short", "int", "long", "float", "double", "signed", "unsigned", "_Bool",
    "_Complex", "const", "volatile", "restrict", "__restrict", "register", "_Float16", "_Float32",
    "_Float64", "_Float128", "_Float32x", "_Float64x", "_Decimal32", "_Decimal64", "_Decimal128"]

/-- Whether a word is among some texts. -/
def isOneOf (words : List String) (w : Bytes) : Bool := words.any fun s => Bytes.ofString s = w

/-- The words of types at the start of a list of tokens, and the rest. -/
def spanTypeWords : List Token → List String × List Token
  | .word w :: r =>
    if isOneOf typeWords w then
      let p := spanTypeWords r
      (w.toText :: p.1, p.2)
    else ([], .word w :: r)
  | ts => ([], ts)

/-- An address type for each star at the start of a list of tokens. -/
def spanStars (k : Kind) : List Token → Kind × List Token
  | .punct "*" :: r => spanStars (.pointer k) r
  | .word w :: r =>
    if isOneOf ["const", "restrict", "volatile", "__restrict"] w then spanStars k r
    else (k, .word w :: r)
  | ts => (k, ts)

/-- **The type that the tokens at the start of a list name.** -/
def typeName? (types : Bytes → Option Kind) (ts : List Token) : Read Kind :=
  let (ws, r) := spanTypeWords ts
  match Kind.ofWords? ws, r with
  | some k, r => some (spanStars k r)
  | none, .word w :: r =>
    if (Kind.plainWords ws).isEmpty then (types w).map fun k => spanStars k r else none
  | none, _ => none

mutual

/-- A name, a constant or an expression in parentheses. -/
def primary? (g : Reading) : Nat → List Token → Read Expr
  | 0, _ => none
  | n + 1, ts =>
    match ts with
    | .word w :: r => some (.name w, r)
    | .number l :: r => (g.constant l).map fun c => (.constant c, r)
    | .quote t :: r => (characterValue? t).map fun v => (.constant (.ofInt v), r)
    | .punct "(" :: .punct "\x7b" :: .punct "\x7d" :: .punct ")" :: r => some (.block, r)
    | .punct "(" :: r =>
      match comma? g n r with
      | some (e, .punct ")" :: r) => some (.group e, r)
      | _ => none
    | _ => none

/-- Calls of what was read and places behind it. -/
def postfixed? (g : Reading) : Nat → Expr → List Token → Read Expr
  | 0, _, _ => none
  | n + 1, f, ts =>
    match ts with
    | .punct "(" :: .punct ")" :: r => postfixed? g n (.call f []) r
    | .punct "(" :: r =>
      match arguments? g n r with
      | some (args, r) => postfixed? g n (.call f args) r
      | none => none
    | .punct "[" :: r =>
      match comma? g n r with
      | some (i, .punct "]" :: r) => postfixed? g n (.subscript f i) r
      | _ => none
    | .punct "." :: .word w :: r => postfixed? g n (.member f w) r
    | .punct "->" :: .word w :: r => postfixed? g n (.member (.unary .deref f) w) r
    | ts => some (f, ts)

/-- The arguments of a call and the closing parenthesis. -/
def arguments? (g : Reading) : Nat → List Token → Read (List Expr)
  | 0, _ => none
  | n + 1, ts =>
    match conditional? g n ts with
    | some (e, .punct "," :: r) => (arguments? g n r).map fun p => (e :: p.1, p.2)
    | some (e, .punct ")" :: r) => some ([e], r)
    | _ => none

/-- A value with the operators in front of it. -/
def prefixed? (g : Reading) : Nat → List Token → Read Expr
  | 0, _ => none
  | n + 1, ts =>
    let operand : Read Expr :=
      match primary? g n ts with
      | some (e, r) => postfixed? g n e r
      | none => none
    match ts with
    | .punct "(" :: r =>
      match typeName? g.types r with
      | some (k, .punct ")" :: r) => (prefixed? g n r).map fun p => (.cast k p.1, p.2)
      | _ => operand
    | .word w :: r =>
      if isOneOf ["sizeof"] w then
        match r with
        | .punct "(" :: q =>
          match typeName? g.types q with
          | some (k, .punct ")" :: q) =>
            some (.constant { Constant.ofInt k.size with number := .unsignedLong }, q)
          | _ => (prefixed? g n r).map fun p => (.size p.1, p.2)
        | r => (prefixed? g n r).map fun p => (.size p.1, p.2)
      else operand
    | .punct p :: r =>
      match unary? p with
      | some o => (prefixed? g n r).map fun p => (.unary o p.1, p.2)
      | none => operand
    | _ => operand

/-- Operators of at least a precedence behind what was read. -/
def operators? (g : Reading) : Nat → Nat → Expr → List Token → Read Expr
  | 0, _, _, _ => none
  | n + 1, least, a, ts =>
    match ts with
    | .punct p :: r =>
      match binary? p with
      | some (o, level) =>
        if least ≤ level then
          match prefixed? g n r with
          | some (b, r) =>
            match operators? g n (level + 1) b r with
            | some (b, r) => operators? g n least (.binary o a b) r
            | none => none
          | none => none
        else some (a, ts)
      | none => some (a, ts)
    | ts => some (a, ts)

/-- A choice, or what binds tighter. -/
def conditional? (g : Reading) : Nat → List Token → Read Expr
  | 0, _ => none
  | n + 1, ts =>
    match prefixed? g n ts with
    | none => none
    | some (a, r) =>
      match operators? g n 1 a r with
      | some (c, .punct "?" :: .punct ":" :: r) =>
        (conditional? g n r).map fun p => (.choice c none p.1, p.2)
      | some (c, .punct "?" :: r) =>
        match comma? g n r with
        | some (t, .punct ":" :: r) =>
          (conditional? g n r).map fun p => (.choice c (some t) p.1, p.2)
        | _ => none
      | r => r

/-- Expressions with commas between them; the last one is the value. -/
def comma? (g : Reading) : Nat → List Token → Read Expr
  | 0, _ => none
  | n + 1, ts =>
    match conditional? g n ts with
    | some (a, r) => commas? g n a r
    | none => none

/-- Expressions behind commas. -/
def commas? (g : Reading) : Nat → Expr → List Token → Read Expr
  | 0, _, _ => none
  | n + 1, a, ts =>
    match ts with
    | .punct "," :: r =>
      match conditional? g n r with
      | some (b, r) => commas? g n (.binary .comma a b) r
      | none => none
    | ts => some (a, ts)

end

/-- **The expression at the start of a list of tokens**, and the tokens behind it. -/
def expr? (g : Reading) (ts : List Token) : Read Expr := comma? g (12 * (ts.length + 1)) ts

end MemoFlow.Code
