import MemoFlow.Code.Expr
import MemoFlow.Code.Kind
import MemoFlow.Number.Double

/-!
# Values of expressions

* **`Val`**: integers, fractions, complex numbers, addresses, functions, records and rows;
* `Val.convert`: a value in another type;
* `Val.unary`, `Val.binary`: the operators;
* **`Expr.eval`**: the value of an expression in a frame.
-/

namespace MemoFlow.Code

/-- **A value.** -/
inductive Val where
  /-- No value. -/
  | void
  /-- An integer. -/
  | int (n : Number) (v : Int)
  /-- A fraction. -/
  | real (n : Number) (x : Datum)
  /-- A complex number. -/
  | complex (n : Number) (x y : Datum)
  /-- The address at a distance from an operand, or one that was made of an integer. -/
  | address (base : Option Bytes) (offset : Int)
  /-- A function. -/
  | function (w : Bytes)
  /-- A record, by the names of its parts. -/
  | record (parts : List (Bytes × Val))
  /-- A row of values; the address of its first place as well. -/
  | row (cells : List Val)
deriving Repr, Inhabited

namespace Val

/-- The positive number zero. -/
def zero : Datum := .finite false 0 0

/-- A truth value. -/
def ofBool (b : Bool) : Val := .int .int (if b then 1 else 0)

/-- The type of an arithmetic value. -/
def kind : Val → Kind
  | .int n _ | .real n _ => .number n
  | .complex n _ _ => .complex n
  | _ => .void

/-- Whether a value counts as true. -/
def isTrue : Val → Bool
  | .void => false
  | .int _ v => v ≠ 0
  | .real _ x => !x.isZero
  | .complex _ x y => !x.isZero || !y.isZero
  | .address none v => v ≠ 0
  | .address (some _) _ | .function _ | .record _ | .row _ => true

/-! ## Conversion -/

/-- A value as a fraction of a format; of a complex number its real part. -/
def toDatum (f : Format) : Val → Datum
  | .int _ v => .ofInt f v
  | .real m x | .complex m x _ => x.convert m.format f
  | _ => zero

/-- The imaginary part of a value as a fraction of a format. -/
def imaginary (f : Format) : Val → Datum
  | .complex m _ y => y.convert m.format f
  | _ => zero

/-- A value as an integer. -/
def toInt : Val → Int
  | .int _ v | .address none v => v
  | .real n x | .complex n x _ => (x.toInt? n.format).getD (-Int.pow 2 63)
  | _ => 0

/-- A value in another type, the fractions of which are kept in some formats. -/
def convertTo (format : Number → Format) (k : Kind) (v : Val) : Val :=
  match k with
  | .void => .void
  | .number .truth => .int .truth (if v.isTrue then 1 else 0)
  | .number n => if n.isInteger then .int n (n.wrap v.toInt) else .real n (v.toDatum (format n))
  | .complex n => .complex n (v.toDatum (format n)) (v.imaginary (format n))
  | .pointer _ | .function _ _ =>
    match v with
    | .int _ o => .address none o
    | v => v
  | .record _ | .routine _ => v

/-- **A value in another type.** -/
def convert (k : Kind) (v : Val) : Val := v.convertTo Number.format k

/-- The double that a value becomes in the end. -/
def toDouble (v : Val) : Double := ⟨(v.toDatum .double).toBits⟩

/-! ## Complex numbers -/

/-- A fraction as a double. -/
def double (x : Datum) : Double := ⟨x.toBits⟩

/-- A complex double as two fractions. -/
def ofCplx (n : Number) (z : Cplx Double) : Val :=
  .complex n (Datum.ofBits z.1.bits) (Datum.ofBits z.2.bits)

/-- The product of two complex numbers. -/
def mulComplex (m : Machine) (n : Number) (a b c d : Datum) : Val :=
  let f := m.format n
  if f = .double then ofCplx n (Double.mulC (double a, double b) (double c, double d))
  else .complex n ((a.mul f c).sub f (b.mul f d)) ((a.mul f d).add f (b.mul f c))

/-- The quotient of two complex numbers. -/
def divComplex (m : Machine) (n : Number) (a b c d : Datum) : Val :=
  let f := m.format n
  if f = .double then ofCplx n (Double.divC (double a, double b) (double c, double d))
  else
    let den := (c.mul f c).add f (d.mul f d)
    .complex n (((a.mul f c).add f (b.mul f d)).div f den)
      (((b.mul f c).sub f (a.mul f d)).div f den)

/-- Whether a value is a complex number. -/
def isComplex : Val → Bool
  | .complex _ _ _ => true
  | _ => false

/-- An operation on two values one of which is complex. A real operand takes part in each part by
itself, except as a dividend. -/
def complexBinary (m : Machine) (o : Binary) (n : Number) (v w : Val) : Val :=
  let f := m.format n
  let a := v.toDatum f
  let b := v.imaginary f
  let c := w.toDatum f
  let d := w.imaginary f
  match o, v.isComplex, w.isComplex with
  | .add, true, true => .complex n (a.add f c) (b.add f d)
  | .add, true, false => .complex n (a.add f c) b
  | .add, false, _ => .complex n (a.add f c) d
  | .sub, true, true => .complex n (a.sub f c) (b.sub f d)
  | .sub, true, false => .complex n (a.sub f c) b
  | .sub, false, _ => .complex n (a.sub f c) d.neg
  | .mul, true, true => mulComplex m n a b c d
  | .mul, true, false => .complex n (a.mul f c) (b.mul f c)
  | .mul, false, _ => .complex n (a.mul f c) (a.mul f d)
  | .div, true, false => .complex n (a.div f c) (b.div f c)
  | .div, _, true => divComplex m n a b c d
  | _, _, _ => .complex n a b

/-! ## Operators -/

/-- An operation on two integers of a type; a division by zero leaves the dividend. -/
def intBinary (o : Binary) (n : Number) (a b : Int) : Val :=
  let shift (k : Int) : Nat := (k % if n.size = 4 then 32 else 64).toNat
  let bits (g : Nat → Nat → Nat) : Int := g (a % Int.pow 2 64).toNat (b % Int.pow 2 64).toNat
  let v := match o with
    | .add => a + b
    | .sub => a - b
    | .mul => a * b
    | .div => if b = 0 then a else Int.tdiv a b
    | .mod => if b = 0 then 0 else Int.tmod a b
    | .shiftLeft => a * Int.pow 2 (shift b)
    | .shiftRight => a / Int.pow 2 (shift b)
    | .bitAnd => bits (· &&& ·)
    | .bitOr => bits (· ||| ·)
    | .bitXor => bits (· ^^^ ·)
    | _ => 0
  .int n (n.wrap v)

/-- An operation on two fractions of a type. -/
def realBinary (m : Machine) (o : Binary) (n : Number) (a b : Datum) : Val :=
  let f := m.format n
  .real n (match o with
    | .add => a.add f b
    | .sub => a.sub f b
    | .mul => a.mul f b
    | .div => a.div f b
    | _ => a)

/-- An arithmetic operation in the type where both values meet. -/
def arithmetic (m : Machine) (o : Binary) (v w : Val) : Val :=
  match v.kind.meet? w.kind with
  | some (.number n) =>
    if n.isInteger then intBinary o n (n.wrap v.toInt) (n.wrap w.toInt)
    else realBinary m o n (v.toDatum (m.format n)) (w.toDatum (m.format n))
  | some (.complex n) => complexBinary m o n v w
  | _ => .void

/-- Where an address lies: addresses made of integers come first, then functions, then operands at
their positions. -/
def location (position : Bytes → Int) : Val → Int × Int
  | .address (some w) o => (3, position w + o)
  | .address none o => (if o = 0 then 0 else 1, o)
  | .int _ v => (if v = 0 then 0 else 1, v)
  | _ => (2, 0)

/-- The order of two values, none when a number is no number. -/
def compare? (m : Machine) (position : Bytes → Int) (v w : Val) : Option Ordering :=
  match v, w with
  | .function a, .function b => some (if a = b then .eq else .lt)
  | v, w =>
    match v.kind.meet? w.kind with
    | some (.number n) =>
      let f := m.format n
      if n.isInteger then some (compare (n.wrap v.toInt) (n.wrap w.toInt))
      else (v.toDatum f).compare? f (w.toDatum f)
    | some (.complex n) =>
      let f := m.format n
      -- only equality is asked for
      match (v.toDatum f).compare? f (w.toDatum f), (v.imaginary f).compare? f (w.imaginary f) with
      | some .eq, o => o
      | some _, some _ => some .lt
      | _, _ => none
    | _ =>
      let a := v.location position
      let b := w.location position
      some ((compare a.1 b.1).then (compare a.2 b.2))

/-- Whether an order is one that the operator asks for. -/
def answers (o : Binary) (r : Option Ordering) : Bool :=
  match o with
  | .less => r = some .lt
  | .greater => r = some .gt
  | .lessEq => r = some .lt || r = some .eq
  | .greaterEq => r = some .gt || r = some .eq
  | .equal => r = some .eq
  | _ => r ≠ some .eq

/-- A sum or difference with an address. -/
def shifted (position : Bytes → Int) (o : Binary) (v w : Val) : Val :=
  match o, v, w with
  | .add, .address b x, .int _ y | .add, .int _ y, .address b x => .address b (x + y)
  | .sub, .address b x, .int _ y => .address b (x - y)
  | .add, .row vs, .int _ y | .add, .int _ y, .row vs => .row (vs.drop y.toNat)
  | _, .function f, .int _ _ | _, .int _ _, .function f => .function f
  | _, .function _, .function _ => .int .long 0
  | _, v, w => .int .long ((v.location position).2 - (w.location position).2)

/-- Whether a value is an address or a function. -/
def isAddress : Val → Bool
  | .address _ _ | .function _ | .row _ => true
  | _ => false

/-- A row with a value at a place. -/
def setCell (cells : List Val) (n : Nat) (v : Val) : List Val :=
  (cells ++ List.replicate (n + 1 - cells.length) Val.void).set n v

/-- A part of a record. -/
def part (w : Bytes) : Val → Val
  | .record ps => (ps.lookup w).getD .void
  | _ => .void

/-- An operator on two values, both of which are needed. -/
def binary (m : Machine) (position : Bytes → Int) (o : Binary) (v w : Val) : Val :=
  match o with
  | .add | .sub | .mul | .div | .mod | .bitAnd | .bitXor | .bitOr =>
    if v.isAddress || w.isAddress then shifted position o v w else arithmetic m o v w
  | .shiftLeft | .shiftRight =>
    match v.kind with
    | .number n => intBinary o n.promote v.toInt w.toInt
    | _ => .void
  | .less | .greater | .lessEq | .greaterEq | .equal | .unequal =>
    ofBool (answers o (compare? m position v w))
  | .and => ofBool (v.isTrue && w.isTrue)
  | .or => ofBool (v.isTrue || w.isTrue)
  | .comma => w

/-- An operator on one value. -/
def unary (load : Val → Val) (o : Unary) (v : Val) : Val :=
  match o, v with
  | .plus, .int n a => .int n.promote a
  | .plus, v => v
  | .minus, .int n a => .int n.promote (n.promote.wrap (-a))
  | .minus, .real n x => .real n x.neg
  | .minus, .complex n x y => .complex n x.neg y.neg
  | .not, v => ofBool !v.isTrue
  | .complement, .int n a => .int n.promote (n.promote.wrap (-a - 1))
  | .complement, .complex n x y => .complex n x y.neg
  | .address, v => v
  | .deref, .function w => .function w
  | .deref, v => load v
  | _, v => v

end Val

/-! ## Evaluation -/

/-- **What an expression is evaluated in.** -/
structure Frame where
  /-- How fractions are computed. -/
  machine : Machine := { }
  /-- What words stand for. -/
  scope : Scope
  /-- The values of operands. -/
  value : Bytes → Val
  /-- The values that the text keeps. -/
  kept : Bytes → Option Val := fun _ => none
  /-- Where operands lie. -/
  position : Bytes → Int
  /-- The values of functions. -/
  call : Bytes → List Val → Val

namespace Frame

/-- The value at an address; away from the operands there is none. -/
def load (f : Frame) : Val → Val
  | .address (some w) 0 => f.value w
  | .row (v :: _) => v
  | _ => .real .double Val.zero

/-- The value of a word. -/
def ofName (f : Frame) (w : Bytes) : Val :=
  if (f.scope.operand? w).isSome then f.value w else (f.kept w).getD (.function w)

/-- A value as functions get it: an operand whose address is passed stands by itself. -/
def passed (f : Frame) : Val → Val
  | .address (some w) 0 => .row [f.value w]
  | v => v

/-- A value in the type of an expression. -/
def typed (f : Frame) (e : Expr) (v : Val) : Val :=
  match v, e.kind? f.scope with
  | .void, some k | .int _ _, some k | .real _ _, some k | .complex _ _ _, some k => v.convert k
  | v, _ => v

/-- The answer to a question. -/
def answer (f : Frame) (t : Test) (vs : List Val) : Val :=
  match t, vs with
  | .classify, vs =>
    match vs.getLast? with
    | some (.real n x) => vs.getD (Test.classOf n.format (x.round n.format)) .void
    | _ => .void
  | t, [.real n x] => .int .int (t.ofNumber n.format (x.round n.format))
  | t, [v, w] => Val.ofBool (t.ofOrder (Val.compare? f.machine (fun _ => 0) v w))
  | _, _ => .void

end Frame

namespace Expr

mutual

/-- **The value of an expression.** Operators have no effects, so both sides of each may be
computed. -/
def eval (f : Frame) : Expr → Val
  | .constant c =>
    if c.number.isInteger then .int c.number c.num
    else
      let d := c.datumIn (f.machine.constantFormat c.number)
      if c.imaginary then .complex c.number Val.zero d else .real c.number d
  | .name w => f.ofName w
  | .group e => eval f e
  | .block => .void
  | .call g args =>
    match g.word?.bind f.scope.test? with
    | some t => f.answer t (evalAll f args)
    | none =>
      match eval f g with
      | .function w => f.call w ((evalAll f args).map f.passed)
      | _ => .void
  | .subscript a i =>
    f.typed (.subscript a i) (f.load (Val.shifted f.position .add (eval f a) (eval f i)))
  | .size e => .int .unsignedLong (((e.kind? f.scope).map Kind.size).getD 1)
  | .member e w => f.typed (.member e w) ((eval f e).part w)
  | .cast k e => (eval f e).convert k
  | .unary .address e => address f e
  | .unary o e => Val.unary f.load o (eval f e)
  | .binary o a b =>
    let m := if a.isClosed && b.isClosed then f.machine.beforehand else f.machine
    Val.binary m f.position o (eval f a) (eval f b)
  | .choice c t e =>
    let x := eval f c
    let v := if x.isTrue then evalMiddle f x t else eval f e
    match kind? f.scope (.choice c t e) with
    | some k => v.convertTo f.machine.format k
    | none => v

/-- The address of a place. -/
def address (f : Frame) : Expr → Val
  | .name w =>
    if (f.scope.operand? w).isSome then .address (some w) 0
    else ((f.kept w).map fun v => .row [v]).getD (.function w)
  | .group e => address f e
  | .member e w => .row [(eval f e).part w]
  | .unary .deref e => eval f e
  | .subscript a i => Val.shifted f.position .add (eval f a) (eval f i)
  | _ => .void

/-- The values of arguments. -/
def evalAll (f : Frame) : List Expr → List Val
  | [] => []
  | e :: es => eval f e :: evalAll f es

/-- The value of the middle part of a choice, or that of the condition. -/
def evalMiddle (f : Frame) (c : Val) : Option Expr → Val
  | none => c
  | some e => eval f e

end

end Expr

end MemoFlow.Code
