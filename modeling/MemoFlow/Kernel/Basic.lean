import MemoFlow.Text.Ascii

/-!
# Kernels

A kernel computes one number from each element of its operands, by an expression over the names of
the operands and functions of the mathematical library.

* **`Kernel`**: name, parameters and expression, as byte strings;
* `Piece`, `Kernel.pieces`: words, numeric literals and single bytes of an expression;
* `KernelError`, **`Kernel.check`**: which kernels are accepted, and why others are not;
* **`Kernel.constants`**: the expression with every literal as a floating constant.
-/

namespace MemoFlow

open Ascii

/-- **A kernel.** -/
structure Kernel where
  /-- The name. -/
  name : Bytes
  /-- The names of the operands. -/
  params : List Bytes
  /-- The expression. -/
  expression : Bytes
deriving DecidableEq, Repr

namespace Kernel

/-! ## Words -/

/-- The functions that expressions may call. -/
def functions : List String :=
  ["sin", "cos", "tan", "asin", "acos", "atan", "atan2", "sinh", "cosh", "tanh", "exp", "exp2",
    "expm1", "log", "log2", "log10", "log1p", "sqrt", "cbrt", "pow", "fabs", "floor", "ceil",
    "round", "trunc", "fmin", "fmax", "fmod", "hypot", "erf", "erfc"]

/-- Words that cannot name an operand. -/
def reserved : List String :=
  ["auto", "break", "case", "char", "const", "continue", "default", "do", "double", "else", "enum",
    "extern", "float", "for", "goto", "if", "inline", "int", "long", "register", "restrict",
    "return", "short", "signed", "sizeof", "static", "struct", "switch", "typedef", "union",
    "unsigned", "void", "volatile", "while", "size_t"]

/-- Whether a word is in a list. -/
def isAmong (words : List String) (w : Bytes) : Bool :=
  words.any fun s => Bytes.ofString s = w

/-- What names of the generated code begin with. -/
def ownMark : Bytes := Bytes.ofString "synapse_"

/-- Whether a byte string is a word. -/
def isWord : Bytes → Bool
  | [] => false
  | b :: r => isWordStart b && r.all isWordPart

/-! ## Pieces of an expression -/

/-- The letter in front of an exponent. -/
def isExponentMark (b : UInt8) : Bool := b = 101 || b = 69

/-- A plus or a minus. -/
def isSign (b : UInt8) : Bool := b = 43 || b = 45

/-- Bytes of the mantissa of a literal. -/
def isMantissa (b : UInt8) : Bool := isDigit b || b = 46

/-- A numeric literal and the rest. An exponent mark belongs to the literal when something follows
it, and takes a sign along. -/
def spanLiteral : Bytes → Bytes × Bytes
  | [] => ([], [])
  | [b] => if isMantissa b then ([b], []) else ([], [b])
  | b :: c :: r =>
    if isMantissa b then
      let p := spanLiteral (c :: r)
      (b :: p.1, p.2)
    else if isExponentMark b then
      if isSign c then
        let p := spanLiteral r
        (b :: c :: p.1, p.2)
      else
        let p := spanLiteral (c :: r)
        (b :: p.1, p.2)
    else ([], b :: c :: r)

/-- A part of an expression. -/
inductive Piece where
  /-- A word. -/
  | word (w : Bytes)
  /-- A numeric literal. -/
  | literal (l : Bytes)
  /-- Any other byte. -/
  | byte (b : UInt8)
deriving DecidableEq, Repr

/-- The first part of a text that starts with `b`, and the rest. -/
def firstPiece (b : UInt8) (r : Bytes) : Piece × Bytes :=
  if isWordStart b then (.word (b :: r.takeWhile isWordPart), r.dropWhile isWordPart)
  else if isMantissa b then
    let p := spanLiteral (b :: r)
    (.literal p.1, p.2)
  else (.byte b, r)

theorem length_spanLiteral_le (bs : Bytes) : (spanLiteral bs).2.length ≤ bs.length := by
  fun_induction spanLiteral bs <;> simp_all +zetaDelta <;> omega

theorem length_spanLiteral_lt {b : UInt8} (r : Bytes) (h : isMantissa b = true) :
    (spanLiteral (b :: r)).2.length < r.length + 1 := by
  cases r with
  | nil => simp [spanLiteral, h]
  | cons c r =>
    have := length_spanLiteral_le (c :: r)
    simp only [spanLiteral, h, if_true]
    simp only [List.length_cons] at this ⊢
    omega

theorem length_firstPiece (b : UInt8) (r : Bytes) : (firstPiece b r).2.length < r.length + 1 := by
  unfold firstPiece
  split
  · have := (List.dropWhile_sublist isWordPart (l := r)).length_le
    simp only; omega
  · split
    · next h => exact length_spanLiteral_lt r h
    · simp

/-- **The parts of an expression.** -/
def pieces : Bytes → List Piece
  | [] => []
  | b :: r => (firstPiece b r).1 :: pieces (firstPiece b r).2
termination_by bs => bs.length
decreasing_by exact length_firstPiece b r

/-! ## The check -/

/-- Why a kernel is not accepted. -/
inductive KernelError where
  /-- A parameter is no word. -/
  | notWord (p : Bytes)
  /-- A parameter has a name with a meaning of its own. -/
  | shadows (p : Bytes)
  /-- Two parameters have one name. -/
  | duplicate (p : Bytes)
  /-- There is no expression. -/
  | noExpression
  /-- A word is neither a parameter nor a function. -/
  | unknownName (w : Bytes)
  /-- A byte has no meaning. -/
  | unsupported (b : UInt8)
  /-- The parentheses do not match. -/
  | unbalanced
deriving DecidableEq, Repr

/-- A byte string between two texts. -/
def quoted (before : String) (w : Bytes) (after : String) : Bytes :=
  Bytes.ofString before ++ w ++ Bytes.ofString after

/-- The text of the error. -/
def KernelError.message : KernelError → Bytes
  | .notWord p => quoted "parameter '" p "' is not an identifier"
  | .shadows p => quoted "parameter '" p "' shadows a reserved name"
  | .duplicate p => quoted "duplicate parameter '" p "'"
  | .noExpression => Bytes.ofString "empty expression"
  | .unknownName w => quoted "unknown name '" w "'"
  | .unsupported b => quoted "unsupported character '" [b] "'"
  | .unbalanced => Bytes.ofString "unbalanced parentheses"

/-- The first fault of the parameters, with the names before them. -/
def checkParams (seen : List Bytes) : List Bytes → Except KernelError Unit
  | [] => .ok ()
  | p :: ps =>
    if !isWord p then .error (.notWord p)
    else if ownMark.isPrefixOf p || isAmong reserved p || isAmong functions p then
      .error (.shadows p)
    else if seen.contains p then .error (.duplicate p)
    else checkParams (p :: seen) ps

/-- The bytes of operators and parentheses. -/
def operators : Bytes := Bytes.ofString "+-*/()<>=!&|?:,"

/-- The first fault of the parts of an expression, inside `depth` parentheses. -/
def checkPieces (params : List Bytes) (depth : Nat) : List Piece → Except KernelError Unit
  | [] => if depth = 0 then .ok () else .error .unbalanced
  | .word w :: ps =>
    if params.contains w || isAmong functions w then checkPieces params depth ps
    else .error (.unknownName w)
  | .literal _ :: ps => checkPieces params depth ps
  | .byte b :: ps =>
    if isBlank b then checkPieces params depth ps
    else if !operators.contains b then .error (.unsupported b)
    else if b = byte '(' then checkPieces params (depth + 1) ps
    else if b = byte ')' then
      if depth = 0 then .error .unbalanced else checkPieces params (depth - 1) ps
    else checkPieces params depth ps

/-- Whether an expression holds nothing but spaces, tabs and newlines. -/
def isEmptyText (e : Bytes) : Bool := e.all fun b => b = 32 || b = 9 || b = 10

/-- The first fault of an expression over some parameters. -/
def checkExpression (params : List Bytes) (e : Bytes) : Except KernelError Unit :=
  if isEmptyText e then .error .noExpression else checkPieces params 0 (pieces e)

/-- **Whether a kernel is accepted.** -/
def check (k : Kernel) : Except KernelError Unit := do
  checkParams [] k.params
  checkExpression k.params k.expression

/-! ## Literals -/

/-- Whether a literal is a floating constant already. -/
def isFloating (l : Bytes) : Bool := l.any fun b => b = 46 || isExponentMark b

/-- A part of an expression with its literal as a floating constant. -/
def Piece.constant : Piece → Bytes
  | .word w => w
  | .literal l => if isFloating l then l else l ++ Bytes.ofString ".0"
  | .byte b => [b]

/-- **An expression with every literal as a floating constant**: an integer literal would select
integer arithmetic. -/
def constants (e : Bytes) : Bytes := (pieces e).flatMap Piece.constant

end Kernel

end MemoFlow
