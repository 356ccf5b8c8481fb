import MemoFlow.Code.Parser
import MemoFlow.Code.Token

/-!
# Types in declarations

* **`Shape`**: a type as a declaration writes it; `Shape.agrees` tells whether two of them are one
  type, `Shape.kind?` gives the type of expressions;
* `Specifiers`, `specifiers?`: the words in front of the declared names;
* `Declarator`, **`declarator?`**: a declared name with what stands around it.
-/

namespace MemoFlow.Code

/-- **A type in a declaration.** -/
inductive Shape where
  /-- The type that some words name. -/
  | plain (words : List String)
  /-- A type of values that do not change. -/
  | constant (s : Shape)
  /-- Addresses of values. -/
  | pointer (s : Shape)
  /-- Rows of values. -/
  | array (s : Shape)
  /-- Functions; those without a list of arguments take any. -/
  | function (args : Option (List Shape)) (result : Shape)
deriving Repr, Inhabited

namespace Shape

/-- A type without the mark that its values do not change. -/
def bare : Shape → Shape
  | .constant s => s.bare
  | s => s

/-- The type of an argument that is declared with a type. -/
def argument (s : Shape) : Shape :=
  match s.bare with
  | .array s => .pointer s
  | .function args result => .pointer (.function args result)
  | s => s

mutual

/-- Whether two types are one. -/
def agrees : Shape → Shape → Bool
  | .plain a, .plain b => a = b
  | .constant a, .constant b => agrees a b
  | .pointer a, .pointer b => agrees a b
  | .array a, .array b => agrees a b
  | .function none a, .function _ b => agrees a b
  | .function (some _) a, .function none b => agrees a b
  | .function (some as) a, .function (some bs) b => agrees a b && allAgree as bs
  | _, _ => false

/-- Whether the types of two lists are the same. -/
def allAgree : List Shape → List Shape → Bool
  | [], [] => true
  | a :: as, b :: bs => agrees a b && allAgree as bs
  | _, _ => false

end

/-- The number type of a type. -/
def number? (s : Shape) : Option Number :=
  match s.bare with
  | .plain ws =>
    match Kind.ofWords? ws with
    | some (.number n) => some n
    | _ => none
  | _ => none

/-- The type of expressions; types without one stand for no value behind an address. -/
def kind? : Shape → Option Kind
  | .plain ["struct", tag] | .plain ["union", tag] => some (.record (Bytes.ofString tag))
  | .plain ["enum", _] => some (.number .unsigned)
  | .plain ws => Kind.ofWords? ws
  | .constant s => s.kind?
  | .pointer s | .array s => some (.pointer (s.kind?.getD .void))
  | .function (some args) result =>
    match args.mapM number?, result.number? with
    | some as, some r => some (.function as r)
    | _, _ => none
  | .function none _ => none

/-- Whether a type is a function. -/
def isFunction (s : Shape) : Bool :=
  match s.bare with
  | .function _ _ => true
  | _ => false

/-- Whether a type is a row. -/
def isArray (s : Shape) : Bool :=
  match s.bare with
  | .array _ => true
  | _ => false

/-- Whether there are values of a type: no rows of functions, and no functions that give rows or
functions. -/
def isFormed : Shape → Bool
  | .plain _ => true
  | .constant s | .pointer s => s.isFormed
  | .array s => !s.isFunction && s.isFormed
  | .function _ s => !s.isFunction && !s.isArray && s.isFormed

/-- The type of integers. -/
def int : Shape := .plain ["int"]

end Shape

/-! ## Brackets -/

/-- The bracket that closes another one. -/
def closing? : String → Option String
  | "(" => some ")"
  | "[" => some "]"
  | "\x7b" => some "\x7d"
  | _ => none

/-- The tokens up to the last one of some closing brackets, and what stands behind it. -/
def inBrackets? : List String → List Token → Read (List Token)
  | [], ts => some ([], ts)
  | _ :: _, [] => none
  | c :: cs, t :: ts =>
    match t with
    | .punct p =>
      if p = c then
        if cs.isEmpty then some ([], ts) else (inBrackets? cs ts).map fun q => (t :: q.1, q.2)
      else
        match closing? p with
        | some d => (inBrackets? (d :: c :: cs) ts).map fun q => (t :: q.1, q.2)
        | none =>
          if [")", "]", "\x7d"].contains p then none
          else (inBrackets? (c :: cs) ts).map fun q => (t :: q.1, q.2)
    | t => (inBrackets? (c :: cs) ts).map fun q => (t :: q.1, q.2)

/-! ## Specifiers -/

/-- What a type with a tag consists of. -/
structure Listing where
  /-- Whether constants are listed, and not the parts of a record. -/
  isConstants : Bool
  /-- The tag. -/
  tag : Bytes
  /-- What stands in the braces. -/
  body : List Token
deriving Inhabited

/-- The words in front of declared names. -/
structure Specifiers where
  /-- How the names are kept. -/
  storage : Option String := none
  /-- Words of a type. -/
  words : List String := []
  /-- A type with a name of its own. -/
  named : Option Shape := none
  /-- Whether the values do not change. -/
  isConstant : Bool := false
  /-- Whether the code of functions may be copied to where they are called. -/
  isInline : Bool := false
  /-- What is listed in braces. -/
  listing : Option Listing := none
deriving Inhabited

namespace Specifiers

/-- Words that say how names are kept. -/
def storages : List String := ["typedef", "extern", "static", "register", "auto"]

/-- Words that say that the code of a function may be copied. -/
def inlines : List String := ["inline", "__inline", "__inline__"]

/-- Words that change nothing in the values. -/
def marks : List String :=
  inlines ++ ["_Noreturn", "__extension__", "_Thread_local", "__thread"]

/-- The words of types, in their usual spelling. -/
def typeWord? (w : String) : Option String :=
  if ["__signed", "__signed__"].contains w then some "signed"
  else if ["__complex", "__complex__"].contains w then some "_Complex"
  else if (typeWords ++ ["__int128"]).contains w && !Kind.qualifiers.contains w &&
      w ≠ "register" then some w
  else none

/-- The words of a type in their usual order, without those that change nothing. -/
def normal (ws : List String) : List String :=
  let ws := if ws.contains "char" then ws else
    if ws = ["signed"] then ["int"] else ws.filter fun w => w ≠ "signed"
  let isNarrow : Bool := ws.contains "char" || ws.contains "_Bool"
  let ws := if 1 < ws.length && !isNarrow then ws.erase "int" else ws
  ws.mergeSort fun a b => decide (a ≤ b)

/-- Types of numbers that no expression has. -/
def narrow : List (List String) := [["__int128"], ["__int128", "unsigned"]]

/-- The type of the words; none when they name none. -/
def shape? (s : Specifiers) : Option Shape :=
  let mark (t : Shape) : Shape := if s.isConstant then .constant t else t
  match s.named, s.words with
  | some t, [] => some (mark t)
  | some _, _ :: _ => none
  | none, [] => some (mark .int)
  | none, w :: ws =>
    if ["struct", "union", "enum"].contains w then some (mark (.plain (w :: ws)))
    else
      let ws := normal (w :: ws)
      if (Kind.ofWords? (w :: (s.words.drop 1))).isSome || narrow.contains ws then
        some (mark (.plain ws))
      else none

/-- Whether there is a type. -/
def hasType (s : Specifiers) : Bool := s.named.isSome || !s.words.isEmpty

/-- A type with a tag, and what stands behind it. -/
def tagged? (w : String) (s : Specifiers) (ts : List Token) : Read Specifiers :=
  let (tag, ts) : Option Bytes × List Token := match ts with
    | .word t :: r => (some t, r)
    | ts => (none, ts)
  match ts, tag with
  | .punct "\x7b" :: r, _ =>
    match inBrackets? ["\x7d"] r with
    | some (body, r) =>
      if body.isEmpty && w = "enum" then none
      else
        let tag := (tag.map Bytes.toText).getD (toString (repr body))
        some ({ s with
          words := [w, tag]
          listing := some ⟨w = "enum", Bytes.ofString tag, body⟩ }, r)
    | none => none
  | ts, some t => some ({ s with words := [w, t.toText] }, ts)
  | _, none => none

end Specifiers

/-- A list in parentheses at the start of tokens left out. -/
def skipParens? : List Token → Option (List Token)
  | .punct "(" :: r => (inBrackets? [")"] r).map Prod.snd
  | _ => none

/-- **The words in front of declared names**, at most `n` of them, behind those in `s`. -/
def specifiers? (types : Bytes → Option Shape) : Nat → Specifiers → List Token → Read Specifiers
  | 0, s, ts => some (s, ts)
  | n + 1, s, ts =>
    match ts with
    | .word b :: r =>
      let w := b.toText
      if Specifiers.storages.contains w then
        if s.storage.isSome then none else specifiers? types n { s with storage := some w } r
      else if Specifiers.marks.contains w then
        specifiers? types n { s with isInline := s.isInline || Specifiers.inlines.contains w } r
      else if Kind.qualifiers.contains w then
        specifiers? types n { s with isConstant := s.isConstant || w = "const" } r
      else if ["__attribute__", "__attribute", "_Alignas"].contains w then
        match skipParens? r with
        | some r => specifiers? types n s r
        | none => none
      else if ["struct", "union", "enum"].contains w then
        if s.hasType then none
        else
          match s.tagged? w r with
          | some (s, r) => specifiers? types n s r
          | none => none
      else
        match Specifiers.typeWord? w with
        | some w => specifiers? types n { s with words := s.words ++ [w] } r
        | none =>
          match s.hasType, types b with
          | false, some t => specifiers? types n { s with named := some t } r
          | _, _ => some (s, ts)
    | ts => some (s, ts)

/-! ## Declarators -/

/-- **A declared name** with what stands around it. -/
structure Declarator where
  /-- The name. -/
  name : Option Bytes := none
  /-- The type of the name, by the type in front. -/
  shape : Shape → Shape := id
  /-- The names of the arguments, for a function. -/
  params : Option (List (Option Bytes × Shape)) := none
deriving Inhabited

namespace Declarator

/-- Leave out words behind a star. -/
def skipQualifiers (ts : List Token) : List Token :=
  ts.dropWhile fun t => match t with
    | .word w => isOneOf Kind.qualifiers w
    | _ => false

/-- Whether the words behind a star say that the address does not change. -/
def isConstant (ts : List Token) : Bool :=
  (ts.takeWhile fun t => match t with
    | .word w => isOneOf Kind.qualifiers w
    | _ => false).any fun t => t = .word (Bytes.ofString "const")

/-- Whether arguments can stand side by side. -/
def isArgumentList (ps : List (Option Bytes × Shape)) : Bool :=
  decide (ps.filterMap Prod.fst).Nodup && ps.all fun p =>
    match p.2 with
    | .plain ["void"] => false
    | s => s.isFormed

/-- Names with commas between them up to the closing parenthesis, and what stands behind it. -/
def skipNames? : List Token → Option (List Token)
  | .word _ :: .punct ")" :: r => some r
  | .word _ :: .punct "," :: r => skipNames? r
  | _ => none

/-- Whether a list of arguments stands here and not a declarator in parentheses. -/
def startsArguments (types : Bytes → Option Shape) : List Token → Bool
  | .punct ")" :: _ => true
  | .word w :: _ =>
    (types w).isSome || (Specifiers.typeWord? w.toText).isSome ||
      isOneOf (Kind.qualifiers ++ ["struct", "union", "enum", "register"]) w
  | _ => false

end Declarator

mutual

/-- **A declarator**, the name of which may be missing. -/
def declarator? (types : Bytes → Option Shape) : Nat → List Token → Read Declarator
  | 0, _ => none
  | n + 1, ts =>
    match ts with
    | .punct "*" :: r =>
      let mark (s : Shape) : Shape := if Declarator.isConstant r then .constant s else s
      (declarator? types n (Declarator.skipQualifiers r)).map fun (d, r) =>
        ({ d with shape := fun s => d.shape (mark (.pointer s)) }, r)
    | .word w :: r =>
      if (Specifiers.typeWord? w.toText).isSome then none
      else suffixed? types n { name := some w } r
    | .punct "(" :: r =>
      if Declarator.startsArguments types r then suffixed? types n { } ts
      else
        match declarator? types n r with
        | some (d, .punct ")" :: r) => suffixed? types n d r
        | _ => none
    | ts => suffixed? types n { } ts

/-- What stands behind a declared name. -/
def suffixed? (types : Bytes → Option Shape) : Nat → Declarator → List Token → Read Declarator
  | 0, _, _ => none
  | n + 1, d, ts =>
    match ts with
    | .punct "[" :: r =>
      match inBrackets? ["]"] r with
      | some (_, r) =>
        (suffixed? types n { d with shape := id } r).map fun (e, r) =>
          ({ d with shape := fun s => d.shape (.array (e.shape s)) }, r)
      | none => none
    | .punct "(" :: r =>
      match params? types n r with
      | some (ps, r) =>
        let args := ps.map fun ps => ps.map fun p => p.2.argument
        some ({ d with
          shape := fun s => d.shape (.function args s)
          params := d.params.or (some (ps.getD [])) }, r)
      | none => none
    | ts => some (d, ts)

/-- The arguments of a function and the closing parenthesis; no list when there is none. -/
def params? (types : Bytes → Option Shape) : Nat → List Token →
    Read (Option (List (Option Bytes × Shape)))
  | 0, _ => none
  | n + 1, ts =>
    match ts with
    | .punct ")" :: r => some (none, r)
    | ts =>
      match paramList? types n ts with
      | some ([(none, .plain ["void"])], r) => some (some [], r)
      | some (ps, r) => if Declarator.isArgumentList ps then some (some ps, r) else none
      | none => (Declarator.skipNames? ts).map fun r => (none, r)

/-- The rest of a list of arguments. -/
def paramList? (types : Bytes → Option Shape) : Nat → List Token →
    Read (List (Option Bytes × Shape))
  | 0, _ => none
  | n + 1, ts =>
    match ts with
    | .punct "..." :: .punct ")" :: r => some ([], r)
    | ts =>
      match specifiers? types ts.length { } ts with
      | some (s, r) =>
        match s.hasType, s.shape?, declarator? types n r with
        | true, some t, some (d, .punct "," :: r) =>
          (paramList? types n r).map fun (ps, r) => ((d.name, d.shape t) :: ps, r)
        | true, some t, some (d, .punct ")" :: r) => some ([(d.name, d.shape t)], r)
        | _, _, _ => none
      | none => none

end

end MemoFlow.Code
