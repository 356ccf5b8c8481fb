import MemoFlow.Code.Reader

/-!
# Functions of generated code

* `Reader.loop?`, `Reader.body?`: the bodies of functions;
* **`Reader.names?`**: the names that a text declares, none when the compiler refuses it;
* **`Function`**, `Function.run`: a loop with the functions that it calls, and its results.
-/

namespace MemoFlow.Code

open Ascii

/-! ## Bodies -/

namespace Reader

/-- A token of a text that is the same for all kernels. -/
def word (s : String) : Token := .word (Bytes.ofString s)

/-- Take tokens off the start of a list. -/
def expect? (expected ts : List Token) : Option (List Token) :=
  if expected.isPrefixOf ts then some (ts.drop expected.length) else none

/-- A name that is declared with a value, up to the mark in front of the value. -/
def local? (g : Reader) (ns : Names) (ts : List Token) : Read (Bytes × Shape) :=
  match specifiers? ns.type? ts.length { } ts with
  | some (s, r) =>
    match s.hasType, s.storage, s.shape?, declarator? ns.type? (r.length + 1) r with
    | true, none, some t, some ({ name := some w, shape, .. }, .punct "=" :: r) =>
      if g.isFree w then some ((w, shape t), r) else none
    | _, _, _, _ => none
  | none => none

/-- A constant at the start of tokens. -/
def number? : List Token → Read Nat
  | .number l :: r =>
    match Constant.ofBytes? { } l with
    | some c => if c.number.isInteger then some (c.num, r) else none
    | none => none
  | _ => none

/-- The place at which an operand is read. -/
def place? (index : Bytes) : List Token → Read Bool
  | .number l :: r => if l = [byte '0'] then some (true, r) else none
  | .word w :: r => if w = index then some (false, r) else none
  | _ => none

/-- The `i`-th operand of a loop, which stands in `args`. -/
def operand? (g : Reader) (ns : Names) (args index : Bytes) (i : Nat) (ts : List Token) :
    Option ((Bytes × Bool) × List Token) := do
  let ((p, s), r) ← g.local? ns ts
  let r ← expect? [.word args, .punct "["] r
  let (j, r) ← number? r
  let r ← expect? [.punct "]", .punct "["] r
  let (single, r) ← place? index r
  let r ← expect? [.punct "]", .punct ";", .punct "("] r
  let (_, r) ← typeName? ns.typeKind? r
  let r ← expect? [.punct ")", .word p, .punct ";"] r
  if s.kind? = some .double && i = j then some ((p, single), r) else none

/-- The operands of a loop from the `i`-th one on, at most `n` of them. -/
def operands (g : Reader) (ns : Names) (args index : Bytes) (i : Nat) :
    Nat → List Token → List (Bytes × Bool) × List Token
  | 0, ts => ([], ts)
  | n + 1, ts =>
    match g.operand? ns args index i ts with
    | some (p, r) =>
      let q := g.operands ns args index (i + 1) n r
      (p :: q.1, q.2)
    | none => ([], ts)

/-- An expression that gives a number. -/
def value? (g : Reader) (ns : Names) (locals : List (Bytes × Kind)) (ts : List Token) :
    Read Expr :=
  match expr? (g.reading ns) ts with
  | some (e, r) =>
    match (e.kind? (scope ns locals)) with
    | some k => if k.isArithmetic then some (e, r) else none
    | none => none
  | none => none

/-- **The loop of a body**, by the names of the arguments of the function. -/
def loop? (g : Reader) (ns : Names) (params : List (Bytes × Kind)) (ts : List Token) :
    Option Loop :=
  match params with
  | [(args, .pointer (.pointer (.number .double))), (out, .pointer (.number .double))] => do
    let ((countName, _), r) ← g.local? ns ts
    let (count, r) ← number? r
    let r ← expect? [.punct ";", word "for", .punct "("] r
    let ((index, _), r) ← g.local? ns r
    let r ← expect? [.number [byte '0'], .punct ";", .word index, .punct "<", .word countName,
      .punct ";", .punct "++", .word index, .punct ")", .punct "\x7b"] r
    let (operands, r) := g.operands ns args index 0 r.length r
    let r ← expect? [.word out, .punct "[", .word index, .punct "]", .punct "="] r
    let empty : Loop := ⟨count, countName, index, operands, .block⟩
    let (e, r) ← g.value? ns empty.locals r
    let names := args :: out :: index :: operands.map Prod.fst
    if r = [.punct ";", .punct "\x7d"] ∧ names.Nodup then
      return { empty with body := e }
    else none
  | _ => none

/-- Words that another language of the family keeps for itself. -/
def clashing : List String :=
  wordsOf ["alignas alignof and and_eq bitand bitor bool catch char8_t char16_t char32_t class",
    "compl concept consteval constexpr constinit const_cast co_await co_return co_yield decltype",
    "delete dynamic_cast explicit export false friend mutable namespace new noexcept not not_eq",
    "nullptr operator or or_eq private protected public reinterpret_cast requires static_assert",
    "static_cast template this thread_local throw true try typeid typename using virtual xor",
    "xor_eq"]

/-- The room that a function takes, in bytes, by the calls that it makes. -/
def stackSize (calls : Nat) : Nat := if calls = 0 then 8 else 16 + 16 * (calls + 1)

/-- The part of that room that holds values between calls. -/
def frameSize (calls : Nat) : Nat := 16 * (calls - 1)

/-- Remarks on the names of operands. -/
def operandRemarks (l : Loop) : List Remark :=
  l.operands.flatMap fun p =>
    (if isOneOf clashing p.1 then [.chosen "c++-compat"] else []) ++
      if isOneOf ["__VA_ARGS__"] p.1 then [.required ""] else []

/-- What the compiler remarks on a loop. -/
def loopRemarks (ns : Names) (l : Loop) : List Remark :=
  let calls := l.body.callCount
  l.body.remarks (scope ns l.locals) ++ operandRemarks l ++
    (if 2 ≤ l.operands.length then [.chosen "declaration-after-statement"] else []) ++
    (if l.operands.isEmpty then [.chosen "unused-parameter"] else []) ++
    [.chosen "c90-c99-compat", .chosen "traditional", .measured "larger-than" 8,
      .measured "stack-usage" (stackSize calls), .measured "frame-larger-than" (frameSize calls)]

/-- A body of statements. -/
def stepsOf (g : Reader) (ns : Names) (params : List (Bytes × Kind)) (ts : List Token) : Body :=
  match g.steps? ns (4 * ts.length + 4) params ts with
  | some (ss, []) => .steps ss
  | _ => .other

/-- **The body of a function**; none when the compiler refuses it. -/
def body? (g : Reader) (ns : Names) (params : List (Bytes × Kind)) (ts : List Token) :
    Option (Body × List Remark) :=
  match ts with
  | [] => some (.value none, [])
  | .word w :: r =>
    if w = Bytes.ofString "return" then
      match g.value? ns params r with
      | some (e, [.punct ";"]) => some (.value (some e), e.remarks (scope ns params))
      | _ =>
        match r, g.stepsOf ns params ts with
        | [.punct ";"], _ => some (.value none, [])
        | _, .steps ss => some (.steps ss, [])
        | _, _ => none
    else
      match g.loop? ns params ts with
      | some l => some (.loop l, loopRemarks ns l)
      | none =>
        if ts.contains (word "synapse_args") then none else some (g.stepsOf ns params ts, [])
  | ts => some (g.stepsOf ns params ts, [])

/-! ## Declarations -/

/-- The arguments of a function that is defined; each one has a name of its own. -/
def arguments? (g : Reader) (ps : List (Option Bytes × Shape)) : Option (List (Bytes × Kind)) :=
  match ps with
  | [(none, .plain ["void"])] => some []
  | ps =>
    let named := ps.filterMap fun (w, s) => w.map fun w => (w, (s.argument.kind?).getD .void)
    if named.length = ps.length ∧ (named.map Prod.fst).Nodup ∧
        named.all (fun p => g.isFree p.1) = true then some named
    else none

/-- The definition of a function, whose body stands up to the closing brace. -/
def define? (g : Reader) (ns : Names) (s : Specifiers) (w : Bytes) (t : Shape)
    (params : List (Option Bytes × Shape)) (ts : List Token) :
    Option (Names × List Token) := do
  let isStatic : Bool := s.storage = some "static"
  let result := match t with
    | .function _ r => r.kind?.getD .void
    | _ => .void
  let (inside, r) ← inBrackets? ["\x7d"] ts
  let params ← g.arguments? params
  -- the function may call itself
  let outer ← ns.declare? w (.function t isStatic none)
  let (body, remarks) ← g.body? outer params inside
  let ns ← outer.declare? w (.function t isStatic (some ⟨params, result, body⟩))
  let own : List Remark :=
    if isStatic then [] else [.chosen "missing-prototypes", .chosen "missing-declarations"]
  let owned := if isStatic && !s.isInline then [w] else []
  return ({ ns.remark (remarks ++ own) with owned := owned ++ ns.owned }, r)

/-- Leave out what may stand behind a declarator. -/
def skipMarks : Nat → List Token → List Token
  | 0, ts => ts
  | n + 1, ts =>
    match ts with
    | .word w :: r =>
      if isOneOf ["__asm__", "__asm", "asm", "__attribute__", "__attribute"] w then
        skipMarks n ((skipParens? r).getD ts)
      else ts
    | ts => ts

/-- What a name of a type stands for, if it can be declared, with the value that follows. -/
def entity? (s : Specifiers) (t : Shape) (value : Option Val) : Option Entity :=
  if !t.isFormed || s.storage = some "register" || s.storage = some "auto" then none
  else if s.storage = some "typedef" then if value.isSome then none else some (.type t)
  else
    match t with
    | .function _ _ =>
      if value.isSome then none else some (.function t (s.storage = some "static") none)
    | t =>
      if t.kind? = some .void && s.storage ≠ some "extern" then none else some (.object t value)

/-- The names behind specifiers, at most `n` of them; only the `first` one may have a body. -/
def declarators? (g : Reader) (s : Specifiers) (t : Shape) (first : Bool) :
    Nat → Names → List Token → Read Names
  | 0, _, _ => none
  | n + 1, ns, ts =>
    match declarator? ns.type? (ts.length + 1) ts with
    | some ({ name := some w, shape, params }, r) =>
      if !g.isFree w then none
      else
        let t' := shape t
        match skipMarks r.length r, t', first with
        | .punct "\x7b" :: r, .function _ _, true =>
          if s.storage = some "typedef" then none else g.define? ns s w t' (params.getD []) r
        | r, t', _ =>
          let given : Read (Option Val) := match r with
            | .punct "=" :: r =>
              (g.initial? ns (r.length + 1) r).map fun p => (some (valueOf ns r.length t' p.1), p.2)
            | r => some (none, r)
          match given with
          | none => none
          | some (v, r) =>
            match (entity? s t' v).bind fun e => ns.declare? w e, r with
            | some ns, .punct "," :: r => declarators? g s t false n ns r
            | some ns, .punct ";" :: r => some (ns, r)
            | _, _ => none
    | _ => none

/-- A declaration. -/
def declaration? (g : Reader) (ns : Names) (ts : List Token) :
    Option (Names × List Token) := do
  let (s, r) ← specifiers? ns.type? ts.length { } ts
  let t ← s.shape?
  let ns ← g.listings? ts.length ns s.listing.toList
  match s.hasType, r with
  | true, .punct ";" :: r =>
    return (if s.listing.isNone && !(["struct", "union", "enum"].contains (s.words.headD "")) then
      ns.remark [.usual ""] else ns, r)
  | true, r => g.declarators? s t true r.length ns r
  | false, r => g.declarators? s t true r.length (ns.remark [.required "implicit-int"]) r

/-- Whether a condition that a text asserts may hold. -/
def isAsserted (g : Reader) (ns : Names) : List Token → Bool
  | .punct "(" :: r =>
    match expr? (g.reading ns) (r.takeWhile fun t => t ≠ .punct ",") with
    | some (e, []) => e.closed? ≠ some 0
    | _ => true
  | _ => false

/-- The declarations of a text, at most `n` of them. -/
def declarations? (g : Reader) : Nat → Names → List Token → Option Names
  | 0, ns, ts => if ts.isEmpty then some ns else none
  | n + 1, ns, ts =>
    match ts with
    | [] => some ns
    | .punct ";" :: r => declarations? g n (ns.remark [.extension "pedantic"]) r
    | .word w :: r =>
      if isOneOf ["_Static_assert", "__asm__", "__asm"] w then
        let isAssertion := isOneOf ["_Static_assert"] w
        match skipParens? r, isAssertion && !g.isAsserted ns r with
        | some (.punct ";" :: r), false =>
          declarations? g n (if isAssertion && g.dialect.year < 2011 then
            ns.remark [.extension "pedantic"] else ns) r
        | _, _ => none
      else
        match g.declaration? ns ts with
        | some (ns, r) => declarations? g n ns r
        | none => none
    | ts =>
      match g.declaration? ns ts with
      | some (ns, r) => declarations? g n ns r
      | none => none

/-- **The names that a text declares.** -/
def names? (g : Reader) (ts : List Token) : Option Names :=
  g.declarations? (ts.length + 1) .initial ts

end Reader

/-! ## Running -/

namespace Expr

mutual

/-- The names in an expression; with `addressed` those whose address is taken. -/
def names (addressed : Bool) : Expr → List Bytes
  | .name w => if addressed then [] else [w]
  | .constant _ | .block => []
  | .group e | .cast _ e | .member e _ | .size e => names addressed e
  | .unary o e =>
    (if addressed && o = .address then e.word?.toList else []) ++ names addressed e
  | .call f es => names addressed f ++ allNames addressed es
  | .subscript a b | .binary _ a b => names addressed a ++ names addressed b
  | .choice c t e => names addressed c ++ middleNames addressed t ++ names addressed e

/-- The names in some expressions. -/
def allNames (addressed : Bool) : List Expr → List Bytes
  | [] => []
  | e :: es => names addressed e ++ allNames addressed es

/-- The names in the middle part of a choice. -/
def middleNames (addressed : Bool) : Option Expr → List Bytes
  | none => []
  | some e => names addressed e

end

/-- Where a name lies: names whose address is taken lie side by side. -/
def position (e : Expr) (locals : List (Bytes × Kind)) (w : Bytes) : Int :=
  let taken := e.names true
  ((locals.map Prod.fst).filter taken.contains).idxOf w

end Expr

/-- **A loop with the functions that it calls.** -/
structure Function where
  /-- The loop. -/
  loop : Loop
  /-- The names of the text. -/
  names : Names
  /-- How fractions are computed. -/
  machine : Machine := { }

namespace Function

/-- The value of a function of the library. A machine that keeps more digits computes square roots
and absolute values by itself. -/
def library (m : Machine) (w : Bytes) (k : Option Kind) (vs : List Val) : Val :=
  match k with
  | some (.function args result) =>
    let isDirect : Bool := m.excess = .fast && isOneOf ["sqrt", "fabs"] w
    let format (n : Number) : Format := if isDirect then m.format n else n.format
    let values := (vs.zip args).map fun p => p.1.toDatum (format p.2)
    .real result (match isDirect, values with
      | true, [x] => if isOneOf ["sqrt"] w then x.sqrt (format result) else x.withSign false
      | _, values => Library.apply w values)
  | _ => .void

/-- The statements that a function may run. -/
def rounds : Nat := 1000000

/-- The value of a function of the text or the library, through at most `n` calls inside each
other. -/
def call (m : Machine) (ns : Names) : Nat → Bytes → List Val → Val
  | 0, _, _ => .void
  | n + 1, w, vs =>
    match ns.definition? w with
    | some d =>
      match d.body with
      | .value (some e) =>
        let values := (d.params.zip vs).map fun (p, v) => (p.1, v.convert p.2)
        let v := e.eval
          { machine := m
            scope := Reader.scope ns d.params
            value := fun x => (values.lookup x).getD .void
            kept := ns.kept?
            position := e.position d.params
            call := call m ns n }
        v.convert d.result
      | .steps ss =>
        let values := (d.params.zip vs).map fun (p, v) => (p.1, p.2, v.convert p.2)
        let frame (ls : Locals) : Frame :=
          { machine := m
            scope := Reader.scope ns ls.kinds
            value := ls.value
            kept := ns.kept?
            position := fun _ => 0
            call := call m ns n }
        match (Statement.run frame rounds ss values).1 with
        | .result v => v.convert d.result
        | _ => Val.void.convert d.result
      | _ => Val.void.convert d.result
    | none => library m w (ns.valueKind? w) vs

/-- The calls that may stand inside each other. -/
def depth : Nat := 1000

/-- The values of operands and numbers at an element. -/
def valueAt (l : Loop) (args : List (Array Double)) (i : Nat) (w : Bytes) : Val :=
  match (l.operands.zip args).find? fun p => p.1.1 = w with
  | some p => .real .double (Datum.ofBits (p.2.getD (if p.1.2 then 0 else i) (0 : Double)).bits)
  | none => .int .unsignedLong (if w = l.index then i else l.count)

/-- **The results** of all elements. -/
def run (f : Function) (args : List (Array Double)) : Array Double :=
  Array.ofFn fun i : Fin f.loop.count =>
    (f.loop.body.eval
      { machine := f.machine
        scope := Reader.scope f.names f.loop.locals
        value := valueAt f.loop args i
        kept := f.names.kept?
        position := f.loop.body.position f.loop.locals
        call := call f.machine f.names depth }).toDouble

end Function

end MemoFlow.Code
