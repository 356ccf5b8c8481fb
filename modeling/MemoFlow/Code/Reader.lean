import MemoFlow.Code.Declaration

/-!
# Reading declarations

* **`Reader`**: how the declarations of a text are read;
* `Reader.listings?`: constants and parts of records that stand in braces;
* `Reader.initial?`: the value that a declared name begins with;
* `Reader.steps?`: the statements of a function.
-/

namespace MemoFlow.Code

open Ascii

/-- **How the declarations of a text are read.** -/
structure Reader where
  /-- The version of the language. -/
  dialect : Dialect
  /-- The types of constants. -/
  suffixes : Suffixes := { }

namespace Reader

/-- How expressions are read. -/
def reading (g : Reader) (ns : Names) : Reading where
  constant := Constant.ofBytes? g.suffixes
  types := ns.typeKind?

/-- Whether a word can be a name. -/
def isFree (g : Reader) (w : Bytes) : Bool := !isOneOf g.dialect.reserved w

/-- The scope of expressions in a function. -/
def scope (ns : Names) (locals : List (Bytes × Kind)) : Scope where
  operands := locals
  functions := ns.valueKind?
  parts := ns.partKind?
  routines := ns.routine?

/-- The expression at the start of some tokens, without commas; it has a type. -/
def term? (g : Reader) (ns : Names) (locals : List (Bytes × Kind)) (ts : List Token) :
    Read (Expr × Kind) :=
  match conditional? (g.reading ns) (12 * (ts.length + 1)) ts with
  | some (e, r) => (e.kind? (scope ns locals)).map fun k => ((e, k), r)
  | none => none

/-! ## Constant values -/

/-- What expressions outside functions are evaluated in. -/
def frame (ns : Names) : Frame where
  scope := scope ns []
  value _ := .void
  kept := ns.kept?
  position _ := 0
  call w vs :=
    match ns.valueKind? w with
    | some (.function args result) =>
      .real result (Library.apply w ((vs.zip args).map fun p => p.1.toDatum p.2.format))
    | _ => .void

/-- Names of listed constants, the next one of which has the value `v`; at most `n` of them. -/
def constants? (g : Reader) : Nat → Names → Int → List Token → Option Names
  | _, ns, _, [] => some ns
  | 0, _, _, _ => none
  | n + 1, ns, v, .word w :: r =>
    let given : Option (Int × List Token) := match r with
      | .punct "=" :: r =>
        match g.term? ns [] r with
        | some ((e, k), r) => if k.isInteger then some ((e.eval (frame ns)).toInt, r) else none
        | none => none
      | r => some (v, r)
    match given with
    | none => none
    | some (v, r) =>
      if !g.isFree w || ns.entities.contains w then none
      else
        match ns.declare? w (.object (.constant .int) (some (.int .int v))), r with
        | some ns, .punct "," :: r => g.constants? n ns (v + 1) r
        | some ns, [] => some ns
        | _, _ => none
  | _ + 1, _, _, _ => none

/-- The names of parts of one type, at most `n` of them. -/
def partNames? (ns : Names) (t : Shape) : Nat → List Token → Read (List (Bytes × Shape))
  | 0, _ => none
  | n + 1, ts =>
    match declarator? ns.type? (ts.length + 1) ts with
    | some ({ name := some w, shape, .. }, r) =>
      let r := match r with
        | .punct ":" :: _ :: r => r
        | r => r
      match r with
      | .punct "," :: r => (partNames? ns t n r).map fun p => ((w, shape t) :: p.1, p.2)
      | .punct ";" :: r => some ([(w, shape t)], r)
      | _ => none
    | _ => none

/-- The parts of a record, at most `n` of them, with what is listed among them; what is not
understood is left out. -/
def partsOf (ns : Names) : Nat → List Token → List (Bytes × Shape) × List Listing
  | 0, _ => ([], [])
  | n + 1, ts =>
    match specifiers? ns.type? ts.length { } ts with
    | some (s, r) =>
      match s.hasType, s.shape?.bind fun t => partNames? ns t r.length r with
      | true, some (ps, r) =>
        let q := partsOf ns n r
        (ps ++ q.1, s.listing.toList ++ q.2)
      | _, _ => ([], [])
    | none => ([], [])

/-- **What stands in the braces of types**, at most `n` of them. -/
def listings? (g : Reader) : Nat → Names → List Listing → Option Names
  | _, ns, [] => some ns
  | 0, _, _ :: _ => none
  | n + 1, ns, l :: ls =>
    if l.isConstants then
      (g.constants? l.body.length ns 0 l.body).bind fun ns => g.listings? n ns ls
    else
      let p := partsOf ns l.body.length l.body
      g.listings? n { ns with records := (l.tag, p.1) :: ns.records } (p.2 ++ ls)

/-! ## First values -/

/-- A place inside a value. -/
inductive Place where
  | part (w : Bytes)
  | index (n : Nat)

/-- **A value in a declaration**, with braces around its parts. -/
inductive Initial where
  /-- One value. -/
  | one (e : Expr)
  /-- Values with the places that they are for, if these are named. -/
  | parts (vs : List (Option Place × Initial))

/-- The place that a value is for, if it is named. -/
def designated? (g : Reader) (ns : Names) : List Token → Read (Option Place)
  | .punct "." :: .word w :: .punct "=" :: r => some (some (.part w), r)
  | .punct "[" :: r =>
    match g.term? ns [] r with
    | some ((e, _), .punct "]" :: .punct "=" :: r) =>
      some (some (.index (e.eval (frame ns)).toInt.toNat), r)
    | _ => none
  | ts => some (none, ts)

mutual

/-- A value in a declaration. -/
def initial? (g : Reader) (ns : Names) : Nat → List Token → Read Initial
  | 0, _ => none
  | n + 1, ts =>
    match ts with
    | .punct "\x7b" :: r => (initials? g ns n r).map fun p => (.parts p.1, p.2)
    | .quote (b :: t) :: r =>
      if b = byte '"' then some (.one .block, r)
      else (g.term? ns [] (.quote (b :: t) :: r)).map fun p => (.one p.1.1, p.2)
    | ts => (g.term? ns [] ts).map fun p => (.one p.1.1, p.2)

/-- Values up to the closing brace. -/
def initials? (g : Reader) (ns : Names) : Nat → List Token → Read (List (Option Place × Initial))
  | 0, _ => none
  | n + 1, ts =>
    match ts with
    | .punct "\x7d" :: r => some ([], r)
    | ts =>
      match g.designated? ns ts with
      | none => none
      | some (p, r) =>
        match initial? g ns n r with
        | some (v, .punct "," :: r) => (initials? g ns n r).map fun q => ((p, v) :: q.1, q.2)
        | some (v, .punct "\x7d" :: r) => some ([(p, v)], r)
        | _ => none

end

/-- A record with a value for a part. -/
def setPart (ps : List (Bytes × Val)) (w : Bytes) (v : Val) : List (Bytes × Val) :=
  ps.map fun p => if p.1 = w then (w, v) else p

/-- The value of a type that a declaration gives; braces stand inside each other at most `n`
times. -/
def valueOf (ns : Names) : Nat → Shape → Initial → Val
  | 0, _, _ => .void
  | _ + 1, s, .one e => ((s.kind?.map fun k => (e.eval (frame ns)).convert k)).getD .void
  | n + 1, s, .parts vs =>
    match s.bare, ns.parts? s with
    | .array t, _ =>
      let cells := vs.foldl (fun (p : Nat × List Val) v =>
        let i := match v.1 with
          | some (.index i) => i
          | _ => p.1
        (i + 1, Val.setCell p.2 i (valueOf ns n t v.2))) (0, [])
      .row cells.2
    | _, some ps =>
      let parts := vs.foldl (fun (p : Nat × List (Bytes × Val)) v =>
        let i := match v.1 with
          | some (.part w) => (ps.map Prod.fst).idxOf w
          | _ => p.1
        match ps[i]? with
        | some (w, t) => (i + 1, setPart p.2 w (valueOf ns n t v.2))
        | none => p) (0, ps.map fun p => (p.1, ns.blank 8 p.2))
      .record parts.2
    | _, none =>
      match vs with
      | (_, v) :: _ => valueOf ns n s v
      | [] => ns.blank 8 s

/-! ## Statements -/

/-- Operators that stand in front of an equality sign. -/
def assignment? : String → Option (Option Binary)
  | "=" => some none
  | "+=" => some (some .add)
  | "-=" => some (some .sub)
  | "*=" => some (some .mul)
  | "/=" => some (some .div)
  | "%=" => some (some .mod)
  | "&=" => some (some .bitAnd)
  | "|=" => some (some .bitOr)
  | "^=" => some (some .bitXor)
  | "<<=" => some (some .shiftLeft)
  | ">>=" => some (some .shiftRight)
  | _ => none

/-- The operator by which a name is counted up or down. -/
def count? : String → Option Binary
  | "++" => some .add
  | "--" => some .sub
  | _ => none

/-- An assignment of what an operator makes of a name and a value. -/
def assigning (w : Bytes) (o : Option Binary) (e : Expr) : Statement :=
  .assign w ((o.map fun o => .binary o (.name w) (.group e)).getD e)

/-- The number one. -/
def one : Expr := .constant { number := .int, imaginary := false, num := 1, den := 1 }

/-- A value that is computed for nothing, or an assignment to a place in a row. -/
def idle? (g : Reader) (ns : Names) (locals : List (Bytes × Kind)) (ts : List Token) :
    Read Statement :=
  match g.term? ns locals ts with
  | some ((.subscript a i, _), .punct p :: r) =>
    match a.word?, count? p, assignment? p with
    | some w, some o, _ =>
      if (locals.lookup w).isSome then some (.store w i (.binary o (.subscript a i) one), r)
      else none
    | some w, none, some o =>
      if (locals.lookup w).isSome then
        (g.term? ns locals r).map fun p =>
          (.store w i ((o.map fun o => .binary o (.subscript a i) (.group p.1.1)).getD p.1.1), p.2)
      else none
    | none, _, some _ | none, some _, _ => none
    | _, none, none => some (.value (.subscript a i), .punct p :: r)
  | some ((e, _), r) => some (.value e, r)
  | none => none

/-- An assignment, or a value that is computed for nothing. -/
def simple? (g : Reader) (ns : Names) (locals : List (Bytes × Kind)) (ts : List Token) :
    Read Statement :=
  match ts with
  | .punct p :: .word w :: r =>
    match count? p with
    | some o => if (locals.lookup w).isSome then some (assigning w (some o) one, r) else none
    | none => g.idle? ns locals ts
  | .word w :: .punct p :: r =>
    match (locals.lookup w).isSome, count? p, assignment? p with
    | true, some o, _ => some (assigning w (some o) one, r)
    | true, none, some o => (g.term? ns locals r).map fun p => (assigning w o p.1.1, p.2)
    | _, _, _ => g.idle? ns locals ts
  | ts => g.idle? ns locals ts

/-- Assignments with commas between them, at most `n` of them. -/
def simples? (g : Reader) (ns : Names) (locals : List (Bytes × Kind)) :
    Nat → List Token → Read (List Statement)
  | 0, _ => none
  | n + 1, ts =>
    match g.simple? ns locals ts with
    | some (s, .punct "," :: r) => (simples? g ns locals n r).map fun p => (s :: p.1, p.2)
    | some (s, r) => some ([s], r)
    | none => none

/-- Values with commas between them up to the closing brace, at most `n` of them. -/
def cells? (g : Reader) (ns : Names) (locals : List (Bytes × Kind)) :
    Nat → List Token → Read (List Expr)
  | 0, _ => none
  | n + 1, ts =>
    match ts with
    | .punct "\x7d" :: r => some ([], r)
    | ts =>
      match g.term? ns locals ts with
      | some ((e, _), .punct "," :: r) => (cells? g ns locals n r).map fun p => (e :: p.1, p.2)
      | some ((e, _), .punct "\x7d" :: r) => some ([e], r)
      | _ => none

/-- The value behind a declared name in a function, as a statement. -/
def declaring? (g : Reader) (ns : Names) (locals : List (Bytes × Kind)) (w : Bytes) (t : Shape)
    (ts : List Token) : Read (Statement × Kind) :=
  match t.bare, t.kind? with
  | .array s, some k =>
    match s.kind?, ts with
    | some c, .punct "=" :: .punct "\x7b" :: r =>
      (g.cells? ns locals (r.length + 1) r).map fun p => ((.row w c p.1, k), p.2)
    | some c, ts => some ((.row w c [], k), ts)
    | none, _ => none
  | _, some k =>
    if !k.isScalar then none
    else
      match ts with
      | .punct "=" :: r => (g.term? ns locals r).map fun p => ((.declare w k (some p.1.1), k), p.2)
      | r => some ((.declare w k none, k), r)
  | _, none => none

/-- The names of a declaration in a function, up to the semicolon, at most `n` of them. -/
def declares? (g : Reader) (ns : Names) (t : Shape) :
    Nat → List (Bytes × Kind) → List Token → Read (List Statement × List (Bytes × Kind))
  | 0, _, _ => none
  | n + 1, locals, ts =>
    match declarator? ns.type? (ts.length + 1) ts with
    | some ({ name := some w, shape, .. }, r) =>
      if !g.isFree w then none
      else
        match g.declaring? ns locals w (shape t) r with
        | some ((s, k), .punct "," :: r) =>
          (declares? g ns t n ((w, k) :: locals) r).map fun p => ((s :: p.1.1, p.1.2), p.2)
        | some ((s, k), .punct ";" :: r) => some (([s], (w, k) :: locals), r)
        | _ => none
    | _ => none

/-- A declaration in a function, or assignments. -/
def opening? (g : Reader) (ns : Names) (locals : List (Bytes × Kind)) (ts : List Token) :
    Read (List Statement × List (Bytes × Kind)) :=
  match specifiers? ns.type? ts.length { } ts with
  | some (s, r) =>
    match s.hasType, s.shape? with
    | true, some t =>
      let isPlain : Bool := s.storage.isNone || (s.storage = some "static" && s.isConstant)
      if !isPlain || s.listing.isSome then none else g.declares? ns t r.length locals r
    | _, _ =>
      match ts with
      | .punct ";" :: r => some (([], locals), r)
      | ts =>
        match g.simples? ns locals ts.length ts with
        | some (ss, .punct ";" :: r) => some ((ss, locals), r)
        | _ => none
  | none => none

/-- A condition in parentheses. -/
def condition? (g : Reader) (ns : Names) (locals : List (Bytes × Kind)) : List Token → Read Expr
  | .punct "(" :: r =>
    match expr? (g.reading ns) r with
    | some (e, .punct ")" :: r) =>
      if ((e.kind? (scope ns locals)).map Kind.isScalar).getD false then some (e, r) else none
    | _ => none
  | _ => none

mutual

/-- A statement, with the names that are declared behind it. -/
def step? (g : Reader) (ns : Names) :
    Nat → List (Bytes × Kind) → List Token → Read (List Statement × List (Bytes × Kind))
  | 0, _, _ => none
  | n + 1, locals, ts =>
    let inner (r : List Token) : Read (List Statement) :=
      (step? g ns n locals r).map fun p => (p.1.1, p.2)
    match ts with
    | .punct "\x7b" :: r => (steps? g ns n locals r).map fun p => (([.block p.1], locals), p.2)
    | .word w :: r =>
      match w.toText with
      | "if" =>
        match g.condition? ns locals r with
        | none => none
        | some (c, r) =>
          match inner r with
          | some (t, .word v :: q) =>
            if isOneOf ["else"] v then (inner q).map fun p => (([.branch c t p.1], locals), p.2)
            else some (([.branch c t []], locals), .word v :: q)
          | some (t, r) => some (([.branch c t []], locals), r)
          | none => none
      | "while" =>
        match g.condition? ns locals r with
        | some (c, r) => (inner r).map fun p => (([.loop false (some c) [] p.1], locals), p.2)
        | none => none
      | "do" =>
        match inner r with
        | some (b, .word v :: r) =>
          match isOneOf ["while"] v, g.condition? ns locals r with
          | true, some (c, .punct ";" :: r) => some (([.loop true (some c) [] b], locals), r)
          | _, _ => none
        | _ => none
      | "for" =>
        match r with
        | .punct "(" :: r =>
          match g.opening? ns locals r with
          | none => none
          | some ((start, inside), r) =>
            let condition : Read (Option Expr) := match r with
              | .punct ";" :: r => some (none, r)
              | r => match g.term? ns inside r with
                | some ((e, _), .punct ";" :: r) => some (some e, r)
                | _ => none
            match condition with
            | none => none
            | some (c, r) =>
              let step : Read (List Statement) := match r with
                | .punct ")" :: r => some ([], r)
                | r => match g.simples? ns inside r.length r with
                  | some (ss, .punct ")" :: r) => some (ss, r)
                  | _ => none
              match step with
              | none => none
              | some (step, r) =>
                (step? g ns n inside r).map fun p =>
                  (([.block (start ++ [.loop false c step p.1.1])], locals), p.2)
        | _ => none
      | "return" =>
        match r with
        | .punct ";" :: r => some (([.result none], locals), r)
        | r =>
          match expr? (g.reading ns) r with
          | some (e, .punct ";" :: r) =>
            (e.kind? (scope ns locals)).map fun _ => (([.result (some e)], locals), r)
          | _ => none
      | "switch" =>
        match g.condition? ns locals r with
        | some (e, .punct "\x7b" :: r) =>
          (labelled? g ns n 0 locals r).map fun p => (([.select e p.1.1 p.1.2], locals), p.2)
        | _ => none
      | "break" => match r with
        | .punct ";" :: r => some (([.stop], locals), r)
        | _ => none
      | "continue" => match r with
        | .punct ";" :: r => some (([.next], locals), r)
        | _ => none
      | _ => g.opening? ns locals ts
    | ts => g.opening? ns locals ts

/-- **Statements** up to the closing brace or the end. -/
def steps? (g : Reader) (ns : Names) :
    Nat → List (Bytes × Kind) → List Token → Read (List Statement)
  | 0, _, _ => none
  | n + 1, locals, ts =>
    match ts with
    | [] => some ([], [])
    | .punct "\x7d" :: r => some ([], r)
    | ts =>
      match step? g ns n locals ts with
      | some ((ss, locals), r) => (steps? g ns n locals r).map fun p => (ss ++ p.1, p.2)
      | none => none

/-- Statements with labels up to the closing brace, behind `k` others. -/
def labelled? (g : Reader) (ns : Names) :
    Nat → Nat → List (Bytes × Kind) → List Token →
      Read (List (Option Expr × Nat) × List Statement)
  | 0, _, _, _ => none
  | n + 1, k, locals, ts =>
    match ts with
    | .punct "\x7d" :: r => some (([], []), r)
    | .word w :: r =>
      let label : Read (Option Expr) := match w.toText, r with
        | "case", r => (g.term? ns [] r).map fun p => (some p.1.1, p.2)
        | "default", r => some (none, r)
        | _, _ => none
      match label with
      | some (c, .punct ":" :: r) =>
        (labelled? g ns n k locals r).map fun p => (((c, k) :: p.1.1, p.1.2), p.2)
      | some _ => none
      | none =>
        match step? g ns n locals ts with
        | some ((ss, locals), r) =>
          (labelled? g ns n (k + ss.length) locals r).map fun p => ((p.1.1, ss ++ p.1.2), p.2)
        | none => none
    | ts =>
      match step? g ns n locals ts with
      | some ((ss, locals), r) =>
        (labelled? g ns n (k + ss.length) locals r).map fun p => ((p.1.1, ss ++ p.1.2), p.2)
      | none => none

end

end Reader

end MemoFlow.Code
