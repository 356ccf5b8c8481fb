import MemoFlow.Shell.Record.Term

/-!
# The grammar of programs over records

Readers take tokens from the front of a list and give back what follows. Each call inside another
one uses up a bit of `fuel`.

* `Record.Context`: what a value stands in, which decides where it ends;
* `Record.term`, `Record.statement`: a value and a statement at the front of some tokens;
* **`Record.program?`**: the program that a text stands for, or what is wrong with it.
-/

namespace MemoFlow.Shell.Record

/-- What a value stands in. -/
structure Context where
  /-- Whether a sign for more sends output to a file instead of comparing. -/
  printing : Bool := false
  /-- Whether a membership belongs to a loop instead of being a value. -/
  looping : Bool := false
deriving DecidableEq, Repr

/-- A complaint about the first of some tokens. -/
def stuck {α : Type} : List Token → Except String α
  | [] => .error "missing \x7d near end of file"
  | .sign ")" :: _ => .error "extra ')'"
  | t :: _ => .error ("syntax error at or near " ++ t.shown)

/-- The tokens behind a sign that has to come. -/
def expect (s : String) : List Token → Except String (List Token)
  | .sign t :: r => if s = t then .ok r else stuck (.sign t :: r)
  | ts => stuck ts

/-- The tokens behind ends of lines. -/
def skipLines : List Token → List Token
  | .newline :: r => skipLines r
  | ts => ts

/-- The tokens behind ends of lines and of statements. -/
def skipEnds : List Token → List Token
  | .newline :: r => skipEnds r
  | .sign s :: r => if s = ";" then skipEnds r else .sign s :: r
  | ts => ts

/-- Whether a token can start a value that is put behind another one. -/
def startsValue : Token → Bool
  | .number _ | .text _ | .regex _ | .name _ | .function _ | .known _ => true
  | .sign s => s = "$" || s = "(" || s = "-" || s = "+" || s = "++" || s = "--"
  | _ => false

/-- The operation of an assignment. -/
def assignment? (s : String) : Option (Option Arith) :=
  match s with
  | "=" => some none
  | "+=" => some (some .add)
  | "-=" => some (some .sub)
  | "*=" => some (some .mul)
  | "/=" => some (some .div)
  | "%=" => some (some .rem)
  | "^=" => some (some .pow)
  | _ => none

/-- The comparison of a sign. -/
def relation? (c : Context) (s : String) : Option Relation :=
  match s with
  | "<" => some .lt
  | "<=" => some .le
  | "==" => some .eq
  | "!=" => some .ne
  | ">" => if c.printing then none else some .gt
  | ">=" => if c.printing then none else some .ge
  | _ => none

mutual

/-- **A value** at the front of some tokens: an assignment or a choice. -/
def term (c : Context) : Nat → List Token → Except String (Term × List Token)
  | 0, ts => stuck ts
  | n + 1, ts => do
    let (a, r) ← disjunction c n ts
    match r with
    | .sign "?" :: r =>
      let (yes, r) ← term c n (skipLines r)
      let r ← expect ":" (skipLines r)
      let (no, r) ← term c n (skipLines r)
      return (.choice a yes no, r)
    | .sign s :: r' =>
      match assignment? s with
      | some o =>
        if a.isPlace then
          let (v, r) ← term c n (skipLines r')
          return (.assign a o v, r)
        else stuck r
      | none => return (a, r)
    | r => return (a, r)

/-- Values of which one has to hold. -/
def disjunction (c : Context) : Nat → List Token → Except String (Term × List Token)
  | 0, ts => stuck ts
  | n + 1, ts => do
    let (a, r) ← conjunction c n ts
    moreEither c n a r

/-- More of them behind some. -/
def moreEither (c : Context) : Nat → Term → List Token → Except String (Term × List Token)
  | 0, _, ts => stuck ts
  | n + 1, a, .sign "||" :: r => do
    let (b, r) ← conjunction c n (skipLines r)
    moreEither c n (.either a b) r
  | _ + 1, a, r => return (a, r)

/-- Values of which all have to hold. -/
def conjunction (c : Context) : Nat → List Token → Except String (Term × List Token)
  | 0, ts => stuck ts
  | n + 1, ts => do
    let (a, r) ← membership c n ts
    moreBoth c n a r

/-- More of them behind some. -/
def moreBoth (c : Context) : Nat → Term → List Token → Except String (Term × List Token)
  | 0, _, ts => stuck ts
  | n + 1, a, .sign "&&" :: r => do
    let (b, r) ← membership c n (skipLines r)
    moreBoth c n (.both a b) r
  | _ + 1, a, r => return (a, r)

/-- A value, perhaps asked for in arrays. -/
def membership (c : Context) : Nat → List Token → Except String (Term × List Token)
  | 0, ts => stuck ts
  | n + 1, ts => do
    let (a, r) ← fitting c n ts
    moreMembers c n a r

/-- Arrays in which a value is asked for. -/
def moreMembers (c : Context) : Nat → Term → List Token → Except String (Term × List Token)
  | 0, _, ts => stuck ts
  | n + 1, a, .word "in" :: .name x :: r =>
    if c.looping then return (a, .word "in" :: .name x :: r)
    else moreMembers c n (.member [a] x) r
  | _ + 1, a, r => return (a, r)

/-- A value, perhaps held against expressions. -/
def fitting (c : Context) : Nat → List Token → Except String (Term × List Token)
  | 0, ts => stuck ts
  | n + 1, ts => do
    let (a, r) ← comparison c n ts
    moreFitting c n a r

/-- Expressions against which a value is held. -/
def moreFitting (c : Context) : Nat → Term → List Token → Except String (Term × List Token)
  | 0, _, ts => stuck ts
  | n + 1, a, .sign "~" :: r => do
    let (b, r) ← comparison c n r
    moreFitting c n (.fits false a b) r
  | n + 1, a, .sign "!~" :: r => do
    let (b, r) ← comparison c n r
    moreFitting c n (.fits true a b) r
  | _ + 1, a, r => return (a, r)

/-- A value, perhaps compared with another one. -/
def comparison (c : Context) : Nat → List Token → Except String (Term × List Token)
  | 0, ts => stuck ts
  | n + 1, ts => do
    let (a, r) ← row c n ts
    match r with
    | .sign "|" :: .word "getline" :: r =>
      let (p, r) ← place? n r
      moreLines c n (.line .command (some a) p) r
    | .sign s :: r' =>
      match relation? c s with
      | some o =>
        let (b, r) ← row c n r'
        return (.compare o a b, r)
      | none => return (a, r)
    | r => return (a, r)

/-- A line that has been read from a command, perhaps compared. -/
def moreLines (c : Context) : Nat → Term → List Token → Except String (Term × List Token)
  | 0, _, ts => stuck ts
  | n + 1, a, .sign "|" :: .word "getline" :: r => do
    let (p, r) ← place? n r
    moreLines c n (.line .command (some a) p) r
  | n + 1, a, .sign s :: r =>
    match relation? c s with
    | some o => do
      let (b, r) ← row c n r
      return (.compare o a b, r)
    | none => return (a, .sign s :: r)
  | _ + 1, a, r => return (a, r)

/-- A place, if one follows. -/
def place? : Nat → List Token → Except String (Option Term × List Token)
  | 0, ts => return (none, ts)
  | n + 1, ts => do
    match ts with
    | .name _ :: _ | .sign "$" :: _ =>
      let (p, r) ← primary { } n ts
      return (some p, r)
    | ts => return (none, ts)

/-- Values behind each other. -/
def row (c : Context) : Nat → List Token → Except String (Term × List Token)
  | 0, ts => stuck ts
  | n + 1, ts => do
    let (a, r) ← sum c n ts
    moreRow c n a r

/-- More of them behind some. -/
def moreRow (c : Context) : Nat → Term → List Token → Except String (Term × List Token)
  | 0, _, ts => stuck ts
  | n + 1, a, t :: r => do
    if startsValue t then
      let (b, r) ← sum c n (t :: r)
      moreRow c n (.cat a b) r
    else return (a, t :: r)
  | _ + 1, a, [] => return (a, [])

/-- A sum. -/
def sum (c : Context) : Nat → List Token → Except String (Term × List Token)
  | 0, ts => stuck ts
  | n + 1, ts => do
    let (a, r) ← product c n ts
    moreSum c n a r

/-- More summands. -/
def moreSum (c : Context) : Nat → Term → List Token → Except String (Term × List Token)
  | 0, _, ts => stuck ts
  | n + 1, a, .sign "+" :: r => do
    let (b, r) ← product c n r
    moreSum c n (.arith .add a b) r
  | n + 1, a, .sign "-" :: r => do
    let (b, r) ← product c n r
    moreSum c n (.arith .sub a b) r
  | _ + 1, a, r => return (a, r)

/-- A product. -/
def product (c : Context) : Nat → List Token → Except String (Term × List Token)
  | 0, ts => stuck ts
  | n + 1, ts => do
    let (a, r) ← signed c n ts
    moreProduct c n a r

/-- More factors. -/
def moreProduct (c : Context) : Nat → Term → List Token → Except String (Term × List Token)
  | 0, _, ts => stuck ts
  | n + 1, a, .sign "*" :: r => do
    let (b, r) ← signed c n r
    moreProduct c n (.arith .mul a b) r
  | n + 1, a, .sign "/" :: r => do
    let (b, r) ← signed c n r
    moreProduct c n (.arith .div a b) r
  | n + 1, a, .sign "%" :: r => do
    let (b, r) ← signed c n r
    moreProduct c n (.arith .rem a b) r
  | _ + 1, a, r => return (a, r)

/-- A value with a sign before it. -/
def signed (c : Context) : Nat → List Token → Except String (Term × List Token)
  | 0, ts => stuck ts
  | n + 1, .sign "!" :: r => do
    let (a, r) ← signed c n r
    return (.not a, r)
  | n + 1, .sign "-" :: r => do
    let (a, r) ← signed c n r
    return (.negated a, r)
  | n + 1, .sign "+" :: r => do
    let (a, r) ← signed c n r
    return (.plain a, r)
  | n + 1, ts => do
    let (a, r) ← stepped c n ts
    match r with
    | .sign "^" :: r =>
      let (b, r) ← signed c n r
      return (.arith .pow a b, r)
    | r => return (a, r)

/-- A value, perhaps with a step behind it. -/
def stepped (c : Context) : Nat → List Token → Except String (Term × List Token)
  | 0, ts => stuck ts
  | n + 1, ts => do
    let (a, r) ← primary c n ts
    match r with
    | .sign "++" :: r' => return if a.isPlace then (.step a true false, r') else (a, r)
    | .sign "--" :: r' => return if a.isPlace then (.step a false false, r') else (a, r)
    | r => return (a, r)

/-- A value that no sign splits. -/
def primary (c : Context) : Nat → List Token → Except String (Term × List Token)
  | 0, ts => stuck ts
  | n + 1, ts => do
    match ts with
    | .number x :: r => return (.number x, r)
    | .text s :: r => return (.text s, r)
    | .regex s :: r => return (.regex s, r)
    | .sign "$" :: .sign "++" :: r =>
      let (a, r) ← primary c n r
      return (.field (.step a true true), r)
    | .sign "$" :: .sign "--" :: r =>
      let (a, r) ← primary c n r
      return (.field (.step a false true), r)
    | .sign "$" :: .sign "-" :: r =>
      let (a, r) ← primary c n r
      return (.field (.negated a), r)
    | .sign "$" :: r =>
      let (a, r) ← primary c n r
      return (.field a, r)
    | .sign "++" :: r =>
      let (a, r) ← primary c n r
      if a.isPlace then return (.step a true true, r) else stuck r
    | .sign "--" :: r =>
      let (a, r) ← primary c n r
      if a.isPlace then return (.step a false true, r) else stuck r
    | .sign "(" :: r =>
      let (es, r) ← terms { } n (skipLines r)
      let r ← expect ")" (skipLines r)
      match es, r with
      | [a], .word "in" :: .name x :: r' =>
        if c.looping then return (a, r) else return (.member [a] x, r')
      | [a], r => return (a, r)
      | es, .word "in" :: .name x :: r => return (.member es x, r)
      | _, r => stuck r
    | .name x :: .sign "[" :: r =>
      let (es, r) ← terms { } n r
      return (.element x es, ← expect "]" r)
    | .name x :: r => return (.variable x, r)
    | .function f :: .sign "(" :: r => do
      let (es, r) ← arguments n (skipLines r)
      return (.call f es, r)
    | .known f :: .sign "(" :: r => do
      let (es, r) ← arguments n (skipLines r)
      return (.known f es, r)
    | .known f :: r => if f = "length" then return (.known f [], r) else stuck r
    | .word "getline" :: r => do
      let (p, r) ← place? n r
      match r with
      | .sign "<" :: r =>
        let (s, r) ← primary c n r
        return (.line .file (some s) p, r)
      | r => return (.line .records none p, r)
    | ts => stuck ts

/-- The values between parentheses, behind the first of them. -/
def arguments : Nat → List Token → Except String (List Term × List Token)
  | 0, ts => stuck ts
  | _ + 1, .sign ")" :: r => return ([], r)
  | n + 1, ts => do
    let (es, r) ← terms { } n ts
    return (es, ← expect ")" (skipLines r))

/-- Values with commas between them. -/
def terms (c : Context) : Nat → List Token → Except String (List Term × List Token)
  | 0, ts => stuck ts
  | n + 1, ts => do
    let (a, r) ← term c n ts
    match r with
    | .sign "," :: r =>
      let (es, r) ← terms c n (skipLines r)
      return (a :: es, r)
    | r => return ([a], r)

end

/-! ## Statements -/

/-- Whether a statement can end before some tokens. -/
def isEnd : List Token → Bool
  | [] | .newline :: _ => true
  | .sign s :: _ => s = ";" || s = "\x7d"
  | _ => false

/-- Where output goes, if that is said. -/
def way (n : Nat) : List Token → Except String (Option (Way × Term) × List Token)
  | .sign s :: r => do
    let go (w : Way) : Except String (Option (Way × Term) × List Token) := do
      let (e, r) ← term { printing := true } n r
      return (some (w, e), r)
    match s with
    | ">" => go .file
    | ">>" => go .extend
    | "|" => go .command
    | _ => return (none, .sign s :: r)
  | r => return (none, r)

/-- The values that are written and where they go. -/
def printed (n : Nat) (ts : List Token) :
    Except String ((List Term × Option (Way × Term)) × List Token) := do
  let grouped : Option (List Term × List Token) :=
    match ts with
    | .sign "(" :: r =>
      match (do let (es, r) ← terms { } n (skipLines r); return (es, ← expect ")" (skipLines r)) :
          Except String (List Term × List Token)) with
      | .ok (es, r) =>
        let stops := isEnd r || match r with
          | .sign s :: _ => s = ">" || s = ">>" || s = "|"
          | _ => false
        if stops then some (es, r) else none
      | .error _ => none
    | _ => none
  let (es, r) ← match grouped with
    | some p => pure p
    | none =>
      match isEnd ts, ts with
      | true, ts => pure ([], ts)
      | false, .sign s :: r =>
        if s = ">" || s = ">>" || s = "|" then pure ([], .sign s :: r)
        else terms { printing := true } n (.sign s :: r)
      | false, ts => terms { printing := true } n ts
  let (w, r) ← way n r
  return ((es, w), r)

/-- A statement without others inside, at the front of some tokens. -/
def simple (n : Nat) (ts : List Token) : Except String (Statement × List Token) := do
  match ts with
  | .word "print" :: r =>
    let ((es, w), r) ← printed n r
    return (.print es w, r)
  | .word "printf" :: r =>
    let ((es, w), r) ← printed n r
    if es.isEmpty then stuck r else return (.format es w, r)
  | .word "delete" :: .name x :: .sign "[" :: r =>
    let (es, r) ← terms { } n r
    return (.delete x (some es), ← expect "]" r)
  | .word "delete" :: .name x :: r => return (.delete x none, r)
  | .word "next" :: r => return (.next, r)
  | .word "nextfile" :: r => return (.nextFile, r)
  | .word "break" :: r => return (.leave, r)
  | .word "continue" :: r => return (.again, r)
  | .word "exit" :: r =>
    if isEnd r then return (.exit none, r)
    else
      let (e, r) ← term { } n r
      return (.exit (some e), r)
  | .word "return" :: r =>
    if isEnd r then return (.back none, r)
    else
      let (e, r) ← term { } n r
      return (.back (some e), r)
  | ts =>
    let (e, r) ← term { } n ts
    return (.term e, r)

/-- The tokens behind the end of a statement. -/
def ended : List Token → Except String (List Token)
  | [] => .ok []
  | .newline :: r => .ok r
  | .sign s :: r => if s = ";" then .ok r else if s = "\x7d" then .ok (.sign s :: r)
    else stuck (.sign s :: r)
  | ts => stuck ts

mutual

/-- **A statement** at the front of some tokens. -/
def statement : Nat → List Token → Except String (Statement × List Token)
  | 0, ts => stuck ts
  | n + 1, ts => do
    match ts with
    | .sign "\x7b" :: r =>
      let (ss, r) ← statements n r
      return (.block ss, r)
    | .sign ";" :: r => return (.block [], r)
    | .word "if" :: .sign "(" :: r =>
      let (e, r) ← term { } n r
      let r ← expect ")" r
      let (yes, r) ← statement n (skipLines r)
      match skipEnds r with
      | .word "else" :: r =>
        let (no, r) ← statement n (skipLines r)
        return (.choice e yes no, r)
      | _ => return (.choice e yes (.block []), r)
    | .word "while" :: .sign "(" :: r =>
      let (e, r) ← term { } n r
      let r ← expect ")" r
      let (body, r) ← statement n (skipLines r)
      return (.loop false e body, r)
    | .word "do" :: r =>
      let (body, r) ← statement n (skipLines r)
      match skipEnds r with
      | .word "while" :: .sign "(" :: r =>
        let (e, r) ← term { } n r
        let r ← expect ")" r
        return (.loop true e body, ← ended r)
      | r => stuck r
    | .word "for" :: .sign "(" :: .name x :: .word "in" :: .name a :: .sign ")" :: r =>
      let (body, r) ← statement n (skipLines r)
      return (.each x a body, r)
    | .word "for" :: .sign "(" :: r =>
      let part (stop : String) (ts : List Token) : Except String (Statement × List Token) := do
        match ts with
        | .sign s :: r =>
          if s = stop then return (.block [], .sign s :: r) else simple n (.sign s :: r)
        | ts => simple n ts
      let (start, r) ← part ";" r
      let r ← expect ";" r
      let (test, r) ← match skipLines r with
        | .sign ";" :: r => pure (Term.number 1.0, .sign ";" :: r)
        | r => term { } n r
      let r ← expect ";" r
      let (step, r) ← part ")" (skipLines r)
      let r ← expect ")" r
      let (body, r) ← statement n (skipLines r)
      return (.count start test step body, r)
    | ts =>
      let (s, r) ← simple n ts
      return (s, ← ended r)

/-- Statements up to a closing brace. -/
def statements : Nat → List Token → Except String (List Statement × List Token)
  | 0, ts => stuck ts
  | n + 1, ts => do
    match skipEnds ts with
    | .sign "\x7d" :: r => return ([], r)
    | ts =>
      let (s, r) ← statement n ts
      let (ss, r) ← statements n r
      return (s :: ss, r)

end

/-! ## Programs -/

/-- The names of arguments up to a closing parenthesis. -/
def parameters : List Token → Except String (List String × List Token)
  | .sign ")" :: r => .ok ([], r)
  | .name x :: .sign "," :: r => do
    let (xs, r) ← parameters r
    return (x :: xs, r)
  | .name x :: .sign ")" :: r => .ok ([x], r)
  | .newline :: r => parameters r
  | ts => stuck ts

/-- The action of a pattern; without one the record is written. -/
def action (n : Nat) : List Token → Except String (Statement × List Token)
  | .sign "\x7b" :: r => do
    let (ss, r) ← statements n r
    return (.block ss, r)
  | r => return (.print [] none, r)

/-- The rules and functions in some tokens. -/
def rules : Nat → List Token → Except String Program
  | 0, ts => stuck ts
  | n + 1, ts => do
    let rule (p : Pattern) (r : List Token) : Except String Program := do
      let (a, r) ← action n r
      let rest ← rules n r
      return { rest with rules := ⟨p, a⟩ :: rest.rules }
    match skipEnds ts with
    | [] => return { }
    | .word "BEGIN" :: .sign "\x7b" :: r => rule .first (.sign "\x7b" :: r)
    | .word "END" :: .sign "\x7b" :: r => rule .last (.sign "\x7b" :: r)
    | .word "BEGIN" :: r | .word "END" :: r => stuck (if r.isEmpty then [.newline] else r)
    | .sign "\x7b" :: r => rule .always (.sign "\x7b" :: r)
    | .word "function" :: .name f :: .sign "(" :: r
    | .word "function" :: .function f :: .sign "(" :: r =>
      let (xs, r) ← parameters r
      let (body, r) ← action n (skipLines r)
      let rest ← rules n r
      return { rest with functions := (f, ⟨xs, body⟩) :: rest.functions }
    | ts =>
      let (a, r) ← term { } n ts
      match r with
      | .sign "," :: r =>
        let (b, r) ← term { } n (skipLines r)
        rule (.span a b) r
      | r => rule (.when a) r

/-- **The program that a text stands for**, or what is wrong with it. -/
def program? (text : String) : Except String Program := do
  let ts ← tokens? none (2 * text.length + 2) text.toList
  rules (12 * ts.length + 64) ts

end MemoFlow.Shell.Record
