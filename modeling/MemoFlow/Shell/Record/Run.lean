import MemoFlow.Number.Special
import MemoFlow.Shell.Given
import MemoFlow.Shell.Record.Grammar
import MemoFlow.Shell.Record.Machine

/-!
# Running programs over records

* `Record.Spot`: places to which values are given;
* `Record.value`, `Record.perform`: a value is computed, a statement is done;
* `Record.overRecords`, `Record.whole`: the rules for the records, and a program from its first rule
  to its last one;
* **`Shell.recordwise`**: the program `awk`.

Values and statements run under some fuel, a bound on those inside one another and on the turns of
loops.
-/

namespace MemoFlow.Shell

namespace Record

/-- A place to which a value is given. -/
inductive Spot where
  /-- A variable. -/
  | variable (name : String)
  /-- A field. -/
  | field (index : Nat)
  /-- An element of an array. -/
  | element (array : Nat) (key : String)

/-- What a place holds. -/
def Spot.value : Spot → Act Value
  | .variable n => valueOf n
  | .field 0 => return (← get).record
  | .field i => return ((← get).fields[i - 1]?).getD .nothing
  | .element a k => elementOf a k

/-- Give a place a value. -/
def Spot.give (v : Value) : Spot → Act Unit
  | .variable n => setVariable n v
  | .field i => setField i v
  | .element a k => setElement a k v

/-- The result of an operation. -/
def Arith.result (x y : Float) : Arith → Float
  | .add => x + y
  | .sub => x - y
  | .mul => x * y
  | .div => x / y
  | .rem => Special.remainder x y
  | .pow => Float.pow x y

/-- Whether a comparison holds between two things that are in some order. -/
def Relation.holds (less same : Bool) : Relation → Bool
  | .lt => less
  | .le => less || same
  | .eq => same
  | .ne => !same
  | .gt => !less && !same
  | .ge => !less

/-- Whether a comparison holds between two values. -/
def compared (r : Relation) (a b : Value) : Act Bool := do
  if a.isNumber && b.isNumber then
    let x := a.toFloat
    let y := b.toFloat
    return r.holds (x < y) (x == y)
  else
    let s ← toText a
    let t ← toText b
    return r.holds (decide (s < t)) (s == t)

/-- The text that takes the place of a match. -/
def replaced (text found : List Char) : List Char → List Char
  | '\\' :: '&' :: r => '&' :: replaced text found r
  | '\\' :: '\\' :: r => '\\' :: replaced text found r
  | '&' :: r => found ++ replaced text found r
  | c :: r => c :: replaced text found r
  | [] => []

/-- A text with matches replaced. -/
def withReplaced (text new : List Char) (start : Nat) :
    List (Regex.Place × Regex.Place) → List Char
  | [] => text.drop start
  | (a, b) :: ms =>
    (text.take a.index).drop start ++
      replaced text ((text.take b.index).drop a.index) new ++ withReplaced text new b.index ms

/-- A part of a text from a place on; `count` is its length. A place before the text makes the part
longer. -/
def excerpt (s : String) (start : Int) (count : Option Int) : String :=
  let i := max start 1
  let rest := s.toList.drop (i.toNat - 1)
  match count with
  | none => String.ofList rest
  | some n => String.ofList (rest.take (if start < 0 then n - start else n).toNat)

/-- The next number in a row that looks like chance. -/
def chance : Act Float := do
  let n := ((← get).seed * 6364136223846793005 + 1442695040888963407) % 18446744073709551616
  modify fun m => { m with seed := n }
  return Float.ofNat (n / 2048) / 9007199254740992.0

/-- The text of a separator: an expression as it is written, or a value. -/
def patternText (e : Term) (v : Value) : Act String :=
  match e with
  | .regex r => return r
  | _ => toText v

/-- A format filled with values, and a complaint when there are not enough of them. -/
def filled (name : String) (vs : List Value) : Act (String × Option String) := do
  match vs with
  | [] => return ("", none)
  | f :: vs =>
    let format ← toText f
    let m ← get
    let (t, enough) :=
      inFormat (Value.toText (m.text "CONVFMT")) (format.length + 1) format.toList vs
    let complaint := "run time error: not enough arguments passed to " ++ name ++ "(\"" ++ format ++
      "\")\n\tFILENAME=\"" ++ m.text "FILENAME" ++ "\" FNR=" ++ m.text "FNR" ++ " NR=" ++
      m.text "NR"
    return (t, if enough then none else some complaint)

/-- Functions of the language that only need the values of their arguments. -/
def plainFunction (name : String) (vs : List Value) : Act Value := do
  let first := (vs.head?).getD .nothing
  let second := ((vs.drop 1).head?).getD .nothing
  let one (f : Float → Float) : Act Value := return .number (f first.toFloat)
  match name with
  | "sin" => one Float.sin
  | "cos" => one Float.cos
  | "exp" => one Float.exp
  | "log" => one Float.log
  | "sqrt" => one Float.sqrt
  | "int" => one Special.trunc
  | "atan2" => return .number (Float.atan2 first.toFloat second.toFloat)
  | "tolower" => return .text ((← toText first).map Char.toLower)
  | "toupper" => return .text ((← toText first).map Char.toUpper)
  | "rand" => return .number (← chance)
  | "srand" =>
    let old := (← get).start
    let new := if vs.isEmpty then 1700000000.0 else first.toFloat
    modify fun m => { m with start := new, seed := new.toUInt64.toNat }
    return .number old
  | "systime" => return .number 1700000000.0
  | "index" =>
    let s := (← toText first).toList
    let t := (← toText second).toList
    let found := (List.range (s.length + 1)).find? fun i => t.isPrefixOf (s.drop i)
    return .ofNat ((found.map (· + 1)).getD 0)
  | "substr" =>
    let s ← toText first
    let count := (vs.drop 2).head?.map Value.toInt
    return .text (excerpt s second.toInt count)
  | "sprintf" =>
    match ← filled "sprintf" vs with
    | (t, none) => return .text t
    | (_, some e) => throw (.fault e)
  | "fflush" => return .number 0.0
  | "system" =>
    let (status, out) ← ask ⟨← toText first, none, false⟩
    modify fun m => { m with out := m.out ++ out }
    return .ofNat status
  | "close" =>
    let s ← toText first
    let m ← get
    match m.piped.lookup s with
    | some t =>
      let (status, _) ← ask ⟨s, some t, false⟩
      modify fun m => { m with piped := m.piped.filter fun p => p.1 ≠ s }
      return .ofNat status
    | none =>
      if (m.sources.lookup s).isSome then
        modify fun m => { m with sources := m.sources.filter fun p => p.1 ≠ s }
        return .number 0.0
      return .number (if (m.files.lookup s).isSome then 0.0 else -1.0)
  | _ => return .nothing

/-- The text that a file or the output of a command still has, if it is there. -/
def sourceText? (origin : Origin) (name : String) : Act (Option String) := do
  let m ← get
  match m.sources.lookup name with
  | some t => return some t
  | none =>
    match origin with
    | .command =>
      let (_, out) ← ask ⟨name, none, true⟩
      return some out
    | _ =>
      if name = "-" || name = "/dev/stdin" then
        modify fun m => { m with input := "" }
        return some m.input
      return (m.files.lookup name).orElse fun _ => m.view.contents? name

/-- Write values in the way of `print`. -/
def shownValues (vs : List Value) : Act String := do
  let m ← get
  let texts := vs.map (Value.toText (m.text "OFMT"))
  return String.intercalate (m.text "OFS") texts ++ m.text "ORS"

mutual

/-- **A value is computed.** -/
def value : Nat → Term → Act Value
  | 0, _ => throw .done
  | n + 1, e => do
    match e with
    | .number x => return .number x
    | .text s => return .text s
    | .regex r =>
      let s ← toText (← get).record
      return .ofBool (firstMatch? r s.toList).isSome
    | .variable x => valueOf x
    | .field _ | .element _ _ => (← spot n e).value
    | .assign p o v =>
      let place ← spot n p
      let new ← value n v
      let new ← match o with
        | none => pure new
        | some o => pure (.number (o.result (← place.value).toFloat new.toFloat))
      place.give new
      return new
    | .step p up before =>
      let place ← spot n p
      let old := (← place.value).toFloat
      let new := if up then old + 1.0 else old - 1.0
      place.give (.number new)
      return .number (if before then new else old)
    | .choice t yes no => if (← value n t).holds then value n yes else value n no
    | .either a b =>
      if (← value n a).holds then return .ofBool true
      return .ofBool (← value n b).holds
    | .both a b =>
      if !(← value n a).holds then return .ofBool false
      return .ofBool (← value n b).holds
    | .not a => return .ofBool !(← value n a).holds
    | .negated a => return .number (0.0 - (← value n a).toFloat)
    | .plain a => return .number (← value n a).toFloat
    | .member ix x =>
      let k ← key n ix
      return .ofBool ((← elements (← arrayOf x)).lookup k).isSome
    | .fits negative a p =>
      let s ← toText (← value n a)
      let v ← match p with
        | .regex _ => pure .nothing
        | p => value n p
      let r ← patternText p v
      return .ofBool ((firstMatch? r s.toList).isSome != negative)
    | .compare r a b =>
      let x ← value n a
      let y ← value n b
      return .ofBool (← compared r x y)
    | .cat a b =>
      let x ← toText (← value n a)
      let y ← toText (← value n b)
      return .text (x ++ y)
    | .arith o a b =>
      let x ← value n a
      let y ← value n b
      return .number (o.result x.toFloat y.toFloat)
    | .call f args => call n f args
    | .known f args => function n f args
    | .line origin source place => line n origin source place

/-- The place for which a term stands. -/
def spot : Nat → Term → Act Spot
  | 0, _ => throw .done
  | n + 1, e => do
    match e with
    | .variable x => return .variable x
    | .field i =>
      let k := (← value n i).toInt
      if k < 0 then throw (.fault ("run time error: negative field index $" ++ toString k))
      return .field k.toNat
    | .element x ix =>
      let k ← key n ix
      return .element (← arrayOf x) k
    | _ => return .field 0

/-- Values as the key of an element. -/
def key : Nat → List Term → Act String
  | 0, _ => throw .done
  | n + 1, ix => do
    let texts ← values n ix
    let texts ← texts.mapM toText
    return String.intercalate ((← get).text "SUBSEP") texts

/-- The values of terms. -/
def values : Nat → List Term → Act (List Value)
  | 0, _ => throw .done
  | _ + 1, [] => return []
  | n + 1, e :: es => do
    let v ← value n e
    return v :: (← values n es)

/-- Call a function of the program. Arguments that are names can be arrays. -/
def call : Nat → String → List Term → Act Value
  | 0, _, _ => throw .done
  | n + 1, f, args => do
    match (← get).program.functions.lookup f with
    | none => throw (.fault ("line 2: function " ++ f ++ " never defined"))
    | some ⟨ps, body⟩ =>
      let vs ← values n args
      let arrays ← args.mapM fun e =>
        match e with
        | .variable x => arrayOf x
        | _ => newArray
      let more ← (ps.drop args.length).mapM fun _ => newArray
      let vs := vs ++ List.replicate (ps.length - vs.length) .nothing
      let old := (← get).frames
      if 1000 ≤ old.length then throw (.fault "function call nesting too deep")
      modify fun m => { m with frames := ps.zip (vs.zip (arrays ++ more)) :: old }
      let back : Act Unit := modify fun m => { m with frames := old }
      let v ← tryCatch (do perform n body; return Value.nothing) fun e =>
        match e with
        | .back v => return v
        | e => do
          back
          throw e
      back
      return v

/-- Call a function of the language. -/
def function : Nat → String → List Term → Act Value
  | 0, _, _ => throw .done
  | n + 1, f, args => do
    match f, args with
    | "length", [] => return .ofNat (← toText (← get).record).length
    | "length", [.variable x] =>
      let v ← valueOf x
      let es ← elements (← arrayOf x)
      if es.isEmpty then return .ofNat (← toText v).length
      return .ofNat es.length
    | "length", e :: _ => return .ofNat (← toText (← value n e)).length
    | "split", s :: .variable x :: sep =>
      let t ← toText (← value n s)
      let separator ← match sep with
        | [] => pure ((← get).text "FS")
        | e :: _ =>
          match e with
          | .regex r => pure r
          | e => toText (← value n e)
      let parts := split separator t
      let a ← arrayOf x
      setElements a ((List.range parts.length).zip parts |>.map fun p =>
        (toString (p.1 + 1), Value.read p.2))
      return .ofNat parts.length
    | "match", [s, p] =>
      let t ← toText (← value n s)
      let v ← match p with
        | .regex _ => pure .nothing
        | p => value n p
      let r ← patternText p v
      match firstMatch? r t.toList with
      | some (a, b) =>
        setVariable "RSTART" (.ofNat (a.index + 1))
        setVariable "RLENGTH" (.ofNat (b.index - a.index))
        return .ofNat (a.index + 1)
      | none =>
        setVariable "RSTART" (.number 0.0)
        setVariable "RLENGTH" (.number (-1.0))
        return .number 0.0
    | "sub", p :: s :: more | "gsub", p :: s :: more =>
      let v ← match p with
        | .regex _ => pure .nothing
        | p => value n p
      let r ← patternText p v
      let new ← toText (← value n s)
      let target := (more.head?).getD (.field (.number 0.0))
      let place ← spot n target
      let old ← match target.isPlace with
        | true => place.value
        | false => value n target
      let text := (← toText old).toList
      let found := if f = "sub" then (firstMatch? r text).toList else matchesIn r text
      if found.isEmpty then return .number 0.0
      if target.isPlace then
        place.give (.text (String.ofList (withReplaced text new.toList 0 found)))
      return .ofNat found.length
    | f, args =>
      let vs ← values n args
      plainFunction f vs

/-- Read a line. -/
def line : Nat → Origin → Option Term → Option Term → Act Value
  | 0, _, _, _ => throw .done
  | n + 1, origin, source, place => do
    let give (t : String) : Act Unit := do
      match place with
      | some p =>
        let s ← spot n p
        s.give (.read t)
      | none => setRecord t
    match origin, source with
    | .records, _ | _, none =>
      match ← nextRecord? ((← get).waiting.length + 3) with
      | some t =>
        give t
        countRecord
        return .number 1.0
      | none => return .number 0.0
    | origin, some s =>
      let name ← toText (← value n s)
      match ← sourceText? origin name with
      | none => return .number (-1.0)
      | some t =>
        let (one, rest) := match recordOf ((← get).text "RS") t with
          | some (one, rest) => (some one, rest)
          | none => (none, "")
        modify fun m => { m with sources := store name rest m.sources }
        match one with
        | some t =>
          give t
          if origin = .command then
            setVariable "NR" (.number ((← valueOf "NR").toFloat + 1.0))
          return .number 1.0
        | none => return .number 0.0

/-- **A statement is done.** -/
def perform : Nat → Statement → Act Unit
  | 0, _ => throw .done
  | n + 1, s => do
    match s with
    | .term e => let _ ← value n e
    | .print es way =>
      let t ← if es.isEmpty then do pure ((← toText (← get).record) ++ (← get).text "ORS")
        else shownValues (← values n es)
      write (← target n way) t
    | .format es way =>
      let (t, wrong) ← filled "printf" (← values n es)
      write (← target n way) t
      match wrong with
      | some e => throw (.fault e)
      | none => pure ()
    | .block ss => performAll n ss
    | .choice e yes no =>
      if (← value n e).holds then perform n yes else perform n no
    | .loop late e body =>
      let goesOn ← if late then turn n body else pure true
      if goesOn then loop n e body (.block [])
    | .count start e step body =>
      perform n start
      loop n e body step
    | .each x a body =>
      let keys := keysOf (← elements (← arrayOf a))
      overKeys n x keys body
    | .leave => throw .leave
    | .again => throw .again
    | .next => throw .next
    | .nextFile => throw .nextFile
    | .exit status =>
      match status with
      | some e =>
        let v ← value n e
        modify fun m => { m with status := (v.toInt % 256).toNat }
      | none => pure ()
      throw .done
    | .back e =>
      match e with
      | some e => throw (.back (← value n e))
      | none => throw (.back .nothing)
    | .delete x ix =>
      let a ← arrayOf x
      match ix with
      | some ix =>
        let k ← key n ix
        setElements a ((← elements a).filter fun p => p.1 ≠ k)
      | none => setElements a []

/-- Statements are done one after the other. -/
def performAll : Nat → List Statement → Act Unit
  | 0, _ => throw .done
  | _ + 1, [] => return
  | n + 1, s :: ss => do
    perform n s
    performAll n ss

/-- Where output goes. -/
def target : Nat → Option (Way × Term) → Act (Option (Way × String))
  | 0, _ => throw .done
  | _ + 1, none => return none
  | n + 1, some (w, e) => do return some (w, ← toText (← value n e))

/-- One turn of a loop: whether the loop goes on. -/
def turn : Nat → Statement → Act Bool
  | 0, _ => throw .done
  | n + 1, body =>
    tryCatch (do perform n body; return true) fun e =>
      match e with
      | .leave => return false
      | .again => return true
      | e => throw e

/-- A statement as long as a test holds, and a step behind each turn. -/
def loop : Nat → Term → Statement → Statement → Act Unit
  | 0, _, _, _ => throw .done
  | n + 1, e, body, step => do
    if (← value n e).holds then
      if ← turn n body then
        perform n step
        loop n e body step

/-- A statement for each of some keys. -/
def overKeys : Nat → String → List String → Statement → Act Unit
  | 0, _, _, _ => throw .done
  | _ + 1, _, [], _ => return
  | n + 1, x, k :: ks, body => do
    setVariable x (.read k)
    if ← turn n body then overKeys n x ks body

end

/-! ## Rules -/

/-- Rules for the record, with their numbers; `fuel` bounds what they do. -/
def overRules (fuel : Nat) : List (Nat × Rule) → Act Unit
  | [] => return
  | (i, r) :: rs => do
    let holds (e : Term) : Act Bool := return (← value fuel e).holds
    let applies ← match r.pattern with
      | .first | .last => pure false
      | .always => pure true
      | .when e => holds e
      | .span a b => do
        let inside := (← get).active.contains i
        if inside || (← holds a) then
          let ends ← holds b
          modify fun m => { m with active :=
            if ends then m.active.filter (· ≠ i) else if inside then m.active else i :: m.active }
          pure true
        else pure false
    if applies then perform fuel r.action
    overRules fuel rs

/-- The rules for all records; `fuel` bounds their number and what is done for each of them. -/
def overRecords (rules : List (Nat × Rule)) (fuel : Nat) : Nat → Act Unit
  | 0 => return
  | n + 1 => do
    match ← nextRecord? ((← get).waiting.length + 3) with
    | none => return
    | some t =>
      setRecord t
      countRecord
      tryCatch (overRules fuel rules) fun e =>
        match e with
        | .next => return
        | .nextFile => modify fun m => { m with rest := none }
        | e => throw e
      overRecords rules fuel n

/-- Do the actions of some rules, until the program ends. -/
def performEach (fuel : Nat) : List Rule → Act Bool
  | [] => return true
  | r :: rs => do
    let goesOn ← tryCatch (do perform fuel r.action; return true) fun e =>
      match e with
      | .done => return false
      | e => throw e
    if goesOn then performEach fuel rs else return false

/-- Give commands what has been written to them. -/
def closeAll : List (String × String) → Act Unit
  | [] => return
  | (c, t) :: r => do
    let (_, out) ← ask ⟨c, some t, false⟩
    modify fun m => { m with out := m.out ++ out }
    closeAll r

/-- **A program from its first rule to its last one.** -/
def whole (fuel : Nat) : Act Unit := do
  let rules := (← get).program.rules
  let some' (first : Bool) : List Rule := rules.filter fun r =>
    match r.pattern with
    | .first => first
    | .last => !first
    | _ => false
  let middle := ((List.range rules.length).zip rules).filter fun p =>
    match p.2.pattern with
    | .first | .last => false
    | _ => true
  let goesOn ← performEach fuel (some' true)
  if goesOn && !(middle.isEmpty && (some' false).isEmpty) then
    tryCatch (overRecords middle fuel fuel) fun e =>
      match e with
      | .done => return
      | e => throw e
  let _ ← performEach fuel (some' false)
  closeAll (← get).piped

/-- A program with its variables and its input before it runs. -/
def started (v : View) (p : Program) (options : List (Char × String)) (args : List String)
    (name input : String) (answers : List (Nat × String)) : Machine :=
  let set' (vs : List (String × Value)) (o : Char × String) : List (String × Value) :=
    match o.1, setting? o.2 with
    | 'v', some (n, x) => store n (.read (Format.unescape false x).1) vs
    | 'F', _ => store "FS" (.text (Format.unescape false o.2).1) vs
    | _, _ => vs
  let first : List (String × Value) :=
    [("FS", .text " "), ("OFS", .text " "), ("RS", .text "\n"), ("ORS", .text "\n"),
      ("SUBSEP", .text "\x1c"), ("CONVFMT", .text "%.6g"), ("OFMT", .text "%.6g"),
      ("NR", .number 0.0), ("FNR", .number 0.0), ("RSTART", .number 0.0),
      ("RLENGTH", .number (-1.0)), ("ARGC", .ofNat (args.length + 1))]
  let given := ((List.range (args.length + 1)).zip (name :: args)).map fun p =>
    (toString p.1, Value.read p.2)
  { program := p
    view := v
    vars := options.foldl set' first
    names := [("ARGV", 0), ("ENVIRON", 1)]
    arrays := [(0, given), (1, v.vars.map fun p => (p.1, Value.read p.2))]
    nextArray := 2
    input := input
    waiting := args
    answers := answers }

/-- What a program leaves behind, or the command that has to be run before that is known. -/
def outcome (name : String) (m : Machine) : Reply × Option Question :=
  let (result, m) := (whole 1000000).run m
  let so : Reply :=
    { out := m.out, err := m.err, early := true, files := m.files, status := m.status }
  match result with
  | .ok _ => (so, none)
  | .error (.ask q) => (so, some q)
  | .error (.fault t) => ({ so with err := m.err ++ name ++ ": " ++ t ++ "\n", status := 2 }, none)
  | .error .done => (so, none)
  | .error e =>
    let t := match e with
      | .leave => "break statement outside of loop"
      | .again => "continue statement outside of loop"
      | .back _ => "return outside function body"
      | _ => "improper use of next"
    (refuse 2 name ("line 1: " ++ t), none)

/-- Whether a program reads its input. -/
def reads (text : String) (p : Program) : Bool :=
  occurs "getline".toList text.toList || p.rules.any fun r =>
    match r.pattern with
    | .first => false
    | _ => true

/-- The options of the program: letters with a value, and what follows them. -/
def options : Nat → List String → Except String (List (Char × String) × List String)
  | 0, r => .ok ([], r)
  | _, [] => .ok ([], [])
  | n + 1, s :: r => do
    match s.toList with
    | ['-'] => return ([], s :: r)
    | ['-', '-'] => return ([], r)
    | '-' :: c :: cs =>
      if !(['F', 'v', 'f', 'W'].contains c) then throw ("not an option: " ++ s)
      match cs, r with
      | [], v :: r =>
        let (os, r) ← options n r
        return ((c, v) :: os, r)
      | [], [] => throw ("option -" ++ String.singleton c ++ " lacks argument")
      | cs, r =>
        let (os, r) ← options n r
        return ((c, String.ofList cs) :: os, r)
    | _ => return ([], s :: r)

end Record

open Record in
/-- **The program `awk`.** -/
def recordwise (v : View) (name : String) (args : List String) : Start :=
  let fault (t : String) : Start := .reply (refuse 2 name t)
  let lost (p : String) : Start :=
    fault ("cannot open \"" ++ p ++ "\" (" ++ noFile ++ ")")
  let run (text : String) (os : List (Char × String)) (args : List String) : Start :=
    match program? text with
    | .error e =>
      -- Lines are not kept with words; what is missing is missed behind the last one.
      let line := if e.startsWith "missing" then (text.toList.filter (· = '\n')).length + 2 else 1
      fault ("line " ++ toString line ++ ": " ++ e)
    | .ok p => .asks (reads text p) fun input answers =>
      outcome name (started v p os args name input answers)
  if args = ["--version"] || args = ["-W", "version"] then
    .reply { out := "mawk 1.3.4 20240123\n" }
  else
  match options (args.length + 1) args with
  | .error e => fault e
  | .ok (os, rest) =>
    let files := (os.filter fun o => o.1 = 'f').map Prod.snd
    match files.find? fun f => (v.contents? f).isNone with
    | some f => lost f
    | none =>
      match files, rest with
      | [], t :: r => run t os r
      | [], [] => .reply { }
      | fs, r => run (String.intercalate "\n" (fs.filterMap v.contents?)) os r

end MemoFlow.Shell
