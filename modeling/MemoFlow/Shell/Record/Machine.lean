import MemoFlow.Shell.Record.Term
import MemoFlow.Shell.Record.Value
import MemoFlow.Shell.Reply

/-!
# The state of programs over records

* **`Record.Machine`**: the variables, arrays, record, input and output of a program that runs;
* `Record.Exit`, `Record.Act`: ways out of a statement, and actions;
* `Record.valueOf`, `Record.setVariable`, `Record.elementOf`, `Record.setElement`: variables and
  arrays;
* `Record.setRecord`, `Record.setField`: the record;
* `Record.nextRecord?`: the next record of the input;
* `Record.write`: output.
-/

namespace MemoFlow.Shell.Record

/-- A program that runs. -/
structure Machine where
  /-- The program. -/
  program : Program := { }
  /-- What it sees. -/
  view : View
  /-- The variables. -/
  vars : List (String × Value) := []
  /-- The numbers of arrays by their names. -/
  names : List (String × Nat) := []
  /-- The arrays by their numbers. -/
  arrays : List (Nat × List (String × Value)) := []
  /-- The number of the next array. -/
  nextArray : Nat := 0
  /-- The variables of functions that run, each as a value and as an array. -/
  frames : List (List (String × Value × Nat)) := []
  /-- The record. -/
  record : Value := .nothing
  /-- Its fields. -/
  fields : List Value := []
  /-- What is left of the input that is read. -/
  rest : Option String := none
  /-- The input that has no name. -/
  input : String := ""
  /-- Files and assignments that are still to come. -/
  waiting : List String := []
  /-- Whether a file has been read. -/
  hasRead : Bool := false
  /-- The output. -/
  out : String := ""
  /-- The output to where errors go. -/
  err : String := ""
  /-- Output to files. -/
  files : List (String × String) := []
  /-- Output to commands. -/
  piped : List (String × String) := []
  /-- What is left of other files and of the output of commands. -/
  sources : List (String × String) := []
  /-- Statuses and outputs of commands that are still to be used. -/
  answers : List (Nat × String) := []
  /-- The rules that have started and not ended. -/
  active : List Nat := []
  /-- The last number in the row of those that look like chance. -/
  seed : Nat := 1
  /-- The number with which that row started. -/
  start : Float := 0.0
  /-- The status. -/
  status : Nat := 0

/-- Ways out of a statement. -/
inductive Exit where
  /-- A loop ends. -/
  | leave
  /-- The next turn of a loop. -/
  | again
  /-- The next record. -/
  | next
  /-- The next file. -/
  | nextFile
  /-- The program ends. -/
  | done
  /-- A function ends. -/
  | back (v : Value)
  /-- Something went wrong. -/
  | fault (text : String)
  /-- A command has to be run first. -/
  | ask (q : Question)

/-- An action of a program. -/
abbrev Act : Type → Type := ExceptT Exit (StateM Machine)

/-! ## Variables -/

/-- A value under a name in a list, in place of another one. -/
def store {α : Type} (k : String) (v : α) : List (String × α) → List (String × α)
  | [] => [(k, v)]
  | p :: r => if p.1 = k then (k, v) :: r else p :: store k v r

/-- The text of a variable. -/
def Machine.text (m : Machine) (name : String) : String :=
  ((m.vars.lookup name).getD .nothing).toText "%.6g"

/-- The text for which a value is taken. -/
def toText (v : Value) : Act String := return v.toText ((← get).text "CONVFMT")

/-- The value of a variable. -/
def valueOf (name : String) : Act Value := do
  let m ← get
  match m.frames with
  | f :: _ =>
    match f.lookup name with
    | some (v, _) => return v
    | none => pure ()
  | [] => pure ()
  if name = "NF" then return .ofNat m.fields.length
  return (m.vars.lookup name).getD .nothing

/-- The fields of a text. -/
def Machine.fieldsOf (m : Machine) (s : String) : List Value :=
  let parts := split (m.text "FS") s
  let parts := if m.text "RS" = "" && m.text "FS" ≠ " " then
      parts.flatMap fun p => (p.toList.splitOnP (· = '\n')).map String.ofList
    else parts
  parts.map .read

/-- Give the record. -/
def setRecord (s : String) : Act Unit :=
  modify fun m => { m with record := .read s, fields := m.fieldsOf s }

/-- Put the record together from fields. -/
def setFields (fs : List Value) : Act Unit :=
  modify fun m =>
    let format := m.text "CONVFMT"
    let sep := m.text "OFS"
    { m with
      fields := fs
      record := .read (String.intercalate sep (fs.map (Value.toText format))) }

/-- Give a field. -/
def setField (i : Nat) (v : Value) : Act Unit := do
  if i = 0 then
    setRecord (← toText v)
  else
    let fs := (← get).fields
    let fs := fs ++ List.replicate (i - fs.length) (.text "")
    setFields (fs.set (i - 1) v)

/-- Give a variable. -/
def setVariable (name : String) (v : Value) : Act Unit := do
  let m ← get
  match m.frames with
  | f :: fs =>
    match f.lookup name with
    | some (_, a) =>
      modify fun m => { m with frames := store name (v, a) f :: fs }
      return
    | none => pure ()
  | [] => pure ()
  if name = "NF" then
    let n := v.toNat
    let fs := m.fields.take n
    setFields (fs ++ List.replicate (n - fs.length) (.text ""))
  else modify fun m => { m with vars := store name v m.vars }

/-- A new array. -/
def newArray : Act Nat := do
  let n := (← get).nextArray
  modify fun m => { m with nextArray := n + 1 }
  return n

/-- The number of an array. -/
def arrayOf (name : String) : Act Nat := do
  let m ← get
  match m.frames with
  | f :: _ =>
    match f.lookup name with
    | some (_, a) => return a
    | none => pure ()
  | [] => pure ()
  match m.names.lookup name with
  | some a => return a
  | none =>
    let a ← newArray
    modify fun m => { m with names := (name, a) :: m.names }
    return a

/-- The elements of an array. -/
def elements (a : Nat) : Act (List (String × Value)) := return ((← get).arrays.lookup a).getD []

/-- Give an array elements. -/
def setElements (a : Nat) (es : List (String × Value)) : Act Unit :=
  modify fun m => { m with arrays := (a, es) :: m.arrays.filter fun p => p.1 ≠ a }

/-- Give an element. -/
def setElement (a : Nat) (key : String) (v : Value) : Act Unit := do
  setElements a (store key v (← elements a))

/-- An element; it is made when it is not there. -/
def elementOf (a : Nat) (key : String) : Act Value := do
  match (← elements a).lookup key with
  | some v => return v
  | none =>
    setElement a key .nothing
    return .nothing

/-- The place of a key among others: a number that its bytes are mixed to. -/
def placeOf (key : String) : Nat :=
  (key.toUTF8.toList.foldl (fun h b => (h ^^^ b.toNat) * 16777619 % 4294967296) 2166136261) % 64

/-- The keys of an array in the order of their places, later ones first. -/
def keysOf (es : List (String × Value)) : List String :=
  ((es.reverse.map fun p => (placeOf p.1, p.1)).mergeSort fun a b => a.1 ≤ b.1).map Prod.snd

/-! ## Input -/

/-- The first record of a text, and what follows it. -/
def recordOf (separator s : String) : Option (String × String) :=
  let cs := s.toList
  let sides (one rest : List Char) : Option (String × String) :=
    some (String.ofList one, String.ofList rest)
  if cs.isEmpty then none
  else
    match separator.toList with
    | [c] =>
      let one := cs.takeWhile (· ≠ c)
      let rest := cs.drop (one.length + 1)
      -- Nothing but the end of a line stands behind the last separator.
      if c ≠ '\n' && rest.isEmpty && one.length < cs.length then sides one []
      else sides one rest
    | [] =>
      let cs := cs.dropWhile (· = '\n')
      if cs.isEmpty then none
      else
        match firstMatch? "\n\n+" cs with
        | some (a, b) => sides (cs.take a.index) (cs.drop b.index)
        | none => sides (if cs.getLast? = some '\n' then cs.dropLast else cs) []
    | _ =>
      match (matchesIn separator cs).find? fun p => p.1.index < p.2.index with
      | some (a, b) => sides (cs.take a.index) (cs.drop b.index)
      | none => sides cs []

/-- A name and a value with a sign between them. -/
def setting? (s : String) : Option (String × String) :=
  match s.toList.takeWhile (· ≠ '=') with
  | [] => none
  | c :: cs =>
    if s.contains '=' && (c.isAlpha || c = '_') && cs.all fun c => c.isAlphanum || c = '_' then
      some (String.ofList (c :: cs), String.ofList (s.toList.drop (cs.length + 2)))
    else none

/-- Open the next input; `fuel` bounds the names. -/
def openNext : Nat → Act Bool
  | 0 => return false
  | fuel + 1 => do
    let m ← get
    match m.waiting with
    | [] =>
      if m.hasRead then return false
      modify fun m => { m with rest := some m.input, input := "", hasRead := true }
      setVariable "FILENAME" (.text "-")
      return true
    | w :: ws =>
      modify fun m => { m with waiting := ws }
      match setting? w with
      | some (n, v) =>
        setVariable n (.read (Format.unescape false v).1)
        openNext fuel
      | none =>
        if w = "" then openNext fuel
        else
          setVariable "FILENAME" (.text w)
          setVariable "FNR" (.number 0.0)
          if w = "-" || w = "/dev/stdin" then
            modify fun m => { m with rest := some m.input, input := "", hasRead := true }
            return true
          match m.view.contents? w with
          | some t =>
            modify fun m => { m with rest := some t, hasRead := true }
            return true
          | none =>
            if m.view.kind? w = some .device then
              modify fun m => { m with rest := some "", hasRead := true }
              return true
            throw (.fault ("cannot open \"" ++ w ++ "\" (No such file or directory)"))

/-- The next record of the input; `fuel` bounds the files. -/
def nextRecord? : Nat → Act (Option String)
  | 0 => return none
  | fuel + 1 => do
    let m ← get
    match m.rest with
    | none => if ← openNext (m.waiting.length + 1) then nextRecord? fuel else return none
    | some t =>
      match recordOf (m.text "RS") t with
      | some (s, rest) =>
        modify fun m => { m with rest := some rest }
        return some s
      | none =>
        modify fun m => { m with rest := none }
        nextRecord? fuel

/-- One more record has been read. -/
def countRecord : Act Unit := do
  setVariable "NR" (.number ((← valueOf "NR").toFloat + 1.0))
  setVariable "FNR" (.number ((← valueOf "FNR").toFloat + 1.0))

/-! ## Output and commands -/

/-- Write a text. -/
def write (way : Option (Way × String)) (t : String) : Act Unit := do
  match way with
  | none => modify fun m => { m with out := m.out ++ t }
  | some (.command, c) =>
    modify fun m => { m with piped := store c (((m.piped.lookup c).getD "") ++ t) m.piped }
  | some (w, p) =>
    if p = "/dev/stdout" || p = "-" then modify fun m => { m with out := m.out ++ t }
    else if p = "/dev/stderr" then modify fun m => { m with err := m.err ++ t }
    else
      let m ← get
      let home := joinParts (parts p).dropLast
      let home := if p.startsWith "/" then home ++ "/"
        else if home = "" then "." else String.ofList (home.toList.drop 1)
      if m.view.kind? home ≠ some .folder then
        throw (.fault ("cannot open \"" ++ p ++ "\" for output (No such file or directory)"))
      let before := match m.files.lookup p with
        | some s => s
        | none => if w = .extend then (m.view.contents? p).getD "" else ""
      modify fun m => { m with files := store p (before ++ t) m.files }

/-- Run a command, or use what is known of it already. -/
def ask (q : Question) : Act (Nat × String) := do
  match (← get).answers with
  | a :: r =>
    modify fun m => { m with answers := r }
    return a
  | [] => throw (.ask q)

end MemoFlow.Shell.Record
