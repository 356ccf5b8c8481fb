import MemoFlow.Shell.Real

/-!
# Programs over records

The terms and statements of the language of `awk`, in which patterns choose records and actions work
on their fields.

* `Record.Token`, **`Record.tokens?`**: the words of a program, and those of a text;
* **`Record.Term`**, `Record.Statement`: what is computed and what is done;
* `Record.Pattern`, `Record.Rule`, `Record.Function`, **`Record.Program`**: what a text defines.
-/

namespace MemoFlow.Shell.Record

/-! ## Words -/

/-- A word of a program. -/
inductive Token where
  /-- The end of a line. -/
  | newline
  /-- A number. -/
  | number (x : Float)
  /-- A text. -/
  | text (s : String)
  /-- A regular expression. -/
  | regex (s : String)
  /-- A name. -/
  | name (s : String)
  /-- A name with a parenthesis right behind it. -/
  | function (s : String)
  /-- The name of a function of the language. -/
  | known (s : String)
  /-- A word with a meaning of its own. -/
  | word (s : String)
  /-- A sign. -/
  | sign (s : String)
deriving Repr

namespace Token

/-- Words with a meaning of their own. -/
def words : List String :=
  ["BEGIN", "END", "function", "func", "if", "else", "while", "for", "do", "break", "continue",
    "next", "nextfile", "exit", "return", "delete", "in", "getline", "print", "printf"]

/-- The functions of the language. -/
def functions : List String :=
  ["length", "substr", "index", "split", "sub", "gsub", "match", "sprintf", "sin", "cos", "atan2",
    "exp", "log", "sqrt", "int", "rand", "srand", "tolower", "toupper", "system", "close",
    "fflush", "systime"]

/-- Signs, longer ones first. -/
def signs : List String :=
  ["&&", "||", "++", "--", "+=", "-=", "*=", "/=", "%=", "^=", "==", "<=", ">=", "!=", "!~", ">>",
    "\x7b", "\x7d", "(", ")", "[", "]", ";", ",", "+", "-", "*", "/", "%", "^", "!", ">", "<", "|",
    "?", ":", "~", "$", "="]

/-- Whether a division can follow a word, so that a slash there starts no expression. -/
def endsValue : Token → Bool
  | .number _ | .text _ | .regex _ | .name _ | .known _ => true
  | .sign s => s = ")" || s = "]" || s = "$" || s = "++" || s = "--"
  | _ => false

/-- How a token is shown in complaints. -/
def shown : Token → String
  | .newline => "end of line"
  | .number x => Real.text 'g' 6 false x
  | .text s => "\"" ++ s ++ "\""
  | .regex s => "/" ++ s ++ "/"
  | .name s | .function s | .known s | .word s | .sign s => s

/-- The characters of a text up to the quote that ends it, and what follows. -/
def upToQuote : Nat → List Char → Option (List Char × List Char)
  | 0, _ | _, [] => none
  | _, '"' :: r => some ([], r)
  | n + 1, '\\' :: c :: r =>
    let one (d : Char) : Option (List Char × List Char) :=
      (upToQuote n r).map fun p => (d :: p.1, p.2)
    match c with
    | 'n' => one '\n'
    | 't' => one '\t'
    | 'r' => one '\r'
    | 'a' => one '\x07'
    | 'b' => one '\x08'
    | 'f' => one '\x0c'
    | 'v' => one '\x0b'
    | '"' => one '"'
    | '\\' => one '\\'
    | '\n' => upToQuote n r
    | c =>
      let isOctal (c : Char) : Bool := '0' ≤ c && c ≤ '7'
      if isOctal c then
        let ds := (c :: r).takeWhile isOctal |>.take 3
        let v := ds.foldl (fun v d => 8 * v + (d.toNat - 48)) 0
        (upToQuote n ((c :: r).drop ds.length)).map fun p => (Char.ofNat (v % 256) :: p.1, p.2)
      else (upToQuote n r).map fun p => ('\\' :: c :: p.1, p.2)
  | n + 1, c :: r => (upToQuote n r).map fun p => (c :: p.1, p.2)

/-- The characters of a regular expression up to the slash that ends it, and what follows; `boxed`
holds in brackets. -/
def expression (boxed : Bool) : List Char → Option (List Char × List Char)
  | [] => none
  | '\n' :: _ => none
  | '\\' :: '/' :: r => (expression boxed r).map fun p => ('/' :: p.1, p.2)
  | '\\' :: c :: r => (expression boxed r).map fun p => ('\\' :: c :: p.1, p.2)
  | '/' :: r => if boxed then (expression boxed r).map fun p => ('/' :: p.1, p.2) else some ([], r)
  | '[' :: ']' :: r =>
    if boxed then (expression false r).map fun p => ('[' :: ']' :: p.1, p.2)
    else (expression true r).map fun p => ('[' :: ']' :: p.1, p.2)
  | '[' :: '^' :: ']' :: r => (expression true r).map fun p => ('[' :: '^' :: ']' :: p.1, p.2)
  | '[' :: r => (expression true r).map fun p => ('[' :: p.1, p.2)
  | ']' :: r => (expression false r).map fun p => (']' :: p.1, p.2)
  | c :: r => (expression boxed r).map fun p => (c :: p.1, p.2)

/-- A number as it is written in a program, and what follows it. -/
def numberAt (cs : List Char) : Float × List Char :=
  match cs with
  | '0' :: 'x' :: r | '0' :: 'X' :: r => (0.0, 'x' :: r)
  | cs => Real.ofStart cs

end Token

open MemoFlow.Shell.Record.Token in
/-- **The words of a text**, or what is wrong with it; `last` is the word before. -/
def tokens? (last : Option Token) : Nat → List Char → Except String (List Token)
  | 0, _ | _, [] => .ok []
  | n + 1, c :: r =>
    let put (t : Token) (r : List Char) : Except String (List Token) :=
      (tokens? (some t) n r).map (t :: ·)
    if c = ' ' || c = '\t' || c = '\r' then tokens? last n r
    else if c = '\n' then put .newline r
    else if c = '#' then tokens? last n (r.dropWhile (· ≠ '\n'))
    else if c = '\\' then
      match r.dropWhile (· = '\r') with
      | '\n' :: r => tokens? last n r
      | _ => .error "unexpected character '\\'"
    else if c = '"' then
      match upToQuote (r.length + 1) r with
      | some (s, r) => put (.text (String.ofList s)) r
      | none => .error ("runaway string constant \"" ++ String.ofList (r.take 8) ++ " ...")
    else if c = '/' && !(last.any endsValue) then
      match expression false r with
      | some (s, r) => put (.regex (String.ofList s)) r
      | none => .error ("runaway regular expression /" ++ String.ofList (r.take 8) ++ " ...")
    else if c.isDigit || (c = '.' && r.head?.any Char.isDigit) then
      let (x, r) := numberAt (c :: r)
      put (.number x) r
    else if c.isAlpha || c = '_' then
      let cs := (c :: r).takeWhile fun c => c.isAlphanum || c = '_'
      let r := (c :: r).drop cs.length
      let s := String.ofList cs
      if words.contains s then put (.word (if s = "func" then "function" else s)) r
      else if functions.contains s then put (.known s) r
      else if r.head? = some '(' then put (.function s) r
      else put (.name s) r
    else
      match signs.find? fun s => s.toList.isPrefixOf (c :: r) with
      | some s => put (.sign s) ((c :: r).drop s.length)
      | none => .error ("unexpected character '" ++ String.singleton c ++ "'")

/-! ## Terms and statements -/

/-- Operations on two numbers. -/
inductive Arith where
  /-- The sum. -/
  | add
  /-- The difference. -/
  | sub
  /-- The product. -/
  | mul
  /-- The quotient. -/
  | div
  /-- The remainder. -/
  | rem
  /-- The power. -/
  | pow
deriving DecidableEq, Repr

/-- Comparisons. -/
inductive Relation where
  /-- Less. -/
  | lt
  /-- Less or the same. -/
  | le
  /-- The same. -/
  | eq
  /-- Not the same. -/
  | ne
  /-- More. -/
  | gt
  /-- More or the same. -/
  | ge
deriving DecidableEq, Repr

/-- Where a line that is read comes from. -/
inductive Origin where
  /-- The records of the program. -/
  | records
  /-- A file. -/
  | file
  /-- The output of a command. -/
  | command
deriving DecidableEq, Repr

/-- What is computed. -/
inductive Term where
  /-- A number. -/
  | number (x : Float)
  /-- A text. -/
  | text (s : String)
  /-- An expression that fits the record or does not. -/
  | regex (r : String)
  /-- A variable. -/
  | variable (name : String)
  /-- A field of the record. -/
  | field (index : Term)
  /-- An element of an array. -/
  | element (name : String) (index : List Term)
  /-- Something new for a place, perhaps after an operation on what is there. -/
  | assign (place : Term) (operation : Option Arith) (value : Term)
  /-- A place one more or one less, seen before or after that. -/
  | step (place : Term) (up before : Bool)
  /-- One of two values. -/
  | choice (test yes no : Term)
  /-- Whether one of two values holds. -/
  | either (a b : Term)
  /-- Whether both of two values hold. -/
  | both (a b : Term)
  /-- Whether a value does not hold. -/
  | not (a : Term)
  /-- The number with the other sign. -/
  | negated (a : Term)
  /-- The number itself. -/
  | plain (a : Term)
  /-- Whether an array has an element. -/
  | member (index : List Term) (name : String)
  /-- Whether a value fits an expression, or does not. -/
  | fits (negative : Bool) (value pattern : Term)
  /-- A comparison. -/
  | compare (r : Relation) (a b : Term)
  /-- Two texts behind each other. -/
  | cat (a b : Term)
  /-- An operation on numbers. -/
  | arith (o : Arith) (a b : Term)
  /-- A function of the program. -/
  | call (name : String) (args : List Term)
  /-- A function of the language. -/
  | known (name : String) (args : List Term)
  /-- The next line from somewhere, for a place or for the record. -/
  | line (origin : Origin) (source : Option Term) (place : Option Term)
deriving Repr

/-- Whether a term stands for a place. -/
def Term.isPlace : Term → Bool
  | .variable _ | .field _ | .element _ _ => true
  | _ => false

/-- Where output goes. -/
inductive Way where
  /-- To a file that is made anew. -/
  | file
  /-- To the end of a file. -/
  | extend
  /-- To a command. -/
  | command
deriving DecidableEq, Repr

/-- What is done. -/
inductive Statement where
  /-- A value is computed. -/
  | term (e : Term)
  /-- Values are written with signs between them. -/
  | print (es : List Term) (way : Option (Way × Term))
  /-- Values are written in a format. -/
  | format (es : List Term) (way : Option (Way × Term))
  /-- Statements one after the other. -/
  | block (ss : List Statement)
  /-- One of two statements. -/
  | choice (test : Term) (yes no : Statement)
  /-- A statement as long as a test holds; the test comes after the statement when `late` holds. -/
  | loop (late : Bool) (test : Term) (body : Statement)
  /-- A loop with a start and a step. -/
  | count (start : Statement) (test : Term) (next body : Statement)
  /-- A statement for each index of an array. -/
  | each (name array : String) (body : Statement)
  /-- The end of a loop. -/
  | leave
  /-- The next turn of a loop. -/
  | again
  /-- The next record. -/
  | next
  /-- The next file. -/
  | nextFile
  /-- The end, with a status. -/
  | exit (status : Option Term)
  /-- The end of a function. -/
  | back (value : Option Term)
  /-- An element goes, or all of them. -/
  | delete (name : String) (index : Option (List Term))
deriving Repr

/-- When an action is taken. -/
inductive Pattern where
  /-- Before all records. -/
  | first
  /-- Behind all records. -/
  | last
  /-- For each record. -/
  | always
  /-- When a value holds. -/
  | when (e : Term)
  /-- From one record to another. -/
  | span (a b : Term)
deriving Repr

/-- A pattern with its action. -/
structure Rule where
  /-- The pattern. -/
  pattern : Pattern
  /-- The action. -/
  action : Statement
deriving Repr

/-- A function of the program. -/
structure Function where
  /-- The names of its arguments. -/
  parameters : List String
  /-- What it does. -/
  body : Statement
deriving Repr

/-- **What a text defines.** -/
structure Program where
  /-- The rules. -/
  rules : List Rule := []
  /-- The functions. -/
  functions : List (String × Function) := []

end MemoFlow.Shell.Record
