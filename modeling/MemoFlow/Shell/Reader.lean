import MemoFlow.Shell.Command

/-!
# Reading commands

A text is read a line at a time: a line is read in full, with everything that it opens, before any
of it runs.

* `Shell.Token`, `Token.shown`: the signs of the language, and how complaints show them;
* **`Shell.Reader`**, `Shell.Complaint`, `Shell.Reading`: a text on its way, and what is wrong
  with it;
* `Reading.scan`, `Reading.pieces`: the next sign, and the pieces of a word;
* `Reading.list`, `Reading.command`: lists of commands and single ones;
* **`Reader.nextLine`**: the commands of the next line.

The readers call each other; `fuel` bounds the calls inside one another, and each of them reads at
least a character within a fixed number of calls, so a bound that grows with the text is enough.
-/

namespace MemoFlow.Shell

/-! ## Signs -/

/-- A sign of the language. -/
inductive Token where
  /-- The end of the text. -/
  | endOfText
  /-- The end of a line. -/
  | newline
  /-- An operator. -/
  | operator (s : String)
  /-- A word with a meaning of its own. -/
  | keyword (s : String)
  /-- The start of a redirection; a document may stand behind tabs. -/
  | redirect (descriptor : Nat) (way : Direction) (tabs : Bool)
  /-- Any other word. -/
  | word (w : Word)

/-- The words with a meaning of their own. -/
def keywords : List String :=
  ["!", "case", "do", "done", "elif", "else", "esac", "fi", "for", "if", "in", "then", "until",
    "while", "\x7b", "\x7d"]

/-- The signs that end a list of commands. -/
def closers : List String :=
  [")", ";;", "do", "done", "elif", "else", "esac", "fi", "then", "\x7d"]

namespace Token

/-- The sign in a complaint. -/
def shown : Token → String
  | .endOfText => "end of file"
  | .newline => "newline"
  | .operator s | .keyword s => "\"" ++ s ++ "\""
  | .redirect .. => "redirection"
  | .word _ => "word"

/-- Whether the sign is an operator or a keyword. -/
def isSign (s : String) : Token → Bool
  | .operator t | .keyword t => t = s
  | _ => false

/-- Whether the sign ends a list. -/
def closes : Token → Bool
  | .endOfText => true
  | .operator s | .keyword s => closers.contains s
  | _ => false

/-- The sign where keywords are known. -/
def known : Token → Token
  | .word w =>
    match w.bare? with
    | some s => if keywords.contains s then .keyword s else .word w
    | none => .word w
  | t => t

end Token

/-! ## Readers -/

/-- A document that has been announced and is still to be read. -/
structure Announced where
  /-- Its number. -/
  number : Nat
  /-- The line that ends it. -/
  mark : String
  /-- Whether it stands as it is. -/
  literal : Bool
  /-- Whether tabs at the start of its lines are left out. -/
  tabs : Bool

/-- **A text on its way.** -/
structure Reader where
  /-- What is still to be read. -/
  rest : List Char
  /-- The number of the line. -/
  line : Nat := 1
  /-- The sign that was read last. -/
  last : Token := .newline
  /-- Whether that sign is to be read again. -/
  held : Bool := false
  /-- Whether ends of lines before the next sign are skipped. -/
  overLines : Bool := false
  /-- Whether the next sign can be a keyword. -/
  overWords : Bool := false
  /-- Whether the next sign can be an alias. -/
  overNames : Bool := false
  /-- The aliases with their texts. -/
  aliases : List (String × String) := []
  /-- The aliases whose texts are being read: how much text follows them, and whether the sign
  behind them can be an alias as well. -/
  active : List (String × Nat × Bool) := []
  /-- The number of the next document. -/
  number : Nat := 0
  /-- Documents still to be read. -/
  announced : List Announced := []
  /-- Documents that have been read. -/
  documents : List (Nat × Word) := []

/-- What is wrong with a text, and on which line. -/
structure Complaint where
  /-- The line. -/
  line : Nat
  /-- What is wrong. -/
  text : String
deriving DecidableEq, Repr

/-- A step of reading. -/
abbrev Reading : Type → Type := StateT Reader (Except Complaint)

namespace Reading

/-- Give up. -/
def fail {α : Type} (text : String) : Reading α := do throw ⟨(← get).line, text⟩

/-- The last sign is out of place; another one may have been due. -/
def unexpected {α : Type} (due : Option String) : Reading α := do
  let t := (← get).last.shown ++ " unexpected"
  match due with
  | some d => fail (t ++ " (expecting " ++ d ++ ")")
  | none => fail t

/-- An operator or keyword in a complaint. -/
def quote (s : String) : String := "\"" ++ s ++ "\""

/-- Read the last sign again. -/
def hold : Reading Unit := modify fun r => { r with held := true }

/-- What the next sign may be. -/
def expect (overLines overWords : Bool) : Reading Unit :=
  modify fun r => { r with overLines := overLines, overWords := overWords, overNames := overWords }

/-- Go on with a text, over `n` ends of lines. -/
def goOn (rest : List Char) (n : Nat := 0) : Reading Unit :=
  modify fun r => { r with rest := rest, line := r.line + n }

/-- Leave out ends of lines that are escaped. -/
def joined : List Char → List Char × Nat
  | '\\' :: '\n' :: r => ((joined r).1, (joined r).2 + 1)
  | r => (r, 0)

/-- Leave out spaces, tabs, escaped ends of lines and a comment. -/
def skipBlanks : List Char → List Char × Nat
  | ' ' :: r | '\t' :: r => skipBlanks r
  | '\\' :: '\n' :: r => ((skipBlanks r).1, (skipBlanks r).2 + 1)
  | '#' :: r => (r.dropWhile fun c => c ≠ '\n', 0)
  | r => (r, 0)

/-- Whether a character ends a word. -/
def endsWord (c : Char) : Bool := "\n <>();&|\t".contains c

/-- The text of a command between backquotes, whose escapes are undone, and what follows. -/
def backquoted? (quoted : Bool) : List Char → Option (List Char × List Char)
  | [] => none
  | '`' :: r => some ([], r)
  | '\\' :: '\n' :: r => backquoted? quoted r
  | '\\' :: c :: r =>
    let plain := c = '\\' || c = '`' || c = '$' || (quoted && c = '"')
    (backquoted? quoted r).map fun p => (if plain then c :: p.1 else '\\' :: c :: p.1, p.2)
  | c :: r => (backquoted? quoted r).map fun p => (c :: p.1, p.2)

/-- Whether a character is a parameter by itself. -/
def isSpecial (c : Char) : Bool := "@*#?-$!".contains c

/-- The use of a parameter that some characters name, and what follows them. -/
def useAt : List Char → Use × List Char
  | '\x7d' :: r => (.value, '\x7d' :: r)
  | '%' :: '%' :: r => (.dropEnd true, r)
  | '%' :: r => (.dropEnd false, r)
  | '#' :: '#' :: r => (.dropStart true, r)
  | '#' :: r => (.dropStart false, r)
  | ':' :: '-' :: r => (.orElse true, r)
  | ':' :: '=' :: r => (.orSet true, r)
  | ':' :: '?' :: r => (.orFail true, r)
  | ':' :: '+' :: r => (.instead true, r)
  | '-' :: r => (.orElse false, r)
  | '=' :: r => (.orSet false, r)
  | '?' :: r => (.orFail false, r)
  | '+' :: r => (.instead false, r)
  | r => (.unknown, r)

/-- The name of a parameter at the start of some characters, and what follows it. -/
def parameterAt? (braced : Bool) : List Char → Option (String × List Char)
  | c :: r =>
    if isNameStart c then
      some (String.ofList (c :: r.takeWhile isNamePart), r.dropWhile isNamePart)
    else if c.isDigit then
      if braced then
        some (String.ofList (c :: r.takeWhile Char.isDigit), r.dropWhile Char.isDigit)
      else some (String.singleton c, r)
    else if isSpecial c then some (String.singleton c, r)
    else none
  | [] => none

/-- What stands between braces: a parameter, its use, and what follows. -/
def bracedAt (cs : List Char) : String × Use × List Char :=
  let plain : String × Use × List Char :=
    match parameterAt? true cs with
    | some (n, r) => (n, useAt r)
    | none => ("", .unknown, cs)
  match cs with
  | '#' :: '\x7d' :: _ => plain
  | '#' :: c :: r =>
    match parameterAt? true (c :: r) with
    | some (n, '\x7d' :: r) => (n, .length, '\x7d' :: r)
    | some (n, r) => if isNamePart c then (n, .unknown, r) else plain
    | none => plain
  | _ => plain

/-- The manners of reading the pieces of a word. -/
inductive Manner where
  /-- A word by itself. -/
  | word
  /-- Between double quotes. -/
  | quoted
  /-- A word that belongs to a parameter. -/
  | inBraces
  /-- Such a word between double quotes; inside quotes of its own when `inner`. -/
  | inQuotedBraces (inner : Bool)
  /-- An arithmetic expression, some parentheses deep. -/
  | number (depth : Nat)
  /-- A document. -/
  | document
deriving DecidableEq

namespace Manner

/-- Whether characters are quoted. -/
def isQuoted : Manner → Bool
  | .word | .inBraces => false
  | _ => true

/-- Whether a character after a backslash is escaped between double quotes. -/
def escapes : Manner → Char → Bool
  | .word, _ | .inBraces, _ => true
  | m, c =>
    c = '\\' || c = '`' || c = '$' || (c = '"' && m ≠ .document) ||
      (c = '\x7d' && (m = .inQuotedBraces true || m = .inQuotedBraces false))

end Manner

/-- The lines of a document up to its mark, and what follows it. -/
def documentLines (mark : String) (tabs : Bool) : Nat → List Char → List Char × List Char × Nat
  | 0, r => ([], r, 0)
  | _, [] => ([], [], 0)
  | n + 1, cs =>
    let cs := if tabs then cs.dropWhile (· = '\t') else cs
    let line := cs.takeWhile (· ≠ '\n')
    let rest := cs.dropWhile (· ≠ '\n')
    if String.ofList line = mark then ([], rest.drop 1, 1)
    else
      let (more, after, k) := documentLines mark tabs n (rest.drop 1)
      if rest.isEmpty then (line, [], 0) else (line ++ '\n' :: more, after, k + 1)

/-- Fuel for a text. -/
def fuelFor (cs : List Char) : Nat := 16 * cs.length + 64

/-! ## Words and commands -/

/-- The alias that a sign is, unless its text is being read. -/
def aliased? (aliases : List (String × String)) (active : List String) (t : Token) :
    Option (String × String) :=
  match t with
  | .word w =>
    match w.bare? with
    | some name =>
      if active.contains name then none else (aliases.lookup name).map fun text => (name, text)
    | none => none
  | _ => none

mutual

/-- The pieces of a word in some manner, those read before in `acc`, the last one first. -/
def pieces (m : Manner) (acc : List Piece) : Nat → Reading Word
  | 0 => fail "too deep"
  | fuel + 1 => do
    let r ← get
    match r.rest with
    | [] =>
      match m with
      | .word | .document => return acc.reverse
      | .quoted | .inQuotedBraces _ => fail "Unterminated quoted string"
      | .inBraces => fail "Missing '\x7d'"
      | .number _ => fail "Missing '))'"
    | '\\' :: '\n' :: rest => goOn rest 1; pieces m acc fuel
    | '\\' :: [] => goOn []; pieces m (Piece.add true '\\' acc) fuel
    | '\\' :: c :: rest =>
      goOn rest
      let acc := if m.escapes c then acc else Piece.add true '\\' acc
      pieces m (Piece.add true c acc) fuel
    | '$' :: rest => goOn rest; let p ← dollar m fuel; pieces m (p :: acc) fuel
    | '`' :: rest =>
      match backquoted? m.isQuoted rest with
      | none =>
        goOn [] (rest.count '\n')
        fail "EOF in backquote substitution"
      | some (inside, rest) =>
        let r ← get
        set { r with rest := inside, held := false, announced := [] }
        let c ← list false true .empty fuel
        modify fun s =>
          { r with rest := rest, number := s.number, documents := s.documents, line := s.line }
        pieces m (.output m.isQuoted c :: acc) fuel
    | c :: rest =>
      let n := if c = '\n' then 1 else 0
      match m, c with
      | .quoted, '"' => goOn rest; return acc.reverse
      | .inBraces, '\x7d' | .inQuotedBraces false, '\x7d' => goOn rest; return acc.reverse
      | .inQuotedBraces inner, '"' => goOn rest; pieces (.inQuotedBraces !inner) acc fuel
      | .number d, '(' => goOn rest; pieces (.number (d + 1)) (Piece.add true c acc) fuel
      | .number 0, ')' =>
        match rest with
        | ')' :: rest => goOn rest; return acc.reverse
        | rest => goOn rest; pieces m (Piece.add true c acc) fuel
      | .number (d + 1), ')' => goOn rest; pieces (.number d) (Piece.add true c acc) fuel
      | .word, '\'' | .inBraces, '\'' =>
        let inside := rest.takeWhile fun c => c ≠ '\''
        match rest.dropWhile fun c => c ≠ '\'' with
        | [] =>
          goOn [] (rest.count '\n')
          fail "Unterminated quoted string"
        | _ :: after =>
          goOn after (inside.count '\n')
          pieces m (.text true (String.ofList inside) :: acc) fuel
      | .word, '"' | .inBraces, '"' =>
        goOn rest
        let inside ← pieces .quoted [] fuel
        let inside := if inside.isEmpty then [.text true ""] else inside
        pieces m (inside.reverse ++ acc) fuel
      | .word, _ =>
        if endsWord c then return acc.reverse
        else goOn rest; pieces m (Piece.add false c acc) fuel
      | m, _ => goOn rest n; pieces m (Piece.add m.isQuoted c acc) fuel

/-- What a dollar sign stands for. -/
def dollar (m : Manner) : Nat → Reading Piece
  | 0 => fail "too deep"
  | fuel + 1 => do
    let r ← get
    match r.rest with
    | '(' :: '(' :: rest =>
      goOn rest
      return .number m.isQuoted (← pieces (.number 0) [] fuel)
    | '(' :: rest =>
      set { r with rest := rest, held := false, announced := [] }
      let c ← list false true .empty fuel
      if !(← token fuel).isSign ")" then unexpected (some (quote ")"))
      modify fun s => { r with
        rest := s.rest, line := s.line, number := s.number, documents := s.documents }
      return .output m.isQuoted c
    | '\x7b' :: rest =>
      let (name, use, rest) := bracedAt rest
      goOn rest
      let inside : Manner :=
        match use with
        | .dropStart _ | .dropEnd _ => .inBraces
        | _ => if m.isQuoted then .inQuotedBraces false else .inBraces
      return .parameter m.isQuoted name use (← pieces inside [] fuel)
    | rest =>
      match parameterAt? false rest with
      | some (name, rest) => goOn rest; return .parameter m.isQuoted name .value []
      | none => return .text m.isQuoted "$"

/-- The next sign of the text itself. -/
def scan : Nat → Reading Token
  | 0 => fail "too deep"
  | fuel + 1 => do
    let (rest, n) := skipBlanks (← get).rest
    goOn rest n
    match rest with
    | [] => return .endOfText
    | '\n' :: rest => goOn rest 1; return .newline
    | '&' :: '&' :: rest => goOn rest; return .operator "&&"
    | '|' :: '|' :: rest => goOn rest; return .operator "||"
    | ';' :: ';' :: rest => goOn rest; return .operator ";;"
    | '&' :: rest => goOn rest; return .operator "&"
    | '|' :: rest => goOn rest; return .operator "|"
    | ';' :: rest => goOn rest; return .operator ";"
    | '(' :: rest => goOn rest; return .operator "("
    | ')' :: rest => goOn rest; return .operator ")"
    | c :: '<' :: rest =>
      if c.isDigit then goOn ('<' :: rest); redirection (some (c.toNat - 48))
      else if c = '<' || c = '>' then redirection none
      else word fuel
    | c :: '>' :: rest =>
      if c.isDigit then goOn ('>' :: rest); redirection (some (c.toNat - 48))
      else if c = '<' || c = '>' then redirection none
      else word fuel
    | c :: _ => if c = '<' || c = '>' then redirection none else word fuel

/-- A word as a sign. -/
def word : Nat → Reading Token
  | 0 => fail "too deep"
  | fuel + 1 => return .word (← pieces .word [] fuel)

/-- The start of a redirection. -/
def redirection (descriptor : Option Nat) : Reading Token := do
  let done (d : Nat) (way : Direction) (rest : List Char) (tabs : Bool := false) :
      Reading Token := do
    goOn rest
    return .redirect (descriptor.getD d) way tabs
  match (← get).rest with
  | '>' :: '>' :: r => done 1 .append r
  | '>' :: '|' :: r => done 1 .over r
  | '>' :: '&' :: r => done 1 .same r
  | '<' :: '<' :: '-' :: r => done 0 (.document 0) r true
  | '<' :: '<' :: r => done 0 (.document 0) r
  | '<' :: '&' :: r => done 0 .same r
  | '<' :: '>' :: r => done 0 .both r
  | '<' :: r => done 0 .read r
  | r => done 1 .write (r.drop 1)

/-- The next sign. -/
def token : Nat → Reading Token
  | 0 => fail "too deep"
  | fuel + 1 => do
    let r ← get
    set { r with overLines := false, overWords := false, overNames := false, held := false }
    let t ← if r.held then pure r.last else scan fuel
    let t ← if r.overLines then pastLines t fuel else pure t
    let t := if r.overWords then t.known else t
    let s ← get
    let left := s.rest.length
    let (gone, active) := s.active.partition fun a => left < a.2.1
    let named := r.overNames || gone.any fun a => a.2.2
    match if named && !r.held then aliased? s.aliases (active.map Prod.fst) t else none with
    | some (name, text) =>
      let blank := text.endsWith " " || text.endsWith "\t"
      set { s with
        rest := text.toList ++ s.rest
        active := (name, left, blank) :: active
        overLines := r.overLines
        overWords := r.overWords
        overNames := r.overNames }
      token fuel
    | none =>
      set { s with last := t, active := active }
      return t

/-- The first sign from here on that is no end of a line. -/
def pastLines (t : Token) : Nat → Reading Token
  | 0 => fail "too deep"
  | fuel + 1 => do
    match t with
    | .newline => readDocuments fuel; pastLines (← scan fuel) fuel
    | t => return t

/-- Read the documents that have been announced. -/
def readDocuments : Nat → Reading Unit
  | 0 => fail "too deep"
  | fuel + 1 => do
    let r ← get
    match r.announced with
    | [] => return
    | d :: ds =>
      let (body, rest, n) := documentLines d.mark d.tabs (r.rest.length + 1) r.rest
      set { r with rest := body, announced := [] }
      let w ← if d.literal then pure [.text true (String.ofList body)]
        else pieces .document [] fuel
      modify fun s => { s with
        rest := rest
        line := r.line + n
        announced := ds
        documents := (d.number, w) :: s.documents }
      readDocuments fuel

/-- A list of commands: those of a line, or those of a body, which is `closable` once it is not
empty. -/
def list (line closable : Bool) (acc : Command) : Nat → Reading Command
  | 0 => fail "too deep"
  | fuel + 1 => do
    expect (!line) true
    let t ← token fuel
    match t with
    | .newline => readDocuments fuel; return acc
    | .endOfText => readDocuments fuel; hold; return acc
    | t =>
      hold
      if !line && closable && t.closes then return acc
      let c ← andOr fuel
      let t ← token fuel
      let c := if t.isSign "&" then .background c else c
      let acc := acc.andThen c
      match t with
      | .endOfText => readDocuments fuel; hold; return acc
      | .newline => hold; list line true acc fuel
      | .operator "&" | .operator ";" => list line true acc fuel
      | _ =>
        if line then unexpected none
        hold
        return acc

/-- Pipelines with `&&` and `||` between them. -/
def andOr : Nat → Reading Command
  | 0 => fail "too deep"
  | fuel + 1 => do moreAndOr (← pipeline fuel) fuel

/-- More pipelines after some. -/
def moreAndOr (acc : Command) : Nat → Reading Command
  | 0 => fail "too deep"
  | fuel + 1 => do
    match ← token fuel with
    | .operator "&&" =>
      expect true true
      moreAndOr (.both acc (← pipeline fuel)) fuel
    | .operator "||" =>
      expect true true
      moreAndOr (.either acc (← pipeline fuel)) fuel
    | _ => hold; return acc

/-- A pipeline. -/
def pipeline : Nat → Reading Command
  | 0 => fail "too deep"
  | fuel + 1 => do
    let negative := (← token fuel).isSign "!"
    if negative then expect false true else hold
    let cs ← stages [← command fuel] fuel
    let c := match cs with | [c] => c | cs => .pipeline cs
    return if negative then .negated c else c

/-- More commands of a pipeline. -/
def stages (acc : List Command) : Nat → Reading (List Command)
  | 0 => fail "too deep"
  | fuel + 1 => do
    if (← token fuel).isSign "|" then
      expect true true
      stages (acc ++ [← command fuel]) fuel
    else
      hold
      return acc

/-- A command. -/
def command : Nat → Reading Command
  | 0 => fail "too deep"
  | fuel + 1 => do
    let t ← token fuel
    let place : Place := ⟨(← get).line⟩
    match t with
    | .word _ | .redirect .. => hold; simple place [] [] [] true fuel
    | .keyword "if" =>
      let c ← choice fuel
      closed place c "fi" fuel
    | .keyword "while" => repetition place false fuel
    | .keyword "until" => repetition place true fuel
    | .keyword "for" => loopOver place fuel
    | .keyword "case" => selection place fuel
    | .operator "(" =>
      let c ← list false false .empty fuel
      if !(← token fuel).isSign ")" then unexpected (some (quote ")"))
      expect false true
      return .subshell place c (← redirects [] fuel)
    | .keyword "\x7b" =>
      let c ← list false false .empty fuel
      closed place c "\x7d" fuel
    | _ => unexpected none

/-- A compound command whose last sign is due, with its redirections. -/
def closed (place : Place) (c : Command) (due : String) : Nat → Reading Command
  | 0 => fail "too deep"
  | fuel + 1 => do
    if !(← token fuel).isSign due then unexpected (some (quote due))
    withRedirects place c fuel

/-- A compound command with its redirections. -/
def withRedirects (place : Place) (c : Command) : Nat → Reading Command
  | 0 => fail "too deep"
  | fuel + 1 => do
    expect false true
    let rs ← redirects [] fuel
    return if rs.isEmpty then c else .redirected place c rs

/-- A choice after `if` or `elif`. -/
def choice : Nat → Reading Command
  | 0 => fail "too deep"
  | fuel + 1 => do
    let test ← list false false .empty fuel
    if !(← token fuel).isSign "then" then unexpected (some (quote "then"))
    let yes ← list false false .empty fuel
    match ← token fuel with
    | .keyword "elif" => return .choice test yes (← choice fuel)
    | .keyword "else" => return .choice test yes (← list false false .empty fuel)
    | _ => hold; return .choice test yes .empty

/-- A loop after `while` or `until`. -/
def repetition (place : Place) (negative : Bool) : Nat → Reading Command
  | 0 => fail "too deep"
  | fuel + 1 => do
    let test ← list false false .empty fuel
    if !(← token fuel).isSign "do" then unexpected (some (quote "do"))
    let body ← list false false .empty fuel
    closed place (.loop negative test body) "done" fuel

/-- A loop after `for`. -/
def loopOver (place : Place) : Nat → Reading Command
  | 0 => fail "too deep"
  | fuel + 1 => do
    let name ← match ← token fuel with
      | .word w =>
        match w.bare? with
        | some s => if isName s then pure s else fail "Bad for loop variable"
        | none => fail "Bad for loop variable"
      | _ => fail "Bad for loop variable"
    expect true true
    let words ← match ← token fuel with
      | .keyword "in" => do
        let ws ← wordsOfLoop [] fuel
        pure (some ws)
      | .operator ";" => pure none
      | _ => do
        hold
        pure none
    expect true true
    if !(← token fuel).isSign "do" then unexpected (some (quote "do"))
    let body ← list false false .empty fuel
    closed place (.each place name words body) "done" fuel

/-- The words of a loop up to the end of the line. -/
def wordsOfLoop (acc : List Word) : Nat → Reading (List Word)
  | 0 => fail "too deep"
  | fuel + 1 => do
    match ← token fuel with
    | .word w => wordsOfLoop (acc ++ [w]) fuel
    | .newline | .operator ";" => return acc
    | _ => unexpected none

/-- A choice after `case`. -/
def selection (place : Place) : Nat → Reading Command
  | 0 => fail "too deep"
  | fuel + 1 => do
    match ← token fuel with
    | .word w =>
      expect true true
      if !(← token fuel).isSign "in" then unexpected (some (quote "in"))
      withRedirects place (.select place w (← arms [] fuel)) fuel
    | _ => unexpected (some "word")

/-- The arms of a choice. -/
def arms (acc : List Arm) : Nat → Reading (List Arm)
  | 0 => fail "too deep"
  | fuel + 1 => do
    expect true true
    let t ← token fuel
    if t.isSign "esac" then return acc
    if t.isSign "(" then let _ ← token fuel
    let ps ← patterns [] fuel
    let body ← list false true .empty fuel
    let acc := acc ++ [.mk ps body]
    expect true true
    let t ← token fuel
    if t.isSign "esac" then return acc
    if t.isSign ";;" then arms acc fuel else unexpected (some (quote ";;"))

/-- The patterns of an arm, of which the first one has been read. -/
def patterns (acc : List Word) : Nat → Reading (List Word)
  | 0 => fail "too deep"
  | fuel + 1 => do
    let w := match (← get).last with
      | .word w => w
      | .keyword s => [.text false s]
      | _ => []
    let t ← token fuel
    if t.isSign "|" then
      let _ ← token fuel
      patterns (acc ++ [w]) fuel
    else if t.isSign ")" then return acc ++ [w]
    else unexpected (some (quote ")"))

/-- Redirections. -/
def redirects (acc : List Redirect) : Nat → Reading (List Redirect)
  | 0 => fail "too deep"
  | fuel + 1 => do
    match ← token fuel with
    | .redirect d way tabs => redirects (acc ++ [← target d way tabs fuel]) fuel
    | _ => hold; return acc

/-- The target of a redirection. -/
def target (d : Nat) (way : Direction) (tabs : Bool) : Nat → Reading Redirect
  | 0 => fail "too deep"
  | fuel + 1 => do
    match ← token fuel with
    | .word w =>
      match way with
      | .document _ =>
        let n := (← get).number
        modify fun r => { r with
          number := n + 1
          announced := r.announced ++ [⟨n, w.literal, w.hasQuotes, tabs⟩] }
        return .mk d (.document n) []
      | way => return .mk d way w
    | _ => unexpected none

/-- A simple command that starts somewhere, or the definition of a function. A word can still be an
assignment as long as `early`. -/
def simple (place : Place) (assignments : List (String × Word)) (words : List Word)
    (rs : List Redirect) (early : Bool) : Nat → Reading Command
  | 0 => fail "too deep"
  | fuel + 1 => do
    if early then modify fun r => { r with overNames := true }
    match ← token fuel with
    | .word w =>
      match if early then w.assignment? else none with
      | some a => simple place (assignments ++ [a]) words rs true fuel
      | none => simple place assignments (words ++ [w]) rs false fuel
    | .redirect d way tabs =>
      simple place assignments words (rs ++ [← target d way tabs fuel]) early fuel
    | .operator "(" =>
      match assignments, words, rs with
      | [], [w], [] =>
        if !(← token fuel).isSign ")" then unexpected (some (quote ")"))
        match w.bare? with
        | some s =>
          if isName s && !specialCommands.contains s then
            expect true true
            return .define s (← command fuel)
          else fail "Bad function name"
        | none => fail "Bad function name"
      | _, _, _ => hold; return .simple place assignments words rs
    | _ => hold; return .simple place assignments words rs

end

end Reading

/-- **The commands of the next line**, or none at the end of the text. -/
def Reader.nextLine (r : Reader) : Except Complaint (Option Command × Reader) := do
  let texts := r.aliases.flatMap fun a => a.2.toList
  let fuel := Reading.fuelFor (r.rest ++ texts ++ texts)
  let (c, r) ← (Reading.list true false .empty fuel).run r
  match c, r.held, r.last with
  | .empty, true, .endOfText => return (none, r)
  | c, _, _ => return (some c, r)

end MemoFlow.Shell
