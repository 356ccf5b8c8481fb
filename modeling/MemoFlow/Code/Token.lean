import MemoFlow.Text.Ascii

/-!
# Tokens of code

* `Code.lineEnds`, `Code.trigraphs`, `Code.splices`, `Code.comments?`: what happens to a text before
  it is read; `Code.prepared` is the text of which comments are left out;
* `Token`, `Code.punctuators`: words, numbers and punctuators, each as long as possible;
* `Lexeme`, `Code.lexemes?`: tokens, and whether there is space in front of them;
* **`Code.tokens?`**: the tokens of a text.
-/

namespace MemoFlow.Code

open Ascii

/-! ## Before reading -/

/-- End every line with a newline; `returned` says that a carriage return, which ends a line with or
without a newline behind it, was read last. -/
def lineEndsFrom (returned : Bool) : Bytes → Bytes
  | [] => []
  | a :: r =>
    if a = byte '\r' then byte '\n' :: lineEndsFrom true r
    else if returned && a = byte '\n' then lineEndsFrom false r
    else a :: lineEndsFrom false r

/-- End every line with a newline. -/
def lineEnds (bs : Bytes) : Bytes := lineEndsFrom false bs

/-- The character that two question marks and a third character stand for. -/
def trigraph? (b : UInt8) : Option UInt8 :=
  if b = byte '=' then some (byte '#')
  else if b = byte '(' then some (byte '[')
  else if b = byte '/' then some (byte '\\')
  else if b = byte ')' then some (byte ']')
  else if b = byte '\'' then some (byte '^')
  else if b = byte '<' then some (byte '\x7b')
  else if b = byte '!' then some (byte '|')
  else if b = byte '>' then some (byte '\x7d')
  else if b = byte '-' then some (byte '~')
  else none

/-- Replace three characters by the one that they stand for. -/
def trigraphs : Bytes → Bytes
  | a :: b :: c :: r =>
    if a = byte '?' && b = byte '?' then
      match trigraph? c with
      | some d => d :: trigraphs r
      | none => a :: trigraphs (b :: c :: r)
    else a :: trigraphs (b :: c :: r)
  | r => r

/-- Blanks inside a line. -/
def isInner (b : UInt8) : Bool := b = 32 || b = 9 || b = 11 || b = 12 || b = 13 || b = 0

/-- Join lines that end in a backslash with the next one; `held` holds the blanks behind a backslash
that was read last. -/
def splicesFrom : Option Bytes → Bytes → Bytes
  | none, [] => []
  | some held, [] => byte '\\' :: held
  | none, a :: r =>
    if a = byte '\\' then splicesFrom (some []) r else a :: splicesFrom none r
  | some held, a :: r =>
    if a = byte '\n' then splicesFrom none r
    else if isInner a then splicesFrom (some (held ++ [a])) r
    else if a = byte '\\' then byte '\\' :: held ++ splicesFrom (some []) r
    else byte '\\' :: held ++ a :: splicesFrom none r

/-- Join lines that end in a backslash with the next one. -/
def splices (bs : Bytes) : Bytes := splicesFrom none bs

/-- A text with its lines joined. Without `three` groups of three characters stand for
themselves. -/
def prepared (three : Bool) (bs : Bytes) : Bytes :=
  splices (if three then trigraphs (lineEnds bs) else lineEnds bs)

/-- Where a reader of comments stands. -/
inductive Place where
  /-- In the text. -/
  | text
  /-- In a comment up to the end of the line. -/
  | line
  /-- In a comment up to its mark. -/
  | block
  /-- Between quotes, which the end of the line ends, too. -/
  | quote (mark : UInt8)
deriving DecidableEq, Repr

/-- Replace comments by blanks; none when a comment does not end. -/
def comments? : Place → Bytes → Option Bytes
  | .text, a :: b :: r =>
    if a = byte '/' && b = byte '*' then (comments? .block r).map (byte ' ' :: ·)
    else if a = byte '/' && b = byte '/' then comments? .line r
    else if a = byte '"' || a = byte '\'' then (comments? (.quote a) (b :: r)).map (a :: ·)
    else (comments? .text (b :: r)).map (a :: ·)
  | .text, r => some r
  | .line, a :: r => if a = byte '\n' then (comments? .text r).map (a :: ·) else comments? .line r
  | .line, [] => some []
  | .block, a :: b :: r =>
    if a = byte '*' && b = byte '/' then comments? .text r else comments? .block (b :: r)
  | .block, _ => none
  | .quote m, a :: b :: r =>
    if a = byte '\\' then (comments? (.quote m) r).map fun t => a :: b :: t
    else if a = m || a = byte '\n' then (comments? .text (b :: r)).map (a :: ·)
    else (comments? (.quote m) (b :: r)).map (a :: ·)
  | .quote _, r => some r

/-! ## Tokens -/

/-- A token. -/
inductive Token where
  /-- A name or a keyword. -/
  | word (w : Bytes)
  /-- A number, valid or not. -/
  | number (l : Bytes)
  /-- A punctuator. -/
  | punct (p : String)
  /-- A text between quotes. -/
  | quote (t : Bytes)
  /-- A byte that starts nothing else. -/
  | stray (b : UInt8)
  /-- The end of a line. -/
  | newline
deriving DecidableEq, Repr, Inhabited

/-- The punctuators, the longer ones first, each with the one that it means. -/
def punctuators : List (String × String) :=
  [("%:%:", "##")] ++
  ["...", "<<=", ">>=", "<<", ">>", "<=", ">=", "==", "!=", "&&", "||", "++", "--", "+=", "-=",
    "*=", "/=", "%=", "&=", "|=", "^=", "->", "##"].map (fun p => (p, p)) ++
  [("<:", "["), (":>", "]"), ("<%", "\x7b"), ("%>", "\x7d"), ("%:", "#")] ++
  ["+", "-", "*", "/", "%", "(", ")", "[", "]", "\x7b", "\x7d", "<", ">", "=", "!", "~", "&", "|",
    "^", "?", ":", ",", ";", ".", "#"].map (fun p => (p, p))

/-- The punctuator at the start of a text, and the rest. -/
def punct? (bs : Bytes) : Option (String × Bytes) :=
  punctuators.findSome? fun p =>
    let q := Bytes.ofString p.1
    if q.isPrefixOf bs then some (p.2, bs.drop q.length) else none

/-- The part of a number behind its first character. A sign belongs to it behind an exponent
mark. -/
def spanNumber : Bytes → Bytes × Bytes
  | [] => ([], [])
  | [b] => if isWordPart b || b = byte '.' then ([b], []) else ([], [b])
  | b :: c :: r =>
    if (b = byte 'e' || b = byte 'E' || b = byte 'p' || b = byte 'P') &&
        (c = byte '+' || c = byte '-') then
      let p := spanNumber r
      (b :: c :: p.1, p.2)
    else if isWordPart b || b = byte '.' then
      let p := spanNumber (c :: r)
      (b :: p.1, p.2)
    else ([], b :: c :: r)

/-- Whether a number starts here. -/
def startsNumber (b : UInt8) (r : Bytes) : Bool :=
  isDigit b || (b = byte '.' && (r.head?.map isDigit).getD false)

/-- A text up to the closing quote and the rest; none when the line ends first. -/
def spanQuote? (mark : UInt8) : Bytes → Option (Bytes × Bytes)
  | [] => none
  | a :: r =>
    if a = mark then some ([a], r)
    else if a = byte '\n' then none
    else if a = byte '\\' then
      match r with
      | [] => none
      | b :: r => (spanQuote? mark r).map fun p => (a :: b :: p.1, p.2)
    else (spanQuote? mark r).map fun p => (a :: p.1, p.2)

/-- Bytes that start a name: those of words and the dollar sign. -/
def isNameStart (b : UInt8) : Bool := isWordStart b || b = byte '$'

/-- Bytes of a name. -/
def isNamePart (b : UInt8) : Bool := isWordPart b || b = byte '$'

/-- The first token of a text that starts with `b`, which is no blank, and the rest. -/
def firstToken (b : UInt8) (r : Bytes) : Token × Bytes :=
  if b = byte '\n' then (.newline, r)
  else if isNameStart b then (.word (b :: r.takeWhile isNamePart), r.dropWhile isNamePart)
  else if startsNumber b r then
    let p := spanNumber (b :: r)
    (.number p.1, p.2)
  else
    let quoted := if b = byte '"' || b = byte '\'' then spanQuote? b r else none
    match quoted, punct? (b :: r) with
    | some (t, r), _ => (.quote (b :: t), r)
    | none, some (p, r) => (.punct p, r)
    | none, none => (.stray b, r)

/-- A token, and whether there is space in front of it. -/
structure Lexeme where
  /-- The token. -/
  token : Token
  /-- Whether there is space in front of it. -/
  spaced : Bool
deriving DecidableEq, Repr, Inhabited

/-- The tokens of a text without comments, at most `n` of them and blanks. -/
def lexemesUpTo (spaced : Bool) : Nat → Bytes → List Lexeme
  | 0, _ | _ + 1, [] => []
  | n + 1, b :: r =>
    if isInner b then lexemesUpTo true n r
    else
      let (t, r) := firstToken b r
      ⟨t, spaced⟩ :: lexemesUpTo false n r

/-- The tokens of a text with the space between them; none when a comment does not end. -/
def lexemes? (three : Bool) (bs : Bytes) : Option (List Lexeme) :=
  (comments? .text (prepared three bs)).map fun bs => lexemesUpTo false bs.length bs

/-- **The tokens of a text**; none when it cannot be read. -/
def tokens? (bs : Bytes) : Option (List Token) :=
  (lexemes? true bs).map fun ls => ls.map Lexeme.token

end MemoFlow.Code
