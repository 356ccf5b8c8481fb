/-!
# Commands

What a shell reads, as trees.

* `Shell.Use`: what is made of the value of a parameter;
* **`Shell.Piece`**, `Shell.Word`: the pieces of a word, each with whether it is quoted;
* `Shell.Direction`, `Shell.Redirect`: where input and output of a command go;
* **`Shell.Command`**, `Shell.Arm`, `Shell.Place`: commands, the arms of a choice by patterns, and
  where commands start;
* `Piece.add`, `Word.bare?`: words a character at a time, and words that are names.
-/

namespace MemoFlow.Shell

/-- What is made of the value of a parameter. With `filled` an empty value counts as none. -/
inductive Use where
  /-- The value itself. -/
  | value
  /-- The length of the value. -/
  | length
  /-- A word where there is no value. -/
  | orElse (filled : Bool)
  /-- A word where there is no value; the parameter is set to it. -/
  | orSet (filled : Bool)
  /-- A complaint where there is no value. -/
  | orFail (filled : Bool)
  /-- A word where there is a value. -/
  | instead (filled : Bool)
  /-- The value without the shortest or longest start that fits a pattern. -/
  | dropStart (longest : Bool)
  /-- The value without the shortest or longest end that fits a pattern. -/
  | dropEnd (longest : Bool)
  /-- Nothing that a shell knows. -/
  | unknown
deriving DecidableEq, Repr

/-- How a redirection opens its target. -/
inductive Direction where
  /-- For reading. -/
  | read
  /-- For writing, from the start. -/
  | write
  /-- For writing, from the start, also where existing files are kept otherwise. -/
  | over
  /-- For writing, at the end. -/
  | append
  /-- For reading and writing. -/
  | both
  /-- The target is another descriptor. -/
  | same
  /-- The lines that follow are read; they stand in the table of documents under a number. -/
  | document (n : Nat)
deriving DecidableEq, Repr

/-- Where a command starts. -/
structure Place where
  /-- The line. -/
  line : Nat
deriving DecidableEq, Repr

mutual

/-- **A piece of a word.** -/
inductive Piece where
  /-- Characters. -/
  | text (quoted : Bool) (s : String)
  /-- A parameter; the word belongs to its use. -/
  | parameter (quoted : Bool) (name : String) (use : Use) (word : List Piece)
  /-- The output of a command. -/
  | output (quoted : Bool) (c : Command)
  /-- The value of an arithmetic expression. -/
  | number (quoted : Bool) (e : List Piece)

/-- Where a descriptor of a command leads. -/
inductive Redirect where
  /-- The descriptor, how it is opened and the word that names its target. -/
  | mk (descriptor : Nat) (way : Direction) (target : List Piece)

/-- **A command.** -/
inductive Command where
  /-- Nothing at all. -/
  | empty
  /-- A program or function with its arguments. -/
  | simple (place : Place) (assignments : List (String × List Piece)) (words : List (List Piece))
      (redirects : List Redirect)
  /-- Commands of which each one reads what the one before writes. -/
  | pipeline (stages : List Command)
  /-- A command with success and failure exchanged. -/
  | negated (c : Command)
  /-- The second command after success of the first one. -/
  | both (a b : Command)
  /-- The second command after failure of the first one. -/
  | either (a b : Command)
  /-- One command after the other. -/
  | next (a b : Command)
  /-- A command that is not waited for. -/
  | background (c : Command)
  /-- A command with redirections. -/
  | redirected (place : Place) (c : Command) (redirects : List Redirect)
  /-- A command in a shell of its own. -/
  | subshell (place : Place) (c : Command) (redirects : List Redirect)
  /-- A choice by the success of a command. -/
  | choice (test yes no : Command)
  /-- A loop as long as a command succeeds, or fails. -/
  | loop (negative : Bool) (test body : Command)
  /-- A loop over words, or else over the arguments. -/
  | each (place : Place) (name : String) (words : Option (List (List Piece))) (body : Command)
  /-- A choice by patterns. -/
  | select (place : Place) (word : List Piece) (arms : List Arm)
  /-- The definition of a function. -/
  | define (name : String) (body : Command)

/-- An arm of a choice by patterns. -/
inductive Arm where
  /-- The patterns and the command. -/
  | mk (patterns : List (List Piece)) (body : Command)

end

/-- A word. -/
abbrev Word : Type := List Piece

/-- The commands that belong to the shell itself: no function has such a name, and what goes wrong
in one of them ends the shell. -/
def specialCommands : List String :=
  [".", ":", "break", "continue", "eval", "exec", "exit", "export", "local", "readonly", "return",
    "set", "shift", "times", "trap", "unset"]

/-- Whether a character starts a name. -/
def isNameStart (c : Char) : Bool := c.isAlpha || c = '_'

/-- Whether a character goes on with a name. -/
def isNamePart (c : Char) : Bool := c.isAlphanum || c = '_'

/-- Whether a string is a name. -/
def isName (s : String) : Bool :=
  match s.toList with
  | c :: r => isNameStart c && r.all isNamePart
  | [] => false

/-- A piece of one character. -/
def Piece.ofChar (quoted : Bool) (c : Char) : Piece := .text quoted (String.singleton c)

/-- The pieces of a word, the last one first, with one more character. -/
def Piece.add (quoted : Bool) (c : Char) : List Piece → List Piece
  | .text q s :: ps =>
    if q = quoted then .text q (s.push c) :: ps else .ofChar quoted c :: .text q s :: ps
  | ps => .ofChar quoted c :: ps

/-- The text of a word that consists of one piece without quotes. -/
def Word.bare? : Word → Option String
  | [.text false s] => some s
  | _ => none

/-- The characters of a word as they stand, without its other pieces. -/
def Word.literal (w : Word) : String :=
  w.foldl (fun s p => match p with | .text _ t => s ++ t | _ => s) ""

/-- Whether a part of a word is quoted. -/
def Word.hasQuotes (w : Word) : Bool := w.any fun p => match p with | .text q _ => q | _ => false

/-- A word that sets a variable: its name and its value. -/
def Word.assignment? : Word → Option (String × Word)
  | .text false s :: ps =>
    let name := s.toList.takeWhile isNamePart
    match s.toList.dropWhile isNamePart with
    | '=' :: r =>
      if isName (String.ofList name) then
        some (String.ofList name, if r.isEmpty then ps else .text false (String.ofList r) :: ps)
      else none
    | _ => none
  | _ => none

/-- One command after another one, if there is one. -/
def Command.andThen : Command → Command → Command
  | .empty, c => c
  | a, c => .next a c

end MemoFlow.Shell
