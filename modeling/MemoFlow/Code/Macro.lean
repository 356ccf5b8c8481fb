import MemoFlow.Code.Token
import Std.Data.HashMap

/-!
# Macros

A macro replaces its name by other tokens. The names of the macros that a token comes from are
hidden in it: they are not replaced again.

* **`Macro`**, `Macros`: macros;
* `Piece`: a token with the names that are hidden in it;
* `Macro.substitute?`: the tokens of a macro with its arguments;
* **`Macros.expand?`**: a list of tokens with all macros replaced;
* `Macro.ofDefinition?`: the macro of a definition.
-/

namespace MemoFlow.Code

open Ascii

/-- **A macro.** -/
structure Macro where
  /-- The names of its parameters, none when it takes no arguments. -/
  params : Option (List Bytes) := none
  /-- Whether the last parameter takes all arguments that are left. -/
  isOpen : Bool := false
  /-- What it is replaced by. -/
  body : List Lexeme
deriving Repr, Inhabited

/-- The macros that are defined. -/
abbrev Macros : Type := Std.HashMap Bytes Macro

/-! ## Spelling -/

/-- The spelling of a token. -/
def Token.spelling : Token → Bytes
  | .word w => w
  | .number l => l
  | .punct p => Bytes.ofString p
  | .quote t => t
  | .stray b => [b]
  | .newline => [byte '\n']

/-- The only token of a text. -/
def onlyToken? (bs : Bytes) : Option Token :=
  match lexemesUpTo false bs.length bs with
  | [l] => some l.token
  | _ => none

/-- A text between quotes. -/
def quoted (bs : Bytes) : Bytes :=
  [byte '"'] ++ (bs.flatMap fun b =>
    if b = byte '"' || b = byte '\\' then [byte '\\', b] else [b]) ++ [byte '"']

/-! ## Pieces -/

/-- A token with the names that are hidden in it. -/
structure Piece where
  /-- The token. -/
  lexeme : Lexeme
  /-- The names of macros that are not replaced in it. -/
  hidden : List Bytes := []
deriving DecidableEq, Repr, Inhabited

namespace Piece

/-- The token of a piece. -/
def token (p : Piece) : Token := p.lexeme.token

/-- Whether a piece is a punctuator. -/
def isPunct (p : Piece) (s : String) : Bool := p.token = .punct s

/-- The text of some pieces, with one blank where there is space. -/
def text (ps : List Piece) : Bytes :=
  (ps.zipIdx.flatMap fun (p, i) =>
    (if p.lexeme.spaced && i ≠ 0 then [byte ' '] else []) ++ p.token.spelling)

/-- The last token of some pieces pasted to the first one of others; none when that makes no
token. -/
def paste? (ps qs : List Piece) : Option (List Piece) :=
  match ps.getLast?, qs with
  | none, qs => some qs
  | some _, [] => some ps
  | some p, q :: qs =>
    (onlyToken? (p.token.spelling ++ q.token.spelling)).map fun t =>
      ps.dropLast ++ ⟨⟨t, p.lexeme.spaced⟩, p.hidden.filter q.hidden.contains⟩ :: qs

end Piece

/-! ## Arguments -/

/-- The arguments of a call up to its closing parenthesis, which stands at the same `depth`, and
what follows it; `arg` and `args` hold what was read, in reverse. -/
def splitArguments? (depth : Nat) (arg : List Piece) (args : List (List Piece)) :
    List Piece → Option (List (List Piece) × Piece × List Piece)
  | [] => none
  | p :: r =>
    if p.isPunct "(" then splitArguments? (depth + 1) (p :: arg) args r
    else if p.isPunct ")" then
      match depth with
      | 0 => some ((arg.reverse :: args).reverse, p, r)
      | d + 1 => splitArguments? d (p :: arg) args r
    else if p.isPunct "," && depth = 0 then splitArguments? 0 [] (arg.reverse :: args) r
    else splitArguments? depth (p :: arg) args r

/-- Arguments with those beyond the `n`-th one joined to it by commas. -/
def joinFrom : Nat → List (List Piece) → List (List Piece)
  | _, [] => []
  | 0, as => [(as.intersperse [⟨⟨.punct ",", false⟩, []⟩]).flatten]
  | n + 1, a :: as => a :: joinFrom n as

namespace Macro

/-- The arguments for the parameters of a macro, none when their number is wrong. -/
def matchArguments? (m : Macro) (params : List Bytes) (args : List (List Piece)) :
    Option (List (Bytes × List Piece)) :=
  let args := if m.isOpen then joinFrom (params.length - 1) args else args
  let args := if params.isEmpty && args = [[]] then [] else args
  let args := if m.isOpen && args.length + 1 = params.length then args ++ [[]] else args
  if args.length = params.length then some (params.zip args) else none

/-! ## Replacement -/

/-- A part of the body of a macro. -/
inductive Item where
  /-- A token, which may be a parameter. -/
  | token (l : Lexeme)
  /-- The text of an argument. -/
  | text (param : Bytes) (spaced : Bool)
deriving DecidableEq, Repr

/-- The parts of a body; none when the mark of a text stands in front of no parameter. -/
def items? (params : Option (List Bytes)) : List Lexeme → Option (List Item)
  | [] => some []
  | l :: r =>
    match params, l.token, r with
    | some ps, .punct "#", ⟨.word w, _⟩ :: r =>
      if ps.contains w then (items? params r).map (.text w l.spaced :: ·) else none
    | some _, .punct "#", _ => none
    | _, _, r => (items? params r).map (.token l :: ·)

/-- The parts of a body, those that are pasted together in one group; none when nothing stands on
one side of the mark. -/
def groups? : List Item → Option (List (List Item))
  | [] => some []
  | .token ⟨.punct "##", _⟩ :: _ => none
  | a :: .token ⟨.punct "##", _⟩ :: r =>
    match groups? r with
    | some (g :: gs) => some ((a :: g) :: gs)
    | _ => none
  | a :: r => (groups? r).map ([a] :: ·)

/-- The tokens of a part, where parameters stand for `args`. -/
def Item.pieces (args : List (Bytes × List Piece)) : Item → List Piece
  | .text p spaced => [⟨⟨.quote (quoted (Piece.text ((args.lookup p).getD []))), spaced⟩, []⟩]
  | .token l =>
    match l.token with
    | .word w =>
      match args.lookup w with
      | some (a :: ps) => { a with lexeme.spaced := l.spaced } :: ps
      | some [] => []
      | none => [⟨l, []⟩]
    | _ => [⟨l, []⟩]

/-- The tokens of a group: a single part with its arguments replaced already, or several parts
pasted together. -/
def groupPieces? (args replaced : List (Bytes × List Piece)) : List Item → Option (List Piece)
  | [i] => some (i.pieces replaced)
  | is => is.foldlM (fun ps i => Piece.paste? ps (i.pieces args)) []

/-- **The tokens of a macro** with its arguments, as they stand and with macros replaced. -/
def substitute? (m : Macro) (args replaced : List (Bytes × List Piece)) : Option (List Piece) := do
  let items ← items? m.params m.body
  let groups ← groups? items
  let parts ← groups.mapM (groupPieces? args replaced)
  return parts.flatten

/-- Hide names in the tokens that a macro is replaced by. -/
def hide (names : List Bytes) (spaced : Bool) (ps : List Piece) : List Piece :=
  ps.zipIdx.map fun (p, i) =>
    { p with
      hidden := names ++ p.hidden
      lexeme.spaced := if i = 0 then spaced else p.lexeme.spaced }

end Macro

namespace Macros

/-- The macro of a token, unless it is hidden there. -/
def ofPiece? (ms : Macros) (p : Piece) : Option (Bytes × Macro) :=
  match p.token with
  | .word w => if p.hidden.contains w then none else (ms[w]?).map fun m => (w, m)
  | _ => none

/-- **A list of tokens with all macros replaced**, in at most `n` steps; none when a call of a macro
is wrong. -/
def expand? (ms : Macros) : Nat → List Piece → Option (List Piece)
  | 0, ps => if ps.isEmpty then some [] else none
  | _ + 1, [] => some []
  | n + 1, p :: r =>
    match ms.ofPiece? p with
    | none => (expand? ms n r).map (p :: ·)
    | some (w, m) =>
      match m.params, r with
      | none, r =>
        match m.substitute? [] [] with
        | some ps => expand? ms n (Macro.hide (w :: p.hidden) p.lexeme.spaced ps ++ r)
        | none => none
      | some params, q :: t =>
        if q.isPunct "(" then
          match splitArguments? 0 [] [] t with
          | none => none
          | some (args, last, t) =>
            match m.matchArguments? params args with
            | none => none
            | some args =>
              match args.mapM fun a => (expand? ms n a.2).map fun e => (a.1, e) with
              | none => none
              | some replaced =>
                match m.substitute? args replaced with
                | some ps =>
                  let hidden := w :: p.hidden.filter last.hidden.contains
                  expand? ms n (Macro.hide hidden p.lexeme.spaced ps ++ t)
                | none => none
        else (expand? ms n r).map (p :: ·)
      | some _, [] => some [p]

/-- The steps that a replacement may take. -/
def steps : Nat := 100000

/-- The tokens of a text with all macros replaced. -/
def replace? (ms : Macros) (ls : List Lexeme) : Option (List Lexeme) :=
  (ms.expand? steps (ls.map fun l => ⟨l, []⟩)).map fun ps => ps.map Piece.lexeme

end Macros

/-! ## Definitions -/

namespace Macro

/-- The parameters of a definition behind its opening parenthesis, whether the last one is open, and
the rest. -/
def parameters? : List Lexeme → Option (List Bytes × Bool × List Lexeme)
  | ⟨.punct ")", _⟩ :: r => some ([], false, r)
  | ⟨.punct "...", _⟩ :: ⟨.punct ")", _⟩ :: r => some ([Bytes.ofString "__VA_ARGS__"], true, r)
  | ⟨.word w, _⟩ :: ⟨.punct "...", _⟩ :: ⟨.punct ")", _⟩ :: r => some ([w], true, r)
  | ⟨.word w, _⟩ :: ⟨.punct ")", _⟩ :: r => some ([w], false, r)
  | ⟨.word _, _⟩ :: ⟨.punct ",", _⟩ :: ⟨.punct ")", _⟩ :: _ => none
  | ⟨.word w, _⟩ :: ⟨.punct ",", _⟩ :: r =>
    (parameters? r).map fun (ps, o, r) => (w :: ps, o, r)
  | _ => none

/-- **The name and the macro of a definition.** -/
def ofDefinition? : List Lexeme → Option (Bytes × Macro)
  | ⟨.word w, _⟩ :: ⟨.punct "(", false⟩ :: r =>
    match parameters? r with
    | some (ps, isOpen, body) =>
      let m : Macro := ⟨some ps, isOpen, body⟩
      if ps.Nodup ∧ ((items? m.params body).bind groups?).isSome then some (w, m) else none
    | none => none
  | ⟨.word w, _⟩ :: body =>
    if w = Bytes.ofString "defined" then none
    else ((items? none body).bind groups?).map fun _ => (w, { body })
  | _ => none

end Macro

end MemoFlow.Code
