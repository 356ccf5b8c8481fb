/-!
# Patterns

* `Shell.Mark`: a character of an expanded word, with whether it stands for itself;
* **`Shell.fits`**: whether characters fit a pattern;
* `Shell.dropStart`, `Shell.dropEnd`: a string without a start or an end that fits a pattern.
-/

namespace MemoFlow.Shell

/-- A character of a pattern, and whether it is quoted and so stands for itself. -/
structure Mark where
  /-- The character. -/
  char : Char
  /-- Whether it stands for itself. -/
  quoted : Bool := false
deriving DecidableEq, Repr

namespace Mark

/-- Whether a mark is a sign of patterns. -/
def isSign (c : Char) (m : Mark) : Bool := m.char = c && !m.quoted

end Mark

/-- Whether a character belongs to a class with a name. -/
def inClass (name : String) (c : Char) : Bool :=
  match name with
  | "alpha" => c.isAlpha
  | "digit" => c.isDigit
  | "alnum" => c.isAlphanum
  | "upper" => c.isUpper
  | "lower" => c.isLower
  | "space" => " \t\n\x0b\x0c\r".contains c
  | "blank" => c = ' ' || c = '\t'
  | "cntrl" => c.toNat < 32 || c.toNat = 127
  | "print" => 32 ≤ c.toNat && c.toNat < 127
  | "graph" => 32 < c.toNat && c.toNat < 127
  | "punct" => 32 < c.toNat && c.toNat < 127 && !c.isAlphanum
  | "xdigit" => c.isDigit || "abcdefABCDEF".contains c
  | _ => false

/-- What follows a class with a name, and the name, when one starts here. -/
def classAt? : List Mark → Option (String × List Mark)
  | l :: colon :: r =>
    if l.isSign '[' && colon.isSign ':' then
      let name := r.takeWhile fun m => m.char.isAlpha
      match r.drop name.length with
      | c :: e :: r =>
        if c.char = ':' && e.char = ']' then some (String.ofList (name.map Mark.char), r) else none
      | _ => none
    else none
  | _ => none

/-- Whether a character is one of those in brackets, and what follows them. None when the brackets
are not closed; `first` holds for the first character, which does not close them. -/
def bracket? (c : Char) (first : Bool) : Nat → List Mark → Option (Bool × List Mark)
  | 0, _ | _, [] => none
  | n + 1, m :: r =>
    if m.isSign ']' && !first then some (false, r)
    else
      match classAt? (m :: r) with
      | some (name, r) => (bracket? c false n r).map fun p => (inClass name c || p.1, p.2)
      | none =>
        match r with
        | dash :: top :: r' =>
          if dash.isSign '-' && !top.isSign ']' then
            (bracket? c false n r').map fun p =>
              (decide (m.char ≤ c) && decide (c ≤ top.char) || p.1, p.2)
          else (bracket? c false n r).map fun p => (decide (m.char = c) || p.1, p.2)
        | r => (bracket? c false n r).map fun p => (decide (m.char = c) || p.1, p.2)

/-- Whether a character fits brackets, behind the first sign of them, and what follows them. -/
def inBrackets? (c : Char) (ms : List Mark) : Option (Bool × List Mark) :=
  match ms with
  | m :: r =>
    if m.isSign '!' then
      (bracket? c true r.length.succ r).map fun p => (!p.1, p.2)
    else bracket? c true ms.length.succ ms
  | [] => none

/-- Whether characters fit a pattern; each step takes a mark or a character. -/
def fitsFrom : Nat → List Mark → List Char → Bool
  | 0, _, _ => false
  | _, [], cs => cs.isEmpty
  | n + 1, m :: ms, cs =>
    if m.isSign '*' then
      fitsFrom n ms cs || (match cs with | _ :: r => fitsFrom n (m :: ms) r | [] => false)
    else
      match cs with
      | [] => false
      | c :: r =>
        if m.isSign '?' then fitsFrom n ms r
        else if m.isSign '[' then
          match inBrackets? c ms with
          | some (yes, ms) => yes && fitsFrom n ms r
          | none => c = '[' && fitsFrom n ms r
        else m.char = c && fitsFrom n ms r

/-- **Whether characters fit a pattern.** -/
def fits (ms : List Mark) (cs : List Char) : Bool := fitsFrom (ms.length + cs.length + 1) ms cs

/-- The lengths of parts of `n` characters, the longest or the shortest one first. -/
def lengths (longest : Bool) (n : Nat) : List Nat :=
  let ks := List.range (n + 1)
  if longest then ks.reverse else ks

/-- Characters without the longest or shortest start that fits a pattern. -/
def dropStart (longest : Bool) (ms : List Mark) (cs : List Char) : List Char :=
  match (lengths longest cs.length).find? fun k => fits ms (cs.take k) with
  | some k => cs.drop k
  | none => cs

/-- Characters without the longest or shortest end that fits a pattern. -/
def dropEnd (longest : Bool) (ms : List Mark) (cs : List Char) : List Char :=
  match (lengths longest cs.length).find? fun k => fits ms (cs.drop (cs.length - k)) with
  | some k => cs.take (cs.length - k)
  | none => cs

end MemoFlow.Shell
