/-!
# Notes of a run

What a run reports while it works: notes on named channels, and warnings.

* **`Note`**, `Note.written`: a note and its text;
* `Note.isShown`, `Note.lines`: notes are shown on chosen channels, warnings always;
* `untilNul`: the part of a text that a reader of zero-ended text sees;
* **`Told`**: a value with the notes made on the way to it.
-/

namespace MemoFlow

/-- The part of a text before its first NUL. -/
def untilNul (s : String) : String := String.ofList (s.toList.takeWhile fun c => c ≠ '\x00')

/-- **A note of a run.** -/
inductive Note where
  /-- What a part of the library says on its channel. -/
  | plain (channel text : String)
  /-- What it warns of. -/
  | warn (channel text : String)
  /-- What a program says by itself, with the ends of its lines. -/
  | raw (text : String)
deriving DecidableEq, Repr

namespace Note

/-- Whether a note is shown when the given channels are listened to. -/
def isShown (channels : List String) : Note → Bool
  | .plain c _ => channels.contains "all" || channels.contains "1" || channels.contains c
  | .warn .. | .raw _ => true

/-- The text of a note; names and causes are read up to their first NUL. -/
def written : Note → String
  | .plain c t => "[synapse:" ++ c ++ "] " ++ t ++ "\n"
  | .warn c t => "[synapse:" ++ c ++ "] warning: " ++ t ++ "\n"
  | .raw t => t

/-- The lines of the notes that are shown when the given channels are listened to. -/
def lines (channels : List String) (notes : List Note) : List String :=
  let ls := (String.join ((notes.filter (isShown channels)).map written)).splitOn "\n"
  if ls.getLast? = some "" then ls.dropLast else ls

end Note

/-- **A value with the notes made on the way to it.** -/
structure Told (α : Type) where
  /-- The value. -/
  value : α
  /-- The notes, the first one first. -/
  notes : List Note

namespace Told

variable {α β : Type}

/-- A value without notes. -/
protected def pure (a : α) : Told α := ⟨a, []⟩

/-- Go on with a value; the later notes follow the earlier ones. -/
protected def bind (t : Told α) (f : α → Told β) : Told β :=
  ⟨(f t.value).value, t.notes ++ (f t.value).notes⟩

instance : Monad Told where
  pure := Told.pure
  bind := Told.bind

/-- One note. -/
def note (n : Note) : Told Unit := ⟨(), [n]⟩

/-- Change the value and keep the notes. -/
protected def map (f : α → β) (t : Told α) : Told β := ⟨f t.value, t.notes⟩

@[simp] theorem value_pure (a : α) : (pure a : Told α).value = a := rfl

@[simp] theorem value_bind (t : Told α) (f : α → Told β) :
    (t >>= f).value = (f t.value).value := rfl

@[simp] theorem value_map (f : α → β) (t : Told α) : (t.map f).value = f t.value := rfl

end Told

end MemoFlow
