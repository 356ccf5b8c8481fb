/-!
# Bytes of ASCII text

Kernels are byte strings, and only ASCII bytes have a meaning in them.

* `Bytes`, `Bytes.ofString`, `Bytes.toText`: byte strings; a byte that is no part of a character is
  shown as the replacement character;
* `toList_eq_data`, `Bytes.ofString_eq`: the bytes of a text are those of its characters;
* `Ascii.isDigit`, `Ascii.isLetter`, `Ascii.isWordStart`, `Ascii.isWordPart`, `Ascii.isBlank`:
  classes of bytes;
* `takeWhile_append_of_head`, `dropWhile_append_of_head`, `head?_dropWhile`: where the longest run
  of elements of one class ends.
-/

namespace MemoFlow

/-- A byte string. -/
abbrev Bytes : Type := List UInt8

/-- The bytes of an array are those of its data. -/
theorem toList_eq_data (b : ByteArray) : b.toList = b.data.toList := by
  have hloop : ∀ i r, ByteArray.toList.loop b i r = r.reverse ++ b.data.toList.drop i := by
    intro i r
    fun_induction ByteArray.toList.loop b i r with
    | case1 i r h ih =>
      have hi : i < b.data.toList.length := h
      have hget : b.get! i = b.data.toList[i] := getElem!_pos b.data i h
      rw [ih, List.drop_eq_getElem_cons hi, hget, List.reverse_cons, List.append_assoc]
      rfl
    | case2 i r h =>
      have hi : b.data.toList.length ≤ i := Nat.le_of_not_lt h
      rw [List.drop_eq_nil_of_le hi, List.append_nil]
  exact hloop 0 []

namespace Bytes

/-- The bytes of a text. -/
def ofString (s : String) : Bytes := s.toUTF8.toList

/-- They are those of its characters, one after the other. -/
theorem ofString_eq (s : String) : ofString s = s.toList.flatMap String.utf8EncodeChar := by
  rw [ofString, toList_eq_data, String.toUTF8_eq_toByteArray, ← String.utf8Encode_toList]
  exact List.toList_data_toByteArray

theorem ofString_eq_nil_iff {s : String} : ofString s = [] ↔ s = "" := by
  rw [ofString, toList_eq_data, String.toUTF8_eq_toByteArray, ← String.toByteArray_inj]
  exact ⟨fun h => ByteArray.ext (Array.toList_inj.1 h), fun h => by rw [h]; rfl⟩

/-- Whether a byte continues a character. -/
def isContinuation (b : UInt8) : Bool := 0x80 ≤ b && b < 0xc0

/-- The number of bytes behind the first byte of a character. -/
def tailLength? (b : UInt8) : Option Nat :=
  if b < 0x80 then some 0
  else if 0xc2 ≤ b && b < 0xe0 then some 1
  else if 0xe0 ≤ b && b < 0xf0 then some 2
  else if 0xf0 ≤ b && b < 0xf5 then some 3
  else none

/-- The character at the start, and the number of bytes behind the first of it. -/
def firstChar (b : UInt8) (r : Bytes) : Char × Nat :=
  let bad : Char × Nat := ('\uFFFD', 0)
  match tailLength? b with
  | none => bad
  | some n =>
    let t := r.take n
    if t.length = n ∧ t.all isContinuation then
      match String.fromUTF8? (ByteArray.mk (b :: t).toArray) with
      | some s =>
        match s.toList with
        | [c] => (c, n)
        | _ => bad
      | none => bad
    else bad

/-- The characters of bytes, of which the first `skip` belong to a character before. -/
def charsFrom : Nat → Bytes → List Char
  | _, [] => []
  | skip + 1, _ :: r => charsFrom skip r
  | 0, b :: r => (firstChar b r).1 :: charsFrom (firstChar b r).2 r

/-- The text of bytes. -/
def toText (bs : Bytes) : String := String.ofList (charsFrom 0 bs)

end Bytes

namespace Ascii

/-- The byte of an ASCII character. -/
def byte (c : Char) : UInt8 := c.toNat.toUInt8

/-- The digits. -/
def isDigit (b : UInt8) : Bool := 48 ≤ b && b ≤ 57

/-- The letters. -/
def isLetter (b : UInt8) : Bool := (65 ≤ b && b ≤ 90) || (97 ≤ b && b ≤ 122)

/-- Bytes that start a word. -/
def isWordStart (b : UInt8) : Bool := isLetter b || b = 95

/-- Bytes of a word. -/
def isWordPart (b : UInt8) : Bool := isLetter b || isDigit b || b = 95

/-- Blanks: space, tab, newline, vertical tab, form feed and carriage return. -/
def isBlank (b : UInt8) : Bool := b = 32 || (9 ≤ b && b ≤ 13)

end Ascii

/-! ## Longest runs -/

section Runs

variable {α : Type} {p : α → Bool} {l r : List α}

theorem takeWhile_append_of_head (hl : ∀ a ∈ l, p a = true) (hr : ∀ a ∈ r.head?, p a = false) :
    (l ++ r).takeWhile p = l := by
  rw [List.takeWhile_append_of_pos hl]
  cases r with
  | nil => simp
  | cons a r => simp [hr a rfl]

theorem dropWhile_append_of_head (hl : ∀ a ∈ l, p a = true) (hr : ∀ a ∈ r.head?, p a = false) :
    (l ++ r).dropWhile p = r := by
  rw [List.dropWhile_append_of_pos hl]
  cases r with
  | nil => rfl
  | cons a r => simp [hr a rfl]

theorem head?_dropWhile (p : α → Bool) (l : List α) : ∀ a ∈ (l.dropWhile p).head?, p a = false := by
  intro a ha
  have hnot := List.head?_dropWhile_not p l
  rw [Option.mem_def.1 ha] at hnot
  simpa using hnot

end Runs

end MemoFlow
