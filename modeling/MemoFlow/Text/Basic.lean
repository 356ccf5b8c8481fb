import MemoFlow.Text.Ascii

/-!
# Texts and their bytes

Names and strings are known by their bytes and ordered as these are. Byte strings are texts, and so
are strings of characters, by their encodings.

* **`IsText`**: types of texts;
* `IsText.lt_trans`, `IsText.lt_trichotomy`: the order of texts is total;
* `Bytes.ofString_inj`, **`Bytes.ofString_lt_iff`**: strings are told apart by their bytes, and they
  are ordered as their bytes are.
-/

namespace MemoFlow

/-- **A type of texts.** -/
class IsText (σ : Type) where
  /-- The bytes of a text. -/
  bytes : σ → Bytes
  [lt : LT σ]
  [decEq : DecidableEq σ]
  [decLt : DecidableLT σ]
  /-- A text is known by its bytes. -/
  bytes_inj {s t : σ} : bytes s = bytes t → s = t
  /-- Texts are ordered as their bytes are. -/
  bytes_lt_iff {s t : σ} : bytes s < bytes t ↔ s < t

namespace IsText

variable {σ : Type} [IsText σ] {s t u : σ}

-- The order and the equality that a type brings along come first.
instance (priority := low) : LT σ := IsText.lt

instance (priority := low) : DecidableEq σ := IsText.decEq

instance (priority := low) : DecidableLT σ := IsText.decLt

theorem lt_irrefl (s : σ) : ¬ s < s := fun h => List.lt_irrefl _ (bytes_lt_iff.2 h)

theorem lt_trans (h : s < t) (h' : t < u) : s < u :=
  bytes_lt_iff.1 (List.lt_trans (bytes_lt_iff.2 h) (bytes_lt_iff.2 h'))

theorem lt_of_not_lt_of_ne (h : ¬ s < t) (hne : ¬ t = s) : t < s :=
  Classical.byContradiction fun h' => hne <| bytes_inj <|
    List.le_antisymm (List.not_lt.1 fun hb => h (bytes_lt_iff.1 hb))
      (List.not_lt.1 fun hb => h' (bytes_lt_iff.1 hb))

theorem lt_trichotomy (s t : σ) : s < t ∨ s = t ∨ t < s := by
  by_cases hst : s < t
  · exact .inl hst
  · by_cases hts : t = s
    · exact .inr (.inl hts.symm)
    · exact .inr (.inr (lt_of_not_lt_of_ne hst hts))

end IsText

/-! ## Byte strings -/

/-- Byte strings are their own bytes. -/
instance : IsText Bytes where
  bytes s := s
  bytes_inj h := h
  bytes_lt_iff := .rfl

/-! ## Strings of characters -/

namespace Bytes

theorem ofString_inj {s t : String} (h : ofString s = ofString t) : s = t := by
  unfold ofString at h
  rw [toList_eq_data, toList_eq_data] at h
  exact String.toByteArray_inj.1 (ByteArray.ext (Array.toList_inj.1 h))

/-- The bytes of a smaller character come first, whatever follows. -/
theorem encoded_append_lt {c d : Char} (h : c < d) (r s : Bytes) :
    String.utf8EncodeChar c ++ r < String.utf8EncodeChar d ++ s := by
  have hlt : c.val.toNat < d.val.toNat := h
  have hmax : d.val.toNat < 0x110000 := by
    have := d.valid
    unfold UInt32.isValidChar Nat.isValidChar at this
    omega
  -- The bits of a character are taken six by six.
  have hsix : ∀ n : Nat, n / 4096 = n / 64 / 64 ∧ n / 262144 = n / 64 / 64 / 64 := by omega
  unfold String.utf8EncodeChar
  simp only [hsix]
  generalize c.val.toNat = m at hlt
  generalize d.val.toNat = n at hlt hmax
  repeat' split
  all_goals
    simp only [List.cons_append, List.nil_append, List.cons_lt_cons_iff, UInt8.lt_iff_toNat_lt,
      ← UInt8.toNat_inj, UInt8.toNat_ofNat']
    omega

theorem encoded_lt {l m : List Char} (h : l < m) :
    l.flatMap String.utf8EncodeChar < m.flatMap String.utf8EncodeChar := by
  induction h with
  | nil =>
    rename_i c m
    cases hc : String.utf8EncodeChar c with
    | nil => exact absurd hc String.utf8EncodeChar_ne_nil
    | cons b r =>
      rw [List.flatMap_cons, hc]
      exact .nil
  | rel h => exact encoded_append_lt h _ _
  | cons _ ih => exact List.append_left_lt ih

/-- **Strings are ordered as their bytes are.** -/
theorem ofString_lt_iff {s t : String} : ofString s < ofString t ↔ s < t := by
  have hmono : ∀ {s t : String}, s < t → ofString s < ofString t := fun {s t} h => by
    rw [ofString_eq, ofString_eq]
    exact encoded_lt h
  refine ⟨fun h => Classical.byContradiction fun hst => ?_, hmono⟩
  by_cases hts : t = s
  · exact List.lt_irrefl _ (hts ▸ h)
  · exact List.lt_asymm h (hmono (Classical.byContradiction fun h' =>
      hts (String.le_antisymm (String.not_lt.1 hst) (String.not_lt.1 h'))))

end Bytes

/-- Where no type is named, texts are strings of characters. -/
@[default_instance]
instance : IsText String where
  bytes := Bytes.ofString
  bytes_inj := Bytes.ofString_inj
  bytes_lt_iff := Bytes.ofString_lt_iff

end MemoFlow
