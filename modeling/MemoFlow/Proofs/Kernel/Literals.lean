import Mathlib.Data.List.Basic
import MemoFlow.Kernel.Basic

/-!
# Literals as floating constants

An expression is cut into parts once by the check and once more when its literals become floating
constants. What is written behind a literal is read as part of it again, so that both see the same
parts in the rewritten expression.

* `Kernel.Piece.text`, `Kernel.Piece.insertion`, `Kernel.Piece.floating`: a part as it stands in the
  expression, what is inserted behind it, and the part that comes of it;
* `Kernel.spanLiteral_congr`, `Kernel.spanLiteral_floating`: a literal ends where it did before;
* **`Kernel.pieces_constants`**: the parts of the rewritten expression;
* **`Kernel.constants_conservative`**: what is inserted where, and that neither the check nor a
  second rewriting finds a difference.
-/

namespace MemoFlow.Kernel

open Ascii

/-! ## Parts and their texts -/

namespace Piece

/-- A part as it stands in the expression. -/
def text : Piece → Bytes
  | word w => w
  | literal l => l
  | byte b => [b]

/-- What is inserted behind a part: a point and a zero behind a literal without a point and an
exponent mark. -/
def insertion : Piece → Bytes
  | literal l => if isFloating l then [] else Bytes.ofString ".0"
  | _ => []

/-- A part with its literal as a floating constant. -/
def floating : Piece → Piece
  | literal l => literal (l ++ (literal l).insertion)
  | p => p

theorem constant_eq (p : Piece) : p.constant = p.text ++ p.insertion := by
  cases p with
  | word w | byte b => exact (List.append_nil _).symm
  | literal l => simp only [constant, text, insertion]; split <;> simp

theorem ofString_point : Bytes.ofString ".0" = [46, 48] := by
  rw [Bytes.ofString_eq]
  rfl

/-- A floating constant has nothing inserted behind it. -/
theorem constant_floating (p : Piece) : p.floating.constant = p.constant := by
  cases p with
  | word w | byte b => rfl
  | literal l =>
    cases h : isFloating l with
    | true => simp [floating, insertion, constant, h]
    | false =>
      have hl : isFloating (l ++ [46, 48]) = true := by simp [isFloating]
      simp [floating, insertion, constant, h, ofString_point, hl]

end Piece

@[simp] theorem pieces_nil : pieces [] = [] := by rw [pieces]

theorem pieces_cons (b : UInt8) (r : Bytes) :
    pieces (b :: r) = (firstPiece b r).1 :: pieces (firstPiece b r).2 := by rw [pieces]

@[simp] theorem constants_nil : constants [] = [] := by simp [constants]

theorem constants_cons (b : UInt8) (r : Bytes) :
    constants (b :: r) = (firstPiece b r).1.constant ++ constants (firstPiece b r).2 := by
  rw [constants, pieces_cons, List.flatMap_cons]
  rfl

/-! ## Where a literal ends -/

section Literal

variable {b : UInt8} {bs r s : Bytes}

theorem spanLiteral_append (bs : Bytes) : (spanLiteral bs).1 ++ (spanLiteral bs).2 = bs := by
  fun_induction spanLiteral bs <;> simp_all +zetaDelta

/-- A literal is as long as it can be. -/
theorem spanLiteral_rest (bs : Bytes) :
    spanLiteral (spanLiteral bs).2 = ([], (spanLiteral bs).2) := by
  fun_induction spanLiteral bs <;> simp_all +zetaDelta [spanLiteral]

theorem spanLiteral_cons (h : isMantissa b = true) (r : Bytes) :
    spanLiteral (b :: r) = (b :: (spanLiteral r).1, (spanLiteral r).2) := by
  cases r <;> simp [spanLiteral, h]

/-- Bytes of the mantissa in front of a text belong to its literal. -/
theorem spanLiteral_append_of_mantissa {m : Bytes} (h : ∀ b ∈ m, isMantissa b = true) (r : Bytes) :
    spanLiteral (m ++ r) = (m ++ (spanLiteral r).1, (spanLiteral r).2) := by
  induction m with
  | nil => rfl
  | cons b m ih =>
    rw [List.cons_append, spanLiteral_cons (h b List.mem_cons_self),
      ih fun c hc => h c (List.mem_cons_of_mem _ hc)]
    rfl

/-- **Two texts are alike behind a literal**: they begin with the same byte, and it is the last one
in both or in neither. A scanner of literals looks no further. -/
structure Alike (r s : Bytes) : Prop where
  head : s.head? = r.head?
  single : s.tail = [] ↔ r.tail = []

/-- What follows a literal can be exchanged for what is alike. -/
theorem spanLiteral_congr (h : Alike (spanLiteral bs).2 s) :
    spanLiteral ((spanLiteral bs).1 ++ s) = ((spanLiteral bs).1, s) := by
  fun_induction spanLiteral bs with
  | case1 =>
    have hs : s = [] := by simpa using h.head
    simp [hs, spanLiteral]
  | case2 b hb =>
    have hs : s = [] := by simpa using h.head
    simp [hs, spanLiteral, hb]
  | case3 b hb =>
    have hs : s = [b] := by
      obtain ⟨t, rfl⟩ := List.head?_eq_some_iff.1 h.head
      have ht : t = [] := h.single.2 rfl
      rw [ht]
    simp [hs, spanLiteral, hb]
  | case4 b c r hb p ih =>
    rw [List.cons_append, spanLiteral_cons hb, ih h]
  | case5 b c r hb he hc p ih =>
    simp only [List.cons_append, spanLiteral, hb, he, hc, if_true, Bool.false_eq_true, if_false]
    rw [ih h]
  | case6 b c r hb he hc p ih =>
    -- a sign behind the mark would belong to the literal, but what follows begins as before
    have hhead : (p.1 ++ s).head? = some c := by
      have happend : p.1 ++ p.2 = c :: r := spanLiteral_append (c :: r)
      cases hp : p.1 with
      | nil =>
        rw [hp, List.nil_append] at happend
        rw [List.nil_append, h.head, happend, List.head?_cons]
      | cons d l =>
        rw [hp, List.cons_append] at happend
        rw [List.cons_append, List.head?_cons, (List.cons.inj happend).1]
    obtain ⟨t, ht⟩ := List.head?_eq_some_iff.1 hhead
    have hspan : spanLiteral (c :: t) = (p.1, s) := by rw [← ht]; exact ih h
    rw [List.cons_append, ht]
    simp only [spanLiteral, hb, he, hc, if_true, Bool.false_eq_true, if_false, hspan]
  | case7 b c r hb he =>
    obtain ⟨t, rfl⟩ := List.head?_eq_some_iff.1 h.head
    cases t with
    | nil => simpa using h.single.1 rfl
    | cons d t => simp [spanLiteral, hb, he]

/-- A literal without a point and an exponent mark holds digits only. -/
theorem isDigit_of_not_floating (h : isFloating (spanLiteral bs).1 = false) :
    ∀ b ∈ (spanLiteral bs).1, isDigit b = true := by
  fun_induction spanLiteral bs with
  | case1 | case3 | case7 => simp
  | case2 b hb => simp_all [isFloating, isMantissa]
  | case4 b c r hb p ih =>
    simp only [isFloating, List.any_cons, Bool.or_eq_false_iff, decide_eq_false_iff_not] at h
    simp only [isMantissa, h.1.1, decide_false, Bool.or_false] at hb
    exact List.forall_mem_cons.2 ⟨hb, ih h.2⟩
  | case5 b c r hb he hc p ih => simp [isFloating, he] at h
  | case6 b c r hb he hc p ih => simp [isFloating, he] at h

/-- **A literal as a floating constant ends where it did before.** -/
theorem spanLiteral_floating (h : Alike (spanLiteral bs).2 s) :
    spanLiteral ((spanLiteral bs).1 ++ ((Piece.literal (spanLiteral bs).1).insertion ++ s)) =
      ((spanLiteral bs).1 ++ (Piece.literal (spanLiteral bs).1).insertion, s) := by
  cases hf : isFloating (spanLiteral bs).1 with
  | true => simpa [Piece.insertion, hf] using spanLiteral_congr h
  | false =>
    have hrest : spanLiteral s = ([], s) := by
      have hcongr : Alike (spanLiteral (spanLiteral bs).2).2 s →
          spanLiteral ((spanLiteral (spanLiteral bs).2).1 ++ s) =
            ((spanLiteral (spanLiteral bs).2).1, s) := spanLiteral_congr
      rw [spanLiteral_rest] at hcongr
      exact hcongr h
    have hpoint : ∀ b ∈ ([46, 48] : Bytes), isMantissa b = true := by simp [isMantissa, isDigit]
    have hdigits : ∀ b ∈ (spanLiteral bs).1 ++ [46, 48], isMantissa b = true := by
      intro b hb
      rcases List.mem_append.1 hb with hb | hb
      · rw [isMantissa, isDigit_of_not_floating hf b hb, Bool.true_or]
      · exact hpoint b hb
    rw [Piece.insertion, hf, if_neg Bool.false_ne_true, Piece.ofString_point, ← List.append_assoc,
      spanLiteral_append_of_mantissa hdigits, hrest, List.append_nil]

end Literal

/-! ## Parts of the rewritten expression -/

section Rewritten

variable {b : UInt8} {r e : Bytes}

theorem text_firstPiece (b : UInt8) (r : Bytes) :
    (firstPiece b r).1.text ++ (firstPiece b r).2 = b :: r := by
  unfold firstPiece
  split
  · simp [Piece.text]
  · split
    · exact spanLiteral_append (b :: r)
    · rfl

/-- **The parts of an expression are the whole of it.** -/
theorem flatMap_text_pieces (e : Bytes) : (pieces e).flatMap Piece.text = e := by
  fun_induction pieces e with
  | case1 => rfl
  | case2 b r ih => rw [List.flatMap_cons, ih, text_firstPiece]

/-- The first part of a text begins with the first byte. -/
theorem exists_text_firstPiece (b : UInt8) (r : Bytes) :
    ∃ l, (firstPiece b r).1.text = b :: l ∧ l ++ (firstPiece b r).2 = r := by
  have happend := text_firstPiece b r
  cases h : (firstPiece b r).1.text with
  | nil =>
    have hlength := length_firstPiece b r
    rw [h, List.nil_append] at happend
    rw [happend, List.length_cons] at hlength
    omega
  | cons c l =>
    rw [h, List.cons_append] at happend
    obtain ⟨rfl, hr⟩ := List.cons.inj happend
    exact ⟨l, rfl, hr⟩

theorem exists_constants_cons (b : UInt8) (r : Bytes) : ∃ t, constants (b :: r) = b :: t := by
  obtain ⟨l, hl, -⟩ := exists_text_firstPiece b r
  exact ⟨_, by rw [constants_cons, Piece.constant_eq, hl]; rfl⟩

theorem head?_constants (e : Bytes) : (constants e).head? = e.head? := by
  cases e with
  | nil => rw [constants_nil]
  | cons b r =>
    obtain ⟨t, ht⟩ := exists_constants_cons b r
    rw [ht]
    rfl

theorem constants_eq_nil_iff : constants e = [] ↔ e = [] := by
  rw [← List.head?_eq_none_iff, head?_constants, List.head?_eq_none_iff]

/-- The rewritten rest of an expression is like the rest, if no literal stands at its start. -/
theorem alike_constants (h : ∀ b ∈ e.head?, isMantissa b = false) : Alike e (constants e) := by
  refine ⟨head?_constants e, ?_⟩
  cases e with
  | nil => simp
  | cons b r =>
    have hb : isMantissa b = false := h b rfl
    rw [constants_cons]
    unfold firstPiece
    split
    · cases hr : r.dropWhile isWordPart with
      | nil =>
        have hall : r.takeWhile isWordPart = r := by
          simpa [hr] using List.takeWhile_append_dropWhile (p := isWordPart) (l := r)
        simp [Piece.constant, hall]
      | cons c t =>
        have hne : r ≠ [] := by
          rintro rfl
          simp at hr
        simp [Piece.constant, hne, constants_eq_nil_iff]
    · simp [hb, Piece.constant, constants_eq_nil_iff]

/-- What follows a literal begins neither with a digit nor with a point. -/
theorem not_mantissa_of_spanLiteral (bs : Bytes) :
    ∀ b ∈ (spanLiteral bs).2.head?, isMantissa b = false := by
  have hrest := spanLiteral_rest bs
  intro b hb
  obtain ⟨t, ht⟩ := List.head?_eq_some_iff.1 hb
  rw [ht] at hrest
  by_contra hm
  rw [spanLiteral_cons (by simpa using hm)] at hrest
  simp at hrest

/-- **The first part of the rewritten expression** is the rewritten first part. -/
theorem firstPiece_constants (b : UInt8) (r : Bytes) :
    ∃ t, constants (b :: r) = b :: t ∧
      firstPiece b t = ((firstPiece b r).1.floating, constants (firstPiece b r).2) := by
  obtain ⟨t, ht⟩ := exists_constants_cons b r
  refine ⟨t, ht, ?_⟩
  rw [constants_cons, Piece.constant_eq, List.append_assoc] at ht
  revert ht
  simp only [firstPiece]
  split
  · intro ht
    -- the word ends where it did, for what follows begins with the same byte
    have ht : r.takeWhile isWordPart ++ constants (r.dropWhile isWordPart) = t :=
      (List.cons.inj ht).2
    have hstop : ∀ c ∈ (constants (r.dropWhile isWordPart)).head?, isWordPart c = false := by
      rw [head?_constants]
      exact head?_dropWhile isWordPart r
    have hmem : ∀ c ∈ r.takeWhile isWordPart, isWordPart c = true :=
      List.all_eq_true.1 List.all_takeWhile
    rw [← ht, takeWhile_append_of_head hmem hstop, dropWhile_append_of_head hmem hstop]
    rfl
  · split
    · intro ht
      rw [← ht]
      have hspan := spanLiteral_floating (alike_constants (not_mantissa_of_spanLiteral (b :: r)))
      exact Prod.ext (by rw [Piece.text, hspan]; rfl) (by rw [Piece.text, hspan])
    · intro ht
      exact Prod.ext rfl (List.cons.inj ht).2.symm

/-- **The parts of the rewritten expression** are those of the expression with their literals as
floating constants. -/
theorem pieces_constants (e : Bytes) : pieces (constants e) = (pieces e).map Piece.floating := by
  fun_induction pieces e with
  | case1 => simp
  | case2 b r ih =>
    obtain ⟨t, ht, hfirst⟩ := firstPiece_constants b r
    rw [ht, pieces_cons, hfirst, ih, List.map_cons]

theorem constants_constants (e : Bytes) : constants (constants e) = constants e := by
  rw [constants, pieces_constants, List.flatMap_map, constants]
  exact congrArg (fun f => (pieces e).flatMap f) (funext Piece.constant_floating)

end Rewritten

/-! ## The check -/

/-- Whether a part is a space, a tab or a newline. -/
def Piece.isEmpty : Piece → Bool
  | byte b => b = 32 || b = 9 || b = 10
  | _ => false

theorem isEmptyText_eq (e : Bytes) : isEmptyText e = (pieces e).all Piece.isEmpty := by
  fun_induction pieces e with
  | case1 => rfl
  | case2 b r ih =>
    rw [List.all_cons, ← ih]
    have hnot : ∀ p : UInt8 → Bool, p b = true → p 32 = false → p 9 = false → p 10 = false →
        (decide (b = 32) || decide (b = 9) || decide (b = 10)) = false := by
      intro p hb h1 h2 h3
      by_contra hc
      simp only [Bool.not_eq_false, Bool.or_eq_true, decide_eq_true_eq] at hc
      rcases hc with (rfl | rfl) | rfl <;> simp_all
    unfold firstPiece
    split
    · next h => simp [isEmptyText, Piece.isEmpty, hnot isWordStart h rfl rfl rfl]
    · split
      · next h => simp [isEmptyText, Piece.isEmpty, hnot isMantissa h rfl rfl rfl]
      · rfl

theorem isEmpty_floating (p : Piece) : p.floating.isEmpty = p.isEmpty := by cases p <;> rfl

/-- The check does not look into literals. -/
theorem checkPieces_floating (params : List Bytes) (depth : Nat) (ps : List Piece) :
    checkPieces params depth (ps.map Piece.floating) = checkPieces params depth ps := by
  fun_induction checkPieces params depth ps <;> simp_all [checkPieces, Piece.floating]

theorem checkExpression_constants (params : List Bytes) (e : Bytes) :
    checkExpression params (constants e) = checkExpression params e := by
  have hempty : isEmptyText (constants e) = isEmptyText e := by
    rw [isEmptyText_eq, isEmptyText_eq, pieces_constants, List.all_map]
    exact congrArg (fun f => (pieces e).all f) (funext isEmpty_floating)
  rw [checkExpression, checkExpression, hempty, pieces_constants, checkPieces_floating]

theorem check_eq_ok {k : Kernel} (h : k.check.toBool = true) : k.check = .ok () := by
  cases hk : k.check with
  | ok u => rfl
  | error e => rw [hk] at h; cases h

/-- A literal ends where the scanner of literals ends it. -/
theorem spanLiteral_of_pieces {e l : Bytes} {before after : List Piece}
    (h : pieces e = before ++ .literal l :: after) :
    spanLiteral (l ++ after.flatMap Piece.text) = (l, after.flatMap Piece.text) := by
  fun_induction pieces e generalizing before with
  | case1 => simp at h
  | case2 b r ih =>
    cases before with
    | cons p before => exact ih (List.cons.inj h).2
    | nil =>
      obtain ⟨hfirst, hafter⟩ := List.cons.inj h
      rw [← hafter, flatMap_text_pieces]
      revert hfirst
      unfold firstPiece
      split
      · exact fun hfirst => Piece.noConfusion hfirst
      · split
        · intro hfirst
          cases hfirst
          rw [spanLiteral_append]
        · exact fun hfirst => Piece.noConfusion hfirst

/-- **Rewriting literals changes nothing else.** An expression is the text of its parts, and each
literal among them ends where the scanner of literals ends it. A point and a zero are inserted
behind the literals without a point and an exponent mark, and nowhere else. The check says the same
of the rewritten expression, and to rewrite it once more changes nothing. -/
theorem constants_conservative (e : Bytes) (params : List Bytes) :
    (pieces e).flatMap Piece.text = e ∧
      (∀ before l after, pieces e = before ++ .literal l :: after →
        spanLiteral (l ++ after.flatMap Piece.text) = (l, after.flatMap Piece.text)) ∧
      (constants e = (pieces e).flatMap fun p => p.text ++ p.insertion) ∧
      checkExpression params (constants e) = checkExpression params e ∧
      constants (constants e) = constants e :=
  ⟨flatMap_text_pieces e, fun _ _ _ h => spanLiteral_of_pieces h,
    congrArg (fun f => (pieces e).flatMap f) (funext Piece.constant_eq),
    checkExpression_constants params e, constants_constants e⟩

end MemoFlow.Kernel
