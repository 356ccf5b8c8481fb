import Mathlib.Data.List.Infix
import MemoFlow.Code.Constant
import MemoFlow.Proofs.Kernel.Literals

/-!
# Tokens of accepted expressions

Before a text is read, groups of three characters are replaced, lines are joined and comments are
left out. Each of these steps makes a text shorter or leaves it alone. Of what is left the longest
tokens are taken: a number can go on behind a literal, and two operators can be a bracket.

* `Code.length_trigraphs_lt`, `Code.length_splicesFrom_le`, `Code.length_comments?_lt`: what is
  replaced or left out makes a text shorter;
* `Code.marks`, `Code.IsUnmarked`, **`Code.comments?_prepared_iff`**: the texts that are read as
  they stand;
* `Code.prepared_append_inert`, `Code.prepared_append_bracket`: texts that are prepared piece by
  piece;
* `Kernel.isAllowed`, `Kernel.isAllowed_of_check`: the bytes of expressions that are accepted;
* `Code.Token.parts`, `Code.isDouble`: tokens as parts of expressions, and constants of type double;
* `Code.spanNumber_eq`, `Code.startsNumber_of_isDouble`: literals as numbers;
* `Code.hasDigraph`, `Code.punctuator_cases`, **`Code.hasDigraph_punctuator`**: brackets that are
  written as two operators, and what other punctuators leave of them.
-/

namespace MemoFlow

open Ascii

/-! ## Before reading -/

namespace Code

variable {t s : Bytes} {c : UInt8}

/-! ### Groups of three characters -/

/-- The last characters of groups of three. -/
def thirds : Bytes :=
  [byte '=', byte '(', byte '/', byte ')', byte '\'', byte '<', byte '!', byte '>', byte '-']

theorem isSome_trigraph?_iff : (trigraph? c).isSome = true ↔ c ∈ thirds := by
  constructor
  · intro h
    by_contra hne
    simp only [thirds, List.mem_cons, List.not_mem_nil, or_false, not_or] at hne
    simp [trigraph?, hne] at h
  · intro h
    simp only [thirds, List.mem_cons, List.not_mem_nil, or_false] at h
    rcases h with rfl | rfl | rfl | rfl | rfl | rfl | rfl | rfl | rfl <;> rfl

/-- A group of three characters. -/
def group (c : UInt8) : Bytes := [byte '?', byte '?', c]

theorem length_trigraphs_le (t : Bytes) : (trigraphs t).length ≤ t.length := by
  fun_induction trigraphs t <;> simp_all; omega

/-- A text with a group of three characters gets shorter. -/
theorem length_trigraphs_lt (hc : c ∈ thirds) (h : group c <:+: t) :
    (trigraphs t).length < t.length := by
  have hsome : (trigraph? c).isSome = true := isSome_trigraph?_iff.2 hc
  -- what begins with the group is replaced
  have hstart : ∀ {a b d : UInt8} {r : Bytes}, group c <+: a :: b :: d :: r →
      (a = byte '?' && b = byte '?') = true ∧ (trigraph? d).isSome = true := by
    rintro a b d r ⟨x, hx⟩
    simp only [group, List.cons_append, List.nil_append, List.cons.injEq] at hx
    obtain ⟨rfl, rfl, rfl, -⟩ := hx
    exact ⟨by simp, hsome⟩
  fun_induction trigraphs t with
  | case1 a b d r hq e he ih =>
    have := length_trigraphs_le r
    simp only [List.length_cons]
    omega
  | case2 a b d r hq he ih =>
    rcases List.infix_cons_iff.1 h with h | h
    · have hthird := (hstart h).2
      rw [he] at hthird
      cases hthird
    · exact Nat.succ_lt_succ (ih h)
  | case3 a b d r hq ih =>
    rcases List.infix_cons_iff.1 h with h | h
    · exact absurd (hstart h).1 hq
    · exact Nat.succ_lt_succ (ih h)
  | case4 r hr =>
    have hlength : 3 ≤ r.length := h.length_le
    match r, hr with
    | [], _ | [_], _ | [_, _], _ => simp at hlength
    | a :: b :: d :: r, hr => exact absurd rfl (hr a b d r)

/-- A text without groups of three characters stays as it is. -/
theorem trigraphs_eq (h : ∀ c ∈ thirds, ¬ group c <:+: t) : trigraphs t = t := by
  fun_induction trigraphs t with
  | case1 a b d r hq e he ih =>
    simp only [Bool.and_eq_true, decide_eq_true_eq] at hq
    obtain ⟨rfl, rfl⟩ := hq
    exact absurd ⟨[], r, rfl⟩ (h d (isSome_trigraph?_iff.1 (by rw [he]; rfl)))
  | case2 a b d r hq he ih => rw [ih fun c hc hr => h c hc (List.infix_cons hr)]
  | case3 a b d r hq ih => rw [ih fun c hc hr => h c hc (List.infix_cons hr)]
  | case4 => rfl

/-! ### Joined lines -/

theorem length_splicesFrom_le (held : Option Bytes) (t : Bytes) :
    (splicesFrom held t).length ≤ (held.elim 0 fun h => h.length + 1) + t.length := by
  fun_induction splicesFrom held t <;> simp_all <;> omega

/-- A text without backslashes stays as it is. -/
theorem splices_eq (h : byte '\\' ∉ t) : splices t = t := by
  induction t with
  | nil => rfl
  | cons a t ih =>
    simp only [List.mem_cons, not_or] at h
    rw [splices, splicesFrom, if_neg (Ne.symm h.1)]
    exact congrArg (a :: ·) (ih h.2)

/-! ### Comments -/

theorem length_comments?_le {p : Place} (h : comments? p t = some s) : s.length ≤ t.length := by
  fun_induction comments? p t generalizing s <;> simp_all <;> grind

/-- The beginnings of comments. -/
def openers : List Bytes := [[byte '/', byte '/'], [byte '/', byte '*']]

/-- A text holds no quotes. -/
def IsUnquoted (t : Bytes) : Prop := byte '"' ∉ t ∧ byte '\'' ∉ t

/-- What does not begin with a comment is read byte by byte. -/
theorem comments?_cons {a b : UInt8} (hq : IsUnquoted (a :: b :: t))
    (h : ∀ m ∈ openers, ¬ m <+: a :: b :: t) :
    comments? .text (a :: b :: t) = (comments? .text (b :: t)).map (a :: ·) := by
  have hline : ¬ (a = byte '/' ∧ b = byte '/') := by
    rintro ⟨rfl, rfl⟩
    exact h _ List.mem_cons_self ⟨t, rfl⟩
  have hblock : ¬ (a = byte '/' ∧ b = byte '*') := by
    rintro ⟨rfl, rfl⟩
    exact h _ (List.mem_cons_of_mem _ List.mem_cons_self) ⟨t, rfl⟩
  have hdouble : a ≠ byte '"' := fun h => hq.1 (h ▸ List.mem_cons_self)
  have hsingle : a ≠ byte '\'' := fun h => hq.2 (h ▸ List.mem_cons_self)
  simp [comments?, hline, hblock, hdouble, hsingle]

theorem IsUnquoted.tail {a : UInt8} (h : IsUnquoted (a :: t)) : IsUnquoted t :=
  ⟨fun hd => h.1 (List.mem_cons_of_mem a hd), fun hs => h.2 (List.mem_cons_of_mem a hs)⟩

/-- A text without the beginning of a comment stays as it is. -/
theorem comments?_eq (hq : IsUnquoted t) (h : ∀ m ∈ openers, ¬ m <:+: t) :
    comments? .text t = some t := by
  induction t with
  | nil => rfl
  | cons a t ih =>
    cases t with
    | nil => rfl
    | cons b t =>
      rw [comments?_cons hq fun m hm hp => h m hm hp.isInfix,
        ih hq.tail fun m hm hi => h m hm (List.infix_cons hi), Option.map_some]

/-- A text with the beginning of a comment gets shorter. -/
theorem length_comments?_lt (hq : IsUnquoted t) {m : Bytes} (hm : m ∈ openers) (h : m <:+: t)
    (hs : comments? .text t = some s) : s.length < t.length := by
  induction t generalizing s with
  | nil =>
    simp only [openers, List.mem_cons, List.not_mem_nil, or_false] at hm
    rcases hm with rfl | rfl <;> exact absurd h.length_le (by decide)
  | cons a t ih =>
    cases t with
    | nil =>
      simp only [openers, List.mem_cons, List.not_mem_nil, or_false] at hm
      rcases hm with rfl | rfl <;> exact absurd h.length_le (by simp)
    | cons b t =>
      by_cases hstart : ∀ m ∈ openers, ¬ m <+: a :: b :: t
      · rw [comments?_cons hq hstart] at hs
        obtain ⟨r, hr, rfl⟩ := Option.map_eq_some_iff.1 hs
        have hrest := (List.infix_cons_iff.1 h).resolve_left (hstart m hm)
        exact Nat.succ_lt_succ (ih hq.tail hrest hr)
      · -- a comment takes at least its two marks away, and leaves a blank at most
        obtain ⟨n, hn, r, hr⟩ : ∃ n ∈ openers, n <+: a :: b :: t := by simpa using hstart
        simp only [openers, List.mem_cons, List.not_mem_nil, or_false] at hn
        rcases hn with rfl | rfl
        · obtain ⟨rfl, rfl, rfl⟩ : byte '/' = a ∧ byte '/' = b ∧ r = t := by simpa using hr
          have hline : comments? .line r = some s := hs
          have := length_comments?_le hline
          simp only [List.length_cons]
          omega
        · obtain ⟨rfl, rfl, rfl⟩ : byte '/' = a ∧ byte '*' = b ∧ r = t := by simpa using hr
          have hblock : (comments? .block r).map (byte ' ' :: ·) = some s := hs
          obtain ⟨u, hu, rfl⟩ := Option.map_eq_some_iff.1 hblock
          have := length_comments?_le hu
          simp only [List.length_cons]
          omega

/-! ### All steps -/

/-- The beginnings of what is replaced or left out before a text is read. -/
def marks : List Bytes := thirds.map group ++ openers

/-- A text without such beginnings. -/
def IsUnmarked (t : Bytes) : Prop := ∀ m ∈ marks, ¬ m <:+: t

instance (t : Bytes) : Decidable (IsUnmarked t) :=
  inferInstanceAs (Decidable (∀ m ∈ marks, ¬ m <:+: t))

/-- **A text is read as it stands** when it holds no beginning of what is replaced or left out. -/
theorem comments?_prepared_iff (hq : IsUnquoted (lineEnds t)) (hb : byte '\\' ∉ lineEnds t) :
    comments? .text (prepared true t) = some (lineEnds t) ↔ IsUnmarked (lineEnds t) := by
  rw [prepared, if_pos rfl]
  generalize lineEnds t = u at hq hb ⊢
  constructor
  · intro h
    -- no step makes the text shorter
    have hcomments := length_comments?_le h
    have hsplices := length_splicesFrom_le none (trigraphs u)
    rw [Option.elim_none, Nat.zero_add] at hsplices
    have hgroups : ∀ c ∈ thirds, ¬ group c <:+: u := fun c hc hi =>
      absurd (length_trigraphs_lt hc hi) (Nat.not_lt.2 (hcomments.trans hsplices))
    rw [trigraphs_eq hgroups, splices_eq hb] at h
    intro m hm hi
    rcases List.mem_append.1 hm with hm | hm
    · obtain ⟨c, hc, rfl⟩ := List.mem_map.1 hm
      exact hgroups c hc hi
    · exact Nat.lt_irrefl _ (length_comments?_lt hq hm hi h)
  · intro h
    rw [trigraphs_eq fun c hc => h _ (List.mem_append_left _ (List.mem_map_of_mem hc)),
      splices_eq hb, comments?_eq hq fun m hm => h m (List.mem_append_right _ hm)]

/-! ### Texts that are prepared piece by piece -/

/-- A byte that stands for itself wherever it is: it begins neither a group of three characters nor
the end of a line. -/
def isInert (b : UInt8) : Bool := b ≠ byte '?' && b ≠ byte '\\' && b ≠ byte '\r'

section Prepared

variable {x y : Bytes} {c : UInt8}

theorem lineEndsFrom_append (h : c ≠ byte '\r') (h' : c ≠ byte '\n') (returned : Bool)
    (x y : Bytes) :
    lineEndsFrom returned (x ++ c :: y) = lineEndsFrom returned x ++ c :: lineEndsFrom false y := by
  induction x generalizing returned with
  | nil => simp [lineEndsFrom, h, h']
  | cons a x ih =>
    simp only [List.cons_append, lineEndsFrom]
    split
    · rw [ih, List.cons_append]
    · split
      · rw [ih]
      · rw [ih, List.cons_append]

theorem trigraphs_cons (h : c ≠ byte '?') (y : Bytes) : trigraphs (c :: y) = c :: trigraphs y := by
  match y with
  | [] | [_] => rfl
  | _ :: _ :: _ => simp [trigraphs, h]

theorem trigraphs_cons_cons (h : c ≠ byte '?') (a : UInt8) (y : Bytes) :
    trigraphs (a :: c :: y) = a :: c :: trigraphs y := by
  cases y with
  | nil => rfl
  | cons d y => simp [trigraphs, h, trigraphs_cons]

/-- A character that belongs to no group of three divides a text. -/
theorem trigraphs_append (h : c ≠ byte '?') (h' : trigraph? c = none) (x y : Bytes) :
    trigraphs (x ++ c :: y) = trigraphs x ++ c :: trigraphs y := by
  fun_induction trigraphs x with
  | case1 a b d r hq e he ih => simp only [List.cons_append, trigraphs, hq, if_true, he, ih]
  | case2 a b d r hq he ih =>
    simp only [List.cons_append, trigraphs, hq, if_true, he] at ih ⊢
    rw [ih]
  | case3 a b d r hq ih =>
    simp only [List.cons_append, trigraphs, hq] at ih ⊢
    rw [if_neg Bool.false_ne_true, ih]
  | case4 r hr =>
    match r, hr with
    | [], _ => exact trigraphs_cons h y
    | [a], _ => exact trigraphs_cons_cons h a y
    | [a, b], _ =>
      simp only [List.cons_append, List.nil_append, trigraphs, h', trigraphs_cons_cons h]
      split <;> rfl
    | a :: b :: d :: r, hr => exact absurd rfl (hr a b d r)

/-- A blank with a bracket behind it ends what may be a joined line. -/
theorem splicesFrom_append (held : Option Bytes) (x y : Bytes) :
    splicesFrom held (x ++ byte ' ' :: byte '[' :: y) =
      splicesFrom held x ++ byte ' ' :: byte '[' :: splicesFrom none y := by
  have hb : byte '[' ≠ byte '\\' := by decide
  have hn : byte '[' ≠ byte '\n' := by decide
  have hs : byte ' ' ≠ byte '\\' := by decide
  have hl : byte ' ' ≠ byte '\n' := by decide
  have hi : isInner (byte ' ') = true := rfl
  have hj : isInner (byte '[') = false := rfl
  induction x generalizing held with
  | nil => cases held <;> simp [splicesFrom, hb, hn, hs, hl, hi, hj]
  | cons a x ih =>
    cases held with
    | none =>
      simp only [List.cons_append, splicesFrom, ih]
      split <;> rfl
    | some held =>
      simp only [List.cons_append, splicesFrom, ih]
      split
      · rfl
      · split
        · rfl
        · split <;> simp

/-- Inert bytes in front of a text stay as they are. -/
theorem prepared_append_inert (three : Bool) (h : ∀ b ∈ x, isInert b = true) (y : Bytes) :
    prepared three (x ++ y) = x ++ prepared three y := by
  induction x with
  | nil => rfl
  | cons a x ih =>
    have ha := h a List.mem_cons_self
    simp only [isInert, Bool.and_eq_true, decide_eq_true_eq] at ha
    rw [List.cons_append, List.cons_append, ← ih fun b hb => h b (List.mem_cons_of_mem _ hb)]
    cases three <;>
      simp [prepared, lineEnds, lineEndsFrom, splices, splicesFrom, trigraphs_cons, ha]

/-- **A blank with a bracket behind it divides a text**: nothing reaches across it. -/
theorem prepared_append_bracket (three : Bool) (x y : Bytes) :
    prepared three (x ++ byte ' ' :: byte '[' :: y) =
      prepared three x ++ byte ' ' :: byte '[' :: prepared three y := by
  have hlines : ∀ x y, lineEnds (x ++ byte ' ' :: byte '[' :: y) =
      lineEnds x ++ byte ' ' :: byte '[' :: lineEnds y := fun x y => by
    rw [lineEnds, lineEndsFrom_append (by decide) (by decide)]
    rfl
  have hgroups : ∀ x y, trigraphs (x ++ byte ' ' :: byte '[' :: y) =
      trigraphs x ++ byte ' ' :: byte '[' :: trigraphs y := fun x y => by
    rw [trigraphs_append (by decide) rfl, trigraphs_cons (by decide)]
  cases three <;> simp [prepared, hlines, hgroups, splices, splicesFrom_append]

end Prepared

end Code

/-! ## Bytes of accepted expressions -/

attribute [grind] byte isDigit isLetter isWordStart isWordPart isBlank

namespace Kernel

attribute [grind] isExponentMark isSign isMantissa

/-- Bytes of literals. -/
@[grind] def isLiteralByte (b : UInt8) : Bool := isMantissa b || isExponentMark b || isSign b

/-- Bytes of expressions that are accepted. -/
@[grind] def isAllowed (b : UInt8) : Bool :=
  isBlank b || isWordPart b || b = byte '.' || operators.contains b

theorem operators_eq :
    operators = [43, 45, 42, 47, 40, 41, 60, 62, 61, 33, 38, 124, 63, 58, 44] := by
  rw [operators, Bytes.ofString_eq]
  rfl

theorem isAllowed_eq (b : UInt8) : isAllowed b = (isBlank b || isWordPart b || b = byte '.' ||
    [43, 45, 42, 47, 40, 41, 60, 62, 61, 33, 38, 124, 63, 58, 44].contains b) := by
  rw [isAllowed, operators_eq]

theorem isLiteralByte_of_mem_spanLiteral (bs : Bytes) :
    ∀ b ∈ (spanLiteral bs).1, isLiteralByte b = true := by
  fun_induction spanLiteral bs <;> simp_all +zetaDelta [isLiteralByte]

/-- Parts as they are cut. -/
def Piece.IsFormed : Piece → Prop
  | word w => ∀ b ∈ w, isWordPart b = true
  | literal l => ∀ b ∈ l, isLiteralByte b = true
  | byte b => isWordStart b = false ∧ isMantissa b = false

theorem isWordPart_of_isWordStart {b : UInt8} (h : isWordStart b = true) : isWordPart b = true := by
  simp only [isWordStart, isWordPart, Bool.or_eq_true] at h ⊢
  tauto

theorem isFormed_firstPiece (b : UInt8) (r : Bytes) : (firstPiece b r).1.IsFormed := by
  unfold firstPiece
  split
  · next hb =>
    refine List.forall_mem_cons.2 ⟨isWordPart_of_isWordStart hb, fun c hc => ?_⟩
    exact List.all_eq_true.1 List.all_takeWhile c hc
  · next hb =>
    split
    · exact isLiteralByte_of_mem_spanLiteral (b :: r)
    · next hm => exact ⟨by simpa using hb, by simpa using hm⟩

theorem isFormed_of_mem_pieces {e : Bytes} : ∀ p ∈ pieces e, p.IsFormed := by
  fun_induction pieces e with
  | case1 => simp
  | case2 b r ih => exact List.forall_mem_cons.2 ⟨isFormed_firstPiece b r, ih⟩

theorem isAllowed_of_checkPieces {params : List Bytes} {depth : Nat} {ps : List Piece}
    (h : checkPieces params depth ps = .ok ()) : ∀ b, .byte b ∈ ps → isAllowed b = true := by
  fun_induction checkPieces params depth ps <;> simp_all [isAllowed]

theorem isAllowed_of_isLiteralByte {b : UInt8} (h : isLiteralByte b = true) :
    isAllowed b = true := by
  have hsign : isSign b = true → b ∈ operators := by
    rw [operators_eq]
    grind
  grind

/-- **Accepted expressions hold allowed bytes only.** -/
theorem isAllowed_of_check {params : List Bytes} {e : Bytes}
    (h : checkExpression params e = .ok ()) : ∀ b ∈ e, isAllowed b = true := by
  rw [checkExpression] at h
  split at h
  · cases h
  · intro b hb
    rw [← flatMap_text_pieces e, List.mem_flatMap] at hb
    obtain ⟨p, hp, hb⟩ := hb
    have hformed := isFormed_of_mem_pieces p hp
    cases p with
    | word w => simp [isAllowed, hformed b hb]
    | literal l => exact isAllowed_of_isLiteralByte (hformed b hb)
    | byte c =>
      rw [List.mem_singleton.1 hb]
      exact isAllowed_of_checkPieces h c hp

end Kernel

/-! ## Tokens as parts of expressions -/

namespace Code

/-- What a token is among the parts of an expression. -/
def Token.parts : Token → List Kernel.Piece
  | .word w => [.word w]
  | .number l => [.literal l]
  | .punct p => (Bytes.ofString p).map .byte
  | .quote t => t.map .byte
  | .stray b => [.byte b]
  | .newline => []

/-- Whether a number is a constant of type double. -/
def isDouble (l : Bytes) : Bool :=
  match Constant.ofBytes? { } l with
  | some c => c.number = .double && !c.imaginary
  | none => false

/-- Whether a compiler finds a bracket that is written as two characters. A colon behind two signs
that make a shift is no part of one. -/
def hasDigraph : Bytes → Bool
  | a :: b :: r =>
    if a = byte '<' && b = byte '<' then hasDigraph r
    else (a = byte '<' && b = byte ':') || (a = byte ':' && b = byte '>') || hasDigraph (b :: r)
  | _ => false

/-- Bytes that are no part of a bracket that is written as two characters. -/
@[grind] def isNeutral (b : UInt8) : Bool := b ≠ byte '<' && b ≠ byte ':'

variable {x r : Bytes}

theorem hasDigraph_cons {b : UInt8} (h : isNeutral b = true) (r : Bytes) :
    hasDigraph (b :: r) = hasDigraph r := by
  simp only [isNeutral, Bool.and_eq_true, decide_eq_true_eq] at h
  cases r with
  | nil => rfl
  | cons c r => simp [hasDigraph, h]

theorem hasDigraph_append (h : ∀ b ∈ x, isNeutral b = true) (r : Bytes) :
    hasDigraph (x ++ r) = hasDigraph r := by
  induction x with
  | nil => rfl
  | cons b x ih =>
    rw [List.cons_append, hasDigraph_cons (h b List.mem_cons_self),
      ih fun c hc => h c (List.mem_cons_of_mem b hc)]

/-! ## Numbers -/

theorem spanNumber_append (bs : Bytes) : (spanNumber bs).1 ++ (spanNumber bs).2 = bs := by
  fun_induction spanNumber bs <;> simp_all +zetaDelta

/-- A number is as long as it can be. -/
theorem head?_spanNumber (bs : Bytes) :
    ∀ b ∈ (spanNumber bs).2.head?, isWordPart b = false ∧ b ≠ byte '.' := by
  fun_induction spanNumber bs <;> simp_all +zetaDelta

/-- The letters in front of a sign in a number. -/
@[grind]
def isPower (b : UInt8) : Bool := b = byte 'e' || b = byte 'E' || b = byte 'p' || b = byte 'P'

/-- Bytes of a number. -/
@[grind] def isNumberPart (b : UInt8) : Bool := isWordPart b || b = byte '.'

theorem spanNumber_cons_cons (b c : UInt8) (r : Bytes) :
    spanNumber (b :: c :: r) =
      if isPower b && Kernel.isSign c then (b :: c :: (spanNumber r).1, (spanNumber r).2)
      else if isNumberPart b then (b :: (spanNumber (c :: r)).1, (spanNumber (c :: r)).2)
      else ([], b :: c :: r) := rfl

open Kernel in
/-- **A literal is a number** when no word stands directly behind it. -/
theorem spanNumber_eq {bs : Bytes} (h : ∀ b ∈ (spanLiteral bs).2.head?, isWordStart b = false) :
    spanNumber bs = spanLiteral bs := by
  have hmantissa : ∀ b, isMantissa b = true → isNumberPart b = true ∧ isPower b = false := by
    grind
  have hmark : ∀ b, isExponentMark b = true → isNumberPart b = true ∧ isPower b = true := by
    grind
  have hother : ∀ b, isMantissa b = false → isWordStart b = false →
      isNumberPart b = false ∧ isPower b = false := by
    grind
  fun_induction spanLiteral bs with
  | case1 => rfl
  | case2 b hb => exact if_pos (hmantissa b hb).1
  | case3 b hb => exact if_neg (Bool.eq_false_iff.1 (hother b (by simpa using hb) (h b rfl)).1)
  | case4 b c r hb p ih =>
    rw [spanNumber_cons_cons, (hmantissa b hb).1, (hmantissa b hb).2, ih h]
    rfl
  | case5 b c r hb he hc p ih =>
    rw [spanNumber_cons_cons, (hmark b he).2, hc, ih h]
    rfl
  | case6 b c r hb he hc p ih =>
    rw [spanNumber_cons_cons, (hmark b he).1, (hmark b he).2, Bool.eq_false_iff.2 hc, ih h]
    rfl
  | case7 b c r hb he =>
    have hstop := hother b (by simpa using hb) (h b rfl)
    rw [spanNumber_cons_cons, hstop.1, hstop.2]
    rfl

/-- A constant does not begin with a point alone. -/
theorem startsNumber_of_isDouble {b : UInt8} {l r : Bytes} (hb : Kernel.isMantissa b = true)
    (h : isDouble (b :: l) = true) : startsNumber b (l ++ r) = true := by
  have hradix : ∀ b, isDigitOf 10 b = isDigit b := by
    intro b
    cases hb : isDigit b with
    | true =>
      have hle : b.toNat ≤ 57 := by
        simp only [isDigit, Bool.and_eq_true, decide_eq_true_eq] at hb
        exact UInt8.le_iff_toNat_le.1 hb.2
      simp [isDigitOf, digitValue?, hb]
      omega
    | false =>
      simp only [isDigitOf, digitValue?, hb]
      grind
  rw [Kernel.isMantissa, Bool.or_eq_true, decide_eq_true_eq] at hb
  rcases hb with hb | rfl
  · rw [startsNumber, hb, Bool.true_or]
  · cases l with
    | nil => exact absurd h (by decide)
    | cons c l =>
      by_contra hstart
      have hc : isDigitOf 10 c = false := by
        simpa [startsNumber, byte, hradix, show isDigit 46 = false from rfl] using hstart
      have hnone : Constant.ofBytes? { } (46 :: c :: l) = none := by
        have hpoint : isDigitOf 10 46 = false := by decide
        have hbyte : (46 : UInt8) = byte '.' := rfl
        have hzero : (46 : UInt8) ≠ byte '0' := by decide
        simp [Constant.ofBytes?, Constant.inRadix?, hpoint, hc, ← hbyte, hzero]
      rw [isDouble, hnone] at h
      cases h

/-! ## Punctuators -/

/-- A punctuator at the start of a text, and the rest. -/
def taken? (bs : Bytes) (p : String × String) : Option (String × Bytes) :=
  if (Bytes.ofString p.1).isPrefixOf bs then some (p.2, bs.drop (Bytes.ofString p.1).length)
  else none

theorem punct?_eq (bs : Bytes) : punct? bs = punctuators.findSome? (taken? bs) := rfl

theorem taken?_eq_some_iff {bs r : Bytes} {p : String × String} {m : String} :
    taken? bs p = some (m, r) ↔ p.2 = m ∧ bs = Bytes.ofString p.1 ++ r := by
  rw [taken?]
  constructor
  · intro h
    split at h
    · next hprefix =>
      obtain ⟨t, rfl⟩ := List.isPrefixOf_iff_prefix.1 hprefix
      cases h
      exact ⟨rfl, by rw [List.drop_left]⟩
    · cases h
  · rintro ⟨rfl, rfl⟩
    rw [if_pos (List.isPrefixOf_iff_prefix.2 (List.prefix_append _ r)), List.drop_left]

/-- The punctuators of several characters, which stand in front of the others. -/
def longer : List (String × String) := punctuators.take 29

/-- **A text that begins with a punctuator of several characters** is read as one of these. -/
theorem punct?_of_longer {p : String × String} {r s : Bytes} {m : String} (hp : p ∈ longer)
    (h : punct? (Bytes.ofString p.1 ++ r) = some (m, s)) : m ∈ longer.map Prod.snd := by
  have hsplit : punctuators = longer ++ punctuators.drop 29 := (List.take_append_drop 29 _).symm
  have htaken : taken? (Bytes.ofString p.1 ++ r) p = some (p.2, r) :=
    taken?_eq_some_iff.2 ⟨rfl, rfl⟩
  rw [punct?_eq, hsplit, List.findSome?_append] at h
  cases hl : longer.findSome? (taken? (Bytes.ofString p.1 ++ r)) with
  | none =>
    have hnone := List.findSome?_eq_none_iff.1 hl p hp
    rw [htaken] at hnone
    cases hnone
  | some n =>
    rw [hl, Option.some_or] at h
    cases h
    obtain ⟨p', hp', htaken'⟩ := List.exists_of_findSome?_eq_some hl
    exact List.mem_map.2 ⟨p', hp', (taken?_eq_some_iff.1 htaken').1⟩

/-- Punctuators of accepted bytes that begin with an operator are operators as they stand, or
brackets. -/
theorem punctuator_cases {q m : String} (h : (q, m) ∈ punctuators)
    (ha : ∀ b ∈ Bytes.ofString q, Kernel.isAllowed b = true)
    (hb : ∀ b ∈ (Bytes.ofString q).head?, Kernel.operators.contains b = true) :
    q = m ∧ (∀ b ∈ Bytes.ofString q, Kernel.operators.contains b = true) ∨
      (q, m) = ("<:", "[") ∨ (q, m) = (":>", "]") := by
  have hall : punctuators.all (fun p =>
      !((Bytes.ofString p.1).all Kernel.isAllowed &&
        (Bytes.ofString p.1).head?.all Kernel.operators.contains) ||
      (p.1 = p.2 && (Bytes.ofString p.1).all Kernel.operators.contains) ||
      p = ("<:", "[") || p = (":>", "]")) = true := by decide +kernel
  have hbytes : (Bytes.ofString q).all Kernel.isAllowed = true := List.all_eq_true.2 ha
  have hhead : (Bytes.ofString q).head?.all Kernel.operators.contains = true := by
    cases h : (Bytes.ofString q).head? with
    | none => rfl
    | some b => exact hb b h
  have hpair := List.all_eq_true.1 hall (q, m) h
  rw [hbytes, hhead] at hpair
  simpa [or_assoc] using hpair

theorem ofString_ne_nil {q m : String} (h : (q, m) ∈ punctuators) :
    Bytes.ofString q ≠ [] ∧ Bytes.ofString m ≠ [] := by
  have hall : ∀ p ∈ punctuators, p.1 ≠ "" ∧ p.2 ≠ "" := by decide
  exact ⟨fun hq => (hall _ h).1 (Bytes.ofString_eq_nil_iff.1 hq),
    fun hm => (hall _ h).2 (Bytes.ofString_eq_nil_iff.1 hm)⟩

/-- Behind a single character there is none with which it is a punctuator of two. -/
theorem second_ne {q m : String} {a b : UInt8} {r s : Bytes}
    (h : punct? (a :: b :: r) = some (m, s)) (hm : m ∉ longer.map Prod.snd)
    (hq : Bytes.ofString q = [a, b]) (hmem : q ∈ longer.map Prod.fst) : False := by
  obtain ⟨p, hp, rfl⟩ := List.mem_map.1 hmem
  refine hm (punct?_of_longer (r := r) (s := s) hp ?_)
  rwa [hq]

/-- **A punctuator that is no bracket leaves the brackets behind it as they are.** -/
theorem hasDigraph_punctuator {q : String} {r : Bytes} (hmem : (q, q) ∈ punctuators)
    (h : punct? (Bytes.ofString q ++ r) = some (q, r)) :
    hasDigraph (Bytes.ofString q ++ r) = hasDigraph r := by
  have hall : punctuators.all (fun p => p.1 ≠ p.2 || (Bytes.ofString p.1).all isNeutral ||
      ["<<=", "<<", "<=", "<", ":"].contains p.1) = true := by
    simp only [Bytes.ofString_eq]
    decide
  have hcases := List.all_eq_true.1 hall (q, q) hmem
  simp only [ne_eq, not_true_eq_false, decide_false, Bool.false_or, Bool.or_eq_true,
    List.contains_eq_mem, List.mem_cons, List.not_mem_nil, or_false, decide_eq_true_eq] at hcases
  rcases hcases with hneutral | rfl | rfl | rfl | rfl | rfl
  · exact hasDigraph_append (List.all_eq_true.1 hneutral) r
  · have hbytes : Bytes.ofString "<<=" = [byte '<', byte '<', byte '='] := by
      rw [Bytes.ofString_eq]
      rfl
    rw [hbytes]
    exact hasDigraph_cons rfl r
  · have hbytes : Bytes.ofString "<<" = [byte '<', byte '<'] := by
      rw [Bytes.ofString_eq]
      rfl
    rw [hbytes]
    rfl
  · have hbytes : Bytes.ofString "<=" = [byte '<', byte '='] := by
      rw [Bytes.ofString_eq]
      rfl
    rw [hbytes]
    exact hasDigraph_cons rfl r
  · have hbytes : Bytes.ofString "<" = [byte '<'] := by
      rw [Bytes.ofString_eq]
      rfl
    rw [hbytes] at h ⊢
    cases r with
    | nil => rfl
    | cons c r =>
      have hsingle : "<" ∉ longer.map Prod.snd := by decide
      have hshift : c ≠ byte '<' := by
        rintro rfl
        exact second_ne (q := "<<") h hsingle (by rw [Bytes.ofString_eq]; rfl) (by decide)
      have hcolon : c ≠ byte ':' := by
        rintro rfl
        exact second_ne (q := "<:") h hsingle (by rw [Bytes.ofString_eq]; rfl) (by decide)
      have hne : byte '<' ≠ byte ':' := by decide
      simp [hasDigraph, hshift, hcolon, hne]
  · have hbytes : Bytes.ofString ":" = [byte ':'] := by
      rw [Bytes.ofString_eq]
      rfl
    rw [hbytes] at h ⊢
    cases r with
    | nil => rfl
    | cons c r =>
      have hsingle : ":" ∉ longer.map Prod.snd := by decide
      have hgreater : c ≠ byte '>' := by
        rintro rfl
        exact second_ne (q := ":>") h hsingle (by rw [Bytes.ofString_eq]; rfl) (by decide)
      have hne : byte ':' ≠ byte '<' := by decide
      simp [hasDigraph, hgreater, hne]

end Code

end MemoFlow
