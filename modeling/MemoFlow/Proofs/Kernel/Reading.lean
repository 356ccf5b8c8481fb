import MemoFlow.Proofs.Kernel.Lexing

/-!
# When a compiler reads what was checked

The check cuts an expression into words, literals and single bytes. A compiler cuts it, with its
literals as floating constants, by the rules of its language. Both find the same parts when nothing
of the text is replaced or left out before it is read, no brackets are written as two operators, and
literals are constants that stand apart.

* `Kernel.Matches`, `Kernel.IsPlain`: tokens that are the parts of an expression, and texts whose
  tokens are;
* **`Kernel.Step`**, `Kernel.step_firstToken`, `Kernel.matches_iff`: the first token and the first
  parts of a text, and all of them;
* `Kernel.spanLiteral_append_of_outside`, `Kernel.solid_pieces_lineEndsFrom`: how lines end does not
  matter to the parts;
* `Kernel.ReadAs`, **`Kernel.IsReadAsChecked`**: what a compiler should find;
* `Kernel.IsClear`, **`Kernel.isReadAsChecked_iff`**: when it finds that.
-/

namespace MemoFlow

open Ascii

/-! ## The first token and the first parts -/

namespace Kernel

open Code (Token)

/-- Whether a part is a blank. -/
def Piece.isSpace : Piece → Bool
  | byte b => isBlank b
  | _ => false

/-- The parts that are no blanks. -/
def solid (ps : List Piece) : List Piece := ps.filter fun p => !p.isSpace

/-- Tokens that are the parts of an expression, with constants of type double as literals. -/
structure Matches (ts : List Token) (ps : List Piece) : Prop where
  parts : ts.flatMap Token.parts = solid ps
  doubles : ∀ l, .number l ∈ ts → Code.isDouble l = true

/-- Whether a word stands in front. -/
def startsWord : List Piece → Bool
  | .word _ :: _ => true
  | _ => false

/-- Whether each literal is a constant of type double, and no word stands directly behind it. -/
def isApart : List Piece → Bool
  | [] => true
  | .literal l :: ps => Code.isDouble l && !startsWord ps && isApart ps
  | _ :: ps => isApart ps

/-- A text without brackets of two characters, and with literals that stand apart. -/
structure IsPlain (t : Bytes) : Prop where
  brackets : Code.hasDigraph t = false
  literals : isApart (pieces t) = true

variable {t rest : Bytes} {token : Token} {ts : List Token} {p q : List Piece}

@[simp] theorem solid_append (p q : List Piece) : solid (p ++ q) = solid p ++ solid q :=
  List.filter_append ..

theorem matches_cons_iff (h : token.parts = solid p) : Matches (token :: ts) (p ++ q) ↔
    (∀ l, token = .number l → Code.isDouble l = true) ∧ Matches ts q := by
  constructor
  · rintro ⟨hparts, hdoubles⟩
    rw [List.flatMap_cons, solid_append, h] at hparts
    exact ⟨fun l hl => hdoubles l (hl ▸ List.mem_cons_self), List.append_cancel_left hparts,
      fun l hl => hdoubles l (List.mem_cons_of_mem token hl)⟩
  · rintro ⟨htoken, hparts, hdoubles⟩
    refine ⟨by rw [List.flatMap_cons, solid_append, h, hparts], fun l hl => ?_⟩
    rcases List.mem_cons.1 hl with hl | hl
    · exact htoken l hl.symm
    · exact hdoubles l hl

/-- **What the first token of a text is** to its first parts: they are the same, and what is left of
the text is as plain as the text is; or the text is not plain, and no tokens behind this one match
it. -/
inductive Step (t : Bytes) (token : Token) (rest : Bytes) : Prop
  | same (p : List Piece) (hpieces : pieces t = p ++ pieces rest) (hparts : token.parts = solid p)
    (hrest : rest <:+ t) (hlength : rest.length < t.length)
    (hplain : IsPlain t ↔ (∀ l, token = .number l → Code.isDouble l = true) ∧ IsPlain rest)
  | other (hplain : ¬ IsPlain t) (hmatches : ∀ ts, ¬ Matches (token :: ts) (pieces t))

/-- A token that takes a part of the text whose parts it is. -/
theorem Step.of_append {x : Bytes} (hx : x ≠ []) (hpieces : pieces (x ++ rest) = p ++ pieces rest)
    (hparts : token.parts = solid p)
    (hbrackets : Code.hasDigraph (x ++ rest) = Code.hasDigraph rest)
    (hapart : isApart (p ++ pieces rest) = true ↔
      (∀ l, token = .number l → Code.isDouble l = true) ∧ isApart (pieces rest) = true) :
    Step (x ++ rest) token rest := by
  have hlength : 0 < x.length := List.length_pos_iff.2 hx
  refine .same p hpieces hparts (List.suffix_append x rest) (by simp; omega) ?_
  rw [← hpieces] at hapart
  constructor
  · rintro ⟨hb, hl⟩
    exact ⟨(hapart.1 hl).1, hbrackets ▸ hb, (hapart.1 hl).2⟩
  · rintro ⟨htoken, hb, hl⟩
    exact ⟨hbrackets.trans hb, hapart.2 ⟨htoken, hl⟩⟩

theorem pieces_byte {b : UInt8} (hw : isWordStart b = false) (hm : isMantissa b = false)
    (r : Bytes) : pieces (b :: r) = .byte b :: pieces r := by
  simp [pieces_cons, firstPiece, hw, hm]

theorem startsWord_pieces_eq_false_iff {r : Bytes} :
    startsWord (pieces r) = false ↔ ∀ b ∈ r.head?, isWordStart b = false := by
  cases r with
  | nil => simp [startsWord]
  | cons b r =>
    rw [pieces_cons]
    unfold firstPiece
    split
    · next h => simp [startsWord, h]
    · next h => split <;> simp [startsWord, h]

theorem step_newline (r : Bytes) : Step (byte '\n' :: r) .newline r := by
  have hpieces : pieces (byte '\n' :: r) = .byte (byte '\n') :: pieces r := pieces_byte rfl rfl r
  exact .of_append (x := [byte '\n']) (p := [.byte (byte '\n')]) (List.cons_ne_nil _ _) hpieces rfl
    (Code.hasDigraph_cons rfl r) (by simp [isApart])

/-- **A word** is a name. -/
theorem step_word {b : UInt8} {r : Bytes} (hb : isWordStart b = true)
    (hr : ∀ c ∈ r, isAllowed c = true) :
    Step (b :: r) (Code.firstToken b r).1 (Code.firstToken b r).2 := by
  have hname : ∀ c ∈ r, Code.isNamePart c = isWordPart c := by
    intro c hc
    have hdollar : isAllowed (byte '$') = false := by
      rw [isAllowed_eq]
      rfl
    have hne : c ≠ byte '$' := fun h => by simp [← h, hr c hc] at hdollar
    simp [Code.isNamePart, hne]
  have hstart : b ≠ byte '\n' ∧ Code.isNameStart b = true := by grind [Code.isNameStart]
  have hneutral : ∀ c, isWordPart c = true → Code.isNeutral c = true := by grind
  have hmem : ∀ c ∈ b :: r.takeWhile isWordPart, isWordPart c = true :=
    List.forall_mem_cons.2 ⟨isWordPart_of_isWordStart hb, List.all_eq_true.1 List.all_takeWhile⟩
  have hfirst : Code.firstToken b r =
      (.word (b :: r.takeWhile isWordPart), r.dropWhile isWordPart) := by
    have hrun : ∀ c ∈ r.takeWhile isWordPart, Code.isNamePart c = true := fun c hc => by
      rw [hname c (List.takeWhile_subset _ hc)]
      exact hmem c (List.mem_cons_of_mem b hc)
    have hstop : ∀ c ∈ (r.dropWhile isWordPart).head?, Code.isNamePart c = false := fun c hc => by
      rw [hname c ((List.dropWhile_sublist _).subset (List.mem_of_mem_head? hc))]
      exact head?_dropWhile isWordPart r c hc
    have htake := takeWhile_append_of_head hrun hstop
    have hdrop := dropWhile_append_of_head hrun hstop
    rw [List.takeWhile_append_dropWhile] at htake hdrop
    rw [Code.firstToken, if_neg hstart.1, if_pos hstart.2, htake, hdrop]
  have hpieces : pieces (b :: r) =
      .word (b :: r.takeWhile isWordPart) :: pieces (r.dropWhile isWordPart) := by
    simp [pieces_cons, firstPiece, hb]
  have happend : b :: r = (b :: r.takeWhile isWordPart) ++ r.dropWhile isWordPart := by simp
  rw [hfirst]
  rw [happend] at hpieces ⊢
  exact .of_append (p := [.word (b :: r.takeWhile isWordPart)]) (List.cons_ne_nil _ _) hpieces rfl
    (Code.hasDigraph_append (fun c hc => hneutral c (hmem c hc)) _) (by simp [isApart])

/-- What begins like a literal is a number, or its first byte is a part of its own. -/
theorem firstToken_mantissa {b : UInt8} (hb : isMantissa b = true) (r : Bytes) :
    Code.startsNumber b r = true ∧
        Code.firstToken b r = (.number (Code.spanNumber (b :: r)).1, (Code.spanNumber (b :: r)).2) ∨
      Code.startsNumber b r = false ∧ ∃ c p, (Code.firstToken b r).1.parts = .byte c :: p := by
  obtain ⟨hline, hname, hdouble, hsingle⟩ :
      b ≠ byte '\n' ∧ Code.isNameStart b = false ∧ b ≠ byte '"' ∧ b ≠ byte '\'' := by
    grind [Code.isNameStart]
  simp only [Code.firstToken, hline, hname, hdouble, hsingle, if_false, Bool.false_eq_true,
    decide_false, Bool.or_false]
  split
  · next hnumber => exact .inl ⟨hnumber, rfl⟩
  · next hnumber =>
    refine .inr ⟨by simpa using hnumber, ?_⟩
    cases h : Code.punct? (b :: r) with
    | none => exact ⟨b, [], rfl⟩
    | some q =>
      obtain ⟨p, hp, htaken⟩ := List.exists_of_findSome?_eq_some h
      have hq := (Code.ofString_ne_nil hp).2
      rw [(Code.taken?_eq_some_iff.1 htaken).1] at hq
      obtain ⟨c, l, hl⟩ := List.exists_cons_of_ne_nil hq
      exact ⟨c, l.map .byte, by simp [Token.parts, hl]⟩

/-- **A literal** is a number if it is a constant and no word stands directly behind it, and
otherwise it is read as something else. -/
theorem step_literal {b : UInt8} (hb : isMantissa b = true) (r : Bytes) :
    Step (b :: r) (Code.firstToken b r).1 (Code.firstToken b r).2 := by
  have hword : isWordStart b = false := by grind
  have hneutral : ∀ c, isLiteralByte c = true → Code.isNeutral c = true := by grind
  have hpieces : pieces (b :: r) =
      .literal (spanLiteral (b :: r)).1 :: pieces (spanLiteral (b :: r)).2 := by
    simp [pieces_cons, firstPiece, hword, hb]
  have happend := spanLiteral_append (b :: r)
  by_cases hstands : Code.isDouble (spanLiteral (b :: r)).1 = true ∧
      startsWord (pieces (spanLiteral (b :: r)).2) = false
  · obtain ⟨hconstant, hstart⟩ := hstands
    have hnumber : Code.spanNumber (b :: r) = spanLiteral (b :: r) :=
      Code.spanNumber_eq (startsWord_pieces_eq_false_iff.1 hstart)
    have hstarts : Code.startsNumber b r = true := by
      rw [spanLiteral_cons hb] at hconstant
      have hfirst := Code.startsNumber_of_isDouble (r := (spanLiteral r).2) hb hconstant
      rwa [spanLiteral_append] at hfirst
    rcases firstToken_mantissa hb r with ⟨-, hfirst⟩ | ⟨hnot, -⟩
    · rw [hfirst, hnumber]
      generalize hspan : spanLiteral (b :: r) = s at *
      obtain ⟨l, rest⟩ := s
      have hl : l ≠ [] := by
        rw [spanLiteral_cons hb] at hspan
        cases hspan
        exact List.cons_ne_nil _ _
      have hbytes : ∀ c ∈ l, Code.isNeutral c = true := fun c hc =>
        hneutral c (isLiteralByte_of_mem_spanLiteral (b :: r) c (by rw [hspan]; exact hc))
      rw [← happend] at hpieces ⊢
      exact .of_append (p := [.literal l]) hl hpieces rfl (Code.hasDigraph_append hbytes rest)
        (by simp [isApart, hstart])
    · rw [hstarts] at hnot
      cases hnot
  · refine .other (fun hplain => ?_) fun ts hmatches => ?_
    · have hapart := hplain.literals
      rw [hpieces, isApart, Bool.and_eq_true, Bool.and_eq_true, Bool.not_eq_true'] at hapart
      exact hstands hapart.1
    · have hparts := hmatches.parts
      rw [hpieces, List.flatMap_cons] at hparts
      rcases firstToken_mantissa hb r with ⟨-, hfirst⟩ | ⟨-, c, p, hfirst⟩
      · rw [hfirst] at hparts hmatches
        -- the number is the literal, and what follows a number is no word
        have hl : (Code.spanNumber (b :: r)).1 = (spanLiteral (b :: r)).1 :=
          Piece.literal.inj (List.cons.inj hparts).1
        have hrest : (Code.spanNumber (b :: r)).2 = (spanLiteral (b :: r)).2 := by
          have hnumber := Code.spanNumber_append (b :: r)
          rw [hl] at hnumber
          exact List.append_cancel_left (hnumber.trans happend.symm)
        refine hstands ⟨hl ▸ hmatches.doubles _ List.mem_cons_self, ?_⟩
        rw [startsWord_pieces_eq_false_iff, ← hrest]
        intro c hc
        by_contra hstart
        have hpart := isWordPart_of_isWordStart (by simpa using hstart)
        rw [(Code.head?_spanNumber (b :: r) c hc).1] at hpart
        cases hpart
      · rw [hfirst] at hparts
        cases (List.cons.inj hparts).1

/-- The classes of an operator. -/
theorem class_of_operator {b : UInt8} (hb : operators.contains b = true) :
    isWordStart b = false ∧ isMantissa b = false ∧ isBlank b = false ∧ b ≠ byte '\n' ∧
      Code.isNameStart b = false ∧ b ≠ byte '"' ∧ b ≠ byte '\'' ∧ isDigit b = false ∧
      b ≠ byte '.' := by
  simp only [operators_eq, List.contains_iff_mem, List.mem_cons, List.not_mem_nil, or_false] at hb
  rcases hb with rfl | rfl | rfl | rfl | rfl | rfl | rfl | rfl | rfl | rfl | rfl | rfl | rfl |
    rfl | rfl
  all_goals decide

/-- Operators are parts of their own. -/
theorem pieces_operators {x : Bytes} (hx : ∀ b ∈ x, operators.contains b = true) (r : Bytes) :
    pieces (x ++ r) = x.map .byte ++ pieces r := by
  induction x with
  | nil => rfl
  | cons b x ih =>
    obtain ⟨hword, hmantissa, -⟩ := class_of_operator (hx b List.mem_cons_self)
    rw [List.cons_append, pieces_byte hword hmantissa,
      ih fun c hc => hx c (List.mem_cons_of_mem b hc)]
    rfl

theorem isBlank_of_operator {b : UInt8} (hb : operators.contains b = true) : isBlank b = false :=
  (class_of_operator hb).2.2.1

/-- A bracket that is written as two operators is none of the parts. -/
theorem step_bracket {a c d : UInt8} {m : String} (ha : operators.contains a = true)
    (hm : Bytes.ofString m = [d]) (hne : d ≠ a)
    (hdigraph : ∀ s, Code.hasDigraph (a :: c :: s) = true) (rest : Bytes) :
    Step (a :: c :: rest) (.punct m) rest := by
  refine .other (fun hplain => ?_) fun ts hmatches => ?_
  · have hbrackets := hplain.brackets
    rw [hdigraph] at hbrackets
    cases hbrackets
  · have hpieces : pieces (a :: c :: rest) = .byte a :: pieces (c :: rest) :=
      pieces_operators (x := [a]) (by simpa using ha) (c :: rest)
    have hsolid :
        solid (.byte a :: pieces (c :: rest)) = .byte a :: solid (pieces (c :: rest)) := by
      simp [solid, Piece.isSpace, isBlank_of_operator ha]
    have hparts := hmatches.parts
    rw [hpieces, hsolid, List.flatMap_cons, Token.parts, hm] at hparts
    exact hne (Piece.byte.inj (List.cons.inj hparts).1)

/-- **An operator** begins a punctuator, which is read as it stands if it is no bracket. -/
theorem step_operator {b : UInt8} {r : Bytes} (hb : operators.contains b = true)
    (hr : ∀ c ∈ r, isAllowed c = true) :
    Step (b :: r) (Code.firstToken b r).1 (Code.firstToken b r).2 := by
  obtain ⟨-, -, -, hline, hname, hdouble, hsingle, hdigit, hpoint⟩ := class_of_operator hb
  -- each operator is a punctuator by itself, so there is one that begins here
  obtain ⟨⟨m, rest⟩, hpunct⟩ : ∃ s, Code.punct? (b :: r) = some s := by
    have hall : operators.all (fun b =>
        Code.punctuators.any fun p => Bytes.ofString p.1 = [b]) = true := by
      simp only [Bytes.ofString_eq, operators_eq]
      decide
    obtain ⟨p, hp, hbytes⟩ := List.any_eq_true.1
      (List.all_eq_true.1 hall b (List.contains_iff_mem.1 hb))
    refine Option.isSome_iff_exists.1 (List.findSome?_isSome_iff.2 ⟨p, hp, ?_⟩)
    have htaken : Code.taken? (b :: r) p = some (p.2, r) :=
      Code.taken?_eq_some_iff.2 ⟨rfl, by rw [of_decide_eq_true hbytes]; rfl⟩
    exact Option.isSome_iff_exists.2 ⟨_, htaken⟩
  have hfirst : Code.firstToken b r = (.punct m, rest) := by
    simp [Code.firstToken, hline, hname, hdouble, hsingle, Code.startsNumber, hdigit, hpoint,
      hpunct]
  obtain ⟨⟨q, m'⟩, hmem, htaken⟩ := List.exists_of_findSome?_eq_some hpunct
  obtain ⟨rfl, htext⟩ : m' = m ∧ b :: r = Bytes.ofString q ++ rest :=
    Code.taken?_eq_some_iff.1 htaken
  have hallowed : ∀ c ∈ Bytes.ofString q, isAllowed c = true := by
    intro c hc
    have hmem : c ∈ b :: r := htext ▸ List.mem_append_left rest hc
    rcases List.mem_cons.1 hmem with rfl | hc
    · rw [isAllowed, hb, Bool.or_true]
    · exact hr c hc
  have hhead : ∀ c ∈ (Bytes.ofString q).head?, operators.contains c = true := by
    intro c hc
    obtain ⟨l, hl⟩ := List.head?_eq_some_iff.1 hc
    rw [hl] at htext
    exact (List.cons.inj htext).1 ▸ hb
  rw [hfirst]
  rcases Code.punctuator_cases hmem hallowed hhead with ⟨rfl, hops⟩ | hbracket | hbracket
  · rw [htext] at hpunct ⊢
    have hparts : Token.parts (.punct q) = solid ((Bytes.ofString q).map .byte) := by
      refine (List.filter_eq_self.2 fun p hp => ?_).symm
      obtain ⟨c, hc, rfl⟩ := List.mem_map.1 hp
      rw [Piece.isSpace, isBlank_of_operator (hops c hc)]
      rfl
    have hapart : ∀ (x : Bytes) (p : List Piece), isApart (x.map .byte ++ p) = isApart p := by
      intro x p
      induction x with
      | nil => rfl
      | cons c x ih => exact ih
    exact .of_append (Code.ofString_ne_nil hmem).1 (pieces_operators hops rest) hparts
      (Code.hasDigraph_punctuator hmem hpunct) (by rw [hapart]; simp)
  · cases hbracket
    have hbytes : Bytes.ofString "<:" = [byte '<', byte ':'] ∧ Bytes.ofString "[" = [byte '['] := by
      rw [Bytes.ofString_eq, Bytes.ofString_eq]
      exact ⟨rfl, rfl⟩
    rw [htext, hbytes.1]
    exact step_bracket (by rw [operators_eq]; rfl) hbytes.2 (by decide)
      (fun s => rfl) rest
  · cases hbracket
    have hbytes : Bytes.ofString ":>" = [byte ':', byte '>'] ∧ Bytes.ofString "]" = [byte ']'] := by
      rw [Bytes.ofString_eq, Bytes.ofString_eq]
      exact ⟨rfl, rfl⟩
    rw [htext, hbytes.1]
    exact step_bracket (by rw [operators_eq]; rfl) hbytes.2 (by decide)
      (fun s => rfl) rest

theorem class_of_inner {b : UInt8} (ha : isAllowed b = true) (hb : Code.isInner b = true) :
    isWordStart b = false ∧ isMantissa b = false ∧ isBlank b = true ∧ Code.isNeutral b = true := by
  have hnull : isAllowed 0 = false := by
    rw [isAllowed_eq]
    rfl
  have hne : b ≠ 0 := fun h => by simp [← h, ha] at hnull
  have hcases : b = 32 ∨ b = 9 ∨ b = 11 ∨ b = 12 ∨ b = 13 := by
    simpa [Code.isInner, hne, or_assoc] using hb
  rcases hcases with rfl | rfl | rfl | rfl | rfl <;> decide

/-- The first token of a text that does not begin with a blank inside a line. -/
theorem step_firstToken {b : UInt8} {r : Bytes} (ha : ∀ c ∈ b :: r, isAllowed c = true)
    (hb : Code.isInner b = false) :
    Step (b :: r) (Code.firstToken b r).1 (Code.firstToken b r).2 := by
  obtain ⟨hallowed, hr⟩ := List.forall_mem_cons.1 ha
  have hclass : b = byte '\n' ∨ isWordStart b = true ∨ isMantissa b = true ∨
      operators.contains b = true := by grind [Code.isInner]
  rcases hclass with rfl | hword | hmantissa | hoperator
  · exact step_newline r
  · exact step_word hword hr
  · exact step_literal hmantissa r
  · exact step_operator hoperator hr

theorem Step.matches_iff (h : Step t token rest)
    (ih : rest <:+ t → rest.length < t.length → (Matches ts (pieces rest) ↔ IsPlain rest)) :
    Matches (token :: ts) (pieces t) ↔ IsPlain t := by
  cases h with
  | same p hpieces hparts hrest hlength hplain =>
    rw [hpieces, matches_cons_iff hparts, ih hrest hlength, hplain]
  | other hplain hmatches => exact iff_of_false (hmatches ts) hplain

/-- **All tokens are the parts of the text** exactly when the text is plain. -/
theorem matches_iff {n : Nat} (ht : t.length ≤ n) (ha : ∀ b ∈ t, isAllowed b = true)
    (spaced : Bool) :
    Matches ((Code.lexemesUpTo spaced n t).map Code.Lexeme.token) (pieces t) ↔ IsPlain t := by
  have hnil : Matches [] (pieces []) ↔ IsPlain [] :=
    iff_of_true ⟨by simp [solid], by simp⟩ ⟨rfl, by simp [isApart]⟩
  induction n generalizing t spaced with
  | zero =>
    rw [List.length_eq_zero_iff.1 (Nat.le_zero.1 ht)]
    exact hnil
  | succ n ih =>
    cases t with
    | nil => exact hnil
    | cons b r =>
      have hr := (List.forall_mem_cons.1 ha).2
      rw [Code.lexemesUpTo]
      split
      · next hinner =>
        obtain ⟨hw, hm, hblank, hneutral⟩ := class_of_inner (ha b List.mem_cons_self) hinner
        have hsolid : solid (.byte b :: pieces r) = solid (pieces r) := by
          simp [solid, Piece.isSpace, hblank]
        have hpieces : pieces (b :: r) = .byte b :: pieces r := pieces_byte hw hm r
        have hbrackets : Code.hasDigraph (b :: r) = Code.hasDigraph r :=
          Code.hasDigraph_cons hneutral r
        refine Iff.trans ?_ ((ih (Nat.le_of_succ_le_succ ht) hr true).trans ?_)
        · rw [hpieces]
          exact ⟨fun h => ⟨h.parts.trans hsolid, h.doubles⟩,
            fun h => ⟨h.parts.trans hsolid.symm, h.doubles⟩⟩
        · exact ⟨fun h => ⟨hbrackets.trans h.brackets, by rw [hpieces]; exact h.literals⟩,
            fun h => ⟨hbrackets.symm.trans h.brackets,
              by simpa [hpieces, isApart] using h.literals⟩⟩
      · next hinner =>
        have hstep := step_firstToken ha (by simpa using hinner)
        refine hstep.matches_iff fun hrest hlength => ?_
        exact ih (by simp at ht hlength; omega) (fun c hc => ha c (hrest.subset hc)) false

/-! ## Ends of lines -/

/-- Bytes that are no part of a literal. -/
def isOutside (b : UInt8) : Bool := !isLiteralByte b

section Lines

variable {b c : UInt8} {bs r s t : Bytes}

theorem spanLiteral_of_outside (h : isOutside b = true) (r : Bytes) :
    spanLiteral (b :: r) = ([], b :: r) := by
  simp only [isOutside, isLiteralByte, Bool.not_eq_true', Bool.or_eq_false_iff] at h
  cases r <;> simp [spanLiteral, h]

/-- **A literal ends** in front of each byte that is no part of one. -/
theorem spanLiteral_append_of_outside (hc : isOutside c = true) (bs s : Bytes) :
    spanLiteral ((spanLiteral bs).1 ++ c :: s) = ((spanLiteral bs).1, c :: s) := by
  fun_induction spanLiteral bs with
  | case1 | case3 | case7 => exact spanLiteral_of_outside hc s
  | case2 a ha =>
    rw [List.cons_append, List.nil_append, spanLiteral_cons ha, spanLiteral_of_outside hc]
  | case4 a d t ha p ih => rw [List.cons_append, spanLiteral_cons ha, ih]
  | case5 a d t ha he hd p ih =>
    simp only [List.cons_append, spanLiteral, ha, he, hd, if_true, Bool.false_eq_true, if_false]
    rw [ih]
  | case6 a d t ha he hd p ih =>
    -- the next byte is the one that was there, or the one that is appended; neither is a sign
    have hnext : ∃ x y, p.1 ++ c :: s = x :: y ∧ isSign x = false := by
      cases hp : p.1 with
      | nil =>
        simp only [isOutside, isLiteralByte, Bool.not_eq_true', Bool.or_eq_false_iff] at hc
        exact ⟨c, s, rfl, hc.2⟩
      | cons x l =>
        have happend : p.1 ++ p.2 = d :: t := spanLiteral_append (d :: t)
        rw [hp, List.cons_append] at happend
        exact ⟨x, l ++ c :: s, rfl, by rw [(List.cons.inj happend).1]; simpa using hd⟩
    obtain ⟨x, y, hxy, hx⟩ := hnext
    have hspan : spanLiteral (x :: y) = (p.1, c :: s) := by rw [← hxy]; exact ih
    rw [List.cons_append, hxy]
    simp only [spanLiteral, ha, he, hx, if_true, Bool.false_eq_true, if_false, hspan]

/-- Bytes that do not end lines. -/
@[grind] def isMiddle (b : UInt8) : Bool := b ≠ byte '\r' && b ≠ byte '\n'

theorem lineEndsFrom_cons (h : isMiddle b = true) (returned : Bool) (r : Bytes) :
    Code.lineEndsFrom returned (b :: r) = b :: Code.lineEndsFrom false r := by
  simp only [isMiddle, Bool.and_eq_true, decide_eq_true_eq] at h
  simp [Code.lineEndsFrom, h]

theorem lineEndsFrom_append_of_middle (h : ∀ c ∈ s, isMiddle c = true) (r : Bytes) :
    Code.lineEndsFrom false (s ++ r) = s ++ Code.lineEndsFrom false r := by
  induction s with
  | nil => rfl
  | cons c s ih =>
    rw [List.cons_append, lineEndsFrom_cons (h c List.mem_cons_self),
      ih fun d hd => h d (List.mem_cons_of_mem c hd)]
    rfl

theorem mem_lineEndsFrom {returned : Bool} (h : b ∈ Code.lineEndsFrom returned t) :
    b = byte '\n' ∨ b ∈ t := by
  fun_induction Code.lineEndsFrom returned t <;> grind

theorem lineEndsFrom_return (returned : Bool) (r : Bytes) :
    Code.lineEndsFrom returned (byte '\r' :: r) = byte '\n' :: Code.lineEndsFrom true r := by
  simp [Code.lineEndsFrom]

/-- A text begins with the same byte when its lines end in another way, unless it begins with the
end of a line. -/
theorem head?_lineEnds (r : Bytes) :
    ∀ b ∈ (Code.lineEndsFrom false r).head?, b = byte '\n' ∨ b ∈ r.head? := by
  cases r with
  | nil => simp [Code.lineEndsFrom]
  | cons a r =>
    rw [Code.lineEndsFrom]
    split <;> simp

/-- A literal ends where it did when lines end in another way. -/
theorem spanLiteral_lineEnds (bs : Bytes) :
    spanLiteral ((spanLiteral bs).1 ++ Code.lineEndsFrom false (spanLiteral bs).2) =
      ((spanLiteral bs).1, Code.lineEndsFrom false (spanLiteral bs).2) := by
  cases hr : (spanLiteral bs).2 with
  | nil =>
    have happend := spanLiteral_append bs
    rw [hr, List.append_nil] at happend
    rw [Code.lineEndsFrom, List.append_nil, happend]
    exact Prod.ext happend hr
  | cons c r =>
    by_cases hc : c = byte '\r'
    · rw [hc, lineEndsFrom_return]
      exact spanLiteral_append_of_outside rfl bs _
    · have hlines : Code.lineEndsFrom false (c :: r) = c :: Code.lineEndsFrom false r := by
        simp [Code.lineEndsFrom, hc]
      rw [hlines]
      refine spanLiteral_congr ⟨by rw [hr]; rfl, ?_⟩
      rw [hr]
      cases r with
      | nil => simp [Code.lineEndsFrom]
      | cons d r =>
        have hne : Code.lineEndsFrom false (d :: r) ≠ [] := by
          rw [Code.lineEndsFrom]
          split <;> simp
        simp [hne]

/-- The first part is the same when lines end in another way. -/
theorem firstPiece_lineEnds (b : UInt8) (r : Bytes) :
    firstPiece b (Code.lineEndsFrom false r) =
      ((firstPiece b r).1, Code.lineEndsFrom false (firstPiece b r).2) := by
  have hword : ∀ c, isWordPart c = true → isMiddle c = true := by grind
  have hliteral : ∀ c, isLiteralByte c = true → isMiddle c = true := by grind
  simp only [firstPiece]
  split
  · have hrun : ∀ c ∈ r.takeWhile isWordPart, isWordPart c = true :=
      List.all_eq_true.1 List.all_takeWhile
    have hstop : ∀ c ∈ (Code.lineEndsFrom false (r.dropWhile isWordPart)).head?,
        isWordPart c = false := fun c hc => by
      rcases head?_lineEnds _ c hc with rfl | hc
      · rfl
      · exact head?_dropWhile isWordPart r c hc
    have hlines : Code.lineEndsFrom false r =
        r.takeWhile isWordPart ++ Code.lineEndsFrom false (r.dropWhile isWordPart) := by
      rw [← lineEndsFrom_append_of_middle fun c hc => hword c (hrun c hc),
        List.takeWhile_append_dropWhile]
    rw [hlines, takeWhile_append_of_head hrun hstop, dropWhile_append_of_head hrun hstop]
  · split
    · next hm =>
      have hl : ∀ c ∈ (spanLiteral r).1, isMiddle c = true := fun c hc =>
        hliteral c (isLiteralByte_of_mem_spanLiteral r c hc)
      have hlines : Code.lineEndsFrom false r =
          (spanLiteral r).1 ++ Code.lineEndsFrom false (spanLiteral r).2 := by
        rw [← lineEndsFrom_append_of_middle hl, spanLiteral_append]
      rw [spanLiteral_cons hm, spanLiteral_cons hm, hlines, spanLiteral_lineEnds]
    · rfl

theorem solid_cons (p : Piece) (q : List Piece) : solid (p :: q) = solid [p] ++ solid q :=
  solid_append [p] q

theorem firstPiece_of_end (h : isMiddle b = false) (r : Bytes) : firstPiece b r = (.byte b, r) := by
  have hclass : isWordStart b = false ∧ isMantissa b = false := by grind
  simp [firstPiece, hclass]

/-- The end of a line is a blank, however it is written. -/
theorem solid_end (h : isMiddle b = false) (r : Bytes) :
    solid (pieces (b :: r)) = solid (pieces r) := by
  have hblank : isBlank b = true := by grind
  rw [pieces_cons, firstPiece_of_end h]
  simp [solid, Piece.isSpace, hblank]

/-- **How lines end does not matter** to the parts that are no blanks. -/
theorem solid_pieces_lineEndsFrom (returned : Bool) (t : Bytes) :
    solid (pieces (Code.lineEndsFrom returned t)) = solid (pieces t) := by
  fun_induction pieces t generalizing returned with
  | case1 => simp [Code.lineEndsFrom]
  | case2 b r ih =>
    cases hb : isMiddle b with
    | true =>
      rw [lineEndsFrom_cons hb, pieces_cons, firstPiece_lineEnds b, solid_cons, ih, ← solid_cons]
    | false =>
      rw [firstPiece_of_end hb] at ih
      rw [← pieces_cons, solid_end hb]
      simp only [isMiddle, ne_eq, Bool.and_eq_false_iff, decide_eq_false_iff_not, not_not] at hb
      rcases hb with rfl | rfl
      · rw [lineEndsFrom_return, solid_end rfl, ih]
      · have hreturn : byte '\n' ≠ byte '\r' := by decide
        rw [Code.lineEndsFrom, if_neg hreturn]
        split
        · exact ih false
        · rw [solid_end rfl, ih]

end Lines

/-! ## What a compiler should find -/

/-- **What a compiler finds is what was checked**: nothing of the text is replaced or left out; the
tokens are the parts that the check has gone through, with literals as floating constants and
without blanks; each literal is a constant of type double; and there are no brackets and marks of
directives. -/
structure ReadAs (e : Bytes) (ts : List Code.Token) : Prop where
  whole : Code.comments? .text (Code.prepared true (constants e)) =
    some (Code.lineEnds (constants e))
  parts : ts.flatMap Code.Token.parts = solid ((pieces e).map Piece.floating)
  doubles : ∀ l, .number l ∈ ts → Code.isDouble l = true
  brackets : ∀ m ∈ ["[", "]", "\x7b", "\x7d", "#", "##"], .punct m ∉ ts

/-- Whether a compiler reads an expression as it is checked. -/
def IsReadAsChecked (e : Bytes) : Prop :=
  ∃ ts, Code.tokens? (constants e) = some ts ∧ ReadAs e ts

/-- **An expression that is read as it is checked**, by its text alone. -/
structure IsClear (e : Bytes) : Prop where
  unmarked : Code.IsUnmarked (Code.lineEnds (constants e))
  plain : IsPlain (Code.lineEnds (constants e))

theorem checkExpression_of_check {k : Kernel} (h : k.check = .ok ()) :
    checkExpression k.params k.expression = .ok () := by
  rw [check] at h
  cases hp : checkParams [] k.params with
  | error e => rw [hp] at h; cases h
  | ok u => rw [hp] at h; exact h

/-- Lines of accepted expressions hold allowed bytes. -/
theorem isAllowed_lineEnds {k : Kernel} (h : k.check = .ok ()) :
    ∀ b ∈ Code.lineEnds (constants k.expression), isAllowed b = true := by
  have hcheck := checkExpression_of_check h
  rw [← checkExpression_constants] at hcheck
  intro b hb
  rcases mem_lineEndsFrom hb with rfl | hb
  · rfl
  · exact isAllowed_of_check hcheck b hb

/-- A byte among the parts is a byte of the text. -/
theorem byte_mem_solid {t : Bytes} {b : UInt8} (h : .byte b ∈ solid (pieces t)) : b ∈ t := by
  rw [← flatMap_text_pieces t]
  exact List.mem_flatMap.2 ⟨.byte b, List.mem_of_mem_filter h, List.mem_singleton.2 rfl⟩

/-- **When a compiler reads what was checked.** An accepted expression, with its literals as
floating constants, is read as it was checked exactly when its text holds no group of three
characters and no beginning of a comment, no brackets that are written as two operators, and only
literals that are constants of type double without a word directly behind them. -/
theorem isReadAsChecked_iff {k : Kernel} (hk : k.check = .ok ()) :
    IsReadAsChecked k.expression ↔ IsClear k.expression := by
  have hallowed := isAllowed_lineEnds hk
  have hparts : solid (pieces (Code.lineEnds (constants k.expression))) =
      solid ((pieces k.expression).map Piece.floating) := by
    rw [Code.lineEnds, solid_pieces_lineEndsFrom, pieces_constants]
  have hnot : ∀ {b}, isAllowed b = false → b ∉ Code.lineEnds (constants k.expression) := by
    intro b hb hmem
    rw [hallowed b hmem] at hb
    cases hb
  have hwhole := Code.comments?_prepared_iff (t := constants k.expression)
    ⟨hnot (by rw [isAllowed_eq]; rfl), hnot (by rw [isAllowed_eq]; rfl)⟩
    (hnot (by rw [isAllowed_eq]; rfl))
  have hmatches := matches_iff (Nat.le_refl _) hallowed false
  have htokens : Code.IsUnmarked (Code.lineEnds (constants k.expression)) →
      Code.tokens? (constants k.expression) =
        some ((Code.lexemesUpTo false (Code.lineEnds (constants k.expression)).length
          (Code.lineEnds (constants k.expression))).map Code.Lexeme.token) := by
    intro h
    rw [Code.tokens?, Code.lexemes?, hwhole.2 h]
    rfl
  constructor
  · rintro ⟨ts, hts, hread⟩
    have hunmarked := hwhole.1 hread.whole
    rw [htokens hunmarked, Option.some_inj] at hts
    subst hts
    exact ⟨hunmarked, hmatches.1 ⟨hread.parts.trans hparts.symm, hread.doubles⟩⟩
  · rintro ⟨hunmarked, hplain⟩
    obtain ⟨htext, hdoubles⟩ := hmatches.2 hplain
    refine ⟨_, htokens hunmarked, hwhole.2 hunmarked, htext.trans hparts, hdoubles,
      fun m hm hmem => ?_⟩
    -- a bracket would be a part of the text
    have hbytes : ["[", "]", "\x7b", "\x7d", "#", "##"].all (fun m =>
        (Bytes.ofString m).any fun b => !isAllowed b) = true := by
      simp only [Bytes.ofString_eq, isAllowed_eq]
      decide
    obtain ⟨b, hb, hbad⟩ := List.any_eq_true.1 (List.all_eq_true.1 hbytes m hm)
    have hpart : .byte b ∈ solid (pieces (Code.lineEnds (constants k.expression))) := by
      rw [← htext]
      exact List.mem_flatMap.2 ⟨_, hmem, List.mem_map_of_mem hb⟩
    exact hnot (by simpa using hbad) (byte_mem_solid hpart)

instance (t : Bytes) : Decidable (IsPlain t) :=
  decidable_of_iff (Code.hasDigraph t = false ∧ isApart (pieces t) = true)
    ⟨fun h => ⟨h.1, h.2⟩, fun h => ⟨h.brackets, h.literals⟩⟩

instance (e : Bytes) : Decidable (IsClear e) :=
  decidable_of_iff (Code.IsUnmarked (Code.lineEnds (constants e)) ∧
      IsPlain (Code.lineEnds (constants e)))
    ⟨fun h => ⟨h.1, h.2⟩, fun h => ⟨h.unmarked, h.plain⟩⟩

/-- A kernel of the operands `x`, `y` and `f`. -/
def threefold (e : String) : Kernel := ⟨[107], [[120], [121], [102]], Bytes.ofString e⟩

/-- Expressions with a comment, with brackets and an operator that are written in another way, and
with a constant of a narrower type. -/
def misread : List String :=
  ["x /* y */ + 1", "x //\n", "(&x)<:(1<0):>", "(x<y) ??! (x>y)", "x * 0.1f"]

theorem not_readAsChecked_of_misread :
    (∀ e ∈ misread, (threefold e).check.toBool = true ∧
        ¬ IsReadAsChecked (threefold e).expression) ∧
      (threefold "x * 2").check.toBool = true ∧ IsReadAsChecked (threefold "x * 2").expression := by
  have hunclear : misread.all (fun e => (threefold e).check.toBool &&
      !decide (IsClear (threefold e).expression)) = true := by decide +kernel
  have hclear : (threefold "x * 2").check.toBool = true ∧
      IsClear (threefold "x * 2").expression := by decide +kernel
  refine ⟨fun e he => ?_, hclear.1, (isReadAsChecked_iff (check_eq_ok hclear.1)).2 hclear.2⟩
  obtain ⟨hcheck, hnot⟩ := Bool.and_eq_true_iff.1 (List.all_eq_true.1 hunclear e he)
  refine ⟨hcheck, fun h => ?_⟩
  rw [decide_eq_true ((isReadAsChecked_iff (check_eq_ok hcheck)).1 h)] at hnot
  cases hnot

end Kernel

end MemoFlow
