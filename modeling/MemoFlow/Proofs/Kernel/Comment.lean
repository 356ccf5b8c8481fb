import MemoFlow.Proofs.Kernel.Identity
import MemoFlow.Proofs.Kernel.Lexing

/-!
# The comment in front of generated code

Generated code begins with a comment that names the kernel. The name is no part of what is checked,
and it is written as it is: it stays inside the comment unless the mark that ends comments shows up
in it, be it only after groups of three characters are replaced and lines are joined.

* `Code.comment?`, `Code.leading?`: where a comment ends, and the comment at the start of a text;
* `Kernel.remark`, `Kernel.codeText`, `Kernel.sourceText_eq`: generated code in three parts;
* **`Kernel.leading_iff`**: when the comment ends where it was written to end, and that all such
  names leave the same code.
-/

namespace MemoFlow

open Ascii

/-! ## Where comments end -/

namespace Code

/-- The mark that ends a comment. -/
def closing : Bytes := [byte '*', byte '/']

/-- What stands in a comment up to its mark, and what follows it. -/
def comment? : Bytes → Option (Bytes × Bytes)
  | a :: b :: r =>
    if a = byte '*' && b = byte '/' then some ([], r)
    else (comment? (b :: r)).map fun p => (a :: p.1, p.2)
  | _ => none

/-- **The comment at the start of a text**, and what follows it. -/
def leading? : Bytes → Option (Bytes × Bytes)
  | a :: b :: r => if a = byte '/' && b = byte '*' then comment? r else none
  | _ => none

theorem comments?_block (bs : Bytes) :
    comments? .block bs = (comment? bs).bind fun p => comments? .text p.2 := by
  fun_induction comment? bs with
  | case1 a b r h => simp [comments?, h]
  | case2 a b r h ih =>
    rw [comments?, if_neg (by simpa using h), ih, Option.bind_map]
    rfl
  | case3 bs h =>
    cases bs with
    | nil => rfl
    | cons a r =>
      cases r with
      | nil => rfl
      | cons b r => exact absurd rfl (h a b r)

/-- A comment is left out of a text that begins with it. -/
theorem comments?_text {bs : Bytes} {p : Bytes × Bytes} (h : leading? bs = some p) :
    comments? .text bs = (comments? .text p.2).map (byte ' ' :: ·) := by
  match bs, h with
  | a :: b :: r, h =>
    rw [leading?] at h
    split at h
    · next hab => rw [comments?, if_pos hab, comments?_block, h, Option.bind_some]
    · cases h

variable {bs m x y : Bytes}

theorem comment?_eq_none_iff : comment? bs = none ↔ ¬ closing <:+: bs := by
  fun_induction comment? bs with
  | case1 a b r h =>
    simp only [Bool.and_eq_true, decide_eq_true_eq] at h
    obtain ⟨rfl, rfl⟩ := h
    exact iff_of_false (Option.some_ne_none _) (not_not.2 ⟨[], r, rfl⟩)
  | case2 a b r h ih =>
    have hstart : ¬ closing <+: a :: b :: r := by
      rintro ⟨t, ht⟩
      simp only [closing, List.cons_append, List.nil_append, List.cons.injEq] at ht
      exact h (by simp [← ht.1, ← ht.2.1])
    rw [Option.map_eq_none_iff, ih, List.infix_cons_iff (a := a), or_iff_right hstart]
  | case3 bs h =>
    refine iff_of_true rfl fun hinfix => ?_
    match bs, h with
    | [], _ => exact absurd hinfix.length_le (by decide)
    | [a], _ => exact absurd hinfix.length_le (Nat.not_succ_le_self 1)
    | a :: b :: r, h => exact h a b r rfl

/-- A comment that ends is not touched by what follows. -/
theorem comment?_append_of_some (h : comment? m = some (x, y)) (r : Bytes) :
    comment? (m ++ r) = some (x, y ++ r) := by
  fun_induction comment? m generalizing x with
  | case1 a b m hab =>
    cases h
    simp [comment?, hab]
  | case2 a b m hab ih =>
    obtain ⟨p, hp, hxy⟩ := Option.map_eq_some_iff.1 h
    cases hxy
    rw [List.cons_append, List.cons_append, comment?, if_neg hab, ← List.cons_append, ih hp]
    rfl
  | case3 => cases h

/-- A text without the mark goes on to be a comment in what follows. -/
theorem comment?_append_of_none (h : comment? m = none) {r : Bytes}
    (hr : ∀ b ∈ r.head?, b ≠ byte '/') :
    comment? (m ++ r) = (comment? r).map fun p => (m ++ p.1, p.2) := by
  fun_induction comment? m with
  | case1 => cases h
  | case2 a b m hab ih =>
    rw [List.cons_append, List.cons_append, comment?, if_neg hab, ← List.cons_append,
      ih (Option.map_eq_none_iff.1 h), Option.map_map]
    rfl
  | case3 m hm =>
    match m, hm with
    | [], _ => simp
    | [a], _ =>
      cases r with
      | nil => rfl
      | cons b r =>
        have hb : b ≠ byte '/' := hr b rfl
        simp [comment?, hb]
    | a :: b :: m, hm => exact absurd rfl (hm a b m)

end Code

/-! ## Texts of types and dimensions -/

theorem Bytes.ofString_append (s t : String) :
    Bytes.ofString (s ++ t) = Bytes.ofString s ++ Bytes.ofString t := by
  simp only [ofString_eq, String.toList_append, List.flatMap_append]

/-- The characters of types and dimensions. -/
def isForm (c : Char) : Bool := c.isAlphanum || c = '(' || c = ')' || c = ',' || c = ' '

/-- A text of such characters. -/
def OfForm (s : String) : Prop := ∀ c ∈ s.toList, isForm c = true

instance (s : String) : Decidable (OfForm s) :=
  decidable_of_iff (s.toList.all isForm = true) List.all_eq_true

theorem OfForm.append {s t : String} (hs : OfForm s) (ht : OfForm t) : OfForm (s ++ t) := by
  intro c hc
  rw [String.toList_append, List.mem_append] at hc
  exact hc.elim (hs c) (ht c)

theorem OfForm.intercalate {s : String} {ts : List String} (hs : OfForm s)
    (ht : ∀ t ∈ ts, OfForm t) : OfForm (s.intercalate ts) := by
  induction ts with
  | nil => exact fun c hc => absurd hc (by simp)
  | cons t ts ih =>
    have hfirst := ht t List.mem_cons_self
    have hrest := ih fun u hu => ht u (List.mem_cons_of_mem _ hu)
    cases ts with
    | nil => simpa using hfirst
    | cons u ts =>
      rw [String.intercalate_cons_cons]
      exact (hfirst.append hs).append hrest

theorem ofForm_toString (n : Nat) : OfForm (toString n) := by
  intro c hc
  rw [Nat.toString_eq_repr, Nat.repr, String.toList_ofList] at hc
  rw [isForm, Char.isAlphanum, Nat.isDigit_of_mem_toDigits (by decide) (by decide) hc]
  simp

theorem ofForm_describe {α : Type} (t : Tensor α) : OfForm t.describe := by
  have hname : OfForm t.dtype.name := by cases t.dtype <;> decide +kernel
  have hdims : ∀ d ∈ t.shape.map fun d => toString d.toNat, OfForm d := by
    intro d hd
    obtain ⟨w, -, rfl⟩ := List.mem_map.1 hd
    exact ofForm_toString _
  have hcomma : OfForm (if t.shape.length = 1 then "," else "") := by split <;> decide +kernel
  have hopen : OfForm "(" := by decide +kernel
  have hclose : OfForm ")" := by decide +kernel
  have hbetween : OfForm ", " := by decide +kernel
  exact hname.append (((hopen.append (hbetween.intercalate hdims)).append hcomma).append hclose)

theorem ofForm_text {α : Type} (n : Nat) (args : List (Tensor α)) :
    OfForm (KernelSignature.ofArgs n args).text := by
  have hcomma : OfForm "," := by decide +kernel
  refine hcomma.intercalate fun d hd => ?_
  obtain ⟨t, -, rfl⟩ := List.mem_map.1 hd
  exact ofForm_describe t

theorem toNat_lt_of_isForm {c : Char} (h : isForm c = true) : c.toNat < 128 := by
  simp only [isForm, Char.isAlphanum, Char.isAlpha, Char.isUpper, Char.isLower, Char.isDigit,
    Bool.or_eq_true, Bool.and_eq_true, decide_eq_true_eq, ge_iff_le, UInt32.le_iff_toNat_le] at h
  rcases h with (((((⟨-, h⟩ | ⟨-, h⟩) | ⟨-, h⟩) | rfl) | rfl) | rfl) | rfl
  · exact Nat.lt_of_le_of_lt h (by decide)
  · exact Nat.lt_of_le_of_lt h (by decide)
  · exact Nat.lt_of_le_of_lt h (by decide)
  all_goals decide

/-- The bytes of such characters are inert and no part of the mark that ends comments. -/
theorem OfForm.bytes {s : String} (h : OfForm s) :
    ∀ b ∈ Bytes.ofString s, Code.isInert b = true ∧ b ≠ byte '*' := by
  have hascii : ∀ n < 128, isForm (Char.ofNat n) = true →
      Code.isInert (UInt8.ofNat n) = true ∧ UInt8.ofNat n ≠ byte '*' := by decide
  intro b hb
  rw [Bytes.ofString_eq, List.mem_flatMap] at hb
  obtain ⟨c, hc, hb⟩ := hb
  have hlt := toNat_lt_of_isForm (h c hc)
  have hsize : c.utf8Size = 1 := Char.utf8Size_eq_one_iff.2 (by
    rw [UInt32.le_iff_toNat_le]
    exact Nat.le_of_lt_succ hlt)
  rw [String.utf8EncodeChar_eq_singleton hsize, List.mem_singleton] at hb
  have hchar := hascii c.toNat hlt (by rw [Char.ofNat_toNat]; exact h c hc)
  rw [hb]
  exact hchar

/-! ## Generated code -/

namespace Kernel

/-- What stands in the comment of generated code when the name is `name`. -/
def remark (name : Bytes) (s : KernelSignature) : Bytes :=
  byte ' ' :: (name ++ byte ' ' :: byte '[' :: (Bytes.ofString s.text ++ [byte ']', byte ' ']))

/-- The generated code behind the comment: what follows it when the kernel has no name. -/
def codeText (k : Kernel) (s : KernelSignature) : Bytes :=
  ({ k with name := [] }.sourceText s).drop (remark [] s).length.succ.succ.succ.succ

/-- **Generated code is a comment with the name, and what does not depend on the name.** -/
theorem sourceText_eq (k : Kernel) (s : KernelSignature) :
    k.sourceText s =
      byte '/' :: byte '*' :: (remark k.name s ++ (Code.closing ++ k.codeText s)) := by
  have hopen : Bytes.ofString "/* " = [byte '/', byte '*', byte ' '] := by
    rw [Bytes.ofString_eq]
    rfl
  have hbracket : Bytes.ofString " [" = [byte ' ', byte '['] := by
    rw [Bytes.ofString_eq]
    rfl
  have hclose : Bytes.ofString "] */\n" = [byte ']', byte ' ', byte '*', byte '/', byte '\n'] := by
    rw [Bytes.ofString_eq]
    rfl
  simp [sourceText, codeText, remark, Code.closing, Bytes.ofString_append, hopen, hbracket, hclose]

/-- The comment of generated code, prepared or not, ends where it was written to end, or in the
name. -/
theorem comment?_remark_iff {s : KernelSignature} (hs : OfForm s.text) (name code : Bytes) :
    Code.comment? (remark name s ++ (Code.closing ++ code)) = some (remark name s, code) ↔
      ¬ Code.closing <:+: name := by
  have hspace : byte ' ' ≠ byte '*' := by decide
  have hname : Code.comment? (byte ' ' :: name) = none ↔ Code.comment? name = none := by
    rw [Code.comment?_eq_none_iff, Code.comment?_eq_none_iff, List.infix_cons_iff, or_iff_right]
    rintro ⟨t, ht⟩
    exact hspace (List.cons.inj ht).1.symm
  -- behind the name the mark stands once, where it was written
  have hform : Code.comment? (byte ' ' :: byte '[' ::
      (Bytes.ofString s.text ++ [byte ']', byte ' '])) = none := by
    rw [Code.comment?_eq_none_iff]
    intro hinfix
    have hstar : byte '*' ∈ Bytes.ofString s.text := by
      have hmem := hinfix.subset List.mem_cons_self
      simpa [show byte '*' ≠ byte '[' by decide, show byte '*' ≠ byte ']' by decide, hspace.symm]
        using hmem
    exact (hs.bytes _ hstar).2 rfl
  have hclosing : Code.comment? (Code.closing ++ code) = some ([], code) := by
    simp [Code.closing, Code.comment?]
  have hstar : byte '*' ≠ byte '/' := by decide
  have hslash : byte ' ' ≠ byte '/' := by decide
  have hrest := Code.comment?_append_of_none hform (r := Code.closing ++ code)
    (by simpa [Code.closing] using hstar)
  rw [hclosing, Option.map_some, List.append_nil] at hrest
  have hremark : remark name s ++ (Code.closing ++ code) =
      (byte ' ' :: name) ++ ((byte ' ' :: byte '[' ::
        (Bytes.ofString s.text ++ [byte ']', byte ' '])) ++ (Code.closing ++ code)) := by
    simp [remark]
  rw [← Code.comment?_eq_none_iff, ← hname, hremark]
  cases h : Code.comment? (byte ' ' :: name) with
  | none =>
    rw [Code.comment?_append_of_none h (by simpa using hslash), hrest]
    simp [remark]
  | some p =>
    rw [Code.comment?_append_of_some h]
    refine iff_of_false (fun heq => ?_) (Option.some_ne_none p)
    have hlength := congrArg (fun q => q.2.length) (Option.some.inj heq)
    simp [Code.closing] at hlength
    omega

theorem prepared_sourceText {s : KernelSignature} (hs : OfForm s.text) (k : Kernel) (three : Bool) :
    Code.prepared three (k.sourceText s) = byte '/' :: byte '*' ::
      (remark (Code.prepared three k.name) s ++
        (Code.closing ++ Code.prepared three (k.codeText s))) := by
  have hopen : ∀ b ∈ [byte '/', byte '*', byte ' '], Code.isInert b = true :=
    List.all_eq_true.1 (by decide)
  have hrest : ∀ b ∈ Bytes.ofString s.text ++ [byte ']', byte ' ', byte '*', byte '/'],
      Code.isInert b = true := by
    have hclose : ∀ b ∈ [byte ']', byte ' ', byte '*', byte '/'], Code.isInert b = true :=
      List.all_eq_true.1 (by decide)
    intro b hb
    exact (List.mem_append.1 hb).elim (fun hb => (hs.bytes b hb).1) (hclose b)
  have hsource : k.sourceText s = [byte '/', byte '*', byte ' '] ++
      (k.name ++ byte ' ' :: byte '[' ::
        ((Bytes.ofString s.text ++ [byte ']', byte ' ', byte '*', byte '/']) ++ k.codeText s)) := by
    simp [sourceText_eq, remark, Code.closing]
  rw [hsource, Code.prepared_append_inert three hopen, Code.prepared_append_bracket,
    Code.prepared_append_inert three hrest]
  simp [remark, Code.closing]

/-- **The name stays in the comment if it does not end it.** For all kernels and operands: the
comment at the start of the generated code is the one that was written, and the code behind it does
not depend on the name, exactly when the mark that ends comments is not in the name; for a compiler
this is the name with its groups of three characters replaced and its lines joined. All names
without the mark leave the same code when comments are left out. -/
theorem leading_iff {α : Type} (k : Kernel) (args : List (Tensor α)) :
    let s := KernelSignature.ofArgs k.params.length args
    (Code.leading? (k.sourceText s) = some (remark k.name s, k.codeText s) ↔
        ¬ Code.closing <:+: k.name) ∧
      ∀ three,
        (Code.leading? (Code.prepared three (k.sourceText s)) =
            some (remark (Code.prepared three k.name) s, Code.prepared three (k.codeText s)) ↔
          ¬ Code.closing <:+: Code.prepared three k.name) ∧
        ∀ name, ¬ Code.closing <:+: Code.prepared three k.name →
          ¬ Code.closing <:+: Code.prepared three name →
          Code.comments? .text (Code.prepared three ({ k with name }.sourceText s)) =
            Code.comments? .text (Code.prepared three (k.sourceText s)) := by
  intro s
  have hs : OfForm s.text := ofForm_text _ args
  have hlead : ∀ r, Code.leading? (byte '/' :: byte '*' :: r) = Code.comment? r := fun r => by
    simp [Code.leading?]
  have hthree : ∀ (k : Kernel) (three : Bool),
      Code.leading? (Code.prepared three (k.sourceText s)) =
        some (remark (Code.prepared three k.name) s, Code.prepared three (k.codeText s)) ↔
        ¬ Code.closing <:+: Code.prepared three k.name := fun k three => by
    rw [prepared_sourceText hs, hlead, comment?_remark_iff hs]
  refine ⟨by rw [sourceText_eq, hlead, comment?_remark_iff hs], fun three => ⟨hthree k three, ?_⟩⟩
  intro name hk hname
  rw [Code.comments?_text ((hthree k three).2 hk),
    Code.comments?_text ((hthree { k with name } three).2 hname)]
  rfl

/-- A kernel that is accepted, and whose name is the mark that ends comments. -/
def marked : Kernel := ⟨Code.closing, [[120]], [120]⟩

theorem leading_of_marked :
    let args : List (Tensor Double) := [.ones [1] .f64]
    let s := KernelSignature.ofArgs marked.params.length args
    (marked.check.toBool = true ∧ s.compilable = true) ∧
      Code.leading? (Code.prepared true (marked.sourceText s)) ≠
        some (remark (Code.prepared true marked.name) s,
          Code.prepared true (marked.codeText s)) ∧
      Code.comments? .text (Code.prepared true ({ marked with name := [107] }.sourceText s)) =
        Code.comments? .text (Code.prepared true ({ marked with name := [42] }.sourceText s)) := by
  intro args s
  refine ⟨⟨by decide +kernel, by decide +kernel⟩, fun h => ?_, ?_⟩
  · exact ((leading_iff marked args).2 true).1.1 h (by decide)
  · exact ((leading_iff { marked with name := [42] } args).2 true).2 [107] (by decide) (by decide)

end Kernel

end MemoFlow
