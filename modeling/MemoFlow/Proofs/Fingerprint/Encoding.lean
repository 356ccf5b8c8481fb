import Mathlib.Data.List.Forall2
import MemoFlow.Proofs.Number.Bits
import MemoFlow.Text.Ascii

/-!
# What the bytes of a value tell

The bytes that are mixed for a value can be read back: they say where they end, and they tell two
values apart unless these are alike. A value that cannot be compared by content leaves no
fingerprint, wherever it stands.

* `Stream.word_append_inj`, `Stream.sized_append_inj`, `Stream.words_append_inj`: words, bytes
  behind their number, and words one after the other can be read back;
* `SameNumber`, **`Value.Alike`**: values that are the same but for the sign of zero, for the kinds
  of what is not a number, and for the owner of the storage of tensors;
* `Value.IsSized`, `Value.IsOpaque`: values whose lengths are words, and values without content;
* `Value.Alike.stream_eq`, `Value.alike_of_append`: alike values have the same bytes, and bytes with
  anything behind them are those of alike values only;
* **`Value.stream_unambiguous`**: all of it in one statement.
-/

namespace MemoFlow

/-! ## Parts of streams -/

namespace Stream

/-- The bytes of a string of characters. -/
theorem textBytes_eq (s : String) : textBytes s = s.toUTF8.data.toList := toList_eq_data _

/-- A word is known by its bytes. -/
theorem wordBytes_inj {v w : UInt64} (h : wordBytes v = wordBytes w) : v = w := by
  have hbyte : ∀ i < 8, v.toNat / 2 ^ (8 * i) % 2 ^ 8 = w.toNat / 2 ^ (8 * i) % 2 ^ 8 := by
    intro i hi
    have hshift : (8 * UInt64.ofNat i).toNat % 64 = 8 * i := by
      have h8 : (8 : UInt64).toNat = 8 := rfl
      rw [UInt64.toNat_mul, UInt64.toNat_ofNat_of_lt' (Nat.lt_trans hi (by decide)), h8]
      omega
    have hvw := congrArg UInt8.toNat (List.map_inj_left.1 h i (List.mem_range.2 hi))
    rw [UInt64.toNat_toUInt8, UInt64.toNat_toUInt8, UInt64.toNat_shiftRight,
      UInt64.toNat_shiftRight, hshift, Nat.shiftRight_eq_div_pow, Nat.shiftRight_eq_div_pow] at hvw
    exact hvw
  -- Bit `j` of a word is bit `j % 8` of its byte `j / 8`.
  refine UInt64.toNat_inj.1 (Nat.eq_of_testBit_eq fun j => ?_)
  by_cases hj : j < 64
  · have hbit := congrArg (fun n => n.testBit (j % 8)) (hbyte (j / 8) (by omega))
    simp only [Nat.testBit_mod_two_pow, Nat.testBit_div_two_pow] at hbit
    rw [show j % 8 + 8 * (j / 8) = j by omega] at hbit
    simpa [Nat.mod_lt] using hbit
  · have hlt : ∀ u : UInt64, u.toNat < 2 ^ j := fun u =>
      Nat.lt_of_lt_of_le u.toNat_lt (Nat.pow_le_pow_right (by decide) (Nat.le_of_not_lt hj))
    rw [Nat.testBit_lt_two_pow (hlt v), Nat.testBit_lt_two_pow (hlt w)]

variable {r s : List UInt8}

/-- A word can be read back. -/
theorem word_append_inj {v w : UInt64} (h : wordBytes v ++ r = wordBytes w ++ s) :
    v = w ∧ r = s := by
  obtain ⟨hw, hr⟩ := List.append_inj h rfl
  exact ⟨wordBytes_inj hw, hr⟩

/-- A length can be read back. -/
theorem length_append_inj {m n : Nat} (hm : m < 2 ^ 64) (hn : n < 2 ^ 64)
    (h : wordBytes (UInt64.ofNat m) ++ r = wordBytes (UInt64.ofNat n) ++ s) : m = n ∧ r = s := by
  obtain ⟨hw, hr⟩ := word_append_inj h
  have hmn := congrArg UInt64.toNat hw
  rw [UInt64.toNat_ofNat_of_lt' hm, UInt64.toNat_ofNat_of_lt' hn] at hmn
  exact ⟨hmn, hr⟩

/-- Bytes behind their number can be read back. -/
theorem sized_append_inj {a b : List UInt8} (ha : a.length < 2 ^ 64) (hb : b.length < 2 ^ 64)
    (h : wordBytes (UInt64.ofNat a.length) ++ a ++ r =
      wordBytes (UInt64.ofNat b.length) ++ b ++ s) : a = b ∧ r = s := by
  rw [List.append_assoc, List.append_assoc] at h
  obtain ⟨hlength, hrest⟩ := length_append_inj ha hb h
  exact List.append_inj hrest hlength

/-- Words one after the other can be read back when their number is known. -/
theorem words_append_inj {α : Type} {f : α → UInt64} {xs ys : List α} (hl : xs.length = ys.length)
    (h : xs.flatMap (fun x => wordBytes (f x)) ++ r = ys.flatMap (fun y => wordBytes (f y)) ++ s) :
    List.Forall₂ (fun x y => f x = f y) xs ys ∧ r = s := by
  induction xs generalizing ys with
  | nil =>
    obtain rfl := List.eq_nil_of_length_eq_zero hl.symm
    exact ⟨.nil, h⟩
  | cons x xs ih =>
    cases ys with
    | nil => exact absurd hl (Nat.succ_ne_zero _)
    | cons y ys =>
      rw [List.flatMap_cons, List.flatMap_cons, List.append_assoc, List.append_assoc] at h
      obtain ⟨hxy, hrest⟩ := word_append_inj h
      obtain ⟨hall, hr⟩ := ih (Nat.succ.inj hl) hrest
      exact ⟨.cons hxy hall, hr⟩

theorem append_eq_some {a b : Stream} {x : List UInt8} (h : a ++ b = some x) :
    ∃ y z, a = some y ∧ b = some z ∧ x = y ++ z := by
  cases a with
  | none => exact nomatch h
  | some y =>
    cases b with
    | none => exact nomatch h
    | some z => exact ⟨y, z, rfl, rfl, (Option.some.inj h).symm⟩

theorem append_eq_none_iff {a b : Stream} : a ++ b = none ↔ a = none ∨ b = none := by
  cases a with
  | none => exact iff_of_true rfl (.inl rfl)
  | some y =>
    cases b with
    | none => exact iff_of_true rfl (.inr rfl)
    | some z => exact iff_of_false nofun (by rintro (h | h) <;> exact nomatch h)

end Stream

/-! ## Values -/

/-- **The same number**: equal as numbers, so that both zeros are the same, or both of them are not
numbers. -/
def SameNumber (x y : Float) : Prop := (x == y) = true ∨ x.isNaN = true ∧ y.isNaN = true

theorem SameNumber.refl (x : Float) : SameNumber x x := Binary64.doubleBits_eq_iff.1 rfl

namespace Value

section Shape

variable {σ : Type}

mutual

/-- **Values are alike**: they have the same structure, and the same content but for the sign of
zero, the kinds of what is not a number, and the owner of the storage of tensors. -/
inductive Alike : Value σ → Value σ → Prop where
  | nil : Alike .nil .nil
  | int (n : Int64) : Alike (.int n) (.int n)
  | dbl {x y : Float} (h : SameNumber x y) : Alike (.dbl x) (.dbl y)
  | bool (b : Bool) : Alike (.bool b) (.bool b)
  | str (s : σ) : Alike (.str s) (.str s)
  | list {vs ws : List (Value σ)} (h : AreAlike vs ws) : Alike (.list vs) (.list ws)
  | tensor {a b : Tensor Double} (hd : a.dtype = b.dtype) (hs : a.shape = b.shape)
    (hp : List.Forall₂ (fun x y : Double => SameNumber x.toFloat y.toFloat) a.data.toList
      b.data.toList) : Alike (.tensor (some a)) (.tensor (some b))

/-- Lists of as many values, each alike. -/
inductive AreAlike : List (Value σ) → List (Value σ) → Prop where
  | nil : AreAlike [] []
  | cons {v w : Value σ} {vs ws : List (Value σ)} (h : Alike v w) (hs : AreAlike vs ws) :
    AreAlike (v :: vs) (w :: ws)

end

mutual

/-- The lengths in a value are words. -/
def IsSized [IsText σ] : Value σ → Prop
  | .str s => (Stream.textBytes s).length < 2 ^ 64
  | .list vs => vs.length < 2 ^ 64 ∧ AreSized vs
  | .tensor (some t) => t.shape.length < 2 ^ 64 ∧ t.data.size < 2 ^ 64
  | _ => True

/-- The lengths in all of some values are words. -/
def AreSized [IsText σ] : List (Value σ) → Prop
  | [] => True
  | v :: vs => v.IsSized ∧ AreSized vs

end

mutual

/-- A handle of the evaluator or a missing tensor stands in the value, at any depth. -/
def IsOpaque : Value σ → Prop
  | .handle _ _ | .tensor none => True
  | .list vs => AnyOpaque vs
  | _ => False

/-- A handle of the evaluator or a missing tensor stands in one of some values. -/
def AnyOpaque : List (Value σ) → Prop
  | [] => False
  | v :: vs => v.IsOpaque ∨ AnyOpaque vs

end

end Shape

/-! ## What the bytes tell -/

variable {σ : Type} [IsText σ]

mutual

/-- **A value has bytes** unless something without content stands in it. -/
theorem stream_eq_none_iff : (v : Value σ) → (Stream.value v = none ↔ v.IsOpaque)
  | .nil | .int _ | .dbl _ | .bool _ | .tensor (some _) => iff_of_false nofun id
  | .str _ => iff_of_false nofun id
  | .tensor none | .handle _ _ => iff_of_true rfl trivial
  | .list vs => by
    rw [Stream.value, Stream.append_eq_none_iff, IsOpaque, streams_eq_none_iff vs]
    exact or_iff_right nofun

theorem streams_eq_none_iff : (vs : List (Value σ)) → (Stream.values vs = none ↔ AnyOpaque vs)
  | [] => iff_of_false nofun id
  | v :: vs => by
    rw [Stream.values, Stream.append_eq_none_iff, AnyOpaque, stream_eq_none_iff v,
      streams_eq_none_iff vs]

end

omit [IsText σ] in
theorem AreAlike.length_eq : {vs ws : List (Value σ)} → AreAlike vs ws → vs.length = ws.length
  | _, _, .nil => rfl
  | _, _, .cons _ h => congrArg (· + 1) h.length_eq

theorem flatMap_congr_of_forall₂ {α β : Type} {f : α → List β} {xs ys : List α}
    (h : List.Forall₂ (fun x y => f x = f y) xs ys) : xs.flatMap f = ys.flatMap f := by
  induction h with
  | nil => rfl
  | cons hxy _ ih => rw [List.flatMap_cons, List.flatMap_cons, hxy, ih]

mutual

/-- **Alike values have the same bytes.** -/
theorem Alike.stream_eq : {v w : Value σ} → v.Alike w → Stream.value v = Stream.value w
  | _, _, .nil | _, _, .int _ | _, _, .bool _ | _, _, .str _ => rfl
  | _, _, .dbl h => by
    rw [Stream.value, Stream.value, Binary64.doubleBits_eq_iff.2 h]
  | _, _, .list h => by
    rw [Stream.value, Stream.value, h.length_eq, h.streams_eq]
  | _, _, @Alike.tensor _ a b hd hs hp => by
    have hsize := hp.length_eq
    have hdata := flatMap_congr_of_forall₂ (f := fun x : Double =>
      Stream.wordBytes (Stream.doubleBits x.toFloat))
      (hp.imp fun _ _ h => congrArg Stream.wordBytes (Binary64.doubleBits_eq_iff.2 h))
    rw [Array.length_toList, Array.length_toList] at hsize
    rw [Stream.value, Stream.value, Stream.tensor, Stream.tensor, hd, hs, hsize, hdata]

theorem AreAlike.streams_eq : {vs ws : List (Value σ)} → AreAlike vs ws →
    Stream.values vs = Stream.values ws
  | _, _, .nil => rfl
  | _, _, .cons h hs => by rw [Stream.values, Stream.values, h.stream_eq, hs.streams_eq]

end

/-- The byte of the kind of a value. -/
def kindByte : Value σ → UInt8
  | .nil => 0x01
  | .int _ => 0x02
  | .dbl _ => 0x03
  | .bool _ => 0x04
  | .str _ => 0x05
  | .list _ => 0x06
  | .tensor _ => 0x07
  | .handle _ _ => 0x00

/-- The bytes of a value begin with that of its kind. -/
theorem stream_eq_cons {v : Value σ} {a : List UInt8} (h : Stream.value v = some a) :
    ∃ b, a = v.kindByte :: b := by
  cases v with
  | str s =>
    obtain ⟨y, z, hy, -, rfl⟩ := Stream.append_eq_some h
    obtain rfl := Option.some.inj hy
    exact ⟨_, rfl⟩
  | list vs =>
    obtain ⟨y, z, hy, -, rfl⟩ := Stream.append_eq_some h
    obtain rfl := Option.some.inj hy
    exact ⟨_, rfl⟩
  | tensor t =>
    cases t with
    | none => exact nomatch h
    | some t =>
      obtain rfl := Option.some.inj h
      exact ⟨_, rfl⟩
  | handle => exact nomatch h
  | _ =>
    obtain rfl := Option.some.inj h
    exact ⟨_, rfl⟩

theorem alike_tensor_of_append {a b : Tensor Double} {x y r s : List UInt8}
    (hx : Stream.tensor a = some x) (hy : Stream.tensor b = some y)
    (ha : (Value.tensor (some a) : Value σ).IsSized)
    (hb : (Value.tensor (some b) : Value σ).IsSized)
    (h : x ++ r = y ++ s) : Alike (.tensor (some a) : Value σ) (.tensor (some b)) ∧ r = s := by
  obtain rfl := Option.some.inj hx
  obtain rfl := Option.some.inj hy
  simp only [List.append_assoc, List.cons_append, List.nil_append, List.cons.injEq, true_and] at h
  obtain ⟨hd, h⟩ := h
  obtain ⟨hrank, h⟩ := Stream.length_append_inj ha.1 hb.1 h
  obtain ⟨hshape, h⟩ := Stream.words_append_inj (f := id) hrank h
  obtain ⟨hsize, h⟩ := Stream.length_append_inj ha.2 hb.2 h
  obtain ⟨hdata, hr⟩ := Stream.words_append_inj (f := fun x : Double =>
    Stream.doubleBits x.toFloat) hsize h
  have hdtype : a.dtype = b.dtype := by
    revert hd
    cases a.dtype <;> cases b.dtype <;> decide
  change List.Forall₂ (fun d e : UInt64 => d = e) a.shape b.shape at hshape
  rw [List.forall₂_eq_eq_eq] at hshape
  exact ⟨.tensor hdtype hshape (hdata.imp fun _ _ => Binary64.doubleBits_eq_iff.1), hr⟩

/-- The first byte of two values tells whether they are of one kind. -/
theorem kindByte_eq {v w : Value σ} {a b r s : List UInt8} (ha : Stream.value v = some a)
    (hb : Stream.value w = some b) (h : a ++ r = b ++ s) : v.kindByte = w.kindByte := by
  obtain ⟨a', rfl⟩ := stream_eq_cons ha
  obtain ⟨b', rfl⟩ := stream_eq_cons hb
  exact (List.cons.inj h).1

mutual

/-- **Bytes of a value with anything behind them** are those of alike values only, and they say
where they end. -/
theorem alike_of_append : (v w : Value σ) → (a b r s : List UInt8) → Stream.value v = some a →
    Stream.value w = some b → v.IsSized → w.IsSized → a ++ r = b ++ s → v.Alike w ∧ r = s
  | .nil, w, a, b, r, s, ha, hb, _, _, h => by
    have hkind := kindByte_eq ha hb h
    cases w with
    | nil =>
      obtain rfl := Option.some.inj (ha.symm.trans hb)
      exact ⟨.nil, List.append_cancel_left h⟩
    | _ => simp [kindByte] at hkind
  | .int m, w, a, b, r, s, ha, hb, _, _, h => by
    have hkind := kindByte_eq ha hb h
    cases w with
    | int n =>
      obtain rfl := Option.some.inj ha
      obtain rfl := Option.some.inj hb
      obtain ⟨hmn, hr⟩ := Stream.word_append_inj (List.cons.inj h).2
      have hmn : m = n := congrArg Int64.ofUInt64 hmn
      exact ⟨hmn ▸ .int m, hr⟩
    | _ => simp [kindByte] at hkind
  | .dbl x, w, a, b, r, s, ha, hb, _, _, h => by
    have hkind := kindByte_eq ha hb h
    cases w with
    | dbl y =>
      obtain rfl := Option.some.inj ha
      obtain rfl := Option.some.inj hb
      obtain ⟨hxy, hr⟩ := Stream.word_append_inj (List.cons.inj h).2
      exact ⟨.dbl (Binary64.doubleBits_eq_iff.1 hxy), hr⟩
    | _ => simp [kindByte] at hkind
  | .bool c, w, a, b, r, s, ha, hb, _, _, h => by
    have hkind := kindByte_eq ha hb h
    cases w with
    | bool d =>
      obtain rfl := Option.some.inj ha
      obtain rfl := Option.some.inj hb
      obtain ⟨hcd, hr⟩ := List.cons.inj (List.cons.inj h).2
      have hcd : c = d := by
        revert hcd
        cases c <;> cases d <;> decide
      exact ⟨hcd ▸ .bool c, hr⟩
    | _ => simp [kindByte] at hkind
  | .str x, w, a, b, r, s, ha, hb, hv, hw, h => by
    have hkind := kindByte_eq ha hb h
    cases w with
    | str y =>
      obtain rfl := Option.some.inj ha
      obtain rfl := Option.some.inj hb
      obtain ⟨hxy, hr⟩ := Stream.sized_append_inj hv hw (List.cons.inj h).2
      exact ⟨IsText.bytes_inj hxy ▸ .str x, hr⟩
    | _ => simp [kindByte] at hkind
  | .list vs, w, a, b, r, s, ha, hb, hv, hw, h => by
    have hkind := kindByte_eq ha hb h
    cases w with
    | list ws =>
      obtain ⟨x, as, hx, has, rfl⟩ := Stream.append_eq_some ha
      obtain ⟨y, bs, hy, hbs, rfl⟩ := Stream.append_eq_some hb
      obtain rfl := Option.some.inj hx
      obtain rfl := Option.some.inj hy
      rw [List.append_assoc, List.append_assoc] at h
      obtain ⟨hlength, h⟩ := Stream.length_append_inj hv.1 hw.1 (List.cons.inj h).2
      obtain ⟨hall, hr⟩ := alike_of_appends vs ws as bs r s hlength has hbs hv.2 hw.2 h
      exact ⟨.list hall, hr⟩
    | _ => simp [kindByte] at hkind
  | .tensor (some t), w, a, b, r, s, ha, hb, hv, hw, h => by
    have hkind := kindByte_eq ha hb h
    cases w with
    | tensor u =>
      cases u with
      | none => exact nomatch hb
      | some u => exact alike_tensor_of_append ha hb hv hw h
    | _ => simp [kindByte] at hkind
  | .tensor none, _, _, _, _, _, ha, _, _, _, _ => nomatch ha
  | .handle _ _, _, _, _, _, _, ha, _, _, _, _ => nomatch ha

theorem alike_of_appends : (vs ws : List (Value σ)) → (a b r s : List UInt8) →
    vs.length = ws.length → Stream.values vs = some a → Stream.values ws = some b →
    AreSized vs → AreSized ws → a ++ r = b ++ s → AreAlike vs ws ∧ r = s
  | [], [], a, b, r, s, _, ha, hb, _, _, h => by
    obtain rfl := Option.some.inj (ha.symm.trans hb)
    exact ⟨.nil, List.append_cancel_left h⟩
  | v :: vs, w :: ws, a, b, r, s, hl, ha, hb, hv, hw, h => by
    obtain ⟨x, as, hx, has, rfl⟩ := Stream.append_eq_some ha
    obtain ⟨y, bs, hy, hbs, rfl⟩ := Stream.append_eq_some hb
    rw [List.append_assoc, List.append_assoc] at h
    obtain ⟨hvw, h⟩ := alike_of_append v w x y _ _ hx hy hv.1 hw.1 h
    obtain ⟨hall, hr⟩ := alike_of_appends vs ws as bs r s (Nat.succ.inj hl) has hbs hv.2 hw.2 h
    exact ⟨.cons hvw hall, hr⟩

end

/-- A value without content leaves no fingerprint, wherever it stands. -/
theorem uncacheable_of_isOpaque {v : Value σ} (h : v.IsOpaque) (before after : Stream) :
    Fingerprint.ofStream (before ++ Stream.value v ++ after) = .uncacheable := by
  have hnone : before ++ Stream.value v = none :=
    Stream.append_eq_none_iff.2 (.inr ((stream_eq_none_iff v).2 h))
  rw [Stream.append_eq_none_iff.2 (.inl hnone)]
  rfl

/-- **The bytes of values tell them apart.** Values whose lengths are words and in which nothing
stands without content have bytes; these are the same just when the values are alike, and the bytes
of one value are never the beginning of longer bytes of another one. A value in which something
stands without content leaves no fingerprint, whatever is mixed before and after it. -/
theorem stream_unambiguous {σ : Type} [IsText σ] :
    (∀ v w : Value σ, v.IsSized → w.IsSized → ¬ v.IsOpaque → ¬ w.IsOpaque →
      ∃ a b, Stream.value v = some a ∧ Stream.value w = some b ∧ (a = b ↔ v.Alike w) ∧
        (a <+: b → a = b)) ∧
      ∀ v : Value σ, v.IsOpaque → ∀ before after : Stream,
        Fingerprint.ofStream (before ++ Stream.value v ++ after) = .uncacheable := by
  have hsome : ∀ v : Value σ, ¬ v.IsOpaque → ∃ a, Stream.value v = some a := fun v hv =>
    Option.ne_none_iff_exists'.1 fun hn => hv ((stream_eq_none_iff v).1 hn)
  refine ⟨fun v w hv hw hv' hw' => ?_, fun v hv before after => uncacheable_of_isOpaque hv _ _⟩
  obtain ⟨a, ha⟩ := hsome v hv'
  obtain ⟨b, hb⟩ := hsome w hw'
  have hread : ∀ r : List UInt8, a ++ r = b → v.Alike w ∧ r = [] := fun r hr =>
    alike_of_append v w a b r [] ha hb hv hw (hr.trans (List.append_nil b).symm)
  refine ⟨a, b, ha, hb, ⟨fun hab => ?_, fun h => ?_⟩, fun ⟨r, hr⟩ => ?_⟩
  · exact (hread [] ((List.append_nil a).trans hab)).1
  · exact Option.some.inj (ha.symm.trans (h.stream_eq.trans hb))
  · rw [← hr, (hread r hr).2, List.append_nil]

/-- Next to a string whose bytes are no characters, both zeros and all owners of a tensor have the
same bytes, and next to a missing tensor there is no fingerprint. -/
theorem stream_unambiguous_of_zeros :
    let v : Value Bytes := .list [.dbl 0.0, .str [0xff], .tensor (some (.zeros [2] .f64))]
    let w : Value Bytes :=
      .list [.dbl (-0.0), .str [0xff], .tensor (some ((Tensor.zeros [2] .f64).onEngine .blas))]
    (v.IsSized ∧ w.IsSized ∧ ¬ v.IsOpaque ∧ ¬ w.IsOpaque ∧ Stream.value v = Stream.value w) ∧
      (Value.list [v, .tensor none]).IsOpaque ∧
      Fingerprint.ofStream (Stream.text "x" ++ Stream.value (.list [v, .tensor none]) ++
        Stream.value w) = .uncacheable := by
  intro v w
  have htext : (Stream.textBytes ([0xff] : Bytes)).length < 2 ^ 64 := by decide
  have hv : v.IsSized := ⟨by decide, trivial, htext, ⟨by decide, by decide +kernel⟩, trivial⟩
  have hw : w.IsSized := ⟨by decide, trivial, htext, ⟨by decide, by decide +kernel⟩, trivial⟩
  have hv' : ¬ v.IsOpaque := by simp [v, IsOpaque, AnyOpaque]
  have hw' : ¬ w.IsOpaque := by simp [w, IsOpaque, AnyOpaque]
  have hopaque : (Value.list [v, .tensor none]).IsOpaque := .inr (.inl trivial)
  obtain ⟨a, b, ha, hb, hiff, -⟩ := stream_unambiguous.1 v w hv hw hv' hw'
  have halike : v.Alike w := by
    have hpayload : ∀ l : List Double,
        List.Forall₂ (fun x y : Double => SameNumber x.toFloat y.toFloat) l l :=
      fun l => List.forall₂_same.2 fun x _ => .refl _
    have htensor := Alike.tensor (σ := Bytes) (a := .zeros [2] .f64)
      (b := (Tensor.zeros [2] .f64).onEngine .blas) rfl rfl (hpayload _)
    exact .list (.cons (.dbl (.inl (by decide +kernel))) (.cons (.str _) (.cons htensor .nil)))
  refine ⟨⟨hv, hw, hv', hw', ?_⟩, hopaque, stream_unambiguous.2 _ hopaque _ _⟩
  rw [ha, hb, hiff.2 halike]

end Value

end MemoFlow
