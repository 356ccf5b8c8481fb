import Mathlib
import MemoFlow.Fingerprint
import MemoFlow.Value

/-!
# Doubles, their bits and integers

Two doubles are equal as numbers when they have one bit pattern or are both zero, and what is not a
number has one bit pattern only. So the bits that are fed to the mixer tell two doubles apart just
when they are different numbers.

An integer of magnitude up to `2 ^ 53` has a double of its own: its leading one and the digits after
it fit into a mantissa. Two such integers are equal as doubles only when they are one integer.

* `Binary64.pack_unpack`, `Binary64.unpack_inj`: a double is known by what its bits stand for;
* `Binary64.beq_unpacked_iff`, `Binary64.beq_iff`: equality of numbers;
* **`Binary64.doubleBits_eq_iff`**: equality of the bits that are mixed;
* `Binary64.unpack_pack`: the bits of a number with a leading one stand for the number;
* `Binary64.unpack_toFloat`: mantissa and exponent of a positive integer;
* **`Value.ofInteger_beq_iff`**: integers that are equal as doubles.
-/

/-! ## Bit patterns of doubles -/

namespace MemoFlow.Binary64

open Float.Model Float.Model.UnpackedFloat

/-! ## What bits stand for -/

/-- The bits of a double are its sign, its exponent and its mantissa. -/
theorem packComponents_parts (b : BitVec Format.binary64.numBits) :
    packComponents Format.binary64 (Sign.ofBitVec (unpackSign b)) (unpackExponent b)
      (unpackMantissa b) = b := by
  have hsign : ∀ s : BitVec 1, (Sign.ofBitVec s).toBitVec = s := by decide
  ext i hi
  rw [packComponents, hsign, unpackSign, unpackExponent, unpackMantissa, BitVec.extractLsb,
    BitVec.extractLsb, BitVec.extractLsb]
  grind

/-- A mantissa with its leading one. -/
theorem toNat_one_append (m : BitVec 52) : (1#1 ++ m).toNat = 2 ^ 52 + m.toNat := by
  rw [BitVec.toNat_append, ← Nat.shiftLeft_add_eq_or_of_lt m.isLt]
  rfl

/-- A mantissa with its leading one has just 53 digits. -/
theorem log2_one_append (m : BitVec 52) : (1#1 ++ m).toNat.log2 = 52 := by
  have hm : m.toNat < 2 ^ 52 := m.isLt
  have hn := toNat_one_append m
  exact (Nat.log2_eq_iff (by omega)).2 ⟨by omega, by omega⟩

theorem log2_lt (m : BitVec 52) : m.toNat.log2 < 52 := by
  by_cases h : m.toNat = 0
  · rw [h]
    decide
  · exact (Nat.log2_lt h).2 m.isLt

/-- **The bits of a double** are those of what they stand for. -/
theorem pack_unpack {b : BitVec Format.binary64.numBits} (h : Format.binary64.Valid b) :
    UnpackedFloat.pack Format.binary64 (UnpackedFloat.unpack Format.binary64 b) = b := by
  have hparts := packComponents_parts b
  have hlt : (unpackExponent b).toNat < 2 ^ 11 := (unpackExponent b).isLt
  have hbits : Format.binary64.mantissaBits = 53 := rfl
  have hbias : Format.binary64.exponentBias = 1023 := rfl
  unfold UnpackedFloat.unpack
  dsimp only
  split
  · next he =>
    split
    · next hm =>
      rw [he, hm] at hparts
      exact hparts
    · next hm => exact (h.eq_packedNaN he hm).symm
  · next he =>
    have he' : (unpackExponent b).toNat ≠ 2 ^ 11 - 1 := fun hn => he (BitVec.eq_of_toNat_eq hn)
    split
    · next hz =>
      split
      · next hm =>
        rw [hz, hm] at hparts
        exact hparts
      -- A mantissa without a leading one is kept as it is.
      · next hm =>
        have hexp : ((unpackExponent b).toNat - ((1023 : Nat) + (52 : Nat)) + 1 + (1023 : Nat) +
            (52 : Nat) : Int).toNat = 1 := by
          rw [hz]
          rfl
        have hlog := log2_lt (unpackMantissa b)
        unfold UnpackedFloat.pack
        dsimp only
        rw [hbias, hexp, if_neg (by decide), if_neg (by omega), BitVec.ofNat_toNat,
          BitVec.setWidth_eq, ← hz]
        exact hparts
    · next hz =>
      have hz' : (unpackExponent b).toNat ≠ 0 := fun hn => hz (BitVec.eq_of_toNat_eq hn)
      have hexp : ((unpackExponent b).toNat - ((1023 : Nat) + (52 : Nat)) + (1023 : Nat) +
          (52 : Nat) : Int).toNat = (unpackExponent b).toNat := by omega
      have hmant : BitVec.ofNat 52 (1#1 ++ unpackMantissa b).toNat = unpackMantissa b := by
        refine BitVec.eq_of_toNat_eq ?_
        have hm : (unpackMantissa b).toNat < 2 ^ 52 := (unpackMantissa b).isLt
        rw [BitVec.toNat_ofNat, toNat_one_append]
        omega
      unfold UnpackedFloat.pack
      dsimp only
      rw [hbias, hexp, if_neg (by omega), if_pos (by rw [log2_one_append, hbits]),
        BitVec.ofNat_toNat, BitVec.setWidth_eq, hmant]
      exact hparts

/-- **A double is known by what its bits stand for.** -/
theorem unpack_inj {a b : Float.Model} (h : a.unpack = b.unpack) : a = b := by
  obtain ⟨x, hx⟩ := a
  obtain ⟨y, hy⟩ := b
  have hxy : x.toBitVec = y.toBitVec := by
    rw [← pack_unpack hx, ← pack_unpack hy]
    exact congrArg _ h
  obtain rfl := UInt64.toBitVec_inj.1 hxy
  rfl

/-! ## Equality of numbers -/

/-- **What is equal as a number** is the same, or it is zero. -/
theorem beq_unpacked_iff {u v : UnpackedFloat} : u.beq v = true ↔
    u.isNaN = false ∧ u = v ∨ ∃ s t, u = .zero s ∧ v = .zero t := by
  unfold UnpackedFloat.beq
  cases u with
  | notANumber => cases v <;> simp [UnpackedFloat.compare, UnpackedFloat.isNaN]
  | infinity s =>
    cases v with
    | infinity t =>
      cases s <;> cases t <;> simp [UnpackedFloat.compare, UnpackedFloat.isNaN, compare]
    | _ => cases s <;> simp [UnpackedFloat.compare, UnpackedFloat.isNaN]
  | zero s =>
    cases v with
    | infinity t | finite t => cases t <;> simp [UnpackedFloat.compare, UnpackedFloat.isNaN]
    | _ => simp [UnpackedFloat.compare, UnpackedFloat.isNaN]
  | finite s =>
    cases v with
    | infinity t | finite t =>
      cases s <;> cases t <;> simp [UnpackedFloat.compare, UnpackedFloat.isNaN, and_comm]
    | _ => cases s <;> simp [UnpackedFloat.compare, UnpackedFloat.isNaN]

/-- Doubles that stand for zero. -/
def IsZero (x : Float) : Prop := ∃ s, x.toModel.unpack = .zero s

/-- **Equality of numbers**: one double, or zero twice. -/
theorem beq_iff {x y : Float} :
    (x == y) = true ↔ x.isNaN = false ∧ x = y ∨ IsZero x ∧ IsZero y := by
  have hxy : x.toModel.unpack = y.toModel.unpack ↔ x = y :=
    ⟨fun h => congrArg Float.ofModel (unpack_inj h), fun h => by rw [h]⟩
  refine beq_unpacked_iff.trans (or_congr (and_congr_right fun _ => hxy) ?_)
  exact ⟨fun ⟨s, t, hs, ht⟩ => ⟨⟨s, hs⟩, t, ht⟩, fun ⟨⟨s, hs⟩, t, ht⟩ => ⟨s, t, hs, ht⟩⟩

theorem isZero_zero : IsZero 0.0 := ⟨.positive, rfl⟩

theorem beq_zero_iff {x : Float} : (x == 0.0) = true ↔ IsZero x := by
  rw [beq_iff]
  constructor
  · rintro (⟨-, rfl⟩ | h)
    · exact isZero_zero
    · exact h.1
  · exact fun h => .inr ⟨h, isZero_zero⟩

/-- What is not a number has one bit pattern. -/
theorem eq_of_isNaN {x : Float} (h : x.isNaN = true) : x = Float.ofBits 0x7ff8000000000000 := by
  have hx : x.toModel.unpack = .notANumber := by
    change x.toModel.unpack.isNaN = true at h
    cases hu : x.toModel.unpack with
    | notANumber => rfl
    | _ =>
      rw [hu] at h
      exact absurd h Bool.false_ne_true
  exact congrArg Float.ofModel (unpack_inj (hx.trans (by rfl)))

theorem eq_of_toBits {x y : Float} (h : x.toBits = y.toBits) : x = y := by
  obtain ⟨⟨a, ha⟩⟩ := x
  obtain ⟨⟨b, hb⟩⟩ := y
  obtain rfl : a = b := h
  rfl

/-! ## Bits that are mixed -/

/-- The bits of a double that is not zero are mixed as they are. -/
theorem doubleBits_eq (x : Float) :
    Stream.doubleBits x = if (x == 0.0) = true then 0 else x.toBits := by
  unfold Stream.doubleBits
  split
  · rfl
  · split
    · next h =>
      rw [eq_of_isNaN h]
      decide +kernel
    · rfl

/-- **The bits of two doubles that are mixed are equal** just when the doubles are equal as numbers
or both of them are not numbers. -/
theorem doubleBits_eq_iff {x y : Float} : Stream.doubleBits x = Stream.doubleBits y ↔
    (x == y) = true ∨ x.isNaN = true ∧ y.isNaN = true := by
  have hzero : ∀ {z : Float}, z.toBits = 0 → IsZero z := fun {z} hz => by
    rw [eq_of_toBits (y := 0.0) hz]
    exact isZero_zero
  rw [doubleBits_eq, doubleBits_eq]
  constructor
  · intro h
    split at h <;> rename_i hx
    · refine .inl (beq_iff.2 (.inr ⟨beq_zero_iff.1 hx, ?_⟩))
      split at h
      · next hy => exact beq_zero_iff.1 hy
      · exact hzero h.symm
    · split at h
      · exact absurd (beq_zero_iff.2 (hzero h)) hx
      · obtain rfl := eq_of_toBits h
        cases hn : x.isNaN with
        | true => exact .inr ⟨rfl, rfl⟩
        | false => exact .inl (beq_iff.2 (.inl ⟨hn, rfl⟩))
  · rintro (h | ⟨hx, hy⟩)
    · obtain ⟨-, rfl⟩ | ⟨hx, hy⟩ := beq_iff.1 h
      · rfl
      · rw [if_pos (beq_zero_iff.2 hx), if_pos (beq_zero_iff.2 hy)]
    · rw [eq_of_isNaN hx, eq_of_isNaN hy]

end MemoFlow.Binary64

/-! ## Integers as doubles -/

namespace MemoFlow

namespace Binary64

open Float.Model Float.Model.UnpackedFloat

/-! ## Numbers with a leading one -/

theorem unpack_packComponents (s : Sign) (e : BitVec 11) (m : BitVec 52) :
    Sign.ofBitVec (unpackSign (packComponents Format.binary64 s e m)) = s ∧
      unpackExponent (packComponents Format.binary64 s e m) = e ∧
      unpackMantissa (packComponents Format.binary64 s e m) = m := by
  have hsign : unpackSign (packComponents Format.binary64 s e m) = s.toBitVec := by
    rw [packComponents, unpackSign, BitVec.extractLsb]
    ext i hi
    grind
  have hs : Sign.ofBitVec s.toBitVec = s := by cases s <;> rfl
  refine ⟨by rw [hsign, hs], ?_, ?_⟩
  · rw [packComponents, unpackExponent, BitVec.extractLsb]
    ext i hi
    grind
  · rw [packComponents, unpackMantissa, BitVec.extractLsb]
    ext i hi
    grind

theorem unpack_of_exponent {b : BitVec Format.binary64.numBits}
    (h : (unpackExponent b).toNat ≠ 0) (h' : (unpackExponent b).toNat < 2047) :
    ∃ hpos, UnpackedFloat.unpack Format.binary64 b =
      .finite (Sign.ofBitVec (unpackSign b)) (2 ^ 52 + (unpackMantissa b).toNat)
        ((unpackExponent b).toNat - 1075) hpos := by
  have hall : unpackExponent b ≠ -1#11 := fun he => by
    rw [he] at h'
    exact absurd h' (by decide)
  have hzero : unpackExponent b ≠ 0#11 := fun he => by
    rw [he] at h
    exact h rfl
  have hm := toNat_one_append (unpackMantissa b)
  refine ⟨by omega, ?_⟩
  unfold UnpackedFloat.unpack
  dsimp only
  rw [if_neg hall, if_neg hzero]
  congr 1

theorem unpack_pack {s : Sign} {m : Nat} {e : Int} (hm : 2 ^ 52 ≤ m) (hm' : m < 2 ^ 53)
    (he : -1074 ≤ e) (he' : e ≤ 971) (hpos : 0 < m) :
    UnpackedFloat.unpack Format.binary64
      (UnpackedFloat.pack Format.binary64 (.finite s m e hpos)) = .finite s m e hpos := by
  have hlog : m.log2 = 52 := (Nat.log2_eq_iff (by omega)).2 ⟨hm, hm'⟩
  have hbias : Format.binary64.exponentBias = 1023 := rfl
  have hbits : Format.binary64.mantissaBits = 53 := rfl
  have hexp : (BitVec.ofNat 11 (e + 1075).toNat).toNat = (e + 1075).toNat := by
    rw [BitVec.toNat_ofNat]
    omega
  have hmant : (BitVec.ofNat 52 m).toNat = m - 2 ^ 52 := by
    rw [BitVec.toNat_ofNat]
    omega
  obtain ⟨hs, hx, hy⟩ := unpack_packComponents s (BitVec.ofNat 11 (e + 1075).toNat)
    (BitVec.ofNat 52 m)
  have hpack : UnpackedFloat.pack Format.binary64 (.finite s m e hpos) =
      packComponents Format.binary64 s (BitVec.ofNat 11 (e + 1075).toNat) (BitVec.ofNat 52 m) := by
    unfold UnpackedFloat.pack
    dsimp only
    have hb : (e + (1023 : Nat) + (52 : Nat) : Int).toNat = (e + 1075).toNat := by omega
    rw [hbias, hb, if_neg (by omega), if_pos (by rw [hlog, hbits])]
  obtain ⟨hpos', h⟩ := unpack_of_exponent (b := packComponents Format.binary64 s
    (BitVec.ofNat 11 (e + 1075).toNat) (BitVec.ofNat 52 m)) (by rw [hx, hexp]; omega)
    (by rw [hx, hexp]; omega)
  rw [hpack, h]
  congr 1
  · rw [hy, hmant]
    omega
  · rw [hx, hexp]
    omega

/-! ## Integers -/

theorem shiftToTargetExponent_eq {m : Nat} {e : Int} (hm : m.log2 = 52) (he : -1074 ≤ e) :
    shiftToTargetExponent Format.binary64 m e .exact =
      (ExtendedMantissa.ofMantissaAndAccuracy m .exact, e) := by
  have hmin : Format.binary64.minExponent = -1074 := rfl
  have hbits : Format.binary64.mantissaBits = 53 := rfl
  have htarget : Format.binary64.targetExponent (totalExponent m e) = e := by
    rw [Format.targetExponent, totalExponent, hm, hmin, hbits]
    omega
  unfold shiftToTargetExponent shiftToExponent
  dsimp only
  rw [htarget, Int.sub_self]
  exact Prod.ext rfl (Int.add_zero e)

theorem leading_one {n : Nat} (h : n ≠ 0) (hn : n.log2 ≤ 52) :
    2 ^ 52 ≤ n * 2 ^ (52 - n.log2) ∧ n * 2 ^ (52 - n.log2) < 2 ^ 53 := by
  obtain ⟨hlow, hhigh⟩ := (Nat.log2_eq_iff h).1 rfl
  have h52 : (2 : Nat) ^ 52 = 2 ^ n.log2 * 2 ^ (52 - n.log2) := by
    rw [← Nat.pow_add]
    congr 1
    omega
  have h53 : (2 : Nat) ^ 53 = 2 ^ (n.log2 + 1) * 2 ^ (52 - n.log2) := by
    rw [← Nat.pow_add]
    congr 1
    omega
  rw [h52, h53]
  exact ⟨Nat.mul_le_mul_right _ hlow, Nat.mul_lt_mul_of_pos_right hhigh (by positivity)⟩

/-- A positive integer below `2 ^ 53` is shifted until its leading one is in place; nothing is
rounded away. -/
theorem ofNat_eq {n : Nat} (h : n ≠ 0) (hn : n < 2 ^ 53) :
    ∃ hpos, UnpackedFloat.ofNat Format.binary64 n =
      .finite .positive (n * 2 ^ (52 - n.log2)) (n.log2 - 52) hpos := by
  have hlog : n.log2 ≤ 52 := Nat.lt_succ_iff.1 ((Nat.log2_lt h).2 hn)
  have hpos : 0 < n * 2 ^ (52 - n.log2) := Nat.mul_pos (by omega) (by positivity)
  have hmant : (n * 2 ^ (52 - n.log2)).log2 = 52 :=
    (Nat.log2_eq_iff hpos.ne').2 (leading_one h hlog)
  have hmin : Format.binary64.minExponent = -1074 := rfl
  have hbits : Format.binary64.mantissaBits = 53 := rfl
  have htarget : Format.binary64.targetExponent (totalExponent n 0) = n.log2 - 52 := by
    rw [Format.targetExponent, totalExponent, hmin, hbits]
    omega
  have hcompare : compare (n : Int) 0 = .gt := by
    rw [Int.compare_eq_gt]
    omega
  have hround : UnpackedFloat.ofNat Format.binary64 n =
      UnpackedFloat.round Format.binary64 .positive n 0 := by
    unfold UnpackedFloat.ofNat UnpackedFloat.ofInt UnpackedFloat.normalize
    rw [hcompare]
    rfl
  have hshift : (0 - ((n.log2 : Int) - 52)).toNat = 52 - n.log2 := by omega
  have hexp : (0 : Int) - (52 - n.log2 : Nat) = n.log2 - 52 := by omega
  have hexact : (ExtendedMantissa.ofMantissaAndAccuracy (n * 2 ^ (52 - n.log2))
      .exact).roundedMantissa = n * 2 ^ (52 - n.log2) := rfl
  refine ⟨hpos, ?_⟩
  rw [hround]
  unfold UnpackedFloat.round decreaseExponent
  dsimp only
  rw [htarget, hshift, hexp, Nat.shiftLeft_eq]
  unfold roundWithAccuracy
  rw [shiftToTargetExponent_eq hmant (by omega)]
  dsimp only
  rw [hexact, shiftToTargetExponent_eq hmant (by omega)]
  exact dif_neg hpos.ne'

theorem unpack_toFloat {n : UInt64} (h : n ≠ 0) (hn : n.toNat ≤ 2 ^ 53) :
    ∃ (m k : Nat) (hpos : 0 < m), 2 ^ 52 ≤ m ∧ m < 2 ^ 53 ∧ k ≤ 53 ∧ n.toNat * 2 ^ 52 = m * 2 ^ k ∧
      n.toFloat.toModel.unpack = .finite .positive m (k - 52) hpos := by
  have h0 : n.toNat ≠ 0 := fun h0 => h (UInt64.toNat_inj.1 h0)
  obtain heq | hlt : n.toNat = 2 ^ 53 ∨ n.toNat < 2 ^ 53 := by omega
  -- The greatest of them has one digit too many, which is zero.
  · obtain rfl : n = 9007199254740992 := UInt64.toNat_inj.1 heq
    exact ⟨2 ^ 52, 53, by decide, by decide, by decide, by decide, by decide, rfl⟩
  · have hlog : n.toNat.log2 ≤ 52 := Nat.lt_succ_iff.1 ((Nat.log2_lt h0).2 hlt)
    obtain ⟨hlow, hhigh⟩ := leading_one h0 hlog
    obtain ⟨hpos, heq⟩ := ofNat_eq h0 hlt
    refine ⟨_, n.toNat.log2, hpos, hlow, hhigh, by omega, ?_, ?_⟩
    · rw [Nat.mul_assoc, ← Nat.pow_add, Nat.sub_add_cancel hlog]
    · have hmodel : n.toFloat.toModel.unpack = UnpackedFloat.unpack Format.binary64
          (UnpackedFloat.pack Format.binary64 (UnpackedFloat.ofNat Format.binary64 n.toNat)) := rfl
      rw [hmodel, heq, unpack_pack hlow hhigh (by omega) (by omega)]

theorem unpack_neg {x : Float} {s : Sign} {m : Nat} {e : Int} {hpos : 0 < m} (hm : 2 ^ 52 ≤ m)
    (hm' : m < 2 ^ 53) (he : -1074 ≤ e) (he' : e ≤ 971)
    (h : x.toModel.unpack = .finite s m e hpos) : (-x).toModel.unpack = .finite (-s) m e hpos := by
  have hmodel : (-x).toModel.unpack = UnpackedFloat.unpack Format.binary64
      (UnpackedFloat.pack Format.binary64 x.toModel.unpack.neg) := rfl
  rw [hmodel, h]
  exact unpack_pack hm hm' he he' hpos

end Binary64

namespace Value

open Binary64 Float.Model Float.Model.UnpackedFloat

theorem toNat_toUInt64 {a : Int64} (h : 0 ≤ a.toInt) : a.toUInt64.toNat = a.toInt.natAbs := by
  rw [Int64.toNat_toUInt64_of_le (Int64.le_iff_toInt_le.2 h), ← Int64.toNat_toInt]
  omega

theorem unpack_ofInteger {a : Int64} (h : a ≠ 0) (ha : a.toInt.natAbs ≤ 2 ^ 53) :
    ∃ (s : Sign) (m k : Nat) (hpos : 0 < m), (s = .negative ↔ a.toInt < 0) ∧
      a.toInt.natAbs * 2 ^ 52 = m * 2 ^ k ∧
      (ofInteger a).toModel.unpack = .finite s m (k - 52) hpos := by
  have h0 : a.toInt ≠ 0 := fun h0 => h (Int64.toInt_inj.1 h0)
  unfold ofInteger
  split
  · next hneg =>
    have hlt : a.toInt < 0 := Int64.lt_iff_toInt_lt.1 hneg
    have hopp : (-a).toInt = -a.toInt := by
      rw [Int64.toInt_neg]
      apply Int.bmod_eq_of_le <;> omega
    have hnat : (-a).toUInt64.toNat = a.toInt.natAbs := by
      rw [toNat_toUInt64 (by omega), hopp, Int.natAbs_neg]
    have hne : (-a).toUInt64 ≠ 0 := fun hz => by
      rw [hz] at hnat
      exact h0 (Int.natAbs_eq_zero.1 hnat.symm)
    rw [← hnat] at ha ⊢
    obtain ⟨m, k, hpos, hm, hm', hk, hval, hunpack⟩ := unpack_toFloat hne ha
    refine ⟨.negative, m, k, hpos, by simp [hlt], hval, ?_⟩
    exact unpack_neg hm hm' (by omega) (by omega) hunpack
  · next hneg =>
    have hle : 0 ≤ a.toInt := Int.not_lt.1 fun hlt => hneg (Int64.lt_iff_toInt_lt.2 hlt)
    have hnat := toNat_toUInt64 hle
    have hne : a.toUInt64 ≠ 0 := fun hz => by
      rw [hz] at hnat
      exact h0 (Int.natAbs_eq_zero.1 hnat.symm)
    rw [← hnat] at ha ⊢
    obtain ⟨m, k, hpos, -, -, -, hval, hunpack⟩ := unpack_toFloat hne ha
    exact ⟨.positive, m, k, hpos, by simpa using hle, hval, hunpack⟩

/-- **Integers of magnitude up to `2 ^ 53` are equal as doubles** only when they are equal. -/
theorem ofInteger_beq_iff {a b : Int64} (ha : a.toInt.natAbs ≤ 2 ^ 53)
    (hb : b.toInt.natAbs ≤ 2 ^ 53) : (ofInteger a == ofInteger b) = true ↔ a = b := by
  have hzero : (ofInteger 0).toModel.unpack = .zero .positive := rfl
  refine beq_unpacked_iff.trans ⟨fun h => ?_, ?_⟩
  · by_cases ha0 : a = 0 <;> by_cases hb0 : b = 0
    · rw [ha0, hb0]
    · obtain ⟨s, m, k, hpos, -, -, hu⟩ := unpack_ofInteger hb0 hb
      rw [ha0, hzero, hu] at h
      simp at h
    · obtain ⟨s, m, k, hpos, -, -, hu⟩ := unpack_ofInteger ha0 ha
      rw [hb0, hzero, hu] at h
      simp at h
    · obtain ⟨s, m, k, hpos, hs, hval, hu⟩ := unpack_ofInteger ha0 ha
      obtain ⟨s', m', k', hpos', hs', hval', hu'⟩ := unpack_ofInteger hb0 hb
      rw [hu, hu'] at h
      simp only [finite.injEq, reduceCtorEq, false_and, exists_false, or_false] at h
      obtain ⟨-, rfl, rfl, hk⟩ := h
      obtain rfl : k = k' := by omega
      have hsign := hs.symm.trans hs'
      have habs := Nat.eq_of_mul_eq_mul_right (by positivity) (hval.trans hval'.symm)
      exact Int64.toInt_inj.1 (by omega)
  · rintro rfl
    by_cases ha0 : a = 0
    · subst ha0
      exact .inr ⟨.positive, .positive, hzero, hzero⟩
    · obtain ⟨s, m, k, hpos, -, -, hu⟩ := unpack_ofInteger ha0 ha
      exact .inl ⟨by rw [hu]; rfl, rfl⟩

end Value

end MemoFlow
