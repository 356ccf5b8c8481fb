import MemoFlow.Proofs.Cache.Lifetime
import MemoFlow.Text.Ascii

/-!
# Sizes that settings ask for

A size is read from the numeral in front of a text. A numeral with a minus is to be none at all, but
only a text that begins with the minus is refused: behind a blank, the negative of the number is
taken within 64 bits. Megabytes become bytes within 64 bits, too.

* **`Settings.Spells`**: a text with a numeral in front;
* `Settings.spells_iff`: where the parts of the numeral are;
* `Settings.readSize?_of_spells`, `Settings.readSize?_of_disguised`, `Settings.readSize?_of_none`:
  what is read;
* `Settings.exists_size`: every size can be asked for;
* **`Settings.plain_size_iff`**: when a size is read as it should be;
* `CacheConfig.toNat_tensorBytes`, **`CacheConfig.honours_iff`**: when the budget of the cache for
  tensors follows its setting.
-/

namespace MemoFlow

namespace Settings

/-! ## Numerals -/

/-- **A text has a numeral in front**: blanks, a sign and digits, as many as there are. -/
inductive Spells (sign : List Char) : List Char → Nat → Prop where
  | intro {blanks ds rest : List Char} (hblanks : ∀ c ∈ blanks, isBlank c = true)
    (hne : ds ≠ []) (hds : ∀ c ∈ ds, c.isDigit = true)
    (hrest : ∀ c ∈ rest.head?, c.isDigit = false) :
    Spells sign (blanks ++ (sign ++ (ds ++ rest))) (Nat.ofDigitChars 10 ds 0)

/-- No sign in front of a number, or a plus. -/
def IsPlus (sign : List Char) : Prop := sign = [] ∨ sign = ['+']

/-- **A reading of a text is plain**: the number of the numeral in front, or the largest word when
64 bits do not hold it; the fallback when there is no numeral without a minus. -/
structure Plain (cs : List Char) (fallback r : UInt64) : Prop where
  number : ∀ sign n, IsPlus sign → Spells sign cs n → r.toNat = min n (2 ^ 64 - 1)
  other : (∀ sign n, IsPlus sign → ¬ Spells sign cs n) → r = fallback

/-- A negative number whose minus is not in front of the text. -/
def Disguised (cs : List Char) (n : Nat) : Prop := cs.head? ≠ some '-' ∧ Spells ['-'] cs n

/-- What is read for the negative of a number: what 64 bits hold of it, and the largest word when
they do not hold the number. -/
def negated (n : Nat) : Nat := if n < 2 ^ 64 then (2 ^ 64 - n) % 2 ^ 64 else 2 ^ 64 - 1

variable {cs sign : List Char} {n : Nat}

theorem isBlank_of_isDigit {c : Char} (h : c.isDigit = true) : isBlank c = false := by
  by_contra hc
  rw [Bool.not_eq_false, isBlank] at hc
  simp only [Bool.or_eq_true, decide_eq_true_eq] at hc
  rcases hc with ((((rfl | rfl) | rfl) | rfl) | rfl) | rfl <;> exact absurd h (by decide)

/-- **Where the parts of a numeral are**: the sign is what comes behind the blanks, and the digits
are those behind the sign. -/
theorem spells_iff (hsign : ∀ c ∈ sign, isBlank c = false) :
    Spells sign cs n ↔ ∃ r, cs.dropWhile isBlank = sign ++ r ∧ r.takeWhile Char.isDigit ≠ [] ∧
      n = Nat.ofDigitChars 10 (r.takeWhile Char.isDigit) 0 := by
  constructor
  · rintro @⟨blanks, ds, rest, hblanks, hne, hds, hrest⟩
    have hhead : ∀ c ∈ (sign ++ (ds ++ rest)).head?, isBlank c = false := by
      intro c hc
      cases sign with
      | cons d sign => exact hsign c (by simp_all)
      | nil =>
        cases ds with
        | nil => exact absurd rfl hne
        | cons d ds => exact isBlank_of_isDigit (hds c (by simp_all))
    refine ⟨ds ++ rest, dropWhile_append_of_head hblanks hhead, ?_, ?_⟩
    · rwa [takeWhile_append_of_head hds hrest]
    · rw [takeWhile_append_of_head hds hrest]
  · rintro ⟨r, hr, hne, rfl⟩
    have hcs : cs = cs.takeWhile isBlank ++
        (sign ++ (r.takeWhile Char.isDigit ++ r.dropWhile Char.isDigit)) := by
      rw [List.takeWhile_append_dropWhile, ← hr, List.takeWhile_append_dropWhile]
    rw [hcs]
    refine .intro (List.all_eq_true.1 List.all_takeWhile) hne
      (List.all_eq_true.1 List.all_takeWhile) fun c hc => ?_
    have hnot := List.head?_dropWhile_not Char.isDigit r
    rwa [hc] at hnot

theorem isBlank_of_isPlus (hs : IsPlus sign) : ∀ c ∈ sign, isBlank c = false := by
  obtain rfl | rfl := hs
  · exact List.forall_mem_nil _
  · exact List.forall_mem_singleton.2 (by decide)

theorem isBlank_minus : ∀ c ∈ ['-'], isBlank c = false := List.forall_mem_singleton.2 (by decide)

/-- A text has one sign. -/
theorem not_spells_of_spells_minus {m : Nat} (h : Spells ['-'] cs n) (hs : IsPlus sign) :
    ¬ Spells sign cs m := by
  intro hplus
  obtain ⟨r, hr, -⟩ := (spells_iff isBlank_minus).1 h
  obtain ⟨r', hr', hne, -⟩ := (spells_iff (isBlank_of_isPlus hs)).1 hplus
  rw [hr] at hr'
  obtain rfl | rfl := hs
  · rw [← show '-' :: r = r' from hr'] at hne
    exact hne rfl
  · exact absurd (List.cons.inj hr').1 (by decide)

/-! ## What is read -/

/-- The sign that is split off, and what it says. -/
theorem exists_splitSign (l : List Char) : ∃ sign neg r, l = sign ++ r ∧
    splitSign l = (neg, r) ∧ if neg = true then sign = ['-'] else IsPlus sign := by
  unfold splitSign
  split
  · exact ⟨['-'], true, _, rfl, rfl, rfl⟩
  · exact ⟨['+'], false, _, rfl, rfl, .inr rfl⟩
  · exact ⟨[], false, _, rfl, rfl, .inl rfl⟩

theorem splitSign_of_isPlus {r : List Char} (hs : IsPlus sign)
    (hr : r.takeWhile Char.isDigit ≠ []) : splitSign (sign ++ r) = (false, r) := by
  obtain rfl | rfl := hs
  · unfold splitSign
    split
    · next hl =>
      rw [List.nil_append] at hl
      exact absurd (by simp [hl]) hr
    · next hl =>
      rw [List.nil_append] at hl
      exact absurd (by simp [hl]) hr
    · rfl
  · rfl

/-- A word made of a number and of what is said of its sign. -/
theorem toNat_word (neg : Bool) (n : Nat) :
    (if Nat.pow 2 64 ≤ n then UInt64.ofNat (Nat.pow 2 64 - 1)
      else if neg then 0 - UInt64.ofNat n else UInt64.ofNat n).toNat =
      if neg = true then negated n else min n (2 ^ 64 - 1) := by
  have hpow : Nat.pow 2 64 = 2 ^ 64 := rfl
  have hmax : (UInt64.ofNat (Nat.pow 2 64 - 1)).toNat = 2 ^ 64 - 1 := rfl
  unfold negated
  rw [hpow] at hmax ⊢
  by_cases hn : 2 ^ 64 ≤ n
  · rw [if_pos hn, hmax, if_neg (Nat.not_lt.2 hn), Nat.min_eq_right (by omega), ite_self]
  · have hof : (UInt64.ofNat n).toNat = n := UInt64.toNat_ofNat_of_lt' (Nat.lt_of_not_le hn)
    rw [if_neg hn, if_pos (Nat.lt_of_not_le hn), Nat.min_eq_left (by omega)]
    cases neg with
    | false => exact hof
    | true =>
      rw [if_pos rfl, if_pos rfl, UInt64.toNat_sub, hof]
      rfl

/-- What is read of a text that does not begin with a minus. -/
theorem readSize?_of_split {neg : Bool} {r : List Char} (hminus : cs.head? ≠ some '-')
    (hsplit : splitSign (cs.dropWhile isBlank) = (neg, r)) :
    (readSize? cs).map UInt64.toNat =
      if r.takeWhile Char.isDigit = [] then none
      else some (if neg = true then negated (Nat.ofDigitChars 10 (r.takeWhile Char.isDigit) 0)
        else min (Nat.ofDigitChars 10 (r.takeWhile Char.isDigit) 0) (2 ^ 64 - 1)) := by
  rw [readSize?, if_neg hminus]
  simp only [hsplit, List.isEmpty_iff]
  split
  · rfl
  · exact congrArg some (toNat_word neg _)

/-- A numeral without a minus is read as its number. -/
theorem readSize?_of_spells (hs : IsPlus sign) (h : Spells sign cs n) :
    (readSize? cs).map UInt64.toNat = some (min n (2 ^ 64 - 1)) := by
  obtain ⟨r, hr, hne, rfl⟩ := (spells_iff (isBlank_of_isPlus hs)).1 h
  have hsplit : splitSign (cs.dropWhile isBlank) = (false, r) := by
    rw [hr]
    exact splitSign_of_isPlus hs hne
  have hminus : cs.head? ≠ some '-' := by
    intro hhead
    obtain ⟨t, rfl⟩ := List.head?_eq_some_iff.1 hhead
    exact Bool.noConfusion (congrArg Prod.fst hsplit)
  rw [readSize?_of_split hminus hsplit, if_neg hne]
  rfl

/-- A disguised negative number is read as its negative within 64 bits. -/
theorem readSize?_of_disguised (h : Disguised cs n) :
    (readSize? cs).map UInt64.toNat = some (negated n) := by
  obtain ⟨r, hr, hne, rfl⟩ := (spells_iff isBlank_minus).1 h.2
  have hsplit : splitSign (cs.dropWhile isBlank) = (true, r) := by rw [hr]; rfl
  rw [readSize?_of_split h.1 hsplit, if_neg hne]
  rfl

/-- Nothing else is read. -/
theorem readSize?_of_none (hplus : ∀ sign n, IsPlus sign → ¬ Spells sign cs n)
    (hdisguised : ∀ n, ¬ Disguised cs n) : readSize? cs = none := by
  by_cases hminus : cs.head? = some '-'
  · exact if_pos hminus
  obtain ⟨sign, neg, r, hl, hsplit, hs⟩ := exists_splitSign (cs.dropWhile isBlank)
  have hread := readSize?_of_split hminus hsplit
  have hnil : r.takeWhile Char.isDigit = [] := by
    by_contra hne
    split at hs
    · exact hdisguised _ ⟨hminus, (spells_iff isBlank_minus).2 ⟨r, hs ▸ hl, hne, rfl⟩⟩
    · exact hplus sign _ hs ((spells_iff (isBlank_of_isPlus hs)).2 ⟨r, hl, hne, rfl⟩)
  rwa [if_pos hnil, Option.map_eq_none_iff] at hread

theorem size_of_read {t : String} {m : Nat} (fallback : UInt64)
    (h : (readSize? t.toList).map UInt64.toNat = some m) : (size (some t) fallback).toNat = m := by
  obtain ⟨r, hr, rfl⟩ := Option.map_eq_some_iff.1 h
  rw [size, hr]
  rfl

/-- Every size can be asked for, by its digits. -/
theorem exists_size (m : UInt64) : ∃ t, ∀ fallback, size (some t) fallback = m := by
  have hspells : Spells [] ([] ++ ([] ++ (Nat.toDigits 10 m.toNat ++ [])))
      (Nat.ofDigitChars 10 (Nat.toDigits 10 m.toNat) 0) :=
    .intro (by simp) Nat.toDigits_ne_nil
      (fun c hc => Nat.isDigit_of_mem_toDigits (by decide) (by decide) hc) (by simp)
  rw [Nat.ofDigitChars_ten_toDigits, List.append_nil, List.nil_append, List.nil_append] at hspells
  have hmost := m.toNat_lt
  refine ⟨String.ofList (Nat.toDigits 10 m.toNat), fun fallback => UInt64.toNat_inj.1 ?_⟩
  refine size_of_read fallback ?_
  rw [String.toList_ofList, readSize?_of_spells (.inl rfl) hspells, Nat.min_eq_left (by omega)]

/-- **A size is read as it should be** unless its text hides a negative number behind blanks: that
is read as a number of 64 bits, which may be the fallback by chance. -/
theorem plain_size_iff (t : String) (fallback : UInt64) :
    (Plain t.toList fallback (size (some t) fallback) ↔
      ∀ n, Disguised t.toList n → negated n = fallback.toNat) ∧
    ∀ n, Disguised t.toList n → (size (some t) fallback).toNat = negated n := by
  have hnegated : ∀ n, Disguised t.toList n → (size (some t) fallback).toNat = negated n :=
    fun n h => size_of_read fallback (readSize?_of_disguised h)
  refine ⟨⟨fun hplain n h => ?_, fun h => ⟨fun sign n hs hn => ?_, fun hother => ?_⟩⟩, hnegated⟩
  · have hfallback := hplain.other fun sign m hs hm => not_spells_of_spells_minus h.2 hs hm
    rw [← hnegated n h, hfallback]
  · exact size_of_read fallback (readSize?_of_spells hs hn)
  · by_cases hd : ∃ n, Disguised t.toList n
    · obtain ⟨n, hn⟩ := hd
      exact UInt64.toNat_inj.1 ((hnegated n hn).trans (h n hn))
    · rw [size, readSize?_of_none hother (not_exists.1 hd)]
      rfl

/-- The negative number four behind a blank, which is read as a size beyond all memory; in front of
the text the minus is noticed. -/
theorem not_plain_of_blank_minus :
    ¬ Plain " -4".toList 7 (size (some " -4") 7) ∧
      size (some " -4") 7 = 18446744073709551612 ∧
      Plain "-4".toList 7 (size (some "-4") 7) ∧ size (some "-4") 7 = 7 := by
  have hfour : Disguised " -4".toList 4 :=
    ⟨by decide, (spells_iff isBlank_minus).2 ⟨['4'], by decide, by decide, by decide⟩⟩
  have hblank := plain_size_iff " -4" 7
  have hfront := plain_size_iff "-4" 7
  refine ⟨fun h => ?_, UInt64.toNat_inj.1 (hblank.2 4 hfour), hfront.1.2 fun n h => ?_,
    by decide +kernel⟩
  · exact absurd (hblank.1.1 h 4 hfour) (by decide)
  · exact absurd rfl h.1

end Settings

/-! ## Megabytes for tensors -/

namespace CacheConfig

/-- The megabytes that variables ask for, for results of tensor operations. -/
def megabytes (x : Variables) : UInt64 := Settings.size (x "SYNAPSE_TENSOR_CACHE_MB") 512

/-- **The budget for tensors follows its setting**: there is one, no lesser setting gives a larger
one, and it is that of the megabytes when 64 bits hold them in bytes. -/
structure Honours (x : Variables) : Prop where
  bounded : (ofVariables x).tensorBytes ≠ 0
  monotone : ∀ y, megabytes y ≤ megabytes x →
    (ofVariables y).tensorBytes ≤ (ofVariables x).tensorBytes
  exact : (megabytes x).toNat < 2 ^ 44 →
    (ofVariables x).tensorBytes.toNat = (megabytes x).toNat * 2 ^ 20

/-- Of the megabytes, 44 bits are left. -/
theorem toNat_tensorBytes (x : Variables) :
    (ofVariables x).tensorBytes.toNat = (megabytes x).toNat % 2 ^ 44 * 2 ^ 20 := by
  have hshift : (ofVariables x).tensorBytes = megabytes x <<< 20 := rfl
  rw [hshift, UInt64.toNat_shiftLeft, Nat.shiftLeft_eq]
  exact Nat.mul_mod_mul_right (2 ^ 20) _ (2 ^ 44)

theorem exists_megabytes (m : UInt64) : ∃ x, megabytes x = m := by
  obtain ⟨t, ht⟩ := Settings.exists_size m
  exact ⟨fun _ => some t, ht 512⟩

/-- The cache for results of tensor operations has the budget of the settings and no other bound. -/
theorem tensor_ofVariables (υ : Type) (x : Variables) : ∃ o g,
    (CacheSuite.ofVariables υ x).tensor = .new o g ∧
      o.maxWeight = (ofVariables x).tensorBytes ∧ o.maxEntries = 0 := ⟨_, _, rfl, rfl, rfl⟩

/-- **When the budget for tensors follows its setting**: it is that of 44 bits of the megabytes, so
there must not be more of them, or all of the 44 must be set. When none is, the cache has no bound
at all. -/
theorem honours_iff (x : Variables) :
    (ofVariables x).tensorBytes.toNat = (megabytes x).toNat % 2 ^ 44 * 2 ^ 20 ∧
    (1 ≤ megabytes x → (Honours x ↔
      (megabytes x).toNat < 2 ^ 44 ∨ (megabytes x).toNat % 2 ^ 44 = 2 ^ 44 - 1)) ∧
    ((megabytes x).toNat % 2 ^ 44 = 0 → ∀ υ rs,
      ((CacheSuite.ofVariables υ x).tensor.after rs).Boundless) := by
  refine ⟨toNat_tensorBytes x, fun hone => ⟨fun h => ?_, fun hn => ⟨?_, fun y hy => ?_, ?_⟩⟩, ?_⟩
  · by_contra hn
    obtain ⟨y, hy⟩ := exists_megabytes (2 ^ 44 - 1)
    have hmost : (megabytes y).toNat = 2 ^ 44 - 1 := by rw [hy]; rfl
    have hle := UInt64.le_iff_toNat_le.1 (h.monotone y (UInt64.le_iff_toNat_le.2 (by omega)))
    rw [toNat_tensorBytes, toNat_tensorBytes, hmost] at hle
    omega
  · have hpos : 1 ≤ (megabytes x).toNat := UInt64.le_iff_toNat_le.1 hone
    intro hzero
    have hbytes := toNat_tensorBytes x
    rw [hzero] at hbytes
    have hnone : (0 : UInt64).toNat = 0 := rfl
    omega
  · have hle := UInt64.le_iff_toNat_le.1 hy
    rw [UInt64.le_iff_toNat_le, toNat_tensorBytes, toNat_tensorBytes]
    omega
  · intro hlt
    rw [toNat_tensorBytes, Nat.mod_eq_of_lt hlt]
  · intro hzero υ rs
    obtain ⟨o, g, hnew, hweight, hentries⟩ := tensor_ofVariables υ x
    obtain ⟨l, s, hshows⟩ := (Cache.Shows.new o g).reached rs
    rw [hnew]
    refine hshows.boundless ?_ hentries
    rw [hweight, ← UInt64.toNat_inj, toNat_tensorBytes, hzero]
    rfl

/-- Two to the power of 44 megabytes, of which nothing is left: the cache for tensors has no bound.
With one megabyte less it has the largest there is. -/
theorem not_honours_of_shifted_out :
    let x (t : String) : Variables := fun name =>
      if name = "SYNAPSE_TENSOR_CACHE_MB" then some t else none
    megabytes (x "17592186044416") = 17592186044416 ∧
      (ofVariables (x "17592186044416")).tensorBytes = 0 ∧
      ¬ Honours (x "17592186044416") ∧ Honours (x "17592186044415") ∧
      ∀ υ rs, ((CacheSuite.ofVariables υ (x "17592186044416")).tensor.after rs).Boundless := by
  intro x
  have hmany : megabytes (x "17592186044416") = 17592186044416 := by decide +kernel
  have hmost : megabytes (x "17592186044415") = 17592186044415 := by decide +kernel
  obtain ⟨hbytes, hhonours, hboundless⟩ := honours_iff (x "17592186044416")
  have hless := (honours_iff (x "17592186044415")).2.1 (by rw [hmost]; decide)
  rw [hmany] at hbytes hhonours hboundless
  rw [hmost] at hless
  refine ⟨hmany, UInt64.toNat_inj.1 hbytes, fun h => ?_, hless.2 (by decide), hboundless rfl⟩
  exact absurd ((hhonours (by decide)).1 h) (by decide)

end CacheConfig

end MemoFlow
