import MemoFlow.Proofs.Algebra.Exact
import MemoFlow.Proofs.Bounds.Elementwise

/-!
# The loops of the fast transform

The loop that reorders the values of a fast transform keeps the reversed index along and adds one to
it from its last bit downwards. The stages after it work in place.

* **`Fourier.reversed`**: the bits of an index from the last one to the first;
  `Fourier.reversed_succ`, `Fourier.reversed_reversed`;
* **`Fourier.Carries`**: the loop that adds one; `Fourier.carries_reversed`: it ends at a bit that
  is not set, with the next reversed index;
* **`Fourier.exchanges`**, `Fourier.exchanges_two_pow`: the exchanges of the reordering, each pair
  once;
* **`Fourier.getElem?_reorder`**: all of them together reverse the bits of the places;
* `Fourier.butterfly`, **`Fourier.stage`**: one stage in place; `Fourier.Halfway`: what it has done
  on its way, with `Fourier.stage_eq`, `Fourier.radix2_eq_stages`.
-/

namespace MemoFlow.Fourier

/-- **The number whose bits are the lowest `k` bits of `i`, from the last one to the first.** -/
def reversed (k i : Nat) : Nat := Nat.ofBits fun b : Fin k => i.testBit (k - 1 - b)

theorem reversed_lt (k i : Nat) : reversed k i < 2 ^ k := Nat.ofBits_lt_two_pow _

theorem testBit_reversed (k i b : Nat) :
    (reversed k i).testBit b = (decide (b < k) && i.testBit (k - 1 - b)) := by
  by_cases hb : b < k
  · rw [reversed, Nat.testBit_ofBits_lt _ _ hb, decide_eq_true hb, Bool.true_and]
  · rw [reversed, Nat.testBit_ofBits_ge _ _ (by omega), decide_eq_false hb, Bool.false_and]

theorem reversed_reversed {k i : Nat} (hi : i < 2 ^ k) : reversed k (reversed k i) = i := by
  refine Nat.eq_of_testBit_eq fun b => ?_
  rw [testBit_reversed, testBit_reversed]
  by_cases hb : b < k
  · simp [hb, show k - 1 - b < k by omega, show k - 1 - (k - 1 - b) = b by omega]
  · have hzero : i.testBit b = false :=
      Nat.testBit_lt_two_pow (hi.trans_le (Nat.pow_le_pow_right (by decide) (by omega)))
    simp [hb, hzero]

example : reversed 3 6 = 3 ∧ reversed 3 1 = 4 := by decide

/-- The lowest bit of a number comes first. -/
theorem reversed_succ (k i : Nat) : reversed (k + 1) i = 2 ^ k * (i % 2) + reversed k (i / 2) := by
  refine Nat.eq_of_testBit_eq fun b => ?_
  rw [testBit_reversed, Nat.testBit_two_pow_mul_add _ (reversed_lt _ _), testBit_reversed,
    Nat.testBit_div_two]
  obtain hb | rfl | hb := Nat.lt_trichotomy b k
  · simp [hb, show b < k + 1 by omega, show k - 1 - b + 1 = k - b by omega]
  · simp [Nat.testBit_zero]
  · have hone : (i % 2).testBit (b - k) = false :=
      Nat.testBit_lt_two_pow ((Nat.mod_lt i two_pos).trans_le (Nat.le_self_pow (by omega) 2))
    simp [show ¬b < k by omega, show ¬b < k + 1 by omega, hone]

theorem reversed_zero (k : Nat) : reversed k 0 = 0 := by
  refine Nat.eq_of_testBit_eq fun b => ?_
  simp [testBit_reversed]

/-! ## The carry -/

/-- **The loop that adds one to a reversed number**: `Carries p j bit r` when it makes `p` passes
from `j` and `bit` on and ends with `r`. -/
inductive Carries : Nat → Nat → Nat → Nat → Prop
  | stop {j bit : Nat} (h : j &&& bit = 0) : Carries 0 j bit (j ^^^ bit)
  | pass {p j bit r : Nat} (h : j &&& bit ≠ 0) (rest : Carries p (j ^^^ bit) (bit >>> 1) r) :
    Carries (p + 1) j bit r

/-- What the loop ends with is the carry. -/
theorem Carries.carry_eq {p j bit r : Nat} (h : Carries p j bit r) : carry j bit = r := by
  induction h with
  | stop h => rw [carry, if_neg (by simpa using h)]
  | pass h _ ih => rw [carry, if_pos h, ih]

theorem xor_two_pow {k r : Nat} (hr : r < 2 ^ k) : r ^^^ 2 ^ k = 2 ^ k + r := by
  refine Nat.eq_of_testBit_eq fun b => ?_
  have h := Nat.testBit_two_pow_mul_add 1 hr b
  rw [mul_one] at h
  rw [h, Nat.testBit_xor, Nat.testBit_two_pow]
  obtain hb | rfl | hb := Nat.lt_trichotomy b k
  · simp [hb, hb.ne']
  · simp [Nat.testBit_lt_two_pow hr]
  · have hzero : r.testBit b = false :=
      Nat.testBit_lt_two_pow (hr.trans_le (Nat.pow_le_pow_right two_pos hb.le))
    have hone : Nat.testBit 1 (b - k) = false :=
      Nat.testBit_lt_two_pow (Nat.one_lt_two_pow (by omega))
    simp [hzero, hone, hb.ne, hb.not_gt]

theorem and_two_pow_eq_zero {k r : Nat} (hr : r < 2 ^ k) : r &&& 2 ^ k = 0 := by
  refine Nat.eq_of_testBit_eq fun b => ?_
  rw [Nat.testBit_and, Nat.testBit_two_pow, Nat.zero_testBit]
  by_cases hb : k = b
  · rw [← hb, Nat.testBit_lt_two_pow hr, Bool.false_and]
  · rw [decide_eq_false hb, Bool.and_false]

theorem two_pow_add_xor {k r : Nat} (hr : r < 2 ^ k) : (2 ^ k + r) ^^^ 2 ^ k = r := by
  rw [← xor_two_pow hr, Nat.xor_assoc, Nat.xor_self, Nat.xor_zero]

theorem two_pow_add_and_ne_zero {k r : Nat} (hr : r < 2 ^ k) : (2 ^ k + r) &&& 2 ^ k ≠ 0 := by
  intro h
  have hbit : ((2 ^ k + r) &&& 2 ^ k).testBit k = (0 : Nat).testBit k := by rw [h]
  rw [Nat.testBit_and, Nat.testBit_two_pow_add_eq, Nat.testBit_lt_two_pow hr,
    Nat.testBit_two_pow_self, Nat.zero_testBit] at hbit
  exact nomatch hbit

/-- **The loop takes a reversed number to the next one.** It stops at a bit that is not set, so
before the bits run out. -/
theorem carries_reversed {k i : Nat} (hi : i + 1 < 2 ^ k) :
    ∃ p < k, Carries p (reversed k i) (2 ^ k >>> 1) (reversed k (i + 1)) := by
  induction k generalizing i with
  | zero => omega
  | succ k ih =>
    have hbit : 2 ^ (k + 1) >>> 1 = 2 ^ k := by
      rw [Nat.shiftRight_one, Nat.pow_succ, Nat.mul_div_cancel _ two_pos]
    have hlt := reversed_lt k (i / 2)
    rw [hbit, reversed_succ, reversed_succ]
    -- The loop stops at the lowest bit of `i` when it is not set; when it is, the rest of the loop
    -- adds one to the bits above it.
    obtain hmod | hmod := Nat.mod_two_eq_zero_or_one i
    · have hnext : 2 ^ k * ((i + 1) % 2) + reversed k ((i + 1) / 2) =
          reversed k (i / 2) ^^^ 2 ^ k := by
        rw [xor_two_pow hlt, show (i + 1) % 2 = 1 by omega, show (i + 1) / 2 = i / 2 by omega,
          mul_one]
      rw [hmod, mul_zero, zero_add, hnext]
      exact ⟨0, k.succ_pos, .stop (and_two_pow_eq_zero hlt)⟩
    · obtain ⟨p, hp, hrest⟩ := ih (i := i / 2) (by rw [Nat.pow_succ] at hi; omega)
      refine ⟨p + 1, by omega, ?_⟩
      rw [hmod, mul_one, show (i + 1) % 2 = 0 by omega, show (i + 1) / 2 = i / 2 + 1 by omega,
        mul_zero, zero_add]
      refine .pass (two_pow_add_and_ne_zero hlt) ?_
      rwa [two_pow_add_xor hlt]

/-! ## The exchanges -/

/-- One step of the reordering, told by the places that it exchanges. -/
def exchangeStep (n : Nat) (s : Nat × List (Nat × Nat)) (i : Nat) : Nat × List (Nat × Nat) :=
  let j := carry s.1 (n >>> 1)
  (j, if i < j then s.2 ++ [(i, j)] else s.2)

/-- **The exchanges that the reordering of `n` values makes**, one after the other. -/
def exchanges (n : Nat) : List (Nat × Nat) :=
  ((List.range' 1 (n - 1)).foldl (exchangeStep n) (0, [])).2

section Exchange

variable {α : Type}

/-- Values after an exchange of two places. -/
def exchange (vs : Array (Cplx α)) (e : Nat × Nat) : Array (Cplx α) :=
  vs.swapIfInBounds e.1 e.2

theorem size_exchange (vs : Array (Cplx α)) (e : Nat × Nat) : (exchange vs e).size = vs.size := by
  simp [exchange]

/-- The reordering makes these exchanges. -/
theorem reorder_eq_foldl (vs : Array (Cplx α)) :
    reorder vs = (exchanges vs.size).foldl exchange vs := by
  have hloop : ∀ (l : List Nat) (s : Nat × Array (Cplx α)) (t : Nat × List (Nat × Nat)),
      s.1 = t.1 → s.2 = t.2.foldl exchange vs →
      (l.foldl (reorderStep vs.size) s).2 =
        (l.foldl (exchangeStep vs.size) t).2.foldl exchange vs := by
    intro l
    induction l with
    | nil => exact fun s t _ h => h
    | cons i l ih =>
      intro s t h1 h2
      refine ih _ _ ?_ ?_
      · simp only [reorderStep, exchangeStep, h1]
      · simp only [reorderStep, exchangeStep, h1, h2]
        split_ifs
        · rw [List.foldl_append]
          rfl
        · rfl
  exact hloop _ (0, vs) (0, []) rfl rfl

/-- **Each pair of a place and the reversed one is exchanged once**, at its lower place. -/
theorem exchanges_two_pow (k : Nat) : exchanges (2 ^ k) =
    ((List.range (2 ^ k)).filter fun i => i < reversed k i).map fun i => (i, reversed k i) := by
  have hloop := foldl_range'_of_step (f := exchangeStep (2 ^ k)) (a := 1) (c := 2 ^ k - 1)
    (s := (0, [])) (P := fun i s => s.1 = reversed k (i - 1) ∧ s.2 =
      ((List.range i).filter fun i => i < reversed k i).map fun i => (i, reversed k i))
    ⟨(reversed_zero k).symm, by simp [reversed_zero]⟩ ?_
  · rw [exchanges, hloop.2, Nat.add_sub_cancel' Nat.one_le_two_pow]
  · rintro i h1 hi ⟨j, es⟩ ⟨rfl, rfl⟩
    obtain ⟨p, -, hp⟩ := carries_reversed (k := k) (i := i - 1) (by omega)
    rw [Nat.sub_add_cancel h1] at hp
    simp only [exchangeStep, hp.carry_eq, Nat.add_sub_cancel, true_and]
    rw [List.range_succ, List.filter_append, List.map_append]
    by_cases h : i < reversed k i <;> simp [h]

theorem getElem?_exchange {vs : Array (Cplx α)} {i j : Nat} (hi : i < vs.size) (hj : j < vs.size)
    (y : Nat) : (exchange vs (i, j))[y]? =
      if y = j then vs[i]? else if y = i then vs[j]? else vs[y]? := by
  rw [exchange, Array.swapIfInBounds, dif_pos hi, dif_pos hj, Array.getElem?_swap,
    Array.getElem?_eq_getElem hi, Array.getElem?_eq_getElem hj]
  simp only [eq_comm (b := y)]

/-- Exchanges of places that are below their reversed ones do not meet: each of them moves two
values, and no other one moves these. -/
theorem getElem?_foldl_exchange {k : Nat} {l : List Nat} (hl : l.Nodup)
    (hlt : ∀ i ∈ l, i < reversed k i) {vs : Array (Cplx α)} (hsize : vs.size = 2 ^ k) {y : Nat}
    (hy : y < 2 ^ k) : ((l.map fun i => (i, reversed k i)).foldl exchange vs)[y]? =
      if y ∈ l ∨ reversed k y ∈ l then vs[reversed k y]? else vs[y]? := by
  induction l generalizing vs with
  | nil => simp
  | cons i l ih =>
    obtain ⟨hi, hl⟩ := List.nodup_cons.1 hl
    obtain ⟨hilt, hlt⟩ := List.forall_mem_cons.1 hlt
    have hir := hilt.trans (reversed_lt k i)
    have hri : reversed k i ∉ l := fun hmem => by
      have h := hlt _ hmem
      rw [reversed_reversed hir] at h
      omega
    rw [List.map_cons, List.foldl_cons, ih hl hlt (by rw [size_exchange, hsize]),
      getElem?_exchange (by omega) (by rw [hsize]; exact reversed_lt k i),
      getElem?_exchange (by omega) (by rw [hsize]; exact reversed_lt k i)]
    by_cases hyi : y = i
    · subst hyi
      simp [hi, hri, hilt.ne]
    by_cases hyr : y = reversed k i
    · subst hyr
      rw [reversed_reversed hir]
      simp [hi, hri]
    have hne : reversed k y ≠ reversed k i := fun h => hyi (by
      rw [← reversed_reversed hy, h, reversed_reversed hir])
    have hne' : reversed k y ≠ i := fun h => hyr (by rw [← h, reversed_reversed hy])
    simp [hyi, hyr, hne, hne']

/-- **The reordering is the reversal of the bits of the places.** -/
theorem getElem?_reorder {k : Nat} {vs : Array (Cplx α)} (hsize : vs.size = 2 ^ k) {y : Nat}
    (hy : y < 2 ^ k) : (reorder vs)[y]? = vs[reversed k y]? := by
  rw [reorder_eq_foldl, hsize, exchanges_two_pow,
    getElem?_foldl_exchange (List.nodup_range.filter _) (by simp) hsize hy]
  by_cases hfix : reversed k y = y
  · rw [hfix, ite_self]
  · refine if_pos ?_
    simp only [List.mem_filter, List.mem_range, decide_eq_true_eq, reversed_reversed hy, hy,
      reversed_lt, true_and]
    omega

end Exchange

/-! ## Stages in place -/

section InPlace

variable {α : Type} [Arith α] [Scalar α]

omit [Scalar α] in
theorem value_eq_getElem? (vs : Array (Cplx α)) (i : Nat) :
    value vs i = (vs[i]?).getD Cplx.zero := by
  rw [value, Array.getD_eq_getD_getElem?]

omit [Scalar α] in
theorem ext_value {vs ws : Array (Cplx α)} (hsize : vs.size = ws.size)
    (h : ∀ i < vs.size, value vs i = value ws i) : vs = ws := by
  refine Array.ext hsize fun i hi hi' => ?_
  have hvalue := h i hi
  rwa [value_eq_getElem?, value_eq_getElem?, Array.getElem?_eq_getElem hi,
    Array.getElem?_eq_getElem hi'] at hvalue

/-- The factor of the `k`-th butterfly in a block of length `len`. -/
def factor (inverse : Bool) (len k : Nat) : Cplx α :=
  Scalar.cis (Scalar.two * Scalar.pi / (len : α) * sign inverse * (k : α))

/-- **One butterfly in place**: the `k`-th values of both halves of a block. -/
def butterfly (inverse : Bool) (len start : Nat) (vs : Array (Cplx α)) (k : Nat) :
    Array (Cplx α) :=
  let u := value vs (start + k)
  let v := Scalar.mulC (value vs (start + k + len / 2)) (factor inverse len k)
  (vs.setIfInBounds (start + k) (Cplx.add u v)).setIfInBounds (start + k + len / 2) (Cplx.sub u v)

/-- **One stage in place**, block after block. -/
def stage (inverse : Bool) (len : Nat) (vs : Array (Cplx α)) : Array (Cplx α) :=
  (List.range (vs.size / len)).foldl
    (fun vs b => (List.range (len / 2)).foldl (butterfly inverse len (b * len)) vs) vs

variable (inverse : Bool) {h b k : Nat} {vs ws : Array (Cplx α)}

theorem value_butterflies_low (hk : k < h) (hp : b * (2 * h) + k < vs.size) :
    value (butterflies inverse (2 * h) vs) (b * (2 * h) + k) =
      Cplx.add (value vs (b * (2 * h) + k))
        (Scalar.mulC (value vs (b * (2 * h) + (h + k))) (factor inverse (2 * h) k)) := by
  have hmod : (b * (2 * h) + k) % (2 * h) = k := by
    rw [mul_comm, Nat.mul_add_mod, Nat.mod_eq_of_lt (by omega)]
  rw [value_eq_getElem?, butterflies, Array.getElem?_ofFn, dif_pos hp, Option.getD_some]
  simp only [hmod, Nat.mul_div_cancel_left h two_pos]
  rw [if_pos hk, factor, show b * (2 * h) + k + h = b * (2 * h) + (h + k) by ring]

theorem value_butterflies_high (hk : k < h) (hp : b * (2 * h) + (h + k) < vs.size) :
    value (butterflies inverse (2 * h) vs) (b * (2 * h) + (h + k)) =
      Cplx.sub (value vs (b * (2 * h) + k))
        (Scalar.mulC (value vs (b * (2 * h) + (h + k))) (factor inverse (2 * h) k)) := by
  have hmod : (b * (2 * h) + (h + k)) % (2 * h) = h + k := by
    rw [mul_comm, Nat.mul_add_mod, Nat.mod_eq_of_lt (by omega)]
  rw [value_eq_getElem?, butterflies, Array.getElem?_ofFn, dif_pos hp, Option.getD_some]
  simp only [hmod, Nat.mul_div_cancel_left h two_pos]
  rw [if_neg (by omega), Nat.add_sub_cancel_left, factor,
    show b * (2 * h) + (h + k) - h = b * (2 * h) + k by omega]

theorem value_butterfly {start : Nat} (hp : start + (h + k) < vs.size) (p : Nat) :
    value (butterfly inverse (2 * h) start vs k) p =
      let v := Scalar.mulC (value vs (start + (h + k))) (factor inverse (2 * h) k)
      if p = start + (h + k) then Cplx.sub (value vs (start + k)) v
        else if p = start + k then Cplx.add (value vs (start + k)) v else value vs p := by
  rw [butterfly, Nat.mul_div_cancel_left h two_pos, show start + k + h = start + (h + k) by ring]
  simp only [value_eq_getElem?, Array.getElem?_setIfInBounds, Array.size_setIfInBounds]
  by_cases hhigh : p = start + (h + k)
  · rw [if_pos hhigh, if_pos hhigh.symm, if_pos hp, Option.getD_some]
  rw [if_neg hhigh, if_neg (Ne.symm hhigh)]
  by_cases hlow : p = start + k
  · rw [if_pos hlow, if_pos hlow.symm, if_pos (by omega), Option.getD_some]
  · rw [if_neg hlow, if_neg (Ne.symm hlow)]

/-- **The places that a stage has passed** after `b` blocks and `k` butterflies of the next one. -/
def Passed (h b k p : Nat) : Prop :=
  p < b * (2 * h) ∨ ∃ j < k, p = b * (2 * h) + j ∨ p = b * (2 * h) + (h + j)

/-- **A stage on its way**: the places that it has passed are final, the other ones untouched. -/
structure Halfway (inverse : Bool) (h : Nat) (vs : Array (Cplx α)) (b k : Nat)
    (ws : Array (Cplx α)) : Prop where
  size : ws.size = vs.size
  passed (p : Nat) : Passed h b k p → value ws p = value (butterflies inverse (2 * h) vs) p
  rest (p : Nat) : ¬Passed h b k p → value ws p = value vs p

variable {inverse}

/-- The next butterfly reads two places that are untouched and leaves them final. -/
theorem Halfway.next (hw : Halfway inverse h vs b k ws) (hk : k < h)
    (hb : (b + 1) * (2 * h) ≤ vs.size) :
    Halfway inverse h vs b (k + 1) (butterfly inverse (2 * h) (b * (2 * h)) ws k) := by
  rw [add_one_mul] at hb
  have hlow : ¬Passed h b k (b * (2 * h) + k) := by
    rintro (hp | ⟨j, hj, hp⟩) <;> omega
  have hhigh : ¬Passed h b k (b * (2 * h) + (h + k)) := by
    rintro (hp | ⟨j, hj, hp⟩) <;> omega
  have hvalue (p : Nat) : value (butterfly inverse (2 * h) (b * (2 * h)) ws k) p =
      if p = b * (2 * h) + (h + k) then
        value (butterflies inverse (2 * h) vs) (b * (2 * h) + (h + k))
      else if p = b * (2 * h) + k then
        value (butterflies inverse (2 * h) vs) (b * (2 * h) + k)
      else value ws p := by
    rw [value_butterfly inverse (by rw [hw.size]; omega),
      value_butterflies_low inverse hk (by omega), value_butterflies_high inverse hk (by omega),
      hw.rest _ hlow, hw.rest _ hhigh]
  refine ⟨by simp [butterfly, hw.size], fun p hp => ?_, fun p hp => ?_⟩
  · rw [hvalue]
    split_ifs with h1 h2
    · rw [h1]
    · rw [h2]
    · refine hw.passed p ?_
      obtain hp | ⟨j, hj, hp⟩ := hp
      · exact .inl hp
      · have hne : j ≠ k := by rintro rfl; omega
        exact .inr ⟨j, by omega, hp⟩
  · rw [hvalue, if_neg, if_neg]
    · exact hw.rest p fun hpassed => hp <| hpassed.imp_right
        fun ⟨j, hj, hp⟩ => ⟨j, by omega, hp⟩
    · rintro rfl
      exact hp (.inr ⟨k, k.lt_succ_self, .inl rfl⟩)
    · rintro rfl
      exact hp (.inr ⟨k, k.lt_succ_self, .inr rfl⟩)

theorem passed_block {p : Nat} : Passed h b h p ↔ Passed h (b + 1) 0 p := by
  have hsucc := add_one_mul b (2 * h)
  constructor
  · rintro (hp | ⟨j, hj, hp⟩) <;> exact .inl (by omega)
  · rintro (hp | ⟨j, hj, -⟩)
    · by_cases hb : p < b * (2 * h)
      · exact .inl hb
      by_cases hlow : p < b * (2 * h) + h
      · exact .inr ⟨p - b * (2 * h), by omega, .inl (by omega)⟩
      · exact .inr ⟨p - (b * (2 * h) + h), by omega, .inr (by omega)⟩
    · omega

/-- The next block. -/
theorem Halfway.block (hw : Halfway inverse h vs b 0 ws) (hb : (b + 1) * (2 * h) ≤ vs.size) :
    Halfway inverse h vs (b + 1) 0
      ((List.range h).foldl (butterfly inverse (2 * h) (b * (2 * h))) ws) := by
  obtain ⟨hsize, hpassed, hrest⟩ := foldl_range_of_step
    (P := fun k ws => Halfway inverse h vs b k ws) hw fun k hk _ hw => hw.next hk hb
  exact ⟨hsize, fun p hp => hpassed p (passed_block.2 hp),
    fun p hp => hrest p fun h => hp (passed_block.1 h)⟩

/-- **A stage can be made in place.** -/
theorem stage_eq (inverse : Bool) {h m : Nat} {vs : Array (Cplx α)}
    (hsize : vs.size = m * (2 * h)) :
    stage inverse (2 * h) vs = butterflies inverse (2 * h) vs := by
  obtain rfl | hpos := Nat.eq_zero_or_pos h
  · obtain rfl : vs = #[] := by simpa using hsize
    simp [stage, butterflies]
  have hstart : Halfway inverse h vs 0 0 vs := by
    refine ⟨rfl, fun p hp => ?_, fun _ _ => rfl⟩
    obtain hp | ⟨j, hj, -⟩ := hp <;> omega
  have hdone := foldl_range_of_step (P := fun b ws => Halfway inverse h vs b 0 ws) hstart
    fun b hb _ hw => hw.block (hsize ▸ Nat.mul_le_mul_right _ hb)
  rw [stage, hsize, Nat.mul_div_cancel _ (by omega), Nat.mul_div_cancel_left h two_pos]
  refine ext_value (by rw [hdone.size, size_butterflies]) fun p hp => hdone.passed p (.inl ?_)
  rwa [hdone.size, hsize] at hp

/-- All stages of the fast transform can be made in place. -/
theorem radix2_eq_stages (inverse : Bool) {vs : Array (Cplx α)} {k : Nat}
    (hsize : vs.size = 2 ^ k) :
    (List.range k).foldl (fun ws s => stage inverse (2 ^ (s + 1)) ws) (reorder vs) =
      radix2 inverse vs := by
  rw [radix2, hsize, Nat.log2_two_pow]
  refine (List.foldl_rel (r := fun ws us => ws = us ∧ ws.size = 2 ^ k)
    ⟨rfl, by rw [size_reorder, hsize]⟩ ?_).1
  rintro s hs ws _ ⟨rfl, hws⟩
  have hstage : stage inverse (2 ^ (s + 1)) ws = butterflies inverse (2 ^ (s + 1)) ws := by
    have hlen : 2 ^ (s + 1) = 2 * 2 ^ s := by rw [Nat.pow_succ, mul_comm]
    rw [hlen, stage_eq (m := 2 ^ (k - (s + 1)))]
    rw [hws, ← hlen, ← Nat.pow_add, Nat.sub_add_cancel (List.mem_range.1 hs)]
  exact ⟨hstage, by rw [hstage, size_butterflies, hws]⟩

end InPlace

end MemoFlow.Fourier
