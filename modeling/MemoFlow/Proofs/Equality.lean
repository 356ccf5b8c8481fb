import MemoFlow.Environment
import MemoFlow.Proofs.Number.Bits

/-!
# Sameness of values

Sameness of values is symmetric, and a value is the same as itself unless a double in it, outside
tensors, is not a number. It is not transitive: a double is the same as each integer that rounds to
it. Nothing else stands in the way, so sameness is transitive on values whose integers are doubles.

* `Binary64.beq_symm`, `Binary64.beq_trans`, `Binary64.beq_self_iff`: doubles;
* `Tensor.same_iff`: tensors that are the same;
* `Value.HasNaN`, `Value.Blurs`, `Value.IsNarrow`: the values that break a law, and those that do
  not;
* `Value.same_symm`, `Value.same_self_iff`, `Value.same_trans_iff`: one law each;
* `Environment.same_iff`: environments by their look-ups;
* `Comparison`, **`Environment.comparison`**: the laws of values and of environments.
-/

namespace MemoFlow

/-! ## Numbers -/

namespace Binary64

theorem beq_symm (x y : Float) : (x == y) = (y == x) := by
  rw [Bool.eq_iff_iff, beq_iff, beq_iff, and_comm (a := IsZero x)]
  refine or_congr_left ⟨?_, ?_⟩ <;> rintro ⟨hn, rfl⟩ <;> exact ⟨hn, rfl⟩

theorem beq_trans {x y z : Float} (h : (x == y) = true) (h' : (y == z) = true) :
    (x == z) = true := by
  obtain ⟨-, rfl⟩ | ⟨hx, hy⟩ := beq_iff.1 h
  · exact h'
  · obtain ⟨-, rfl⟩ | ⟨-, hz⟩ := beq_iff.1 h'
    · exact h
    · exact beq_iff.2 (.inr ⟨hx, hz⟩)

theorem isNaN_of_isZero {x : Float} (h : IsZero x) : x.isNaN = false := by
  obtain ⟨s, hs⟩ := h
  change x.toModel.unpack.isNaN = false
  rw [hs]
  rfl

theorem beq_self_iff {x : Float} : (x == x) = true ↔ x.isNaN = false := by
  rw [beq_iff]
  constructor
  · rintro (⟨hn, -⟩ | ⟨hx, -⟩)
    · exact hn
    · exact isNaN_of_isZero hx
  · exact fun hn => .inl ⟨hn, rfl⟩

end Binary64

namespace Tensor

theorem sameNumber_iff {x y : Double} : sameNumber x y = true ↔
    Stream.doubleBits x.toFloat = Stream.doubleBits y.toFloat := by
  rw [sameNumber, Bool.or_eq_true, Bool.and_eq_true, Binary64.doubleBits_eq_iff]
  exact Iff.rfl

/-- **Tensors are the same** when they have one type, one shape and numbers with one encoding. -/
theorem same_iff {a b : Tensor Double} : a.same b = true ↔ a.dtype = b.dtype ∧ a.shape = b.shape ∧
    a.data.toList.map (fun x => Stream.doubleBits x.toFloat) =
      b.data.toList.map fun x => Stream.doubleBits x.toFloat := by
  have hpayload : (a.data.size = b.data.size ∧
      (a.data.toList.zip b.data.toList).all (fun p => sameNumber p.1 p.2) = true) ↔
      a.data.toList.map (fun x => Stream.doubleBits x.toFloat) =
        b.data.toList.map fun x => Stream.doubleBits x.toFloat := by
    rw [← List.forall₂_eq_eq_eq, List.forall₂_map_left_iff, List.forall₂_map_right_iff,
      List.forall₂_iff_zip, List.all_eq_true, Array.length_toList, Array.length_toList]
    simp only [sameNumber_iff, Prod.forall]
  rw [same, Bool.and_eq_true, Bool.and_eq_true, Bool.and_eq_true, decide_eq_true_iff,
    decide_eq_true_iff, decide_eq_true_iff, and_assoc, and_assoc, hpayload]

end Tensor

/-! ## Values -/

namespace Value

section Shape

variable {σ : Type}

mutual

/-- A double outside tensors is not a number. -/
def HasNaN : Value σ → Prop
  | .dbl x => x.isNaN = true
  | .list vs => AnyNaN vs
  | _ => False

/-- A double of one of the values is not a number. -/
def AnyNaN : List (Value σ) → Prop
  | [] => False
  | v :: vs => v.HasNaN ∨ AnyNaN vs

end

mutual

/-- The second value has a double where the others have two integers that round to it. -/
def Blurs : Value σ → Value σ → Value σ → Prop
  | .int a, .dbl x, .int b => a ≠ b ∧ (ofInteger a == x) = true ∧ (x == ofInteger b) = true
  | .list us, .list vs, .list ws => AnyBlurs us vs ws
  | _, _, _ => False

/-- Values in the same place of three lists blur. -/
def AnyBlurs : List (Value σ) → List (Value σ) → List (Value σ) → Prop
  | u :: us, v :: vs, w :: ws => u.Blurs v w ∨ AnyBlurs us vs ws
  | _, _, _ => False

end

mutual

/-- All integers have a magnitude up to `2 ^ 53`. -/
def IsNarrow : Value σ → Prop
  | .int n => n.toInt.natAbs ≤ 2 ^ 53
  | .list vs => AllNarrow vs
  | _ => True

/-- All integers of all values are narrow. -/
def AllNarrow : List (Value σ) → Prop
  | [] => True
  | v :: vs => v.IsNarrow ∧ AllNarrow vs

end

mutual

theorem not_blurs : (u v w : Value σ) → u.IsNarrow → w.IsNarrow → ¬ u.Blurs v w
  | .int a, v, w, hu, hw => by
    cases v with
    | dbl x =>
      cases w with
      | int b =>
        rw [Blurs]
        rintro ⟨hab, ha, hb⟩
        exact hab ((ofInteger_beq_iff hu hw).1 (Binary64.beq_trans ha hb))
      | _ => simp [Blurs]
    | _ => simp [Blurs]
  | .list us, v, w, hu, hw => by
    cases v with
    | list vs =>
      cases w with
      | list ws =>
        rw [Blurs]
        rw [IsNarrow] at hu hw
        exact not_anyBlurs us vs ws hu hw
      | _ => simp [Blurs]
    | _ => simp [Blurs]
  | .nil, _, _, _, _ | .dbl _, _, _, _, _ | .bool _, _, _, _, _ | .str _, _, _, _, _
  | .tensor _, _, _, _, _ | .handle _ _, _, _, _, _ => by simp [Blurs]

theorem not_anyBlurs : (us vs ws : List (Value σ)) → AllNarrow us → AllNarrow ws →
    ¬ AnyBlurs us vs ws
  | [], _, _, _, _ | _ :: _, [], _, _, _ | _ :: _, _ :: _, [], _, _ => by simp [AnyBlurs]
  | u :: us, v :: vs, w :: ws, hu, hw => by
    rw [AllNarrow] at hu hw
    rw [AnyBlurs, not_or]
    exact ⟨not_blurs u v w hu.1 hw.1, not_anyBlurs us vs ws hu.2 hw.2⟩

end

end Shape

variable {σ : Type} [IsText σ]

theorem sameTensor_iff {t u : Option (Tensor Double)} : sameTensor t u = true ↔
    t.map (fun t => (t.dtype, t.shape, t.data.toList.map fun x => Stream.doubleBits x.toFloat)) =
      u.map fun t =>
        (t.dtype, t.shape, t.data.toList.map fun x => Stream.doubleBits x.toFloat) := by
  cases t with
  | none => cases u <;> simp [sameTensor]
  | some t =>
    cases u with
    | none => simp [sameTensor]
    | some u =>
      rw [sameTensor, Tensor.same_iff, Option.map_some, Option.map_some, Option.some.injEq,
        Prod.mk.injEq, Prod.mk.injEq]

mutual

theorem same_symm : (v w : Value σ) → v.same w = w.same v
  | .list vs, w => by
    cases w with
    | list ws =>
      rw [same, same]
      exact sameList_symm vs ws
    | _ => rfl
  | .tensor t, w => by
    cases w with
    | tensor u =>
      rw [same, same, Bool.eq_iff_iff, sameTensor_iff, sameTensor_iff]
      exact eq_comm
    | _ => rfl
  | .int a, w | .dbl a, w => by
    cases w with
    | int b | dbl b => simp [same, Binary64.beq_symm, eq_comm]
    | _ => rfl
  | .nil, w | .bool _, w | .str _, w | .handle _ _, w => by
    cases w <;> simp [same, eq_comm]

theorem sameList_symm : (vs ws : List (Value σ)) → sameList vs ws = sameList ws vs
  | [], [] | [], _ :: _ | _ :: _, [] => rfl
  | v :: vs, w :: ws => by rw [sameList, sameList, same_symm v w, sameList_symm vs ws]

end

mutual

theorem same_self_iff : (v : Value σ) → v.same v = true ↔ ¬ v.HasNaN
  | .list vs => by
    rw [same, HasNaN]
    exact sameList_self_iff vs
  | .dbl x => by
    rw [same, HasNaN, Binary64.beq_self_iff, Bool.not_eq_true]
  | .tensor t => by simp [same, sameTensor_iff, HasNaN]
  | .nil | .int _ | .bool _ | .str _ | .handle _ _ => by simp [same, HasNaN]

theorem sameList_self_iff : (vs : List (Value σ)) → sameList vs vs = true ↔ ¬ AnyNaN vs
  | [] => by simp [sameList, AnyNaN]
  | v :: vs => by
    rw [sameList, AnyNaN, Bool.and_eq_true, same_self_iff v, sameList_self_iff vs, not_or]

end

/-- Numbers go through a third number, but not from an integer to another one through a double. -/
theorem same_trans_iff_of_number {u v w : Value σ} (hv : v.isNumeric = true)
    (h : u.same v = true) (h' : v.same w = true) : u.same w = true ↔ ¬ u.Blurs v w := by
  cases v with
  | int b =>
    cases u with
    | int a =>
      obtain rfl : a = b := by simpa [same] using h
      simp [h', Blurs]
    | dbl x =>
      cases w with
      | int c =>
        obtain rfl : b = c := by simpa [same] using h'
        simp [h, Blurs]
      | dbl z =>
        simp only [same] at h h' ⊢
        simp [Binary64.beq_trans h h', Blurs]
      | _ => simp [same] at h'
    | _ => simp [same] at h
  | dbl y =>
    cases u with
    | int a =>
      cases w with
      | int c =>
        simp only [same] at h h'
        simp [same, Blurs, h, h']
      | dbl z =>
        simp only [same] at h h' ⊢
        simp [Binary64.beq_trans h h', Blurs]
      | _ => simp [same] at h'
    | dbl x =>
      cases w with
      | int _ | dbl _ =>
        simp only [same] at h h' ⊢
        simp [Binary64.beq_trans h h', Blurs]
      | _ => simp [same] at h'
    | _ => simp [same] at h
  | _ => simp [isNumeric] at hv

mutual

theorem same_trans_iff : (u v w : Value σ) → u.same v = true → v.same w = true →
    (u.same w = true ↔ ¬ u.Blurs v w)
  | .list us, v, w, h, h' => by
    cases v with
    | list vs =>
      cases w with
      | list ws =>
        rw [same] at h h'
        rw [same, Blurs]
        exact sameList_trans_iff us vs ws h h'
      | _ => simp [same] at h'
    | _ => simp [same] at h
  | .tensor t, v, w, h, h' => by
    cases v with
    | tensor t' =>
      cases w with
      | tensor t'' =>
        rw [same, sameTensor_iff] at h h'
        simp [same, sameTensor_iff, Blurs, h, h']
      | _ => simp [same] at h'
    | _ => simp [same] at h
  | .int _, v, w, h, h' | .dbl _, v, w, h, h' => by
    refine same_trans_iff_of_number ?_ h h'
    cases v with
    | int | dbl => rfl
    | _ => simp [same] at h
  | .nil, v, w, h, h' | .bool _, v, w, h, h' | .str _, v, w, h, h' | .handle _ _, v, w, h, h' => by
    cases v <;> simp [same] at h
    cases w <;> simp [same] at h'
    simp [same, Blurs, h, h']

theorem sameList_trans_iff : (us vs ws : List (Value σ)) → sameList us vs = true →
    sameList vs ws = true → (sameList us ws = true ↔ ¬ AnyBlurs us vs ws)
  | [], vs, ws, h, h' => by
    cases vs with
    | nil => simp [h', AnyBlurs]
    | cons v vs => simp [sameList] at h
  | u :: us, vs, ws, h, h' => by
    cases vs with
    | nil => simp [sameList] at h
    | cons v vs =>
      cases ws with
      | nil => simp [sameList] at h'
      | cons w ws =>
        rw [sameList, Bool.and_eq_true] at h h'
        rw [sameList, AnyBlurs, Bool.and_eq_true, not_or, same_trans_iff u v w h.1 h'.1,
          sameList_trans_iff us vs ws h.2 h'.2]

end

end Value

/-! ## Environments -/

namespace Environment

open NameMap

variable {σ : Type} [IsText σ]

theorem findIn_cons_of_lt {p : σ × Value σ} {l : List (σ × Value σ)} {n : σ}
    (hl : (p :: l).Pairwise fun p q => p.1 < q.1) (h : n < p.1) : findIn n (p :: l) = none :=
  findIn_eq_none fun _ hq => (List.mem_cons.1 hq).elim (fun e => e ▸ h) fun hq =>
    IsText.lt_trans h ((List.pairwise_cons.1 hl).1 _ hq)

/-- The smaller one of two different first names would be bound on one side only. -/
theorem fst_eq_of_rel {p q : σ × Value σ} {l l' : List (σ × Value σ)}
    (hl : (p :: l).Pairwise fun p q => p.1 < q.1) (hl' : (q :: l').Pairwise fun p q => p.1 < q.1)
    (h : ∀ n, Option.Rel (fun v w : Value σ => v.same w = true) (findIn n (p :: l))
      (findIn n (q :: l'))) : p.1 = q.1 := by
  have hp : findIn p.1 (p :: l) = some p.2 := if_pos rfl
  have hq : findIn q.1 (q :: l') = some q.2 := if_pos rfl
  obtain hlt | heq | hlt := IsText.lt_trichotomy p.1 q.1
  · have hrel := h p.1
    rw [hp, findIn_cons_of_lt hl' hlt] at hrel
    exact absurd hrel Option.not_rel_some_none
  · exact heq
  · have hrel := h q.1
    rw [hq, findIn_cons_of_lt hl hlt] at hrel
    exact absurd hrel Option.not_rel_none_some

/-- Lists in the order of their names agree when their look-ups do. -/
theorem sameBindings_iff {l l' : List (σ × Value σ)} (hl : l.Pairwise fun p q => p.1 < q.1)
    (hl' : l'.Pairwise fun p q => p.1 < q.1) : sameBindings l l' = true ↔
      ∀ n, Option.Rel (fun v w => v.same w = true) (findIn n l) (findIn n l') := by
  induction l generalizing l' with
  | nil =>
    cases l' with
    | nil => simp [sameBindings, findIn]
    | cons q l' =>
      refine ⟨fun h => absurd h Bool.false_ne_true, fun h => ?_⟩
      simpa [findIn] using h q.1
  | cons p l ih =>
    cases l' with
    | nil =>
      refine ⟨fun h => absurd h Bool.false_ne_true, fun h => ?_⟩
      simpa [findIn] using h p.1
    | cons q l' =>
      have hp : findIn p.1 (p :: l) = some p.2 := if_pos rfl
      have hq : findIn q.1 (q :: l') = some q.2 := if_pos rfl
      obtain ⟨hpl, hl1⟩ := List.pairwise_cons.1 hl
      obtain ⟨hql, hl1'⟩ := List.pairwise_cons.1 hl'
      rw [sameBindings, Bool.and_eq_true, Bool.and_eq_true, decide_eq_true_iff, ih hl1 hl1']
      constructor
      · rintro ⟨⟨hn, hv⟩, hrest⟩ n
        rw [findIn, findIn, ← hn]
        split
        · exact .some hv
        · exact hrest n
      · intro h
        have hn := fst_eq_of_rel hl hl' h
        refine ⟨⟨hn, ?_⟩, fun n => ?_⟩
        · have hrel := h p.1
          rw [hp, hn, hq] at hrel
          simpa using hrel
        · have hrel := h n
          rw [findIn, findIn, ← hn] at hrel
          split at hrel
          · next he =>
            rw [findIn_eq_none (he ▸ hpl), findIn_eq_none (he ▸ hn ▸ hql)]
            exact .none
          · exact hrel

/-- **Environments are the same** when they bind the same names to the same values. -/
theorem same_iff {a b : Environment σ} : a.same b = true ↔
    ∀ n, Option.Rel (fun v w => v.same w = true) (a.find? n) (b.find? n) :=
  sameBindings_iff a.bindings.sorted b.bindings.sorted

/-- A double of a binding is not a number. -/
def HasNaN (env : Environment σ) : Prop := ∃ n v, env.find? n = some v ∧ v.HasNaN

/-- The bindings of a name blur. -/
def Blurs (a b c : Environment σ) : Prop :=
  ∃ n u v w, a.find? n = some u ∧ b.find? n = some v ∧ c.find? n = some w ∧ u.Blurs v w

/-- All integers of all bindings are narrow. -/
def IsNarrow (env : Environment σ) : Prop := ∀ n v, env.find? n = some v → v.IsNarrow

theorem same_symm (a b : Environment σ) : a.same b = b.same a := by
  rw [Bool.eq_iff_iff, same_iff, same_iff]
  refine forall_congr' fun n => ?_
  cases a.find? n <;> cases b.find? n <;> simp [Value.same_symm]

theorem same_self_iff (env : Environment σ) : env.same env = true ↔ ¬ env.HasNaN := by
  rw [same_iff, HasNaN, not_exists]
  refine forall_congr' fun n => ?_
  cases env.find? n with
  | none => simp
  | some v => simp [Value.same_self_iff]

theorem same_trans_iff {a b c : Environment σ} (h : a.same b = true) (h' : b.same c = true) :
    a.same c = true ↔ ¬ a.Blurs b c := by
  rw [same_iff] at h h' ⊢
  rw [Blurs, not_exists]
  refine forall_congr' fun n => ?_
  have hab := h n
  have hbc := h' n
  cases ha : a.find? n <;> cases hb : b.find? n <;> cases hc : c.find? n <;>
    simp only [ha, hb, hc, Option.rel_some_some, Option.not_rel_some_none,
      Option.not_rel_none_some] at hab hbc
  · simp
  · rw [Option.rel_some_some, Value.same_trans_iff _ _ _ hab hbc]
    simp

theorem not_blurs {a c : Environment σ} (b : Environment σ) (ha : a.IsNarrow) (hc : c.IsNarrow) :
    ¬ a.Blurs b c := by
  rintro ⟨n, u, v, w, hu, -, hw, h⟩
  exact Value.not_blurs u v w (ha n u hu) (hc n w hw) h

end Environment

/-! ## Laws of a comparison -/

/-- **A comparison** that is symmetric, that holds of everything and itself but for odd members, and
that is transitive but for a member which blurs two others. Narrow members are never blurred. -/
structure Comparison {β : Type} (same : β → β → Bool) (odd : β → Prop) (blurs : β → β → β → Prop)
    (narrow : β → Prop) : Prop where
  symm : ∀ u v, same u v = same v u
  self_iff : ∀ v, same v v = true ↔ ¬ odd v
  trans_iff : ∀ u v w, same u v = true → same v w = true → (same u w = true ↔ ¬ blurs u v w)
  trans : ∀ u v w, narrow u → narrow w → same u v = true → same v w = true → same u w = true

/-- **Sameness of values is symmetric, it holds of a value and itself exactly when no double outside
tensors is not a number, and it is transitive exactly as far as no double stands for two integers.**
The same goes for environments, name by name. -/
theorem Environment.comparison {σ : Type} [IsText σ] :
    Comparison (Value.same (σ := σ)) Value.HasNaN Value.Blurs Value.IsNarrow ∧
    Comparison (Environment.same (σ := σ)) HasNaN Blurs IsNarrow := by
  constructor
  · refine ⟨Value.same_symm, Value.same_self_iff, Value.same_trans_iff, ?_⟩
    intro u v w hu hw h h'
    exact (Value.same_trans_iff u v w h h').2 (Value.not_blurs u v w hu hw)
  · refine ⟨same_symm, same_self_iff, fun _ _ _ => same_trans_iff, ?_⟩
    intro a b c ha hc h h'
    exact (same_trans_iff h h').2 (not_blurs b ha hc)

theorem Environment.comparison_one :
    let u : Value := .int 1
    let v : Value := .dbl 1.0
    u.same v = true ∧ v.same u = true ∧ u.same u = true := by
  intro u v
  have h : u.same v = true := by decide +kernel
  have h' : v.same u = true := by decide +kernel
  have hn : u.IsNarrow := by
    rw [Value.IsNarrow]
    decide
  exact ⟨h, h', comparison.1.trans _ _ _ hn hn h h'⟩

/-- The first integer that is no double rounds to its neighbour: the two are the same as one double,
and they differ, as values and as bindings. -/
theorem Environment.same_not_trans :
    let u : Value := .int 9007199254740992
    let v : Value := .dbl 9007199254740992
    let w : Value := .int 9007199254740993
    u.same v = true ∧ v.same w = true ∧ u.same w = false ∧
      (ofList [("x", u)]).same (ofList [("x", v)]) = true ∧
      (ofList [("x", v)]).same (ofList [("x", w)]) = true ∧
      (ofList [("x", u)]).same (ofList [("x", w)]) = false := by
  decide +kernel

end MemoFlow
