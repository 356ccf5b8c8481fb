import MemoFlow.Environment

/-!
# Look-ups in bindings

An environment is known by its look-ups. Here are the look-ups after each change, and those in the
lists of bindings that are taken from an environment and written over another one.

* `NameMap.findIn_eq_some_iff`, `NameMap.findIn_filter`, `NameMap.findIn_reverse`: look-ups in
  lists in strictly ascending order;
* `NameMap.mem_keys_ofList`: the names in a map that is made from a list;
* `Environment.find?_overlay`, `Environment.written_overlay`: what an overlay binds and logs;
* **`Environment.findIn_outputsSince`**: which bindings are outputs.
-/

namespace MemoFlow

namespace NameMap

variable {α σ : Type} [IsText σ] {n : σ}

theorem findIn_append (l r : List (σ × α)) :
    findIn n (l ++ r) = (findIn n l).or (findIn n r) := by
  induction l with
  | nil => rfl
  | cons p l ih =>
    rw [List.cons_append, findIn, findIn]
    split
    · rfl
    · exact ih

theorem findIn_eq_none_iff {l : List (σ × α)} : findIn n l = none ↔ n ∉ l.map Prod.fst := by
  induction l with
  | nil => simp [findIn]
  | cons p l ih =>
    rw [findIn, List.map_cons, List.mem_cons]
    split
    · next h => simp [h]
    · next h => simp [ih, Ne.symm h]

theorem findIn_isSome {l : List (σ × α)} :
    (findIn n l).isSome = decide (n ∈ l.map Prod.fst) := by
  by_cases h : n ∈ l.map Prod.fst
  · rw [decide_eq_true h, ← Option.ne_none_iff_isSome]
    exact mt findIn_eq_none_iff.1 (not_not_intro h)
  · rw [findIn_eq_none_iff.2 h, decide_eq_false h]
    rfl

section Sorted

variable {l : List (σ × α)} (hl : l.Pairwise fun a b => a.1 < b.1)

include hl

theorem findIn_eq_some_iff {v : α} : findIn n l = some v ↔ (n, v) ∈ l := by
  induction l with
  | nil => simp [findIn]
  | cons p l ih =>
    obtain ⟨hp, hl⟩ := List.pairwise_cons.1 hl
    rw [findIn, List.mem_cons, ← ih hl]
    split
    · next h =>
      subst h
      simp [findIn_eq_none hp, Prod.ext_iff, eq_comm]
    · next h => simp [Prod.ext_iff, Ne.symm h]

theorem findIn_filter (p : σ × α → Bool) :
    findIn n (l.filter p) = (findIn n l).filter fun v => p (n, v) := by
  refine Option.ext fun v => ?_
  rw [findIn_eq_some_iff (hl.filter p), List.mem_filter, Option.filter_eq_some_iff,
    findIn_eq_some_iff hl]

theorem findIn_reverse : findIn n l.reverse = findIn n l := by
  induction l with
  | nil => rfl
  | cons p l ih =>
    obtain ⟨hp, hl⟩ := List.pairwise_cons.1 hl
    rw [List.reverse_cons, findIn_append, ih hl, findIn, findIn, findIn]
    split
    · next h => rw [findIn_eq_none (h ▸ hp), Option.none_or]
    · rw [Option.or_none]

end Sorted

theorem findIn_map {β : Type} (f : α → β) (l : List (σ × α)) :
    findIn n (l.map fun p => (p.1, f p.2)) = (findIn n l).map f := by
  induction l with
  | nil => rfl
  | cons p l ih =>
    rw [List.map_cons, findIn, findIn, ih]
    split <;> rfl

theorem contains_insert (m : NameMap α σ) (k : σ) (v : α) :
    (m.insert k v).contains n = (decide (k = n) || m.contains n) := by
  rw [contains, find?_insert]
  by_cases h : k = n <;> simp [h, contains]

theorem isSome_find?_foldl (l : List (σ × α)) (s : NameMap α σ) (n : σ) :
    ((l.foldl (fun s p => s.insert p.1 p.2) s).find? n).isSome = true ↔
      (s.find? n).isSome = true ∨ n ∈ l.map Prod.fst := by
  induction l generalizing s with
  | nil => simp
  | cons p l ih =>
    rw [List.foldl_cons, ih, find?_insert, List.map_cons, List.mem_cons]
    by_cases h : p.1 = n
    · simp [h]
    · simp [h, Ne.symm h]

theorem mem_keys_ofList {l : List (σ × α)} {n : σ} :
    n ∈ (ofList l).keys ↔ n ∈ l.map Prod.fst := by
  have h := isSome_find?_foldl l ∅ n
  rw [find?_empty, Option.isSome_none] at h
  have hf : ((ofList l).find? n).isSome = decide (n ∈ (ofList l).keys) := findIn_isSome
  rw [← decide_eq_true_iff (p := n ∈ (ofList l).keys), ← hf]
  exact h.trans (by simp)

end NameMap

theorem Value.sameKind_self {σ : Type} (v : Value σ) : v.sameKind v = true := by cases v <;> rfl

namespace Environment

open NameMap

variable {σ : Type} [IsText σ] {n : σ}

@[simp] theorem find?_define (env : Environment σ) (k : σ) (v : Value σ) :
    (env.define k v).find? n = if k = n then some v else env.find? n :=
  find?_insert env.bindings k n v

@[simp] theorem find?_erase (env : Environment σ) (k : σ) :
    (env.erase k).find? n = if k = n then none else env.find? n :=
  NameMap.find?_erase env.bindings k n

@[simp] theorem find?_clearWrites (env : Environment σ) :
    env.clearWrites.find? n = env.find? n := rfl

theorem written_define (env : Environment σ) (k : σ) (v : Value σ) :
    (env.define k v).written.contains n = (decide (k = n) || env.written.contains n) :=
  contains_insert env.written k ()

theorem find?_overlay (env : Environment σ) (l : List (σ × Value σ)) :
    (env.overlay l).find? n = (findIn n l.reverse).or (env.find? n) := by
  induction l generalizing env with
  | nil => rfl
  | cons p l ih =>
    rw [overlay, List.foldl_cons]
    refine (ih (env.define p.1 p.2)).trans ?_
    rw [List.reverse_cons, findIn_append, find?_define, Option.or_assoc, findIn, findIn]
    split <;> rfl

theorem find?_overlay_of_sorted (env : Environment σ) {l : List (σ × Value σ)}
    (hl : l.Pairwise fun a b => a.1 < b.1) :
    (env.overlay l).find? n = (findIn n l).or (env.find? n) := by
  rw [find?_overlay, findIn_reverse hl]

theorem find?_merge (env other : Environment σ) :
    (env.merge other).find? n = (other.find? n).or (env.find? n) :=
  find?_overlay_of_sorted env other.bindings.sorted

theorem written_overlay (env : Environment σ) (l : List (σ × Value σ)) :
    (env.overlay l).written.contains n =
      (decide (n ∈ l.map Prod.fst) || env.written.contains n) := by
  induction l generalizing env with
  | nil => simp [overlay]
  | cons p l ih =>
    rw [overlay, List.foldl_cons]
    refine (ih (env.define p.1 p.2)).trans ?_
    rw [written_define, List.map_cons, Bool.eq_iff_iff]
    simp only [Bool.or_eq_true, decide_eq_true_eq, List.mem_cons]
    rw [or_left_comm, ← or_assoc, eq_comm]

/-! ## Outputs -/

/-- A binding that is left as it is differs exactly when its value is not the same as itself. -/
theorem differs_self {base : Environment σ} {v : Value σ} (h : base.find? n = some v) :
    base.differs (n, v) = !v.same v := by
  rw [differs, h]
  simp [Value.sameKind_self]

theorem sorted_outputsSince (env base : Environment σ) :
    (env.outputsSince base).Pairwise fun a b => a.1 < b.1 := env.bindings.sorted.filter _

/-- **The outputs are the bindings that were written, that are new or that have changed.** -/
theorem findIn_outputsSince (env base : Environment σ) :
    findIn n (env.outputsSince base) =
      (env.find? n).filter fun v => env.written.contains n || base.differs (n, v) :=
  findIn_filter env.bindings.sorted _

end Environment

end MemoFlow
