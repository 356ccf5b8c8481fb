import MemoFlow.Text.Basic

/-!
# Maps keyed by names

Finite maps from names to `α`, kept as a list in strictly ascending order of the names, so that two
maps with the same bindings are equal. Names are texts; where no type is named, they are strings.

* `NameMap`, `find?`, `insert`, `erase`, `keys`, `merge`: the type and its operations;
* `NameMap.find?_insert`, `NameMap.find?_erase`: what a look-up sees after a write;
* `NameMap.ext_find?`: look-ups determine the map.
-/

namespace MemoFlow

variable {α β σ : Type}

/-- **A map from names to `α`**, in ascending order of the names. -/
structure NameMap (α : Type) (σ : Type := String) [IsText σ] where
  /-- The bindings, in ascending order. -/
  entries : List (σ × α)
  /-- Every name is below the later ones. -/
  sorted : entries.Pairwise fun a b => a.1 < b.1

/-- A set of names. -/
abbrev NameSet (σ : Type := String) [IsText σ] : Type := NameMap Unit σ

namespace NameMap

variable [IsText σ]

/-! ## Look-up and change on the underlying list -/

/-- The first value bound to `n`. -/
def findIn (n : σ) : List (σ × α) → Option α
  | [] => none
  | (k, v) :: r => if k = n then some v else findIn n r

/-- Put `n` at its place, over an older binding. -/
def insertIn (n : σ) (v : α) : List (σ × α) → List (σ × α)
  | [] => [(n, v)]
  | (k, w) :: r =>
    if n < k then (n, v) :: (k, w) :: r
    else if k = n then (n, v) :: r
    else (k, w) :: insertIn n v r

theorem mem_insertIn {n : σ} {v : α} {l : List (σ × α)} {p : σ × α}
    (h : p ∈ insertIn n v l) : p = (n, v) ∨ p ∈ l := by
  induction l with
  | nil => simpa [insertIn] using h
  | cons q r ih =>
    simp only [insertIn] at h
    split at h
    · simpa using h
    · split at h
      · rcases List.mem_cons.1 h with h | h
        · exact .inl h
        · exact .inr (List.mem_cons_of_mem _ h)
      · rcases List.mem_cons.1 h with h | h
        · exact .inr (h ▸ List.mem_cons_self)
        · exact (ih h).imp id (List.mem_cons_of_mem _)

theorem pairwise_insertIn (n : σ) (v : α) {l : List (σ × α)}
    (h : l.Pairwise fun a b => a.1 < b.1) :
    (insertIn n v l).Pairwise fun a b => a.1 < b.1 := by
  induction l with
  | nil => simp [insertIn]
  | cons q r ih =>
    obtain ⟨k, w⟩ := q
    have hr := List.pairwise_cons.1 h
    simp only [insertIn]
    split
    · next hlt =>
      refine List.pairwise_cons.2 ⟨fun p hp => ?_, h⟩
      rcases List.mem_cons.1 hp with rfl | hp
      · exact hlt
      · exact IsText.lt_trans hlt (hr.1 p hp)
    · split
      · next heq => exact List.pairwise_cons.2 ⟨fun p hp => heq ▸ hr.1 p hp, hr.2⟩
      · next hlt hne =>
        refine List.pairwise_cons.2 ⟨fun p hp => ?_, ih hr.2⟩
        rcases mem_insertIn hp with rfl | hp
        · exact IsText.lt_of_not_lt_of_ne hlt hne
        · exact hr.1 p hp

theorem findIn_insertIn (n m : σ) (v : α) (l : List (σ × α)) :
    findIn m (insertIn n v l) = if n = m then some v else findIn m l := by
  induction l with
  | nil => simp [insertIn, findIn]
  | cons q r ih =>
    obtain ⟨k, w⟩ := q
    simp only [insertIn]
    split
    · simp [findIn]
    · split
      · next heq => subst heq; by_cases h : k = m <;> simp [findIn, h]
      · next hne =>
        by_cases hk : k = m
        · subst hk; simp [findIn, Ne.symm hne]
        · simp [findIn, hk, ih]

/-! ## The operations -/

/-- The map without bindings. -/
def empty : NameMap α σ := ⟨[], .nil⟩

instance : EmptyCollection (NameMap α σ) := ⟨empty⟩
instance : Inhabited (NameMap α σ) := ⟨empty⟩

/-- The value bound to `n`. -/
def find? (m : NameMap α σ) (n : σ) : Option α := findIn n m.entries

/-- Whether `n` is bound. -/
def contains (m : NameMap α σ) (n : σ) : Bool := (m.find? n).isSome

/-- Bind `n` to `v`, over an older binding. -/
def insert (m : NameMap α σ) (n : σ) (v : α) : NameMap α σ :=
  ⟨insertIn n v m.entries, pairwise_insertIn n v m.sorted⟩

/-- Forget `n`. -/
def erase (m : NameMap α σ) (n : σ) : NameMap α σ :=
  ⟨m.entries.filter fun p => p.1 ≠ n, m.sorted.filter _⟩

/-- The bound names, ascending. -/
def keys (m : NameMap α σ) : List σ := m.entries.map Prod.fst

/-- The number of bindings. -/
def size (m : NameMap α σ) : Nat := m.entries.length

/-- The bindings of `m` overlaid by those of `o`. -/
def merge (m o : NameMap α σ) : NameMap α σ := o.entries.foldl (fun m p => m.insert p.1 p.2) m

/-- The map of a list of bindings; of two for one name the later stays. -/
def ofList (l : List (σ × α)) : NameMap α σ := l.foldl (fun m p => m.insert p.1 p.2) ∅

/-- Apply `f` to every value. -/
def map (f : α → β) (m : NameMap α σ) : NameMap β σ :=
  ⟨m.entries.map fun p => (p.1, f p.2), by
    have := m.sorted
    simpa [List.pairwise_map] using this⟩

/-! ## Laws -/

theorem find?_empty (n : σ) : (∅ : NameMap α σ).find? n = none := rfl

theorem find?_insert (m : NameMap α σ) (n k : σ) (v : α) :
    (m.insert n v).find? k = if n = k then some v else m.find? k :=
  findIn_insertIn n k v m.entries

theorem findIn_filter_ne (n k : σ) (l : List (σ × α)) :
    findIn k (l.filter fun p => p.1 ≠ n) = if n = k then none else findIn k l := by
  induction l with
  | nil => simp [findIn]
  | cons q r ih =>
    obtain ⟨a, w⟩ := q
    by_cases ha : a = n
    · subst ha
      simp only [ne_eq, not_true_eq_false, decide_false, Bool.false_eq_true, not_false_eq_true,
        List.filter_cons_of_neg, findIn]
      rw [ih]; split <;> rfl
    · rw [List.filter_cons_of_pos (by simpa using ha)]
      by_cases hk : a = k
      · subst hk; simp [findIn, Ne.symm ha]
      · simp only [findIn, hk, if_false]; exact ih

theorem find?_erase (m : NameMap α σ) (n k : σ) :
    (m.erase n).find? k = if n = k then none else m.find? k :=
  findIn_filter_ne n k m.entries

theorem findIn_eq_none {n : σ} {l : List (σ × α)} (h : ∀ p ∈ l, n < p.1) :
    findIn n l = none := by
  induction l with
  | nil => rfl
  | cons q r ih =>
    have hq := h q List.mem_cons_self
    have hne : ¬ q.1 = n := fun e => IsText.lt_irrefl n (e ▸ hq)
    simp only [findIn, hne, if_false]
    exact ih fun p hp => h p (List.mem_cons_of_mem _ hp)

theorem eq_of_findIn {l l' : List (σ × α)} (hl : l.Pairwise fun a b => a.1 < b.1)
    (hl' : l'.Pairwise fun a b => a.1 < b.1) (h : ∀ n, findIn n l = findIn n l') : l = l' := by
  induction l generalizing l' with
  | nil =>
    cases l' with
    | nil => rfl
    | cons q r => have := h q.1; simp [findIn] at this
  | cons p r ih =>
    obtain ⟨a, v⟩ := p
    cases l' with
    | nil => have := h a; simp [findIn] at this
    | cons q r' =>
      obtain ⟨b, w⟩ := q
      have h1 := List.pairwise_cons.1 hl
      have h2 := List.pairwise_cons.1 hl'
      have hab : a = b := by
        refine Classical.byContradiction fun hne => ?_
        by_cases hlt : a < b
        · have := h a
          rw [findIn_eq_none (l := (b, w) :: r') (by
            intro p hp
            rcases List.mem_cons.1 hp with rfl | hp
            · exact hlt
            · exact IsText.lt_trans hlt (h2.1 p hp))] at this
          simp [findIn] at this
        · have hgt : b < a := IsText.lt_of_not_lt_of_ne hlt (Ne.symm hne)
          have := h b
          rw [findIn_eq_none (l := (a, v) :: r) (by
            intro p hp
            rcases List.mem_cons.1 hp with rfl | hp
            · exact hgt
            · exact IsText.lt_trans hgt (h1.1 p hp))] at this
          simp [findIn] at this
      subst hab
      have hv : v = w := by have := h a; simpa [findIn] using this
      subst hv
      refine congrArg _ (ih h1.2 h2.2 fun n => ?_)
      by_cases hn : a = n
      · subst hn; rw [findIn_eq_none h1.1, findIn_eq_none h2.1]
      · have := h n; simpa [findIn, hn] using this

/-- **Look-ups determine the map.** -/
theorem ext_find? {m m' : NameMap α σ} (h : ∀ n, m.find? n = m'.find? n) : m = m' := by
  obtain ⟨l, hl⟩ := m
  obtain ⟨l', hl'⟩ := m'
  have : l = l' := eq_of_findIn hl hl' h
  subst this; rfl

end NameMap

end MemoFlow
