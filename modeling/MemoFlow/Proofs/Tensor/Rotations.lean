import MemoFlow.Proofs.Number.Bits
import MemoFlow.Proofs.Tensor.Exact

/-!
# Rotations of what is not a number

An entry that is not a number stays so in every rotation. The tests that end the sweeps compare sums
that it enters, and no comparison with what is not a number holds. So the sweeps run out.

* `Double.isNaN_binary`, `Double.le_of_isNaN`: what is not a number in operations and comparisons;
* `Jacobi.isNaN_turnColumns`, `Jacobi.isNaN_turnRows`: rotations;
* **`Jacobi.eigh?_of_isNaN`**: eigenvalues are never found.
-/

namespace MemoFlow

namespace Double

/-- An operation on something that is not a number gives what is not a number. -/
theorem isNaN_binary {f : Float → Float → Float} {x y : Double}
    (h : x.isNaN = true ∨ y.isNaN = true) : (binary f x y).isNaN = true := by
  rw [binary]
  by_cases hx : x.isNaN = true
  · rwa [if_pos hx]
  · have hy := h.resolve_left hx
    rwa [if_neg hx, if_pos hy]

/-- Nothing is below what is not a number. -/
theorem le_of_isNaN {x y : Double} (h : y.isNaN = true) : Scalar.le x y = false := by
  have hy : y.toFloat.toModel.unpack = .notANumber := by
    change y.toFloat.toModel.unpack.isNaN = true at h
    cases hu : y.toFloat.toModel.unpack with
    | notANumber => rfl
    | _ =>
      rw [hu] at h
      exact absurd h Bool.false_ne_true
  refine Bool.eq_false_iff.2 fun hle => ?_
  have hle : x.toFloat.le y.toFloat = true := of_decide_eq_true hle
  have hle : x.toFloat.toModel.unpack.le y.toFloat.toModel.unpack = true := of_decide_eq_true hle
  rw [hy] at hle
  cases hx : x.toFloat.toModel.unpack with
  | finite s => cases s <;> rw [hx] at hle <;> cases hle
  | _ =>
    rw [hx] at hle
    cases hle

end Double

namespace Jacobi

variable {m n i j p q : Nat} {c s : Double} {w : Grid Double}

/-! ## Rotations -/

theorem isNaN_turnColumns (hi : i < m) (hj : j < n) (h : (w.entry i j).isNaN = true) :
    ((turnColumns m n p q c s w).entry i j).isNaN = true := by
  rw [turnColumns, Grid.entry_tabulate _ hi hj]
  split
  · next hp =>
    subst hp
    exact Double.isNaN_binary (.inl (Double.isNaN_binary (.inr h)))
  · split
    · next hq =>
      subst hq
      exact Double.isNaN_binary (.inr (Double.isNaN_binary (.inr h)))
    · exact h

theorem isNaN_turnRows (hi : i < m) (hj : j < n) (h : (w.entry i j).isNaN = true) :
    ((turnRows m n p q c s w).entry i j).isNaN = true := by
  rw [turnRows, Grid.entry_tabulate _ hi hj]
  split
  · next hp =>
    subst hp
    exact Double.isNaN_binary (.inl (Double.isNaN_binary (.inr h)))
  · split
    · next hq =>
      subst hq
      exact Double.isNaN_binary (.inr (Double.isNaN_binary (.inr h)))
    · exact h

/-! ## Symmetric matrices -/

/-- The sum of all squares takes in each entry. -/
theorem isNaN_squares {ps : List Nat} {k : Nat} {a : Double × Double}
    (h : a.2.isNaN = true ∨ k ∈ ps ∧ (w.entry (k / n) (k % n)).isNaN = true) :
    (ps.foldl (fun s p =>
      let x := w.entry (p / n) (p % n)
      let sq := x * x
      (if p / n ≠ p % n then s.1 + sq else s.1, s.2 + sq)) a).2.isNaN = true := by
  induction ps generalizing a with
  | nil => exact h.resolve_right fun h => nomatch h.1
  | cons p ps ih =>
    refine ih ?_
    obtain h | ⟨hk, h⟩ := h
    · exact .inl (Double.isNaN_binary (.inl h))
    · rcases List.mem_cons.1 hk with rfl | hk
      · exact .inl (Double.isNaN_binary (.inr (Double.isNaN_binary (.inl h))))
      · exact .inr ⟨hk, h⟩

theorem isDiagonal_of_isNaN (hi : i < n) (hj : j < n) (h : (w.entry i j).isNaN = true) :
    isDiagonal n w = false := by
  have hn : 0 < n := by omega
  have hdiv : (i * n + j) / n = i := by
    rw [Nat.mul_comm, Nat.mul_add_div hn, Nat.div_eq_of_lt hj, Nat.add_zero]
  have hmod : (i * n + j) % n = j := by
    rw [Nat.mul_comm, Nat.mul_add_mod, Nat.mod_eq_of_lt hj]
  have hlt : i * n + j < n * n := by nlinarith
  have hs : (squares n w).2.isNaN = true :=
    isNaN_squares (k := i * n + j) (.inr ⟨List.mem_range.2 hlt, by rwa [hdiv, hmod]⟩)
  exact Double.le_of_isNaN (Double.isNaN_binary (.inr hs))

theorem isNaN_eigenStep {t : Grid Double × Grid Double} (pq : Nat × Nat) (hi : i < n) (hj : j < n)
    (h : (t.1.entry i j).isNaN = true) : ((eigenStep n t pq).1.entry i j).isNaN = true := by
  rw [eigenStep]
  dsimp only
  split
  · exact h
  · exact isNaN_turnRows hi hj (isNaN_turnColumns hi hj h)

theorem isNaN_foldl_eigenStep (ps : List (Nat × Nat)) {t : Grid Double × Grid Double} (hi : i < n)
    (hj : j < n) (h : (t.1.entry i j).isNaN = true) :
    ((ps.foldl (eigenStep n) t).1.entry i j).isNaN = true := by
  induction ps generalizing t with
  | nil => exact h
  | cons pq ps ih => exact ih (isNaN_eigenStep pq hi hj h)

theorem eigenSweeps_of_isNaN (k : Nat) {t : Grid Double × Grid Double} (hi : i < n) (hj : j < n)
    (h : (t.1.entry i j).isNaN = true) : eigenSweeps n k t = none := by
  induction k generalizing t with
  | zero => rfl
  | succ k ih =>
    rw [eigenSweeps, isDiagonal_of_isNaN hi hj h, if_neg Bool.false_ne_true]
    exact ih (isNaN_foldl_eigenStep (pairs n) hi hj h)

/-- **A symmetric matrix with an entry that is not a number has no eigenvalues.** -/
theorem eigh?_of_isNaN (hi : i < n) (hj : j < n) (h : (w.entry i j).isNaN = true) :
    eigh? n w = none := by
  have hnone : eigen? n w = none :=
    eigenSweeps_of_isNaN (t := (w, identity n)) maxSweeps hi hj h
  rw [eigh?, hnone, Option.map_none]

end Jacobi

end MemoFlow
