import MemoFlow.Proofs.Bindings

/-!
# Edits of bindings, name by name

Edits act on each name by itself. What a list of edits does to one name is a touch: the name is
left, bound, bound where it was bound already, or forgotten. The touch of a name tells its binding
after the edits, and what a record of the outputs holds of it.

* **`Edit`**, `Edit.apply`, `Edit.applyAll`: the edits;
* **`Touch`**, `Touch.run`, `Touch.comp`, `Edit.touches`: what edits do to a name;
* `Environment.Bears`, `Bears.applyAll`: bindings after edits, with their log;
* `Touch.kept`, **`Environment.Bears.findIn_outputsSince`**: what is recorded of a name;
* `Touch.Fits`, **`Touch.fits_iff`**: when a record of some bindings does to others what the edits
  do.
-/

namespace MemoFlow

open NameMap

/-- **The edits of bindings.** -/
inductive Edit (σ : Type := String) [IsText σ] where
  /-- Bind a name. -/
  | define (n : σ) (v : Value σ)
  /-- Bind a name that is bound already. -/
  | set (n : σ) (v : Value σ)
  /-- Write all bindings of an environment. -/
  | merge (other : Environment σ)
  /-- Forget a name. -/
  | erase (n : σ)

/-- What is done to one name. -/
inductive Touch (σ : Type := String) where
  /-- It is left as it is. -/
  | none
  /-- It is bound. -/
  | bind (v : Value σ)
  /-- It is bound where it was bound already. -/
  | update (v : Value σ)
  /-- It is forgotten. -/
  | drop

namespace Touch

variable {σ : Type}

/-- What a touch makes of a binding. -/
def run : Touch σ → Option (Value σ) → Option (Value σ)
  | none, b => b
  | bind v, _ => some v
  | update v, b => b.map fun _ => v
  | drop, _ => Option.none

/-- One touch after the other. -/
def comp : Touch σ → Touch σ → Touch σ
  | a, none => a
  | _, bind v => bind v
  | _, drop => drop
  | none, update v => update v
  | bind _, update v => bind v
  | update _, update v => update v
  | drop, update _ => drop

/-- A name that is forgotten in a copy of the bindings is left in the bindings. -/
def settled : Touch σ → Touch σ
  | drop => none
  | t => t

/-- What a record of the outputs holds of a name. -/
def kept [IsText σ] : Touch σ → Option (Value σ) → Option (Value σ)
  | none, b => b.filter fun v => !v.same v
  | bind v, _ => some v
  | update v, b => b.map fun _ => v
  | drop, _ => Option.none

/-- **A touch fits two bindings of a name**: a record that was made where it was bound as the first
one does to the second one what the touch does. A name that is left must not carry over a value that
is not the same as itself, a name that is bound where it was bound already must be bound in both or
in none, and a name that is forgotten must not be bound. -/
def Fits [IsText σ] : Touch σ → Option (Value σ) → Option (Value σ) → Prop
  | none, a, b => ∀ v, a = some v → v.same v = false → b = some v
  | bind _, _, _ => True
  | update _, some _, b => b.isSome = true
  | update v, Option.none, b => b = Option.none ∨ b = some v
  | drop, _, b => b = Option.none

theorem comp_none (t : Touch σ) : t.comp none = t := by cases t <;> rfl

theorem none_comp (t : Touch σ) : none.comp t = t := by cases t <;> rfl

theorem comp_assoc (a b c : Touch σ) : (a.comp b).comp c = a.comp (b.comp c) := by
  cases a <;> cases b <;> cases c <;> rfl

/-- **A record does what a touch does** exactly when the touch fits. -/
theorem fits_iff [IsText σ] (t : Touch σ) (a b : Option (Value σ)) :
    (t.kept a).or b = t.run b ↔ t.Fits a b := by
  cases t with
  | none =>
    cases a with
    | none => simp [kept, run, Fits]
    | some v =>
      cases hv : v.same v with
      | true => simp [kept, run, Fits, Option.filter, hv]
      | false => simpa [kept, run, Fits, Option.filter, hv] using eq_comm
  | bind v => simp [kept, run, Fits]
  | update v => cases a <;> cases b <;> simp [kept, run, Fits]
  | drop => simp [kept, run, Fits]

end Touch

namespace Edit

variable {σ : Type} [IsText σ]

/-- The bindings after an edit. -/
def apply (env : Environment σ) : Edit σ → Environment σ
  | define n v => env.define n v
  | set n v => (env.set? n v).getD env
  | merge other => env.merge other
  | erase n => env.erase n

/-- The bindings after edits, the first one first. -/
def applyAll (l : List (Edit σ)) (env : Environment σ) : Environment σ := l.foldl apply env

/-- What an edit does to a name. -/
def touch (n : σ) : Edit σ → Touch σ
  | define k v => if k = n then .bind v else .none
  | set k v => if k = n then .update v else .none
  | merge other => match other.find? n with
    | some v => .bind v
    | none => .none
  | erase k => if k = n then .drop else .none

/-- What edits do to a name. -/
def touches (n : σ) : List (Edit σ) → Touch σ
  | [] => .none
  | e :: l => (e.touch n).comp (touches n l)

end Edit

/-! ## Bindings after edits -/

namespace Environment

variable {σ : Type} [IsText σ] {n : σ}

/-- The value of a name in an environment that was changed from a base by a touch. A name that was
bound since is in the log, and a name that was left is in it only when its value is not the same as
itself. -/
structure Bears (env base : Environment σ) (n : σ) (t : Touch σ) : Prop where
  find : env.find? n = t.run (base.find? n)
  bound : ∀ v, t = .bind v → env.written.contains n = true
  updated : ∀ v, t = .update v → (base.find? n).isSome → env.written.contains n = true
  left : t = .none → env.written.contains n = true → ∃ v, base.find? n = some v ∧ v.same v = false

theorem Bears.refl (base : Environment σ) (n : σ) : base.clearWrites.Bears base n .none where
  find := rfl
  bound := nofun
  updated := nofun
  left _ := nofun

namespace Bears

variable {env base : Environment σ} {t : Touch σ}

/-- Another touch of a name that is bound now. -/
theorem write (h : env.Bears base n t) {env' : Environment σ} {v : Value σ}
    (hf : env'.find? n = some v) (hw : env'.written.contains n = true) :
    env'.Bears base n (t.comp (.bind v)) := by
  rw [show t.comp (.bind v) = .bind v by cases t <;> rfl]
  exact ⟨hf, fun _ _ => hw, nofun, nofun⟩

/-- A name whose binding stays as it is, and that gets into the log only when its value is not the
same as itself. -/
theorem settle (h : env.Bears base n t) {env' : Environment σ} (hf : env'.find? n = env.find? n)
    (hw : env.written.contains n = true → env'.written.contains n = true)
    (hl : env'.written.contains n = true →
      env.written.contains n = true ∨ ∃ v, env.find? n = some v ∧ v.same v = false) :
    env'.Bears base n (t.comp .none) := by
  rw [Touch.comp_none]
  refine ⟨hf.trans h.find, fun v he => hw (h.bound v he), fun v he hb => hw (h.updated v he hb),
    fun he hm => ?_⟩
  rcases hl hm with hm | ⟨v, hv, hs⟩
  · exact h.left he hm
  · rw [h.find, he] at hv
    exact ⟨v, hv, hs⟩

/-- A name whose binding and mark in the log stay as they are. -/
theorem stay (h : env.Bears base n t) {env' : Environment σ} (hf : env'.find? n = env.find? n)
    (hw : env'.written.contains n = env.written.contains n) :
    env'.Bears base n (t.comp .none) :=
  h.settle hf (fun hm => hw ▸ hm) fun hm => .inl (hw ▸ hm)

theorem forget (h : env.Bears base n t) {env' : Environment σ} (hf : env'.find? n = none) :
    env'.Bears base n (t.comp .drop) := by
  rw [show t.comp .drop = .drop by cases t <;> rfl]
  exact ⟨hf, nofun, nofun, nofun⟩

/-- A name that is bound where it was bound already. -/
theorem update (h : env.Bears base n t) {env' : Environment σ} {v : Value σ}
    (hf : env'.find? n = (env.find? n).map fun _ => v)
    (hw : (env.find? n).isSome → env'.written.contains n = true) :
    env'.Bears base n (t.comp (.update v)) := by
  have hr := h.find
  cases t with
  | none =>
    exact ⟨by rw [hf, hr]; rfl, nofun, fun _ _ hb => hw (hr ▸ hb), nofun⟩
  | bind w =>
    exact ⟨by rw [hf, hr]; rfl, fun _ _ => hw (by rw [hr]; rfl), nofun, nofun⟩
  | update w =>
    refine ⟨?_, nofun, fun _ _ hb => hw ?_, nofun⟩
    · rw [hf, hr]
      cases base.find? n <;> rfl
    · rw [hr]
      simpa [Touch.run] using hb
  | drop => exact ⟨by rw [hf, hr]; rfl, nofun, nofun, nofun⟩

/-- A name is bound if it is bound already. -/
theorem set (h : env.Bears base n t) (v : Value σ) :
    ((env.set? n v).getD env).Bears base n (t.comp (.update v)) := by
  have hc : env.contains n = (env.find? n).isSome := rfl
  rw [set?, hc]
  cases hb : env.find? n with
  | none => exact h.update (by rw [hb]; exact hb) fun hs => by rw [hb] at hs; cases hs
  | some w =>
    rw [Option.isSome_some, if_pos rfl, Option.getD_some]
    exact h.update (by rw [find?_define, if_pos rfl, hb]; rfl) fun _ => by simp [written_define]

/-- **One edit touches a name.** -/
theorem apply (h : env.Bears base n t) (e : Edit σ) :
    (e.apply env).Bears base n (t.comp (e.touch n)) := by
  cases e with
  | define k v =>
    rw [Edit.apply, Edit.touch]
    split
    · next hk => exact h.write (by rw [find?_define, if_pos hk]) (by simp [written_define, hk])
    · next hk => exact h.stay (by rw [find?_define, if_neg hk]) (by simp [written_define, hk])
  | set k v =>
    rw [Edit.apply, Edit.touch]
    split
    · next hk => exact hk ▸ (hk ▸ h).set v
    · next hk =>
      rw [set?]
      split
      · exact h.stay (by rw [Option.getD_some, find?_define, if_neg hk])
          (by simp [written_define, hk])
      · exact h.stay rfl rfl
  | merge other =>
    rw [Edit.apply, Edit.touch]
    have hm : (other.find? n).isSome = decide (n ∈ other.toList.map Prod.fst) := findIn_isSome
    cases hv : other.find? n with
    | some v =>
      rw [hv] at hm
      exact h.write (by rw [find?_merge, hv]; rfl) (by rw [merge, written_overlay, ← hm]; rfl)
    | none =>
      rw [hv] at hm
      exact h.stay (by rw [find?_merge, hv]; rfl) (by rw [merge, written_overlay, ← hm]; rfl)
  | erase k =>
    rw [Edit.apply, Edit.touch]
    split
    · next hk => exact h.forget (by rw [find?_erase, if_pos hk])
    · next hk => exact h.stay (by rw [find?_erase, if_neg hk]) rfl

/-- **Edits touch a name.** -/
theorem applyAll (h : env.Bears base n t) (l : List (Edit σ)) :
    (Edit.applyAll l env).Bears base n (t.comp (Edit.touches n l)) := by
  induction l generalizing env t with
  | nil => rwa [Edit.touches, Touch.comp_none]
  | cons e l ih =>
    rw [Edit.touches, ← Touch.comp_assoc]
    exact ih (h.apply e)

/-- **What is recorded of a name.** -/
theorem findIn_outputsSince (h : env.Bears base n t) :
    findIn n (env.outputsSince base) = t.kept (base.find? n) := by
  rw [Environment.findIn_outputsSince, h.find]
  cases t with
  | none =>
    cases hb : base.find? n with
    | none => rfl
    | some v =>
      have hl := h.left rfl
      rw [hb] at hl
      rw [Touch.run, Touch.kept, Option.filter, Option.filter, differs_self hb]
      cases hw : env.written.contains n with
      | false => rfl
      | true =>
        obtain ⟨v', hv, hs⟩ := hl hw
        rw [Option.some.inj hv, hs]
        rfl
  | bind v => simp [Touch.run, Touch.kept, Option.filter, h.bound v rfl]
  | update v =>
    have hu := h.updated v rfl
    cases hb : base.find? n with
    | none => rfl
    | some w =>
      rw [hb] at hu
      simp [Touch.run, Touch.kept, Option.filter, hu rfl]
  | drop => rfl

/-- The outputs of edits on a copy, written over the bindings. -/
theorem overlay_outputs (h : env.Bears base n t) (l : List (Edit σ)) :
    (env.overlay ((Edit.applyAll l env.clearWrites).outputsSince env)).Bears base n
      (t.comp (Edit.touches n l).settled) := by
  have ho := ((Bears.refl env n).applyAll l).findIn_outputsSince
  rw [Touch.none_comp] at ho
  have hf : (env.overlay ((Edit.applyAll l env.clearWrites).outputsSince env)).find? n =
      ((Edit.touches n l).kept (env.find? n)).or (env.find? n) := by
    rw [find?_overlay_of_sorted _ (sorted_outputsSince _ _), ho]
  have hw : (env.overlay ((Edit.applyAll l env.clearWrites).outputsSince env)).written.contains n =
      (((Edit.touches n l).kept (env.find? n)).isSome || env.written.contains n) := by
    rw [written_overlay, ← findIn_isSome, ho]
  cases ht : Edit.touches n l with
  -- The outputs also list a name that was left, when its value is not the same as itself.
  | none =>
    rw [ht] at hf hw
    refine h.settle ?_ (fun hm => by rw [hw, hm, Bool.or_true]) fun hm => ?_
    · rw [hf]
      cases hb : env.find? n with
      | none => rfl
      | some v => cases hs : v.same v <;> simp [Touch.kept, Option.filter, hs]
    · rw [hw, Bool.or_eq_true] at hm
      refine hm.symm.imp_right fun hk => ?_
      obtain ⟨v, hv⟩ := Option.isSome_iff_exists.1 hk
      obtain ⟨hv, hs⟩ := Option.filter_eq_some_iff.1 hv
      exact ⟨v, hv, by simpa using hs⟩
  | bind v =>
    rw [ht] at hf hw
    exact h.write (by rw [hf]; rfl) (by rw [hw]; rfl)
  | update v =>
    rw [ht] at hf hw
    refine h.update ?_ fun hs => ?_
    · rw [hf]
      cases env.find? n <;> rfl
    · rw [hw, Touch.kept, Option.isSome_map, hs]
      rfl
  | drop =>
    rw [ht] at hf hw
    exact h.stay (by rw [hf]; rfl) (by rw [hw]; rfl)

end Bears

end Environment

end MemoFlow
