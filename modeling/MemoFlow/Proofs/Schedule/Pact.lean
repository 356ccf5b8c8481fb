import MemoFlow.Proofs.Schedule.Steps

/-!
# Processes that rely on each other

A process may learn something of the state and go on to rely on it, as long as what it learned stays
true whatever the others do. A pact says what may become of a state in the hands of all processes
together, and what each step of the process in question makes of it.

* **`Pact`**: what a process relies on, and what it keeps to;
* **`Process.Assures`**: the process keeps to the pact from a state on, and its result is as wanted;
* `Process.Assures.bind`: sequences;
* `Process.Assures.of_step`: single steps;
* `Process.Honours`: the process assures the pact from each state on;
* **`Process.Comes`**, `Process.Comes.bind`: all its runs come to the same result.
-/

namespace MemoFlow

variable {σ α β : Type}

/-- **A pact of processes that share a state.** -/
structure Pact (σ : Type) where
  /-- What holds of all states. -/
  holds : σ → Prop
  /-- What may become of a state. -/
  later : σ → σ → Prop
  /-- What a step of the process makes of a state. -/
  allows : σ → σ → Prop
  /-- When the end of a block has come. -/
  isDone : σ → Nat → Prop
  refl : ∀ s, later s s
  trans : ∀ {s t u}, later s t → later t u → later s u
  later_of_allows : ∀ {s t}, allows s t → later s t
  holds_of_later : ∀ {s t}, later s t → holds s → holds t

namespace Process

/-- **A process assures a pact**, from a state on that it has seen: each of its steps is allowed,
and its result is as wanted. A join is passed when the end of its block has come, or it is given
up. -/
inductive Assures (π : Pact σ) (Q : σ → α → Prop) : σ → Process σ α → Prop where
  /-- At its end. -/
  | done {s : σ} {a : α} (h : ∀ t, π.later s t → Q t a) : Assures π Q s (.done a)
  /-- When it reads. -/
  | read {s : σ} {k : σ → Process σ α} (h : ∀ t, π.later s t → Assures π Q t (k t)) :
    Assures π Q s (.read k)
  /-- When it changes the state. -/
  | change {s : σ} {f : σ → σ} {k : σ → Process σ α} (hf : ∀ t, π.later s t → π.allows t (f t))
    (hk : ∀ t, π.later s t → Assures π Q (f t) (k t)) :
    Assures π Q s (.read fun t => .write (f t) (k t))
  /-- At a gate. -/
  | gate {s : σ} {g : String} {p : Process σ α} (h : Assures π Q s p) : Assures π Q s (.gate g p)
  /-- At a join. -/
  | join {s : σ} {b : Nat} {timed : Bool} {k : Bool → Process σ α}
    (h : ∀ t r, π.later s t → (r = true → π.isDone t b) → Assures π Q t (k r)) :
    Assures π Q s (.join b timed k)

namespace Assures

variable {π : Pact σ} {Q : σ → α → Prop} {Q' : σ → β → Prop} {s t : σ}

/-- What was seen before may be forgotten. -/
theorem mono {p : Process σ α} (hp : Assures π Q s p) (h : π.later s t) : Assures π Q t p := by
  induction hp with
  | done hq => exact .done fun u hu => hq u (π.trans h hu)
  | read hk _ => exact .read fun u hu => hk u (π.trans h hu)
  | change hf hk _ =>
    exact .change (fun u hu => hf u (π.trans h hu)) fun u hu => hk u (π.trans h hu)
  | gate _ ih => exact .gate (ih h)
  | join hk _ => exact .join fun u r hu => hk u r (π.trans h hu)

/-- A result that is as wanted is so for less. -/
theorem imp {Q' : σ → α → Prop} {p : Process σ α} (hp : Assures π Q s p)
    (h : ∀ t a, Q t a → Q' t a) : Assures π Q' s p := by
  induction hp with
  | done hq => exact .done fun t ht => h t _ (hq t ht)
  | read _ ih => exact .read ih
  | change hf _ ih => exact .change hf ih
  | gate _ ih => exact .gate ih
  | join _ ih => exact .join ih

/-- **Sequences assure the pact**; the second part relies on what the first one saw. -/
theorem bind {p : Process σ α} {f : α → Process σ β} (hp : Assures π Q s p)
    (hf : ∀ a t, π.later s t → Q t a → Assures π Q' t (f a)) : Assures π Q' s (p >>= f) := by
  induction hp with
  | @done s a h =>
    exact hf a s (π.refl s) (h s (π.refl s))
  | read _ ih =>
    exact .read fun t ht => ih t ht fun a u hu => hf a u (π.trans ht hu)
  | change h _ ih =>
    refine .change h fun t ht => ih t ht fun a u hu => hf a u ?_
    exact π.trans ht (π.trans (π.later_of_allows (h t ht)) hu)
  | gate _ ih => exact .gate (ih hf)
  | join _ ih =>
    exact .join fun t r ht hr => ih t r ht hr fun a u hu => hf a u (π.trans ht hu)

theorem update {f : σ → α × σ} (h : ∀ t, π.later s t → π.allows t (f t).2 ∧
    ∀ u, π.later (f t).2 u → Q u (f t).1) : Assures π Q s (Process.update f) :=
  .change (fun t ht => (h t ht).1) fun t ht => .done (h t ht).2

/-- **A step assures the pact**, and so does the rest of the process. -/
theorem of_step {p q : Process σ α} {s' : σ} (hp : Assures π Q s p) (h : Step p s q s')
    (hj : ∀ b timed k, p = .join b timed k → π.isDone s b ∨ q = k false) :
    (s' = s ∨ π.allows s s') ∧ Assures π Q s' q := by
  cases hp with
  | done _ => exact nomatch h
  | read hk =>
    cases h with
    | read _ => exact ⟨.inl rfl, hk s (π.refl s)⟩
    | change he => exact nomatch he ▸ hk s (π.refl s)
  | change hf hk =>
    cases h with
    | read he => exact absurd rfl (he _ _)
    | change he =>
      obtain ⟨rfl, rfl⟩ := write.inj he
      exact ⟨.inr (hf s (π.refl s)), hk s (π.refl s)⟩
  | gate hp =>
    cases h
    exact ⟨.inl rfl, hp⟩
  | @join _ b timed k hk =>
    cases h with
    | join r =>
      refine ⟨.inl rfl, ?_⟩
      obtain hd | hq := hj b timed k rfl
      · exact hk s r (π.refl s) fun _ => hd
      · rw [hq]
        exact hk s false (π.refl s) nofun

end Assures

/-- **A process honours a pact**: it assures it from each state on, with results as wanted. -/
def Honours (π : Pact σ) (Q : α → Prop) (p : Process σ α) : Prop :=
  ∀ s, π.holds s → Assures π (fun _ a => Q a) s p

namespace Honours

variable {π : Pact σ} {Q : α → Prop} {Q' : β → Prop}

theorem pure {a : α} (h : Q a) : Honours π Q (Pure.pure a : Process σ α) :=
  fun _ _ => .done fun _ _ => h

theorem update {f : σ → α × σ} (h : ∀ s, π.allows s (f s).2) (hf : ∀ s, Q (f s).1) :
    Honours π Q (Process.update f) := fun _ _ => .update fun s _ => ⟨h s, fun _ _ => hf s⟩

theorem bind {p : Process σ α} {f : α → Process σ β} (hp : Honours π Q p)
    (hf : ∀ a, Q a → Honours π Q' (f a)) : Honours π Q' (p >>= f) := fun s hs =>
  (hp s hs).bind fun a t ht ha => hf a ha t (π.holds_of_later ht hs)

theorem forIn {l : List α} {f : α → β → Process σ (ForInStep β)}
    (h : ∀ a x, Honours π (fun _ => True) (f a x)) (x : β) :
    Honours π (fun _ => True) (ForIn.forIn l x f) := by
  induction l generalizing x with
  | nil => exact .pure trivial
  | cons a l ih =>
    rw [List.forIn_cons]
    refine (h a x).bind fun r _ => ?_
    cases r with
    | done x => exact .pure trivial
    | yield x => exact ih x

end Honours

/-- **A process comes to a result**: whatever the others do, it has no other one. -/
def Comes (π : Pact σ) (a : Id α) (p : Process σ α) : Prop := Honours π (fun r => r = a) p

namespace Comes

variable {π : Pact σ}

theorem pure (a : α) : Comes π (Pure.pure a) (Pure.pure a) := Honours.pure rfl

/-- A sequence comes to what its second part comes to after the result of the first one. -/
theorem after {a : Id α} {b : Id β} {p : Process σ α} {f : α → Process σ β} (hp : Comes π a p)
    (hf : Comes π b (f a)) : Comes π b (p >>= f) :=
  Honours.bind hp fun _ ha => ha ▸ hf

/-- **A sequence comes to what its parts come to.** -/
theorem bind {a : Id α} {g : α → Id β} {p : Process σ α} {f : α → Process σ β} (hp : Comes π a p)
    (hf : Comes π (g a) (f a)) : Comes π (a >>= g) (p >>= f) := hp.after hf

/-- A process without a result of interest. -/
theorem of_unit {p : Process σ Unit} (hp : Honours π (fun _ => True) p) :
    Comes π (Pure.pure ()) p := fun s hs => (hp s hs).imp fun _ _ _ => rfl

end Comes

end Process

end MemoFlow
