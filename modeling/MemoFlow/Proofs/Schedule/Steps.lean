import MemoFlow.Schedule.Workers

/-!
# Processes step by step

Where several processes share a state, each of them goes on by single steps: it reads, or it changes
the state, or it passes a wait. A change is a read with the write that follows it at once.

* `LawfulMonad (Process σ)`: sequences of processes can be put together anew;
* **`Process.Step`**, `Process.step_update_iff`, `Process.Step.of_bind`: the steps of a process, of
  a change and of a sequence;
* `Process.advance_bind`: a process that does not wait runs to its end;
* **`Rule`**, `Process.Abides`: what each step of a process keeps to, whatever other processes do
  between its steps, and what its result is like;
* `Process.Abides.bind`, `Process.Abides.of_step`: sequences keep to a rule, and so do single steps;
* **`Process.Interleaves`**: processes over one state, each turn a step of one of them;
* **`Process.Interleaves.keeps`**: what every step of each of them keeps, all turns keep;
* `Process.Interleaves.finish`: a process that does not wait may run to its end while others rest.
-/

namespace MemoFlow

variable {σ α β : Type}

namespace Process

instance : LawfulMonad (Process σ) :=
  .mk' (Process σ)
    (fun p => by
      show p.bind (fun a => .done a) = p
      induction p with
      | done a => rfl
      | read k ih => exact congrArg Process.read (funext ih)
      | write s p ih => exact congrArg (Process.write s) ih
      | gate g p ih => exact congrArg (Process.gate g) ih
      | join b timed k ih => exact congrArg (Process.join b timed) (funext ih))
    (fun _ _ => rfl)
    (fun p f g => by
      show (p.bind f).bind g = p.bind fun a => (f a).bind g
      induction p with
      | done a => rfl
      | read k ih => exact congrArg Process.read (funext ih)
      | write s p ih => exact congrArg (Process.write s) ih
      | gate g p ih => exact congrArg (Process.gate g) ih
      | join b timed k ih => exact congrArg (Process.join b timed) (funext ih))

/-! ## Steps -/

/-- A process that does not begin with a write. -/
def IsMild (p : Process σ α) : Prop := ∀ s q, p ≠ .write s q

/-- **One step of a process** from a state. A wait may be passed at any time, and a join may be
given up. -/
inductive Step : Process σ α → σ → Process σ α → σ → Prop where
  /-- It reads the state. -/
  | read {k : σ → Process σ α} {s : σ} (h : (k s).IsMild) : Step (.read k) s (k s) s
  /-- It changes the state. -/
  | change {k : σ → Process σ α} {s s' : σ} {p : Process σ α} (h : k s = .write s' p) :
    Step (.read k) s p s'
  /-- It writes the state. -/
  | write {s s' : σ} {p : Process σ α} : Step (.write s' p) s p s'
  /-- It passes a gate. -/
  | gate {g : String} {s : σ} {p : Process σ α} : Step (.gate g p) s p s
  /-- It passes a join. -/
  | join {b : Nat} {timed : Bool} {s : σ} {k : Bool → Process σ α} (r : Bool) :
    Step (.join b timed k) s (k r) s

theorem Step.read_of_eq {k : σ → Process σ α} {s : σ} {p : Process σ α} (hk : k s = p)
    (hp : p.IsMild) : Step (.read k) s p s := by
  subst hk
  exact .read hp

/-- The only step of a change is to make it. -/
theorem step_update_iff {f : σ → β × σ} {g : β → Process σ α} {s s' : σ} {p : Process σ α} :
    Step (update f >>= g) s p s' ↔ ∃ r, (update f).advance s = (.done r, s') ∧ p = g r := by
  constructor
  · intro h
    cases h with
    | read h => exact absurd rfl (h (f s).2 (g (f s).1))
    | change h =>
      obtain ⟨rfl, rfl⟩ := write.inj h
      exact ⟨(f s).1, rfl, rfl⟩
  · rintro ⟨r, hr, rfl⟩
    obtain ⟨hdone, rfl⟩ := Prod.mk.inj hr
    obtain rfl := Stop.done.inj hdone
    exact .change rfl

theorem step_modify_iff {f : σ → σ} {g : Unit → Process σ α} {s s' : σ} {p : Process σ α} :
    Step (modify f >>= g) s p s' ↔ (modify f).advance s = (.done (), s') ∧ p = g () := by
  have hf : modify f = update fun s => ((), f s) := rfl
  rw [hf, step_update_iff]
  constructor
  · rintro ⟨r, hr⟩
    exact hr
  · intro hr
    exact ⟨(), hr⟩

theorem isMild_update {f : σ → β × σ} {g : β → Process σ α} : (update f >>= g).IsMild :=
  fun _ _ h => nomatch h

/-- **The steps of a sequence** are those of its first part, and after the end of that the steps of
the second one. -/
theorem Step.of_bind {p : Process σ α} {f : α → Process σ β} (hf : ∀ a, (f a).IsMild) {s s' : σ}
    {q : Process σ β} (h : Step (p >>= f) s q s') :
    (∃ a, p = .done a ∧ Step (f a) s q s') ∨ ∃ r, Step p s r s' ∧ q = r >>= f := by
  cases p with
  | done a => exact .inl ⟨a, rfl, h⟩
  | read k =>
    right
    cases h with
    | read h => exact ⟨k s, .read fun t r hr => h t (r >>= f) (congrArg (· >>= f) hr), rfl⟩
    | change h =>
      have hk : ∀ {r}, k s = r → r >>= f = .write s' q := fun hr => hr ▸ h
      match hr : k s with
      | .done a => exact absurd (hk hr) (hf a s' q)
      | .write t r =>
        obtain ⟨rfl, rfl⟩ := write.inj (hk hr)
        exact ⟨r, .change hr, rfl⟩
      | .read _ => exact nomatch hk hr
      | .gate _ _ => exact nomatch hk hr
      | .join _ _ _ => exact nomatch hk hr
  | write t r =>
    cases h
    exact .inr ⟨r, .write, rfl⟩
  | gate g r =>
    cases h
    exact .inr ⟨r, .gate, rfl⟩
  | join b timed k =>
    cases h with
    | join r => exact .inr ⟨k r, .join r, rfl⟩

/-- The steps of the first part of a sequence are steps of the sequence. -/
theorem Step.bind {p q : Process σ α} {f : α → Process σ β} (hf : ∀ a, (f a).IsMild) {s s' : σ}
    (h : Step p s q s') : Step (p >>= f) s (q >>= f) s' := by
  cases h with
  | @read k _ h =>
    refine .read (k := fun s => k s >>= f) fun s' r hr => ?_
    cases hk : k s with
    | done a => exact hf a s' r (by rw [← hr, hk]; rfl)
    | write t q => exact h t q hk
    | read k' => rw [hk] at hr; cases hr
    | gate g q => rw [hk] at hr; cases hr
    | join b timed k' => rw [hk] at hr; cases hr
  | @change k _ _ _ h => exact .change (k := fun s => k s >>= f) (congrArg (· >>= f) h)
  | write => exact .write
  | gate => exact .gate
  | join r => exact .join r

/-- A process that runs to its end goes on with its result. -/
theorem advance_bind {p : Process σ α} {f : α → Process σ β} {s s' : σ} {a : α}
    (h : p.advance s = (.done a, s')) : (p >>= f).advance s = (f a).advance s' := by
  induction p generalizing s with
  | done b =>
    obtain ⟨h1, h2⟩ := Prod.mk.inj h
    obtain rfl := Stop.done.inj h1
    rw [← h2]
    rfl
  | read k ih => exact ih s h
  | write t p ih => exact ih h
  | gate g p => exact nomatch congrArg Prod.fst h
  | join b timed k => exact nomatch congrArg Prod.fst h

end Process

/-! ## Rules -/

/-- **A rule for steps**: what they make of a state, in all states with a property. -/
structure Rule (σ : Type) where
  /-- The property. -/
  holds : σ → Prop
  /-- What a step makes of a state. -/
  allows : σ → σ → Prop

namespace Process

/-- **A process abides by a rule** in each of its steps, and its result is as wanted. The state may
show between any two of the steps. -/
inductive Abides (ρ : Rule σ) (Q : α → Prop) : Process σ α → Prop where
  /-- At its end. -/
  | done {a : α} (h : Q a) : Abides ρ Q (.done a)
  /-- When it reads. -/
  | read {k : σ → Process σ α} (h : ∀ s, ρ.holds s → Abides ρ Q (k s)) : Abides ρ Q (.read k)
  /-- When it changes the state. -/
  | change {f : σ → σ} {k : σ → Process σ α} (hf : ∀ s, ρ.holds s → ρ.allows s (f s))
    (hk : ∀ s, ρ.holds s → Abides ρ Q (k s)) : Abides ρ Q (.read fun s => .write (f s) (k s))
  /-- At a gate. -/
  | gate {g : String} {p : Process σ α} (h : Abides ρ Q p) : Abides ρ Q (.gate g p)
  /-- At a join. -/
  | join {b : Nat} {timed : Bool} {k : Bool → Process σ α} (h : ∀ r, Abides ρ Q (k r)) :
    Abides ρ Q (.join b timed k)

namespace Abides

variable {ρ : Rule σ} {Q : α → Prop} {Q' : β → Prop}

theorem state {P : σ → Prop} (h : ∀ s, ρ.holds s → P s) : Abides ρ P Process.state :=
  .read fun s hs => .done (h s hs)

theorem update {f : σ → α × σ} (h : ∀ s, ρ.holds s → ρ.allows s (f s).2 ∧ Q (f s).1) :
    Abides ρ Q (Process.update f) :=
  .change (fun s hs => (h s hs).1) fun s hs => .done (h s hs).2

/-- **Sequences abide.** -/
theorem bind {p : Process σ α} {f : α → Process σ β} (hp : Abides ρ Q p)
    (hf : ∀ a, Q a → Abides ρ Q' (f a)) : Abides ρ Q' (p >>= f) := by
  induction hp with
  | done h => exact hf _ h
  | read _ ih => exact .read ih
  | change h _ ih => exact .change h ih
  | gate _ ih => exact .gate ih
  | join _ ih => exact .join ih

/-- **A step abides**, and so does the rest of the process. -/
theorem of_step {p q : Process σ α} {s s' : σ} (hp : Abides ρ Q p) (hs : ρ.holds s)
    (h : Step p s q s') : (s' = s ∨ ρ.allows s s') ∧ Abides ρ Q q := by
  cases hp with
  | done _ => exact nomatch h
  | read hk =>
    cases h with
    | read _ => exact ⟨.inl rfl, hk s hs⟩
    | change he => exact nomatch he ▸ hk s hs
  | change hf hk =>
    cases h with
    | read he => exact absurd rfl (he _ _)
    | change he =>
      obtain ⟨rfl, rfl⟩ := write.inj he
      exact ⟨.inr (hf s hs), hk s hs⟩
  | gate hp =>
    cases h
    exact ⟨.inl rfl, hp⟩
  | join hk =>
    cases h
    exact ⟨.inl rfl, hk _⟩

end Abides

/-- A process abides by a rule, whatever its result is. -/
def Obeys (ρ : Rule σ) (p : Process σ α) : Prop := Abides ρ (fun _ => True) p

namespace Obeys

variable {ρ : Rule σ}

theorem pure (a : α) : Obeys ρ (Pure.pure a : Process σ α) := .done trivial

theorem state : Obeys ρ (Process.state : Process σ σ) := Abides.state fun _ _ => trivial

theorem update {f : σ → α × σ} (h : ∀ s, ρ.holds s → ρ.allows s (f s).2) :
    Obeys ρ (Process.update f) := Abides.update fun s hs => ⟨h s hs, trivial⟩

theorem modify {f : σ → σ} (h : ∀ s, ρ.holds s → ρ.allows s (f s)) :
    Obeys ρ (Process.modify f) := .change h fun _ _ => .done trivial

theorem pass (g : String) : Obeys ρ (Process.pass g : Process σ Unit) := .gate (.done trivial)

theorem bind {p : Process σ α} {f : α → Process σ β} (hp : Obeys ρ p) (hf : ∀ a, Obeys ρ (f a)) :
    Obeys ρ (p >>= f) := Abides.bind hp fun a _ => hf a

theorem forIn {l : List α} {f : α → β → Process σ (ForInStep β)} (h : ∀ a x, Obeys ρ (f a x))
    (x : β) : Obeys ρ (ForIn.forIn l x f) := by
  induction l generalizing x with
  | nil => exact .pure x
  | cons a l ih =>
    rw [List.forIn_cons]
    refine (h a x).bind fun r => ?_
    cases r with
    | done x => exact .pure x
    | yield x => exact ih x

end Obeys

/-! ## Processes that take turns -/

variable {ps ps' : List (Process σ Unit)} {s s' : σ}

/-- Whether a process has come to its end. -/
def Stop.isDone {α : Type} : Stop σ α → Bool
  | .done _ => true
  | _ => false

theorem Stop.eq_done {x : Stop σ Unit} (h : x.isDone = true) : x = .done () := by
  cases x with
  | done a => rfl
  | gate g p => cases h
  | join b timed k => cases h

/-- **Processes over one state take turns**: each turn is one step of one of them. -/
inductive Interleaves (ps : List (Process σ Unit)) (s : σ) : List (Process σ Unit) → σ → Prop
  | start : Interleaves ps s ps s
  | turn {qs : List (Process σ Unit)} {t t' : σ} {i : Nat} {p q : Process σ Unit}
      (before : Interleaves ps s qs t) (at_ : qs[i]? = some p) (step : Step p t q t') :
    Interleaves ps s (qs.set i q) t'

namespace Interleaves

/-- **What each step keeps, all turns keep.** -/
theorem keeps {ρ : Rule σ} {I : σ → Prop} (holds : ∀ t, I t → ρ.holds t)
    (allows : ∀ t t', I t → ρ.allows t t' → I t') (h : Interleaves ps s ps' s')
    (hp : ∀ p ∈ ps, Obeys ρ p) (hs : I s) : I s' ∧ ∀ p ∈ ps', Obeys ρ p := by
  induction h with
  | start => exact ⟨hs, hp⟩
  | @turn qs t t' i p q _ hi hstep ih =>
    obtain ⟨ht, hq⟩ := ih
    obtain ⟨hnext, hrest⟩ := Abides.of_step (hq p (List.mem_of_getElem? hi)) (holds t ht) hstep
    constructor
    · obtain rfl | ha := hnext
      · exact ht
      · exact allows t t' ht ha
    · intro p' hm
      obtain hm | rfl := List.mem_or_eq_of_mem_set hm
      · exact hq p' hm
      · exact hrest

/-- Turns that take a process to its end. -/
def Finishes (ps : List (Process σ Unit)) (s : σ) (p : Process σ Unit) : Prop :=
  ∀ ⦃qs : List (Process σ Unit)⦄ ⦃i : Nat⦄ ⦃t t' : σ⦄, Interleaves ps s qs t → qs[i]? = some p →
    p.advance t = (.done (), t') → Interleaves ps s (qs.set i (.done ())) t'

/-- A turn, and then those that take the rest to its end. -/
theorem Finishes.turn {qs : List (Process σ Unit)} {i : Nat} {t t' u : σ} {p q : Process σ Unit}
    (hq : Finishes ps s q) (h : Interleaves ps s qs t) (hi : qs[i]? = some p)
    (hstep : Step p t q u) (ha : q.advance u = (.done (), t')) :
    Interleaves ps s (qs.set i (.done ())) t' := by
  have hlt := (List.getElem?_eq_some_iff.1 hi).1
  have hend := hq (h.turn hi hstep) (List.getElem?_set_self hlt) ha
  rwa [List.set_set] at hend

/-- **A process that runs to its end by itself** does so in turns of its own. -/
theorem finishes (p : Process σ Unit) : Finishes ps s p := by
  -- A read takes a write behind it along, so the rest after a write is needed at the same time.
  suffices Finishes ps s p ∧ ∀ u q, p = .write u q → Finishes ps s q from this.1
  induction p with
  | done a =>
    refine ⟨fun qs i t t' h hi ha => ?_, nofun⟩
    obtain rfl : t = t' := congrArg Prod.snd ha
    obtain ⟨hlt, he⟩ := List.getElem?_eq_some_iff.1 hi
    rwa [← he, List.set_getElem_self]
  | read k ih =>
    refine ⟨fun qs i t t' h hi ha => ?_, nofun⟩
    have hk : (k t).advance t = (.done (), t') := ha
    by_cases hm : (k t).IsMild
    · exact (ih t).1.turn h hi (.read hm) hk
    · obtain ⟨u, q, hq⟩ : ∃ u q, k t = .write u q := by simpa [IsMild] using hm
      rw [hq] at hk
      exact ((ih t).2 u q hq).turn h hi (.change hq) hk
  | write u q ih =>
    refine ⟨fun qs i t t' h hi ha => ih.1.turn h hi .write ha, fun u' q' he => ?_⟩
    obtain ⟨-, rfl⟩ := write.inj he
    exact ih.1
  | gate g p => exact ⟨fun qs i t t' _ _ ha => (nomatch congrArg Prod.fst ha), nofun⟩
  | join b timed k => exact ⟨fun qs i t t' _ _ ha => (nomatch congrArg Prod.fst ha), nofun⟩

/-- **A process runs to its end** when it can, while the others rest. -/
theorem finish {i : Nat} {p : Process σ Unit} (h : Interleaves ps s ps' s')
    (hi : ps'[i]? = some p) (hd : (p.advance s').1.isDone = true) :
    Interleaves ps s (ps'.set i (.done ())) (p.advance s').2 :=
  finishes p h hi (Prod.ext (Stop.eq_done hd) rfl)

end Interleaves

end Process

end MemoFlow
