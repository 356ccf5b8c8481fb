import Mathlib
import MemoFlow.Proofs.Branch.Records

/-!
# All blocks of a session at work

The slices of all blocks make their steps in any order, with clients that start blocks and collect
results around them. Branches may start blocks of their own, whose slices join the others.

* `Coordinator.Tidy`, `Coordinator.Retains`, `Coordinator.Moves.cases`: numbers of blocks, and the
  two kinds of moves;
* **`Floor`**, **`Floor.Step`**, `Floor.new`: the slices of all blocks with the session and the
  records so far;
* `Floor.crew`, `Floor.records`: what belongs to a block;
* **`Floor.Kept`**, `Floor.Kept.own`, `Floor.Kept.other`, `Floor.Kept.new`: what holds of one block.
-/

namespace MemoFlow

/-! ## Blocks of a coordinator -/

namespace Coordinator

variable {τ : Type} {c c' : Coordinator τ} {b : Nat}

/-- Blocks have numbers of their own, which were given away. -/
structure Tidy (c : Coordinator τ) : Prop where
  ids : (c.blocks.map Block.id).Nodup
  below : ∀ x ∈ c.blocks, x.id < c.nextBlock

theorem block?_eq_some_iff (h : c.Tidy) {x : Block τ} :
    c.block? b = some x ↔ x ∈ c.blocks ∧ x.id = b := by
  constructor
  · intro hx
    exact ⟨List.mem_of_find?_eq_some hx, by simpa using List.find?_some hx⟩
  · rintro ⟨hx, rfl⟩
    have hids := h.ids
    unfold block?
    generalize c.blocks = l at hx hids
    induction l with
    | nil => cases hx
    | cons y l ih =>
      rw [List.map_cons, List.nodup_cons] at hids
      rw [List.find?_cons]
      obtain rfl | hx := List.mem_cons.1 hx
      · simp
      · have hne : y.id ≠ x.id := fun he => hids.1 (he ▸ List.mem_map_of_mem hx)
        simp only [hne, decide_false]
        exact ih hx hids.2

/-- What all blocks have together. -/
def total (c : Coordinator τ) (f : Block τ → Nat) : Nat := (c.blocks.map f).sum

theorem total_add {f g₁ g₂ g₃ : Block τ → Nat}
    (h : ∀ x ∈ c.blocks, f x = g₁ x + g₂ x + g₃ x) :
    c.total f = c.total g₁ + c.total g₂ + c.total g₃ := by
  unfold total
  generalize c.blocks = l at h
  induction l with
  | nil => rfl
  | cons x l ih =>
    have hx := h x List.mem_cons_self
    have ih := ih fun y hy => h y (List.mem_cons_of_mem _ hy)
    simp only [List.map_cons, List.sum_cons]
    omega

/-- A change of one block changes what all blocks have together by what it has. -/
theorem total_modifyBlock (h : (c.blocks.map Block.id).Nodup) {x : Block τ}
    (hx : c.block? b = some x) (g : Block τ → Block τ) (f : Block τ → Nat) :
    (c.modifyBlock b g).total f + f x = c.total f + f (g x) := by
  unfold total modifyBlock
  unfold block? at hx
  dsimp only
  generalize c.blocks = l at h hx
  induction l with
  | nil => cases hx
  | cons y l ih =>
    rw [List.map_cons, List.nodup_cons] at h
    rw [List.find?_cons] at hx
    simp only [List.map_cons, List.sum_cons]
    by_cases hy : y.id = b
    · simp only [hy, decide_true, Option.some.injEq] at hx
      subst hx
      have hrest : l.map (fun z => if z.id = b then g z else z) = l := by
        refine (List.map_congr_left fun z hz => if_neg fun he => h.1 ?_).trans (List.map_id _)
        rw [hy, ← he]
        exact List.mem_map_of_mem hz
      rw [if_pos hy, hrest]
      omega
    · simp only [hy, decide_false] at hx
      rw [if_neg hy]
      have := ih h.2 hx
      omega

/-- **A step that enters no block**: the blocks stay the same, but for collected results. -/
structure Retains (c : Coordinator τ) (f : Block τ → Block τ) (c' : Coordinator τ) : Prop where
  same : ∀ x : Block τ, x.Same (f x)
  blocks : c'.blocks = c.blocks.map f
  next : c'.nextBlock = c.nextBlock
  config : c'.config = c.config
  branches : c'.stats.branches = c.stats.branches
  failed : c'.stats.failed = c.stats.failed
  cancelled : c'.stats.cancelled = c.stats.cancelled

namespace Retains

variable {f : Block τ → Block τ}

theorem block? (h : c.Retains f c') (b : Nat) : c'.block? b = (c.block? b).map f := by
  rw [Coordinator.block?, Coordinator.block?, h.blocks, List.find?_map]
  refine congrArg (Option.map f) (congrArg (List.find? · c.blocks) (funext fun x => ?_))
  simp only [Function.comp_apply, (h.same x).id]

theorem below (h : c.Retains f c') (hc : c.Tidy) : ∀ x ∈ c'.blocks, x.id < c.nextBlock := by
  rw [h.blocks]
  intro x hx
  obtain ⟨y, hy, rfl⟩ := List.mem_map.1 hx
  rw [(h.same y).id]
  exact hc.below y hy

theorem tidy (h : c.Retains f c') (hc : c.Tidy) : c'.Tidy := by
  refine ⟨?_, h.next ▸ h.below hc⟩
  have hids : c'.blocks.map Block.id = c.blocks.map Block.id := by
    rw [h.blocks, List.map_map]
    exact List.map_congr_left fun x _ => (h.same x).id
  exact hids ▸ hc.ids

theorem total (h : c.Retains f c') {g : Block τ → Nat} (hg : ∀ x, g (f x) = g x) :
    c'.total g = c.total g := by
  rw [Coordinator.total, Coordinator.total, h.blocks, List.map_map]
  exact congrArg List.sum (List.map_congr_left fun x _ => hg x)

theorem tally (h : c.Retains f c') (σ : BranchStatus) :
    c'.total (Block.tally σ) = c.total (Block.tally σ) :=
  h.total fun x => by rw [Block.tally, Block.tally, (h.same x).stored]

end Retains

variable [IsBranch τ]

namespace Enters

variable {x : Block τ}

theorem block?_self (h : c.Enters c' x) : c'.block? x.id = some x := by
  rw [Coordinator.block?, h.blocks]
  exact List.find?_cons_of_pos (decide_eq_true rfl)

theorem block?_of_ne (h : c.Enters c' x) (hb : b ≠ x.id) : c'.block? b = c.block? b := by
  rw [Coordinator.block?, h.blocks]
  exact List.find?_cons_of_neg (by simpa using Ne.symm hb)

theorem tidy (h : c.Enters c' x) (hc : c.Tidy) : c'.Tidy := by
  refine ⟨?_, fun y hy => ?_⟩
  · rw [h.blocks, List.map_cons, List.nodup_cons]
    refine ⟨fun hm => ?_, hc.ids⟩
    obtain ⟨y, hy, hid⟩ := List.mem_map.1 hm
    have := hc.below y hy
    rw [hid, h.id] at this
    exact Nat.lt_irrefl _ this
  · rw [h.next]
    rw [h.blocks] at hy
    obtain rfl | hy := List.mem_cons.1 hy
    · rw [h.id]
      exact Nat.lt_succ_self _
    · exact Nat.lt_succ_of_lt (hc.below y hy)

theorem total (h : c.Enters c' x) (g : Block τ → Nat) : c'.total g = g x + c.total g := by
  rw [Coordinator.total, Coordinator.total, h.blocks, List.map_cons, List.sum_cons]

/-- No branch of a new block has ended. -/
theorem tally (h : c.Enters c' x) (σ : BranchStatus) :
    c'.total (Block.tally σ) = c.total (Block.tally σ) := by
  have hnone : x.tally σ = 0 := by
    rw [Block.tally, h.new]
    simp [Block.new, List.countP_replicate]
  rw [h.total, hnone, Nat.zero_add]

end Enters

/-- **A move enters a block or leaves all blocks as they are**, but for collected results. -/
theorem Moves.cases (h : c.Moves c') (hc : c.Tidy) :
    (∃ f, c.Retains f c') ∨ ∃ x, c.Enters c' x := by
  cases h with
  | rest h =>
    exact .inl ⟨id, .refl, by rw [List.map_id, h.blocks], h.next, h.config, h.branches, h.failed,
      h.cancelled⟩
  | start tasks wanted h =>
    obtain ⟨t, ht⟩ | ⟨x, hx, -⟩ := start_cases hc.below tasks wanted
    · obtain rfl : c' = c := h.trans (congrArg Prod.snd ht)
      exact .inl ⟨id, .refl, (List.map_id _).symm, rfl, rfl, rfl, rfl, rfl⟩
    · rw [← h] at hx
      exact .inr ⟨x, hx⟩
  | collect b x hx hd h =>
    subst h
    refine .inl ⟨fun y => if y.id = b then { y with collected := some x.results } else y,
      fun y => ?_, rfl, rfl, rfl, rfl, rfl, rfl⟩
    split
    · exact ⟨rfl, rfl, rfl, rfl, rfl, rfl, rfl, rfl⟩
    · exact .refl y

end Coordinator

/-! ## The floor -/

/-- **The slices of all blocks** with their blocks, the session, and the records so far. -/
structure Floor (τ : Type) where
  /-- The slices. -/
  slices : List (Nat × Position τ)
  /-- The session. -/
  session : Session τ
  /-- The records, the first one first. -/
  log : List (Nat × Record)

variable {τ : Type} [IsRunnable τ]

/-- A join is passed when the end of its block has come, or it is given up. -/
def Position.Heeds (s : Session τ) (p p' : Position τ) : Prop :=
  ∀ g b timed k, p = .running g (.join b timed k) →
    Session.site.isDone s b = true ∨ p' = .running g (k false)

/-- The setup that a slice runs under, once it has entered. -/
def Position.config? : Position τ → Option SessionConfig
  | .idle c _ => some c
  | .claimed e | .running e _ | .ended e _ | .filed e _ => some e.config
  | _ => none

/-- A slice takes over the setup of the session. -/
theorem Position.Next.config {b : Nat} {p p' : Position τ} {s s' : Session τ} {e : Event}
    {c : SessionConfig} (h : Next b p s e p' s') (hc : p'.config? = some c) :
    p.config? = some c ∨ s.config = c := by
  cases h with
  | enter _ => exact .inr (Option.some.inj hc)
  | exhaust _ => exact nomatch hc
  | retire _ => exact nomatch hc
  | _ => exact .inl hc

theorem Position.Heeds.of_idle {s : Session τ} {p p' : Position τ} (h : p.isRunning = false) :
    p.Heeds s p' := fun g k timed f hp => by
  rw [hp] at h
  cases h

theorem Position.Heeds.of_done {s : Session τ} {g : Errand τ}
    {o : Except BranchFailure BranchOutcome} {p' : Position τ} :
    (Position.running g (.done o)).Heeds s p' := fun g k timed f hp => by
  cases hp

namespace Floor

/-- What belongs to a block. -/
def ofBlock {β : Type} (b : Nat) (l : List (Nat × β)) : List β :=
  l.filterMap fun q => if q.1 = b then some q.2 else none

/-- The slices of a block. -/
def crew (w : Floor τ) (b : Nat) : List (Position τ) := ofBlock b w.slices

/-- The records of a block. -/
def records (w : Floor τ) (b : Nat) : List Record := ofBlock b w.log

/-- The slices of the blocks that are new. -/
def hired (c c' : Coordinator τ) : List (Nat × Position τ) :=
  (c'.blocks.filter fun x => c.nextBlock ≤ x.id).flatMap fun x =>
    List.replicate x.remaining (x.id, .waiting)

/-- **One step on the floor**, by a slice or around them. -/
inductive Step : Floor τ → Floor τ → Prop where
  | slice {ps qs : List (Nat × Position τ)} {b : Nat} {p p' : Position τ} {s s' : Session τ}
    {e : Event} {log : List (Nat × Record)} (h : Position.Next b p s e p' s') (hj : p.Heeds s p') :
    Step ⟨ps ++ (b, p) :: qs, s, log⟩
      ⟨ps ++ (b, p') :: qs ++ hired s.coordinator s'.coordinator, s',
        log ++ [(b, e, p'.result?)]⟩
  | around {ps : List (Nat × Position τ)} {s s' : Session τ} {log : List (Nat × Record)}
    (h : s.Moves s') :
    Step ⟨ps, s, log⟩ ⟨ps ++ hired s.coordinator s'.coordinator, s', log⟩

/-- A step of a slice that starts no block. -/
theorem Step.within (ps qs : List (Nat × Position τ)) {b : Nat} {p p' : Position τ}
    {s s' : Session τ} {e : Event} {log : List (Nat × Record)}
    (hn : Position.Next b p s e p' s') (hj : p.Heeds s p')
    (hh : hired s.coordinator s'.coordinator = []) :
    Step ⟨ps ++ (b, p) :: qs, s, log⟩ ⟨ps ++ (b, p') :: qs, s', log ++ [(b, e, p'.result?)]⟩ := by
  have hstep : Step ⟨ps ++ (b, p) :: qs, s, log⟩ _ := .slice hn hj
  rwa [hh, List.append_nil] at hstep

/-- A run that begins with a step. -/
theorem Step.head {P : Floor τ → Prop} {w w' : Floor τ} (h : Step w w')
    (hr : ∃ z, Relation.ReflTransGen Step w' z ∧ P z) : ∃ z, Relation.ReflTransGen Step w z ∧ P z :=
  hr.imp fun _ hz => ⟨.head h hz.1, hz.2⟩

/-- A run that begins with a step of the only slice. -/
theorem Step.solo {P : Floor τ → Prop} {b : Nat} {p p' : Position τ} {s s' : Session τ} {e : Event}
    {log : List (Nat × Record)} (hn : Position.Next b p s e p' s') (hj : p.Heeds s p')
    (hh : hired s.coordinator s'.coordinator = [])
    (hr : ∃ z, Relation.ReflTransGen Step ⟨[(b, p')], s', log ++ [(b, e, p'.result?)]⟩ z ∧ P z) :
    ∃ z, Relation.ReflTransGen Step ⟨[(b, p)], s, log⟩ z ∧ P z :=
  (Step.within [] [] hn hj hh).head hr

/-- A session at its start. -/
def new (setup : SessionConfig) : Floor τ := ⟨[], .new setup, []⟩

/-- The first step of a session. -/
theorem Step.opening {c : SessionConfig} {s : Session τ} (h : (Session.new c).Moves s) :
    Step (new c) ⟨hired (Session.new c).coordinator s.coordinator, s, []⟩ := by
  have hstep : Step ⟨[], .new c, []⟩ _ := .around h
  exact hstep

/-! ## What belongs to a block -/

section OfBlock

variable {β : Type} {b : Nat}

theorem ofBlock_append (l l' : List (Nat × β)) :
    ofBlock b (l ++ l') = ofBlock b l ++ ofBlock b l' := List.filterMap_append

theorem ofBlock_cons_self (a : β) (l : List (Nat × β)) :
    ofBlock b ((b, a) :: l) = a :: ofBlock b l := List.filterMap_cons_some (if_pos rfl)

theorem ofBlock_cons_of_ne {b' : Nat} (h : b' ≠ b) (a : β) (l : List (Nat × β)) :
    ofBlock b ((b', a) :: l) = ofBlock b l := List.filterMap_cons_none (if_neg h)

theorem ofBlock_eq_nil {l : List (Nat × β)} (h : ∀ q ∈ l, q.1 ≠ b) : ofBlock b l = [] :=
  List.filterMap_eq_nil_iff.2 fun q hq => if_neg (h q hq)

theorem ofBlock_replicate (n : Nat) (a : β) :
    ofBlock b (List.replicate n (b, a)) = List.replicate n a := by
  induction n with
  | zero => rfl
  | succ n ih => rw [List.replicate_succ, ofBlock_cons_self, ih, List.replicate_succ]

theorem mem_ofBlock {a : β} {l : List (Nat × β)} : a ∈ ofBlock b l ↔ (b, a) ∈ l := by
  simp only [ofBlock, List.mem_filterMap]
  constructor
  · rintro ⟨⟨k, a'⟩, hq, h⟩
    split at h
    · next hk =>
      obtain rfl : k = b := hk
      obtain rfl := Option.some.inj h
      exact hq
    · cases h
  · exact fun h => ⟨(b, a), h, if_pos rfl⟩

end OfBlock

variable {c c' : Coordinator τ}

omit [IsRunnable τ] in
/-- No slices are hired where no block is new. -/
theorem hired_eq_nil (h : ∀ x ∈ c'.blocks, x.id < c.nextBlock) : hired c c' = [] := by
  have hf : c'.blocks.filter (fun x => c.nextBlock ≤ x.id) = [] :=
    List.filter_eq_nil_iff.2 fun x hx => by simpa using h x hx
  rw [hired, hf]
  rfl

omit [IsRunnable τ] in
/-- New slices wait for their turn. -/
theorem eq_waiting_of_hired {b : Nat} {p : Position τ} (h : (b, p) ∈ hired c c') :
    p = .waiting := by
  obtain ⟨x, -, hx⟩ := List.mem_flatMap.1 h
  exact (Prod.mk.inj (List.eq_of_mem_replicate hx)).2

/-- The slices of a block that is entered. -/
theorem hired_of_enters {x : Block τ} (hc : c.Tidy) (h : c.Enters c' x) :
    hired c c' = List.replicate x.remaining (x.id, .waiting) := by
  have hid := h.id
  have hf : c'.blocks.filter (fun x => c.nextBlock ≤ x.id) = [x] := by
    rw [h.blocks, List.filter_cons_of_pos (by simp [hid]),
      List.filter_eq_nil_iff.2 fun y hy => by simpa using hc.below y hy]
  rw [hired, hf]
  simp

/-! ## One block -/

variable {Q : τ → Except BranchFailure BranchOutcome → Prop}
  {w w' : Floor τ} {b : Nat} {x y : Block τ}

/-- **What holds of one block of a floor.** -/
structure Kept (Q : τ → Except BranchFailure BranchOutcome → Prop) (w : Floor τ) (b : Nat)
    (x : Block τ) : Prop where
  sound : Shift.Sound b x.tasks x ⟨w.crew b, w.session, (w.records b).map Prod.fst⟩
  recorded : Recorded Q x (w.crew b) (w.records b)
  ordered : ∀ p, w.crew b = [p] → InOrder x p (w.records b)
  named : Coordinator.validate x.tasks = .ok ()
  policy : x.policy = w.session.coordinator.config.policy
  workers : 0 < x.workers

/-- The branch in the hand of a slice is one of the block. -/
theorem task_of_fits {ts : List τ} {n : Nat} {p : Position τ} (h : p.Fits b ts n)
    {g : Errand τ} (hg : p.errand? = some g) : ts[g.index]? = some g.task := by
  cases p with
  | claimed e => cases hg; exact Errand.Fits.task h
  | running e p => cases hg; exact h.1.task
  | ended e r => cases hg; exact h.1.task
  | filed e r => cases hg; exact h.1.task
  | _ => cases hg

omit [IsRunnable τ] in
theorem crew_slice (ps qs extra : List (Nat × Position τ)) (p : Position τ) (s : Session τ)
    (log : List (Nat × Record)) (he : ofBlock b extra = []) :
    crew ⟨ps ++ (b, p) :: qs ++ extra, s, log⟩ b = ofBlock b ps ++ p :: ofBlock b qs := by
  rw [crew, ofBlock_append, ofBlock_append, ofBlock_cons_self, he, List.append_nil]

omit [IsRunnable τ] in
theorem records_slice (ps : List (Nat × Position τ)) (s : Session τ) (log : List (Nat × Record))
    (a : Record) : records ⟨ps, s, log ++ [(b, a)]⟩ b = ofBlock b log ++ [a] := by
  rw [records, ofBlock_append, ofBlock_cons_self]
  rfl

/-- **A step of a slice of the block** keeps what holds of it. -/
theorem Kept.own [IsPlainBranch τ] {ps qs extra : List (Nat × Position τ)} {p p' : Position τ}
    {s s' : Session τ} {e : Event} {log : List (Nat × Record)}
    (h : Kept Q ⟨ps ++ (b, p) :: qs, s, log⟩ b x) (hn : Position.Next b p s e p' s')
    (he : Position.Effect x p e p' y)
    (hy : s'.coordinator.block? b = some y) (hc : s'.coordinator.config = s.coordinator.config)
    (hpolicy : y.policy = x.policy) (hworkers : y.workers = x.workers)
    (hq : ∀ g o, p = .running g (.done o) → Q g.task o) (hextra : ofBlock b extra = []) :
    Kept Q ⟨ps ++ (b, p') :: qs ++ extra, s', log ++ [(b, e, p'.result?)]⟩ b y := by
  have hcrew : crew ⟨ps ++ (b, p) :: qs, s, log⟩ b = ofBlock b ps ++ p :: ofBlock b qs := by
    rw [crew, ofBlock_append, ofBlock_cons_self]
  have hsound := h.sound
  have hrec := h.recorded
  rw [hcrew] at hsound hrec
  obtain ⟨z, hz⟩ := hsound.next hn
  obtain rfl := Option.some.inj (hy.symm.trans hz.block)
  have hfits := hsound.fits_self
  refine ⟨?_, ?_, fun q hone => ?_, ?_, ?_, hworkers ▸ h.workers⟩
  · rw [crew_slice _ _ _ _ _ _ hextra, records_slice, List.map_append, hz.tasks]
    exact hz
  · rw [crew_slice _ _ _ _ _ _ hextra, records_slice]
    exact hrec.next he (fun g hg => task_of_fits hfits hg) hq
  · rw [crew_slice _ _ _ _ _ _ hextra] at hone
    rw [records_slice]
    obtain ⟨hps, rfl, hqs⟩ : ofBlock b ps = [] ∧ p' = q ∧ ofBlock b qs = [] := by
      cases hl : ofBlock b ps with
      | nil => rw [hl] at hone; simpa using hone
      | cons a l => rw [hl] at hone; simp at hone
    refine (h.ordered p ?_).next he
    rw [hcrew, hps, hqs]
    rfl
  · rw [hz.tasks]
    exact h.named
  · exact (hpolicy.trans h.policy).trans (congrArg ParallelConfig.policy hc).symm

/-- **A step that leaves the block as it is** keeps what holds of it. -/
theorem Kept.other (h : Kept Q w b x) (hcrew : w'.crew b = w.crew b)
    (hrecords : w'.records b = w.records b)
    (hs : w.session.coordinator.Spares b w'.session.coordinator)
    (hy : w'.session.coordinator.block? b = some y) (hsame : x.Same y)
    (hc : w'.session.coordinator.config = w.session.coordinator.config) : Kept Q w' b y := by
  obtain ⟨z, hz⟩ := h.sound.around hs
  obtain rfl := Option.some.inj (hy.symm.trans hz.block)
  refine ⟨?_, ?_, fun p hp => ?_, ?_, ?_, hsame.workers ▸ h.workers⟩
  · rw [hcrew, hrecords, hz.tasks]
    exact hz
  · rw [hcrew, hrecords]
    exact h.recorded.of_same hsame
  · rw [hcrew] at hp
    obtain ⟨hsorted, hbelow, hhand⟩ := h.ordered p hp
    rw [hrecords]
    exact ⟨hsorted, by rw [hsame.next]; exact hbelow, by rw [hsame.next]; exact hhand⟩
  · rw [hsame.tasks]
    exact h.named
  · exact (hsame.policy.trans h.policy).trans (congrArg ParallelConfig.policy hc).symm

/-- **A block that is entered.** -/
theorem Kept.new {c : Coordinator τ} (hx : c.Enters w.session.coordinator x)
    (hcrew : w.crew x.id = List.replicate x.remaining .waiting) (hrecords : w.records x.id = []) :
    Kept Q w x.id x := by
  refine ⟨?_, ?_, fun p hp => ?_, hx.named, ?_, hx.workers⟩
  · rw [hcrew, hrecords]
    refine Shift.sound_start (s := w.session) (c := w.session.coordinator) ?_ hx.block?_self hx.new
    rw [hx.next, hx.id]
    exact Nat.lt_succ_self _
  · rw [hcrew, hrecords, hx.new]
    exact .new _ _ _ _ _ _
  · rw [hrecords]
    refine ⟨.nil, fun _ hr => absurd hr List.not_mem_nil, fun i hi => ?_⟩
    rw [hcrew] at hp
    have hw := List.eq_of_mem_replicate (hp ▸ List.mem_singleton_self p)
    rw [hw] at hi
    cases hi
  · rw [hx.config]
    exact hx.policy

end Floor

end MemoFlow
