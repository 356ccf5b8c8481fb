import MemoFlow.Proofs.Branch.Join
import MemoFlow.Proofs.Schedule.Pact

/-!
# What code does to the blocks

Apart from the slices, whose steps are known, code can start blocks and collect the results of those
that are done. All else leaves the blocks alone.

* **`Coordinator.Moves`**, `Session.Moves`: one step of such code;
* `Coordinator.start_cases`: a block that is started, and how the call ends;
* `Coordinator.Later`, `Coordinator.Moves.later`, `Coordinator.Moves.spares`: what never changes
  back;
* `Session.honours_runBranches_of`, `Session.Plain.honours_of`: plain code and any pact;
* `Session.Realm`, **`Session.pact`**, **`Session.Plain.honours`**: plain code makes such steps
  only, as it collects no results before the end of a block.
-/

namespace MemoFlow

namespace Coordinator

variable {τ : Type}

/-! ## The start of a block -/

theorem submitSlices_isOk {c : Coordinator τ} (hq : c.pool.queues ≠ [])
    (hc : c.pool.closed = false) (id n : Nat) : ∃ c', c.submitSlices id n = .ok c' ∧
      c'.blocks = c.blocks ∧ c'.nextBlock = c.nextBlock ∧ c'.config = c.config ∧
      c'.stats = c.stats := by
  induction n generalizing c with
  | zero => exact ⟨c, rfl, rfl, rfl, rfl, rfl⟩
  | succ n ih =>
    have hpos : c.pool.active ≠ 0 := fun h => hq (List.length_eq_zero_iff.1 h)
    have hs : c.pool.submit id = .ok { c.pool.push (c.pool.turn % c.pool.active) id with
        turn := c.pool.turn + 1
        pending := c.pool.pending + 1
        spawned := c.pool.spawned + 1 } := by
      rw [Pool.submit, if_neg (by simp [hpos, hc])]
    rw [submitSlices, hs]
    refine ih (c := { c with pool := _ }) (fun h => hq ?_) hc
    exact List.length_eq_zero_iff.1 ((List.length_modify ..).symm.trans (congrArg List.length h))

theorem ensure_ok {p q : Pool Nat} {n : Nat} {notes : List Note} (hn : 0 < n)
    (h : p.ensure n = ⟨.ok q, notes⟩) : q.queues ≠ [] ∧ q.closed = false := by
  unfold Pool.ensure at h
  split at h
  · exact nomatch congrArg Told.value h
  · split at h
    · exact nomatch congrArg Told.value h
    · next hc =>
      obtain rfl := Except.ok.inj (congrArg Told.value h)
      refine ⟨fun hq => ?_, by simpa using hc⟩
      have hl := congrArg List.length hq
      simp only [List.length_append, List.length_replicate, List.length_nil, Pool.active] at hl
      omega

/-- A change of the new block leaves the other ones alone. -/
theorem modifyBlock_new {c : Coordinator τ} {f : Block τ → Block τ} {x : Block τ}
    (hc : ∀ y ∈ c.blocks, y.id < c.nextBlock) (hx : x.id = c.nextBlock) (c' : Coordinator τ)
    (hb : c'.blocks = x :: c.blocks) :
    (c'.modifyBlock c.nextBlock f).blocks = f x :: c.blocks := by
  rw [modifyBlock, hb, List.map_cons, if_pos hx]
  refine congrArg (f x :: ·) ((List.map_congr_left fun y hy => if_neg ?_).trans (List.map_id _))
  exact Nat.ne_of_lt (hc y hy)

/-- **A later state**: no block is lost, and a block that is done stays so, with its results. -/
structure Later (c c' : Coordinator τ) : Prop where
  next : c.nextBlock ≤ c'.nextBlock
  block : ∀ b x, b < c.nextBlock → c.block? b = some x → ∃ y, c'.block? b = some y ∧
    (x.isDone = true → y.isDone = true ∧ y.stored = x.stored)

namespace Later

variable {c c' c'' : Coordinator τ}

theorem refl (c : Coordinator τ) : c.Later c :=
  ⟨Nat.le_refl _, fun _ x _ hx => ⟨x, hx, fun hd => ⟨hd, rfl⟩⟩⟩

theorem trans (h : c.Later c') (h' : c'.Later c'') : c.Later c'' where
  next := Nat.le_trans h.next h'.next
  block b x hb hx := by
    obtain ⟨y, hy, hd⟩ := h.block b x hb hx
    obtain ⟨z, hz, hd'⟩ := h'.block b y (Nat.lt_of_lt_of_le hb h.next) hy
    refine ⟨z, hz, fun hx => ?_⟩
    obtain ⟨h1, h2⟩ := hd hx
    obtain ⟨h3, h4⟩ := hd' h1
    exact ⟨h3, h4.trans h2⟩

end Later

variable [IsBranch τ]

/-- **A new block is entered.** -/
structure Enters (c c' : Coordinator τ) (x : Block τ) : Prop where
  id : x.id = c.nextBlock
  policy : x.policy = c.config.policy
  new : x = { Block.new x.id x.policy x.workers x.tasks with remaining := x.remaining }
  named : validate x.tasks = .ok ()
  workers : 0 < x.workers
  blocks : c'.blocks = x :: c.blocks
  next : c'.nextBlock = c.nextBlock + 1
  config : c'.config = c.config
  branches : c'.stats.branches = c.stats.branches + x.tasks.length
  failed : c'.stats.failed = c.stats.failed
  cancelled : c'.stats.cancelled = c.stats.cancelled

/-- **How the start of a block ends**: nothing happens, or a new block is entered, and it has its
slices if the call returns. -/
theorem start_cases {c : Coordinator τ} (hc : ∀ x ∈ c.blocks, x.id < c.nextBlock) (tasks : List τ)
    (wanted : Option Nat) :
    (∃ t, (c.start tasks wanted).value = (.error t, c)) ∨
    ∃ x, c.Enters (c.start tasks wanted).value.2 x ∧
      ((c.start tasks wanted).value.1 = .ok x.id ∧ x.remaining = x.slices ∨
        (∃ t, (c.start tasks wanted).value.1 = .error t) ∧ x.remaining = 0 ∧ 0 < x.slices) := by
  unfold start
  split
  · exact .inl ⟨_, rfl⟩
  · next hv =>
    split
    · exact .inl ⟨_, rfl⟩
    · next w hw =>
      right
      have hpos := resolve_pos hw
      unfold launch
      split
      · next he =>
        obtain rfl : tasks = [] := List.isEmpty_iff.1 he
        exact ⟨.new c.nextBlock c.config.policy w [],
          ⟨rfl, rfl, rfl, hv, hpos, rfl, rfl, rfl, rfl, rfl, rfl⟩,
          .inl ⟨rfl, (Nat.min_zero w).symm⟩⟩
      · next hne =>
        have hlen : 0 < tasks.length :=
          List.length_pos_iff.2 fun h => hne (List.isEmpty_iff.2 h)
        split
        · refine ⟨.new c.nextBlock c.config.policy w tasks,
            ⟨rfl, rfl, rfl, hv, hpos, rfl, rfl, rfl, rfl, rfl, rfl⟩, .inr ⟨⟨_, rfl⟩, rfl, ?_⟩⟩
          exact Nat.lt_min.2 ⟨hpos, hlen⟩
        · next p notes hp =>
          obtain ⟨hq, hclosed⟩ := ensure_ok hpos hp
          have hblocks := modifyBlock_new (f := fun b => { b with remaining := b.slices }) hc
            (x := .new c.nextBlock c.config.policy w tasks) rfl
            { c.enroll tasks w with pool := p } rfl
          obtain ⟨c', hs, hb, hn, hcfg, hst⟩ := submitSlices_isOk
            (c := ({ c.enroll tasks w with pool := p }).modifyBlock c.nextBlock
              fun b => { b with remaining := b.slices }) hq hclosed c.nextBlock (min w tasks.length)
          have hbranches : c'.stats.branches = c.stats.branches + tasks.length := by rw [hst]; rfl
          have hfailed : c'.stats.failed = c.stats.failed := by rw [hst]; rfl
          have hcancelled : c'.stats.cancelled = c.stats.cancelled := by rw [hst]; rfl
          dsimp only
          rw [show (Block.new c.nextBlock c.config.policy w tasks).id = c.nextBlock from rfl,
            show (Block.new c.nextBlock c.config.policy w tasks).slices = min w tasks.length
              from rfl,
            hs]
          exact ⟨{ Block.new c.nextBlock c.config.policy w tasks with
              remaining := min w tasks.length },
            ⟨rfl, rfl, rfl, hv, hpos, hb.trans hblocks, hn, hcfg, hbranches, hfailed, hcancelled⟩,
            .inl ⟨rfl, rfl⟩⟩

/-- A block that was started is there, and its results are not collected. -/
theorem block?_of_start {c c' : Coordinator τ} {tasks : List τ} {wanted : Option Nat} {b : Nat}
    (h : (c.start tasks wanted).value = (.ok b, c')) :
    b < c'.nextBlock ∧ ∃ x, c'.block? b = some x ∧ x.collected = none := by
  cases tasks with
  | nil =>
    unfold start at h
    split at h
    · exact nomatch congrArg Prod.fst h
    · split at h
      · exact nomatch congrArg Prod.fst h
      · obtain ⟨h1, rfl⟩ := Prod.mk.inj h
        obtain rfl := Except.ok.inj h1
        exact ⟨Nat.lt_succ_self _, _, List.find?_cons_of_pos (decide_eq_true rfl), rfl⟩
  | cons t ts =>
    obtain ⟨-, hb, w, -, -, hx⟩ := start_ok (List.cons_ne_nil t ts) h
    exact ⟨hb, _, hx, rfl⟩

/-! ## Moves -/

/-- **One step of code other than that of slices.** -/
inductive Moves (c c' : Coordinator τ) : Prop where
  /-- It leaves the blocks alone. -/
  | rest (h : c.Rests c')
  /-- It starts a block. -/
  | start (tasks : List τ) (wanted : Option Nat) (h : c' = (c.start tasks wanted).value.2)
  /-- It collects the results of a block that is done. -/
  | collect (b : Nat) (x : Block τ) (hx : c.block? b = some x) (hd : x.isDone = true)
    (h : c' = c.modifyBlock b fun y => { y with collected := some x.results })

/-- Code that is not a slice of a block spares it. -/
theorem Moves.spares {c c' : Coordinator τ} (h : c.Moves c') {b : Nat} (hb : b < c.nextBlock) :
    c.Spares b c' := by
  cases h with
  | rest h => exact .of_blocks h.blocks h.next
  | start tasks wanted h =>
    rw [h]
    exact (spares_start hb tasks wanted).1
  | collect id x hx hd h =>
    rw [h]
    by_cases hid : id = b
    · subst hid
      refine ⟨Nat.le_refl _, fun z hz => ?_⟩
      obtain rfl := Option.some.inj (hx.symm.trans hz)
      exact ⟨_, block?_modifyBlock_self (fun y => { y with collected := some x.results })
        (fun _ => rfl) hx, rfl, rfl, rfl, rfl, .inr ⟨hd, rfl⟩⟩
    · exact .modifyBlock_of_ne (fun _ => rfl) hid

theorem Moves.later {c c' : Coordinator τ} (h : c.Moves c') : c.Later c' where
  next := by
    cases h with
    | rest h => exact Nat.le_of_eq h.next.symm
    | start tasks wanted h =>
      cases hn : c.nextBlock with
      | zero => exact Nat.zero_le _
      | succ n =>
        rw [h, ← hn]
        exact (spares_start (b := n) (by omega) tasks wanted).1.next
    | collect b x _ _ h => rw [h]; exact Nat.le_refl _
  block b x hb hx := by
    obtain ⟨y, hy, hk⟩ := (h.spares hb).block x hx
    refine ⟨y, hy, fun hd => ⟨?_, hk.stored⟩⟩
    rw [Block.isDone, hk.remaining]
    exact hd

end Coordinator

/-! ## Plain code -/

namespace Session

open Process

variable {τ : Type} [IsRunnable τ]

/-- **One step of code other than that of slices**; it leaves the setup as it is. -/
structure Moves (s s' : Session τ) : Prop where
  coordinator : s.coordinator.Moves s'.coordinator
  config : s'.config = s.config

theorem Moves.refl (s : Session τ) : s.Moves s := ⟨.rest (.refl _), rfl⟩

/-- **What holds of a session**, whatever code other than that of slices does. -/
structure Realm (τ : Type) [IsRunnable τ] where
  /-- What holds. -/
  holds : Session τ → Prop
  moves : ∀ {s t : Session τ}, s.Moves t → holds s → holds t

/-- **The pact of code other than that of slices.** -/
def pact (R : Realm τ) : Pact (Session τ) where
  holds := R.holds
  later s t := s.coordinator.Later t.coordinator ∧ (R.holds s → R.holds t)
  allows s t := s.Moves t
  isDone s b := site.isDone s b = true
  refl s := ⟨.refl s.coordinator, id⟩
  trans h h' := ⟨h.1.trans h'.1, fun hs => h'.2 (h.2 hs)⟩
  later_of_allows h := ⟨h.coordinator.later, R.moves h⟩
  holds_of_later h := h.2

variable {R : Realm τ}

/-- **Collecting the results** of a block whose end has come. -/
theorem assures_collect {s : Session τ} {b : Nat} {x : Block τ} (hs : R.holds s)
    (hb : b < s.coordinator.nextBlock) (hx : s.coordinator.block? b = some x)
    (hd : x.isDone = true) : Assures (pact R) (fun _ _ => True) s (collect b) := by
  rw [collect_eq]
  refine .read fun t ht => ?_
  obtain ⟨y, hy, hdone⟩ := ht.1.block b x hb hx
  obtain ⟨hyd, -⟩ := hdone hd
  have htb : b < t.coordinator.nextBlock := Nat.lt_of_lt_of_le hb ht.1.next
  simp only [Process.bind, hy]
  cases hc : y.collected with
  | some r => exact .done fun _ _ => trivial
  | none =>
    have hdrop : Honours (pact R) (fun _ => True) (dropAll b (y.stored.filterMap fun r => r)) := by
      refine .forIn (fun r _ => ?_) _
      refine Honours.bind (Q := fun _ => True) (.update (fun s => ?_) fun _ => trivial) fun _ _ =>
        .pure trivial
      exact ⟨.rest (.refl _), rfl⟩
    refine (hdrop t (ht.2 hs)).bind fun _ u hu _ => ?_
    refine .change (fun v hv => ?_) fun v hv => .done fun _ _ => trivial
    -- The block is as it was when its results were read.
    obtain ⟨z, hz, hsame⟩ := (hu.1.trans hv.1).block b y htb hy
    obtain ⟨hzd, hstored⟩ := hsame hyd
    refine ⟨.collect b z hz hzd ?_, rfl⟩
    rw [show z.results = y.results by rw [Block.results, Block.results, hstored]]

/-- **Starting a block and waiting for its end** keeps to a pact, when it is known of a started
block that its results can be collected at its end. -/
theorem honours_runBranches_of {π : Pact (Session τ)} {K : Session τ → Nat → Prop}
    (hnote : ∀ n, Honours π (fun _ => True) (note n)) (tasks : List τ)
    (workers : Option Nat) (hstart : ∀ s, π.holds s →
      Assures π (fun t r => ∀ id, r = .ok id → K t id) s (Session.start tasks workers))
    (hcollect : ∀ t u id, K t id → π.holds t → π.later t u → π.isDone u id →
      Assures π (fun _ _ => True) u (collect id)) (timed : Bool) :
    Honours π (fun _ => True) (Session.runBranches tasks workers timed) := by
  intro s hs
  refine (hstart s hs).bind fun r t ht hr => ?_
  have hholds := π.holds_of_later ht hs
  cases r with
  | error e => exact .done fun _ _ => trivial
  | ok id =>
    have hjoin : Assures π (fun _ _ => True) t (Session.join id timed) := by
      refine .join fun u r hu hd => ?_
      cases r with
      | false =>
        exact (hnote _ u (π.holds_of_later hu hholds)).bind fun _ _ _ _ => .done fun _ _ => trivial
      | true =>
        exact (hcollect t u id (hr id rfl) hholds hu (hd rfl)).bind fun _ _ _ _ =>
          .done fun _ _ => trivial
    exact hjoin.bind fun _ _ _ _ => .done fun _ _ => trivial

/-- **Plain code keeps to a pact** that allows what leaves all blocks alone, and blocks that are
started and joined. -/
theorem Plain.honours_of {π : Pact (Session τ)}
    (hrests : ∀ {s t : Session τ}, s.Rests t → π.allows s t)
    (hblocks : ∀ tasks workers timed,
      Honours π (fun _ => True) (Session.runBranches tasks workers timed))
    {α : Type} {p : ActOf τ α} (hp : Plain p) : Honours π (fun _ => True) p := by
  induction hp with
  | pure a => exact .pure trivial
  | bind _ _ ihp ihf => exact ihp.bind fun a _ => ihf a
  | state => exact fun s _ => .read fun t _ => .done fun _ _ => trivial
  | pass g => exact fun s _ => .gate (.done fun _ _ => trivial)
  | update h => exact .update (fun s => hrests (h s)) fun _ => trivial
  | branches tasks workers timed => exact hblocks tasks workers timed

/-- A block is there, and its end has come. -/
theorem block?_of_isDone {s : Session τ} {b : Nat} {x : Block τ}
    (hx : s.coordinator.block? b = some x) (hd : site.isDone s b = true) : x.isDone = true := by
  change ((s.coordinator.block? b).map Block.isDone).getD true = true at hd
  rw [hx] at hd
  exact hd

theorem honours_runBranches (tasks : List τ) (workers : Option Nat) (timed : Bool) :
    Honours (pact R) (fun _ => True) (Session.runBranches tasks workers timed) := by
  have hnote : ∀ n, Honours (pact R) (fun _ => True) (note n) := fun n s _ =>
    .change (fun t _ => ⟨.rest (.refl _), rfl⟩) fun t _ => .done fun _ _ => trivial
  refine honours_runBranches_of (K := fun t id => id < t.coordinator.nextBlock ∧
      ∃ x, t.coordinator.block? id = some x) hnote tasks workers (fun s _ => ?_)
    (fun t u id hk ht hu hd => ?_) timed
  · refine .update fun t _ => ⟨⟨.start tasks workers rfl, rfl⟩, fun u hu id hid => ?_⟩
    obtain ⟨hb, x, hx, -⟩ := Coordinator.block?_of_start (Prod.ext hid rfl)
    obtain ⟨y, hy, -⟩ := hu.1.block id x hb hx
    exact ⟨Nat.lt_of_lt_of_le hb hu.1.next, y, hy⟩
  · obtain ⟨hb, x, hx⟩ := hk
    obtain ⟨y, hy, -⟩ := hu.1.block id x hb hx
    exact assures_collect (hu.2 ht) (Nat.lt_of_lt_of_le hb hu.1.next) hy (block?_of_isDone hy hd)

/-- **Plain code keeps to the pact.** -/
theorem Plain.honours {α : Type} {p : ActOf τ α} (hp : Plain p) :
    Honours (pact R) (fun _ => True) p :=
  hp.honours_of (π := pact R) (fun h => ⟨.rest h.coordinator, h.config⟩) honours_runBranches

end Session

end MemoFlow
