import MemoFlow.Proofs.Branch.Refusal

/-!
# Workers that are not asked for

The number of workers of a block comes from its branches, the processors and a cap. The bound of the
pool, which the variables set as well, is not looked at before the pool is to grow.

* **`Pool.Heeds`**, `Pool.heeds_take`, `Pool.heeds_assist`: no step on a pool moves its bound or
  breaks it;
* **`Coordinator.Turn`**, **`Coordinator.Stands`**, `Coordinator.stands_run`: no step on a
  coordinator changes the settings or the bound;
* `Coordinator.share`, **`Coordinator.Sized`**, `Coordinator.sized_of_variables`: the number of
  workers, and when a block is refused for it.
-/

namespace MemoFlow

/-! ## The bound of a pool -/

namespace Pool

variable {κ : Type} {p q r : Pool κ} {t : κ} {i n : Nat}

/-- **The bound is heeded**: it stays, and a pool within it stays within it. -/
structure Heeds (p q : Pool κ) : Prop where
  bound : q.bound = p.bound
  active : p.active ≤ p.bound → q.active ≤ q.bound

namespace Heeds

theorem refl (p : Pool κ) : p.Heeds p := ⟨rfl, id⟩

theorem trans (h : p.Heeds q) (h' : q.Heeds r) : p.Heeds r :=
  ⟨h'.bound.trans h.bound, h'.active ∘ h.active⟩

/-- A step that runs no more workers. -/
theorem of_active (hb : q.bound = p.bound) (ha : q.active = p.active) : p.Heeds q :=
  ⟨hb, fun hp => by rw [hb, ha]; exact hp⟩

end Heeds

theorem heeds_ensure {notes : List Note} (h : p.ensure n = ⟨.ok q, notes⟩) : p.Heeds q := by
  unfold ensure at h
  split at h
  · cases h
  · next hn =>
    split at h
    · cases h
    · obtain rfl := Except.ok.inj (congrArg Told.value h)
      refine ⟨rfl, fun hp => ?_⟩
      simp only [active, List.length_append, List.length_replicate] at hp ⊢
      omega

theorem heeds_submit (h : p.submit t = .ok q) : p.Heeds q := by
  unfold submit at h
  split at h
  · cases h
  · obtain rfl := Except.ok.inj h
    exact .of_active rfl (by simp [push, active])

theorem heeds_popNewest (h : p.popNewest i = some (t, q)) : p.Heeds q := by
  unfold popNewest at h
  split at h
  · cases h
  · obtain ⟨u, -, he⟩ := Option.map_eq_some_iff.1 h
    obtain ⟨-, rfl⟩ := Prod.mk.inj he
    exact .of_active rfl (by simp [active])

theorem heeds_popOldest (h : p.popOldest i = some (t, q)) : p.Heeds q := by
  unfold popOldest at h
  split at h
  · obtain ⟨-, rfl⟩ := Prod.mk.inj (Option.some.inj h)
    exact .of_active rfl (by simp [active])
  · cases h

/-- A task that was taken begins. -/
theorem heeds_begun {o : Option (κ × Pool κ)} (ho : ∀ t q, o = some (t, q) → p.Heeds q)
    (h : o.map begun = some (t, q)) : p.Heeds q := by
  obtain ⟨⟨u, r⟩, hr, he⟩ := Option.map_eq_some_iff.1 h
  obtain ⟨-, rfl⟩ := Prod.mk.inj he
  exact (ho u r hr).trans (.of_active rfl rfl)

theorem heeds_take (h : p.take i = some (t, q)) : p.Heeds q := by
  refine heeds_begun (fun u r hr => ?_) h
  obtain hown | ⟨-, hsteal⟩ := Option.or_eq_some_iff.1 hr
  · exact heeds_popNewest hown
  · obtain ⟨⟨v, s⟩, hs, he⟩ := Option.map_eq_some_iff.1 hsteal
    obtain ⟨-, rfl⟩ := Prod.mk.inj he
    obtain ⟨k, -, hk⟩ := List.exists_of_findSome?_eq_some hs
    exact (heeds_popOldest hk).trans (.of_active rfl rfl)

theorem heeds_assist (h : p.assist = some (t, q)) : p.Heeds q := by
  refine heeds_begun (fun u r hr => ?_) h
  obtain ⟨k, -, hk⟩ := List.exists_of_findSome?_eq_some hr
  exact heeds_popNewest hk

/-- What a pool tells that is asked for more workers than its bound. -/
def excess (bound n : Nat) : Thrown :=
  refuse ("worker pool bound is " ++ toString bound ++ " threads, " ++ toString n ++ " requested")

/-- **A pool that is not shut down gives workers** just up to its bound. -/
theorem ensure_of_open (h : p.closed = false) :
    p.bound < n ∧ p.ensure n = ⟨.error (excess p.bound n), []⟩ ∨
      n ≤ p.bound ∧ ∃ q notes, p.ensure n = ⟨.ok q, notes⟩ := by
  unfold ensure
  by_cases hn : p.bound < n
  · rw [if_pos hn]
    exact .inl ⟨hn, rfl⟩
  · rw [if_neg hn, if_neg (by rw [h]; decide)]
    exact .inr ⟨Nat.le_of_not_lt hn, _, _, rfl⟩

end Pool

/-- The pool has room for a worker. -/
theorem ParallelConfig.room_of_variables (v : Variables) :
    1 ≤ (ofVariables v).1.maxPoolThreads.toNat := by
  have hpos : (ofVariables v).1.maxPoolThreads ≠ 0 := by
    unfold ofVariables
    dsimp only
    split
    · decide
    · assumption
  have hne : (ofVariables v).1.maxPoolThreads.toNat ≠ 0 := fun h =>
    hpos (UInt64.toNat_inj.1 h)
  omega

/-! ## Steps on a coordinator -/

namespace Coordinator

variable {τ : Type} {c c' c'' : Coordinator τ}

/-- **What no step changes**: the settings, the processors and the bound of the pool. -/
structure Stands (c c' : Coordinator τ) : Prop where
  config : c'.config = c.config
  detected : c'.detected = c.detected
  pool : c.pool.Heeds c'.pool

namespace Stands

theorem refl (c : Coordinator τ) : c.Stands c := ⟨rfl, rfl, .refl c.pool⟩

theorem trans (h : c.Stands c') (h' : c'.Stands c'') : c.Stands c'' :=
  ⟨h'.config.trans h.config, h'.detected.trans h.detected, h.pool.trans h'.pool⟩

/-- A step on the pool. -/
theorem of_pool {p : Pool Nat} (h : c.pool.Heeds p) : c.Stands { c with pool := p } :=
  ⟨rfl, rfl, h⟩

end Stands

theorem stands_submitSlices {b n : Nat} (h : c.submitSlices b n = .ok c') : c.Stands c' := by
  induction n generalizing c with
  | zero =>
    obtain rfl := Except.ok.inj h
    exact .refl c
  | succ n ih =>
    rw [submitSlices] at h
    split at h
    · cases h
    · next p hp => exact .trans (.of_pool (Pool.heeds_submit hp)) (ih h)

theorem stands_launch (c : Coordinator τ) (x : Block τ) : c.Stands (c.launch x).value.2 := by
  unfold launch
  split
  · exact .refl c
  · split
    · exact .refl c
    · next p notes hp =>
      have hpool : c.Stands (({ c with pool := p }).modifyBlock x.id fun b =>
          { b with remaining := b.slices }) := ⟨rfl, rfl, Pool.heeds_ensure hp⟩
      dsimp only
      split
      · exact hpool
      · next c' hs => exact hpool.trans (stands_submitSlices hs)

theorem stands_permit (c : Coordinator τ) (b : Nat) : c.Stands (c.permit b).2 := by
  unfold permit
  split
  · exact .refl c
  · split <;> exact ⟨rfl, rfl, .refl c.pool⟩

theorem stands_conclude (c : Coordinator τ) (b : Nat) (r : BranchResult) :
    c.Stands (c.conclude b r).value := by
  unfold conclude
  dsimp only
  split
  · exact ⟨rfl, rfl, .refl c.pool⟩
  · dsimp only
    split <;> exact ⟨rfl, rfl, .refl c.pool⟩

variable [IsBranch τ]

theorem stands_start (c : Coordinator τ) (tasks : List τ) (wanted : Option Nat) :
    c.Stands (c.start tasks wanted).value.2 := by
  rw [start_eq]
  split
  · exact .refl c
  · next n _ =>
    have henroll : c.Stands (c.enroll tasks n) := ⟨rfl, rfl, .refl c.pool⟩
    exact henroll.trans (stands_launch _ _)

/-- **One step on a coordinator**, of a caller or of a worker; a block is changed by the slices that
work on it and by the caller that collects its results. -/
inductive Turn (c : Coordinator τ) : Coordinator τ → Prop where
  | start (tasks : List τ) (wanted : Option Nat) : Turn c (c.start tasks wanted).value.2
  | take {i b : Nat} {p : Pool Nat} (h : c.pool.take i = some (b, p)) : Turn c { c with pool := p }
  | assist {b : Nat} {p : Pool Nat} (h : c.pool.assist = some (b, p)) : Turn c { c with pool := p }
  | finish : Turn c { c with pool := c.pool.finish }
  | permit (b : Nat) : Turn c (c.permit b).2
  | conclude (b : Nat) (r : BranchResult) : Turn c (c.conclude b r).value
  | edit (b : Nat) (f : Block τ → Block τ) : Turn c (c.modifyBlock b f)
  | count (f : CoordinatorStats → CoordinatorStats) : Turn c (c.count f)
  | close : Turn c { c with pool := c.pool.close.value }

theorem stands_step (h : c.Turn c') : c.Stands c' := by
  cases h with
  | start tasks wanted => exact stands_start c tasks wanted
  | take h => exact .of_pool (Pool.heeds_take h)
  | assist h => exact .of_pool (Pool.heeds_assist h)
  | finish => exact .of_pool (.of_active rfl rfl)
  | permit b => exact stands_permit c b
  | conclude b r => exact stands_conclude c b r
  | edit b f => exact ⟨rfl, rfl, .refl c.pool⟩
  | count f => exact ⟨rfl, rfl, .refl c.pool⟩
  | close => exact .of_pool (.of_active rfl rfl)

theorem stands_run (h : Relation.ReflTransGen Turn c c') : c.Stands c' := by
  induction h with
  | refl => exact .refl c
  | tail _ hstep ih => exact ih.trans (stands_step hstep)

/-- **The pool never runs more workers** than the settings allow. -/
theorem active_le_of_run {config : ParallelConfig} {detected : UInt64}
    (h : Relation.ReflTransGen Turn (new config detected) c) :
    c.pool.active ≤ config.maxPoolThreads.toNat := by
  have hpool := (stands_run h).pool
  have hbound : c.pool.bound = config.maxPoolThreads.toNat := hpool.bound
  rw [← hbound]
  exact hpool.active (Nat.zero_le _)

/-! ## The number of workers -/

/-- What the branches, the processors and the cap leave. -/
def share (c : Coordinator τ) (branches : Nat) : Nat :=
  min branches (min (Cpu.parallelism c.config.cpuCount c.detected).toNat c.config.hardCap.toNat)

/-- **The workers of a block that does not ask for any**, and what becomes of the block: it is
started within the bound of the pool, so always when that is as wide as the cap, and refused beyond
it. -/
structure Sized (c : Coordinator τ) (tasks : List τ) (n : Nat) : Prop where
  resolved : c.resolve tasks.length none = .ok n
  pos : 1 ≤ n
  cap : n ≤ 8
  least : c.share tasks.length ≠ 0 → n ≤ c.share tasks.length
  starts : c.share tasks.length ≤ c.config.maxPoolThreads.toNat →
    n ≤ c.config.maxPoolThreads.toNat ∧ (c.start tasks none).value.1 = .ok c.nextBlock
  refused : c.config.maxPoolThreads.toNat < c.share tasks.length →
    (c.start tasks none).value.1 = .error (Pool.excess c.config.maxPoolThreads.toNat n)
  wide : 8 ≤ c.config.maxPoolThreads.toNat → (c.start tasks none).value.1 = .ok c.nextBlock

theorem allot_none {tasks : List τ} (h : validate tasks = .ok ()) :
    c.allot tasks none = .ok (max 1 (c.share tasks.length)) := by
  rw [allot, h]
  rfl

/-- **The start of a block on a pool that is not shut down** fails just for the bound. -/
theorem start_of_allot {tasks : List τ} {wanted : Option Nat} {n : Nat}
    (hopen : c.pool.closed = false) (h : c.allot tasks wanted = .ok n) :
    (tasks = [] ∨ n ≤ c.pool.bound) ∧ (c.start tasks wanted).value.1 = .ok c.nextBlock ∨
      tasks ≠ [] ∧ c.pool.bound < n ∧
        (c.start tasks wanted).value.1 = .error (Pool.excess c.pool.bound n) := by
  have hstart : c.start tasks wanted =
      (c.enroll tasks n).launch (.new c.nextBlock c.config.policy n tasks) := by
    rw [start_eq, h]
  have hpool := Pool.ensure_of_open (n := n) hopen
  rw [hstart]
  -- That the block is launched or not, and what the pool says, have to agree.
  obtain ⟨hok, hnil | ⟨p, notes, hp⟩⟩ | ⟨t, he, hne, hp⟩ := launch_cases (c.enroll tasks n)
    (x := .new c.nextBlock c.config.policy n tasks) (pos_of_allot h)
  · exact .inl ⟨.inl hnil, hok⟩
  · obtain ⟨-, hq⟩ | ⟨hle, -⟩ := hpool
    · cases hp.symm.trans hq
    · exact .inl ⟨.inr hle, hok⟩
  · obtain ⟨hlt, hq⟩ | ⟨-, q, notes, hq⟩ := hpool
    · cases hp.symm.trans hq
      exact .inr ⟨hne, hlt, by rw [he]⟩
    · cases hp.symm.trans hq

/-- **Blocks that do not ask for a number of workers**, under the settings of any variables, on a
coordinator that can be met. -/
theorem sized_of_variables {v : Variables} {detected : UInt64} {tasks : List τ}
    (h : Relation.ReflTransGen Turn (new (ParallelConfig.ofVariables v).1 detected) c)
    (hopen : c.pool.closed = false) (hv : validate tasks = .ok ()) :
    ∃ n, c.Sized tasks n := by
  obtain ⟨hconfig, -, hpool⟩ := stands_run h
  have hbound : c.pool.bound = c.config.maxPoolThreads.toNat := by
    rw [hconfig]
    exact hpool.bound
  have hcap : c.share tasks.length ≤ 8 := by
    have hhard : c.config.hardCap.toNat = 8 := by
      rw [hconfig]
      rfl
    unfold share
    omega
  have hroom : 1 ≤ c.config.maxPoolThreads.toNat := by
    rw [hconfig]
    exact ParallelConfig.room_of_variables v
  have hstart := start_of_allot hopen (allot_none (c := c) hv)
  rw [hbound] at hstart
  have hempty : tasks = [] → c.share tasks.length = 0 := by
    rintro rfl
    exact Nat.zero_min _
  have hok : c.share tasks.length ≤ c.config.maxPoolThreads.toNat →
      (c.start tasks none).value.1 = .ok c.nextBlock := by
    intro hle
    obtain ⟨-, hok⟩ | ⟨-, hlt, -⟩ := hstart
    · exact hok
    · omega
  refine ⟨max 1 (c.share tasks.length), rfl, by omega, by omega, fun hne => by omega,
    fun hle => ⟨by omega, hok hle⟩, fun hlt => ?_, fun hwide => hok (by omega)⟩
  obtain ⟨hnil | hle, -⟩ | ⟨-, -, he⟩ := hstart
  · have hzero := hempty hnil
    omega
  · omega
  · exact he

/-- Four processors, and a pool of two threads. -/
def narrow : Variables := fun name =>
  if name = "SYNAPSE_CPU_COUNT" then some "4"
  else if name = "SYNAPSE_POOL_MAX_THREADS" then some "2"
  else none

/-- Three branches that do nothing. -/
def triple : List PreparedTask :=
  ["a", "b", "c"].map fun id => ⟨id, ∅, some [], [], "", []⟩

/-- A coordinator of this kind without blocks. -/
def cramped : Coordinator PreparedTask := new (ParallelConfig.ofVariables narrow).1 1

/-- After a block of two branches, one of three. -/
theorem sized_of_triple : ∃ c, Relation.ReflTransGen Turn cramped c ∧ c.stats.blocks = 1 ∧
    c.pool.closed = false ∧ validate triple = .ok () ∧ c.Sized triple 3 := by
  have h : Relation.ReflTransGen Turn cramped (cramped.start Floor.failing none).value.2 :=
    .single (.start Floor.failing none)
  obtain ⟨n, hn⟩ := sized_of_variables h rfl (show validate triple = .ok () from rfl)
  obtain rfl : 3 = n := Except.ok.inj hn.resolved
  exact ⟨_, h, rfl, rfl, rfl, hn⟩

/-- More workers than the pool has room for, though none were asked for. -/
theorem exhausted_of_triple : validate triple = .ok () ∧ cramped.pool.closed = false ∧
    cramped.config.maxPoolThreads = 2 ∧ cramped.resolve triple.length none = .ok 3 ∧
    (cramped.start triple none).value.1 =
      .error (.error .exhausted "worker pool bound is 2 threads, 3 requested") :=
  ⟨rfl, rfl, rfl, rfl, rfl⟩

end Coordinator

end MemoFlow
