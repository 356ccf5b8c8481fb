import MemoFlow.Proofs.Branch.Floor

/-!
# The invariant of a floor

Each step on a floor keeps what holds of all blocks, of the bodies at work, and of the counters.

* `Floor.tally`, **`Floor.Valid`**: the invariant;
* `Floor.Carried`, `Floor.Valid.moved`, `Floor.Valid.works`, **`Floor.Valid.slice`**: every step
  keeps it;
* **`Floor.Valid.reach`**, `Floor.reached`, `Floor.valid_of_reach`: so it holds of all that can be
  met.
-/

namespace MemoFlow

namespace Floor

variable {τ : Type} [IsRunnable τ] {c : SessionConfig} {R : Session.Realm τ}
  {Q : τ → Except BranchFailure BranchOutcome → Prop}
  {w : Floor τ} {b : Nat} {x : Block τ}

/-- How many branches have ended in a way, with the result in hand or stored. -/
def tally (w : Floor τ) (σ : BranchStatus) : Nat :=
  w.slices.countP (fun q => q.2.hands σ) + w.session.coordinator.total (Block.tally σ)

/-- **The invariant of a floor.** -/
structure Valid (c : SessionConfig) (R : Session.Realm τ)
    (Q : τ → Except BranchFailure BranchOutcome → Prop) (w : Floor τ) : Prop where
  held : R.holds w.session
  config : w.session.config = c
  tidy : w.session.coordinator.Tidy
  homes : ∀ q ∈ w.slices, ∃ x, w.session.coordinator.block? q.1 = some x
  logged : ∀ q ∈ w.log, q.1 < w.session.coordinator.nextBlock
  kept : ∀ b x, w.session.coordinator.block? b = some x → Kept Q w b x
  configs : ∀ b p c', (b, p) ∈ w.slices → p.config? = some c' → c' = c
  bodies : ∀ b g p, (b, .running g p) ∈ w.slices →
    Process.Assures (Session.pact R) (fun _ o => Q g.task o) w.session p
  branches : w.session.coordinator.stats.branches =
    w.session.coordinator.total fun x => x.tasks.length
  failed : w.session.coordinator.stats.failed = w.tally .failed
  cancelled : w.session.coordinator.stats.cancelled = w.tally .cancelled

theorem valid_of_new {s : Session τ} {config : ParallelConfig} {detected : UInt64}
    (hs : R.holds s) (hc : s.config = c) (h : s.coordinator = .new config detected) :
    Valid c R Q ⟨[], s, []⟩ := by
  have hblocks : s.coordinator.blocks = [] := by rw [h]; rfl
  have htotal : ∀ f, s.coordinator.total f = 0 := fun f => by
    rw [Coordinator.total, hblocks]
    rfl
  refine ⟨hs, hc, ⟨?_, ?_⟩, fun _ h => absurd h List.not_mem_nil,
    fun _ h => absurd h List.not_mem_nil, fun b x hx => ?_,
    fun _ _ _ h => absurd h List.not_mem_nil,
    fun _ _ _ h => absurd h List.not_mem_nil, ?_, ?_, ?_⟩
  · rw [hblocks]
    exact .nil
  · rw [hblocks]
    exact fun _ h => absurd h List.not_mem_nil
  · rw [Coordinator.block?, hblocks] at hx
    cases hx
  · rw [htotal, h]
    rfl
  · rw [tally, htotal, h]
    rfl
  · rw [tally, htotal, h]
    rfl

theorem valid_new (hs : R.holds (.new c)) : Valid c R Q (new c) :=
  valid_of_new hs rfl
    (show (Session.new c).coordinator = .new c.parts.parallel c.processors from rfl)

theorem Valid.lt (h : Valid c R Q w) (hx : w.session.coordinator.block? b = some x) :
    b < w.session.coordinator.nextBlock := by
  obtain ⟨hm, rfl⟩ := (Coordinator.block?_eq_some_iff h.tidy).1 hx
  exact h.tidy.below x hm

/-- **What becomes of the slices and the records** when a client or a body moves, but for the slices
of a block that is entered. -/
structure Carried (c : SessionConfig) (R : Session.Realm τ)
    (Q : τ → Except BranchFailure BranchOutcome → Prop) (sl sl' : List (Nat × Position τ))
    (s s' : Session τ) (log' : List (Nat × Record)) : Prop where
  homes : sl'.map Prod.fst = sl.map Prod.fst
  logged : ∀ q ∈ log', q.1 < s.coordinator.nextBlock
  kept : ∀ b x y extra, s.coordinator.block? b = some x → s'.coordinator.block? b = some y →
    x.Same y → s'.coordinator.config = s.coordinator.config → ofBlock b extra = [] →
    Kept Q ⟨sl' ++ extra, s', log'⟩ b y
  configs : ∀ b p c', (b, p) ∈ sl' → p.config? = some c' → c' = c
  bodies : ∀ b g p, (b, .running g p) ∈ sl' →
    Process.Assures (Session.pact R) (fun _ o => Q g.task o) s' p
  hands : ∀ σ, sl'.countP (fun q => q.2.hands σ) = sl.countP fun q => q.2.hands σ

section Moved

variable {sl sl' : List (Nat × Position τ)} {log log' : List (Nat × Record)} {s s' : Session τ}

theorem Valid.home (h : Valid c R Q ⟨sl, s, log⟩) (hk : Carried c R Q sl sl' s s' log') :
    ∀ q ∈ sl', ∃ x, s.coordinator.block? q.1 = some x := fun q hq => by
  have hq' : q.1 ∈ sl.map Prod.fst := hk.homes ▸ List.mem_map_of_mem hq
  obtain ⟨q', hq', he⟩ := List.mem_map.1 hq'
  exact he ▸ h.homes q' hq'

/-- A move that enters no block. -/
theorem Valid.retained (h : Valid c R Q ⟨sl, s, log⟩) (hm : s.Moves s')
    (hk : Carried c R Q sl sl' s s' log') {f : Block τ → Block τ}
    (hf : s.coordinator.Retains f s'.coordinator) : Valid c R Q ⟨sl', s', log'⟩ where
  held := R.moves hm h.held
  config := hm.config.trans h.config
  tidy := hf.tidy h.tidy
  homes q hq := by
    obtain ⟨x, hx⟩ := h.home hk q hq
    exact ⟨f x, (hf.block? q.1).trans (congrArg (Option.map f) hx)⟩
  logged := hf.next ▸ hk.logged
  kept b y hy := by
    obtain ⟨x, hx, rfl⟩ := Option.map_eq_some_iff.1 ((hf.block? b).symm.trans hy)
    have hkept := hk.kept b x (f x) [] hx hy (hf.same x) hf.config rfl
    rwa [List.append_nil] at hkept
  configs := hk.configs
  bodies := hk.bodies
  branches := by
    dsimp only
    rw [hf.branches, hf.total fun x => congrArg List.length (hf.same x).tasks]
    exact h.branches
  failed := by
    rw [tally, hf.failed, hf.tally, hk.hands]
    exact h.failed
  cancelled := by
    rw [tally, hf.cancelled, hf.tally, hk.hands]
    exact h.cancelled

/-- A move that enters a block, whose slices wait for their turn. -/
theorem Valid.entered (h : Valid c R Q ⟨sl, s, log⟩) (hm : s.Moves s')
    (hk : Carried c R Q sl sl' s s' log') {z : Block τ}
    (hz : s.coordinator.Enters s'.coordinator z) :
    Valid c R Q ⟨sl' ++ List.replicate z.remaining (z.id, .waiting), s', log'⟩ := by
  have hne : ∀ {b x}, s.coordinator.block? b = some x → b ≠ z.id := fun hx => by
    rw [hz.id]
    exact Nat.ne_of_lt (h.lt hx)
  have hhands : ∀ σ, (sl' ++ List.replicate z.remaining (z.id, Position.waiting (τ := τ))).countP
      (fun q => q.2.hands σ) = sl.countP fun q => q.2.hands σ := fun σ => by
    rw [List.countP_append, hk.hands, List.countP_replicate]
    exact Nat.add_eq_left.2 (if_neg Bool.false_ne_true)
  refine ⟨R.moves hm h.held, hm.config.trans h.config, hz.tidy h.tidy, fun q hq => ?_,
    fun q hq => ?_, fun b y hy => ?_, fun b p c' hp hc => ?_, fun b g p hp => ?_, ?_, ?_, ?_⟩
  · obtain hq | hq := List.mem_append.1 hq
    · obtain ⟨x, hx⟩ := h.home hk q hq
      exact ⟨x, (hz.block?_of_ne (hne hx)).trans hx⟩
    · rw [List.eq_of_mem_replicate hq]
      exact ⟨z, hz.block?_self⟩
  · rw [hz.next]
    exact Nat.lt_succ_of_lt (hk.logged q hq)
  · by_cases hb : b = z.id
    · -- The new block has its own slices only, and no record yet.
      subst hb
      obtain rfl := Option.some.inj (hz.block?_self.symm.trans hy)
      refine .new hz ?_ (ofBlock_eq_nil fun q hq => ?_)
      · rw [crew, ofBlock_append, ofBlock_replicate, ofBlock_eq_nil fun q hq => ?_]
        · rfl
        · obtain ⟨x, hx⟩ := h.home hk q hq
          exact hne hx
      · rw [hz.id]
        exact Nat.ne_of_lt (hk.logged q hq)
    · have hx := (hz.block?_of_ne hb).symm.trans hy
      refine hk.kept b y y _ hx hy (.refl y) hz.config (ofBlock_eq_nil fun q hq => ?_)
      rw [List.eq_of_mem_replicate hq]
      exact Ne.symm hb
  · obtain hp | hp := List.mem_append.1 hp
    · exact hk.configs b p c' hp hc
    · cases List.eq_of_mem_replicate hp
      cases hc
  · obtain hp | hp := List.mem_append.1 hp
    · exact hk.bodies b g p hp
    · cases List.eq_of_mem_replicate hp
  · dsimp only
    rw [hz.branches, hz.total, Nat.add_comm]
    exact congrArg (_ + ·) h.branches
  · rw [tally, hz.failed, hz.tally, hhands]
    exact h.failed
  · rw [tally, hz.cancelled, hz.tally, hhands]
    exact h.cancelled

/-- **A move of a client or of a body** keeps the invariant. -/
theorem Valid.moved (h : Valid c R Q ⟨sl, s, log⟩) (hm : s.Moves s')
    (hk : Carried c R Q sl sl' s s' log') :
    Valid c R Q ⟨sl' ++ hired s.coordinator s'.coordinator, s', log'⟩ := by
  obtain ⟨f, hf⟩ | ⟨z, hz⟩ := hm.coordinator.cases h.tidy
  · rw [hired_eq_nil (hf.below h.tidy), List.append_nil]
    exact h.retained hm hk hf
  · rw [hired_of_enters h.tidy hz]
    exact h.entered hm hk hz

/-- A step around the slices keeps the invariant. -/
theorem Valid.around (h : Valid c R Q ⟨sl, s, log⟩) (hm : s.Moves s') :
    Valid c R Q ⟨sl ++ hired s.coordinator s'.coordinator, s', log⟩ := by
  have hlater : (Session.pact R).later s s' := (Session.pact R).later_of_allows hm
  refine h.moved hm ⟨rfl, h.logged, fun b x y extra hx hy hsame hc he => ?_, h.configs,
    fun b g p hp => (h.bodies b g p hp).mono hlater, fun _ => rfl⟩
  refine (h.kept b x hx).other ?_ rfl (hm.coordinator.spares (h.lt hx)) hy hsame hc
  rw [crew, ofBlock_append, he, List.append_nil]
  rfl

end Moved

omit [IsRunnable τ] in
theorem block?_of_works {c c' : Coordinator τ} {f : Block τ → Block τ} {a : Record}
    (hw : Coordinator.Works b f a c c') (hf : Block.Alters f) (k : Nat) :
    c'.block? k = if b = k then (c.block? k).map f else c.block? k := by
  rw [← Coordinator.block?_modifyBlock hf.id, Coordinator.block?, hw.blocks]
  rfl

omit [IsRunnable τ] in
/-- A change of the block of a slice at work leads to a later state. -/
theorem later_of_works {c c' : Coordinator τ} {f : Block τ → Block τ} {a : Record}
    (hw : Coordinator.Works b f a c c') (hf : Block.Alters f)
    (hx : c.block? b = some x) (hdone : x.isDone = false) : c.Later c' where
  next := Nat.le_of_eq hw.next.symm
  block k z _ hz := by
    have hk := block?_of_works hw hf k
    by_cases hb : b = k
    · subst hb
      obtain rfl := Option.some.inj (hx.symm.trans hz)
      exact ⟨f x, by rw [hk, if_pos rfl, hx]; rfl, fun hd => nomatch hdone.symm.trans hd⟩
    · exact ⟨z, by rw [hk, if_neg hb, hz], fun hd => ⟨hd, rfl⟩⟩

omit [IsRunnable τ] in
theorem map_id_works {c c' : Coordinator τ} {f : Block τ → Block τ} {a : Record}
    (hw : Coordinator.Works b f a c c') (hf : Block.Alters f) :
    c'.blocks.map Block.id = c.blocks.map Block.id := by
  rw [hw.blocks, Coordinator.modifyBlock, List.map_map]
  refine List.map_congr_left fun x _ => ?_
  dsimp only [Function.comp_apply]
  split
  · exact hf.id x
  · rfl

omit [IsRunnable τ] in
theorem hired_of_works {c c' : Coordinator τ} {f : Block τ → Block τ} {a : Record} (hc : c.Tidy)
    (hw : Coordinator.Works b f a c c') (hf : Block.Alters f) : c'.Tidy ∧ hired c c' = [] := by
  have hids := map_id_works hw hf
  have hbelow : ∀ x ∈ c'.blocks, x.id < c.nextBlock := fun x hx => by
    obtain ⟨y, hy, he⟩ := List.mem_map.1 (hids ▸ List.mem_map_of_mem hx)
    exact he ▸ hc.below y hy
  exact ⟨⟨hids ▸ hc.ids, fun x hx => hw.next ▸ hbelow x hx⟩, hired_eq_nil hbelow⟩

/-- **A block with a slice at work** is not done, and nothing is collected. -/
theorem Kept.not_done (h : Kept Q w b x) {p : Position τ} (hm : (b, p) ∈ w.slices)
    (hp : p.isAtWork = true) : x.isDone = false ∧ x.collected = none := by
  have hpos : 0 < x.remaining := by
    rw [h.sound.remaining]
    exact List.countP_pos_iff.2 ⟨p, mem_ofBlock.2 hm, hp⟩
  have hd : x.isDone = false := decide_eq_false (Nat.ne_of_gt hpos)
  exact ⟨hd, h.sound.collected.resolve_right fun hc => nomatch hd.symm.trans hc.1⟩

/-- **The result in the hand of a slice** goes to a place that is free. -/
theorem Kept.free {ps qs : List (Nat × Position τ)} {s : Session τ} {log : List (Nat × Record)}
    {g : Errand τ} {r : BranchResult} (h : Kept Q ⟨ps ++ (b, .filed g r) :: qs, s, log⟩ b x) :
    x.stored[g.index]? = some none := by
  have hmem : Position.filed g r ∈ crew ⟨ps ++ (b, .filed g r) :: qs, s, log⟩ b :=
    mem_ofBlock.2 (by simp)
  have hclaim := h.sound.claims g.index
  have hbalance := h.sound.balanced.holds g.index
  have hhold : 0 < (crew ⟨ps ++ (b, .filed g r) :: qs, s, log⟩ b).countP (·.holds g.index) :=
    List.countP_pos_iff.2 ⟨_, hmem, decide_eq_true rfl⟩
  have hlt : g.index < x.stored.length := by
    rw [h.sound.length]
    exact (List.getElem?_eq_some_iff.1 (h.sound.fits _ hmem).1.task).1
  obtain ⟨o, ho⟩ : ∃ o, x.stored[g.index]? = some o := ⟨_, List.getElem?_eq_getElem hlt⟩
  cases o with
  | none => exact ho
  | some r' =>
    -- A stored result was stored by a slice, which then had the one claim of the branch.
    have hstore := List.count_pos_iff.2 (h.recorded.stored _ _ ho).1
    have hle : ((records ⟨ps ++ (b, .filed g r) :: qs, s, log⟩ b).map Prod.fst).count
        (.claim g.index) ≤ 1 := by
      rw [hclaim]
      split <;> omega
    dsimp only at hbalance
    omega

omit [IsRunnable τ] in
/-- The ways in which branches have ended add up when a slice makes a step of its own. -/
theorem tally_works {ps qs : List (Nat × Position τ)} {p p' : Position τ} {s s' : Session τ}
    {log log' : List (Nat × Record)} {f : Block τ → Block τ} {a : Record}
    (hids : (s.coordinator.blocks.map Block.id).Nodup) (hx : s.coordinator.block? b = some x)
    (hw : Coordinator.Works b f a s.coordinator s'.coordinator) {σ : BranchStatus}
    (ht : a.tally σ + [p].countP (·.hands σ) + x.tally σ =
      [p'].countP (·.hands σ) + (f x).tally σ) :
    tally ⟨ps ++ (b, p') :: qs, s', log'⟩ σ = tally ⟨ps ++ (b, p) :: qs, s, log⟩ σ + a.tally σ := by
  have htotal : s'.coordinator.total (Block.tally σ) + x.tally σ =
      s.coordinator.total (Block.tally σ) + (f x).tally σ := by
    rw [Coordinator.total, hw.blocks]
    exact Coordinator.total_modifyBlock hids hx f _
  rw [List.countP_singleton, List.countP_singleton] at ht
  simp only [tally, List.countP_append, List.countP_cons]
  omega

/-- A slice runs under the setup of the session. -/
theorem Valid.config_of_next {ps qs : List (Nat × Position τ)} {p p' : Position τ}
    {s s' : Session τ} {e : Event} {log : List (Nat × Record)} {c' : SessionConfig}
    (h : Valid c R Q ⟨ps ++ (b, p) :: qs, s, log⟩) (hn : Position.Next b p s e p' s')
    (hc : p'.config? = some c') : c' = c := by
  obtain hc | rfl := hn.config hc
  · exact h.configs b p c' (by simp) hc
  · exact h.config

variable [IsPlainBranch τ]

/-- **A step of a slice outside of bodies** keeps the invariant. -/
theorem Valid.works {ps qs : List (Nat × Position τ)} {p p' : Position τ} {s s' : Session τ}
    {e : Event} {log : List (Nat × Record)} {f : Block τ → Block τ}
    (h : Valid c R Q ⟨ps ++ (b, p) :: qs, s, log⟩) (hn : Position.Next b p s e p' s')
    (hx : s.coordinator.block? b = some x) (hf : Block.Alters f)
    (heff : Position.Effect x p e p' (f x))
    (hw : Coordinator.Works b f (e, p'.result?) s.coordinator s'.coordinator)
    (hq : ∀ g o, p = .running g (.done o) → Q g.task o) (hs' : R.holds s')
    (hconfig : s'.config = s.config)
    (hbody : ∀ g q, p' = .running g q →
      Process.Assures (Session.pact R) (fun _ o => Q g.task o) s' q) :
    Valid c R Q ⟨ps ++ (b, p') :: qs ++ hired s.coordinator s'.coordinator, s',
      log ++ [(b, e, p'.result?)]⟩ := by
  have hk := h.kept b x hx
  have hb := h.lt hx
  obtain ⟨htidy, hhired⟩ := hired_of_works h.tidy hw hf
  have hdone := (hk.not_done (p := p) (by simp) heff.isAtWork).1
  have hlater : s.coordinator.Later s'.coordinator := later_of_works hw hf hx hdone
  have hblock := block?_of_works hw hf
  have hy : s'.coordinator.block? b = some (f x) := by rw [hblock, if_pos rfl, hx]; rfl
  have hfree : ∀ g r, p = .filed g r → x.stored[g.index]? = some none := fun g r hp => by
    subst hp
    exact hk.free
  have htally : ∀ σ, tally ⟨ps ++ (b, p') :: qs, s', log ++ [(b, e, p'.result?)]⟩ σ =
      tally ⟨ps ++ (b, p) :: qs, s, log⟩ σ + Record.tally σ (e, p'.result?) := fun σ =>
    tally_works h.tidy.ids hx hw (heff.tally_add σ hfree)
  rw [hhired]
  refine ⟨hs', hconfig.trans h.config, htidy, fun q hq => ?_, fun q hq => ?_, fun k z hz => ?_,
    fun k q c' hr hc => ?_,
    fun k g q hr => ?_, ?_, ?_, ?_⟩
  · have hhome : ∃ z, s.coordinator.block? q.1 = some z := by
      simp only [List.append_nil, List.mem_append, List.mem_cons] at hq
      obtain hq | rfl | hq := hq
      · exact h.homes q (by simp [hq])
      · exact ⟨x, hx⟩
      · exact h.homes q (by simp [hq])
    obtain ⟨z, hz⟩ := hhome
    obtain ⟨z', hz', -⟩ := hlater.block q.1 z (h.lt hz) hz
    exact ⟨z', hz'⟩
  · show q.1 < s'.coordinator.nextBlock
    rw [hw.next]
    obtain hq | hq := List.mem_append.1 hq
    · exact h.logged q hq
    · rw [List.mem_singleton.1 hq]
      exact hb
  · -- The step is that of a slice of this block, or of another one that it spares.
    by_cases hkb : b = k
    · subst hkb
      obtain rfl := Option.some.inj (hy.symm.trans hz)
      exact hk.own hn heff hy hw.config (hf.policy x) (hf.workers x) hq rfl
    · have hz' : s.coordinator.block? k = some z := by
        have hz := (hblock k).symm.trans hz
        rwa [if_neg hkb] at hz
      have hspares : s.coordinator.Spares k s'.coordinator :=
        .of_block? (Nat.le_of_eq hw.next.symm) (hz.trans hz'.symm)
      refine (h.kept k z hz').other ?_ ?_ hspares hz (.refl z) hw.config
      · simp only [crew, ofBlock_append, ofBlock_cons_of_ne hkb]
        exact List.append_nil _
      · simp only [records, ofBlock_append, ofBlock_cons_of_ne hkb]
        exact List.append_nil _
  · have hold : (k, q) ∈ ps ++ (b, p) :: qs → c' = c := fun hm =>
      h.configs k q c' hm hc
    simp only [List.append_nil, List.mem_append, List.mem_cons, Prod.mk.injEq] at hr hold
    obtain hr | ⟨-, rfl⟩ | hr := hr
    · exact hold (.inl hr)
    · exact h.config_of_next hn hc
    · exact hold (.inr (.inr hr))
  · have hold : (k, .running g q) ∈ ps ++ (b, p) :: qs →
        Process.Assures (Session.pact R) (fun _ o => Q g.task o) s' q := fun hm =>
      (h.bodies k g q hm).mono ⟨hlater, fun _ => hs'⟩
    simp only [List.append_nil, List.mem_append, List.mem_cons, Prod.mk.injEq] at hr hold
    obtain hr | ⟨-, rfl⟩ | hr := hr
    · exact hold (.inl hr)
    · exact hbody g q rfl
    · exact hold (.inr (.inr hr))
  · -- No branch comes or goes, and ends move from hands to stores.
    show s'.coordinator.stats.branches = s'.coordinator.total _
    have htotal := Coordinator.total_modifyBlock h.tidy.ids hx f fun x => x.tasks.length
    rw [hf.tasks] at htotal
    rw [hw.branches, Coordinator.total, hw.blocks]
    exact h.branches.trans (Nat.add_right_cancel htotal).symm
  · rw [List.append_nil, htally, ← h.failed]
    exact hw.failed
  · rw [List.append_nil, htally, ← h.cancelled]
    exact hw.cancelled

section Run

variable (hQ : ∀ t, Process.Honours (Session.pact R) (Q t)
  ((Session.branchHost c).answer (IsRunnable.toTask c t)))

include hQ

/-- **A step of a slice keeps the invariant.** -/
theorem Valid.slice {ps qs : List (Nat × Position τ)} {p p' : Position τ} {s s' : Session τ}
    {e : Event} {log : List (Nat × Record)} (h : Valid c R Q ⟨ps ++ (b, p) :: qs, s, log⟩)
    (hn : Position.Next b p s e p' s') (hj : p.Heeds s p') (hs' : R.holds s') :
    Valid c R Q ⟨ps ++ (b, p') :: qs ++ hired s.coordinator s'.coordinator, s',
      log ++ [(b, e, p'.result?)]⟩ := by
  obtain ⟨x, hx⟩ : ∃ x, s.coordinator.block? b = some x := h.homes (b, p) (by simp)
  have hk := h.kept b x hx
  have hbody : ∀ g q, p = .running g q →
      Process.Assures (Session.pact R) (fun _ o => Q g.task o) s q := fun g q hp =>
    h.bodies b g q (by simp [hp])
  have hq : ∀ g o, p = .running g (.done o) → Q g.task o := fun g o hp => by
    cases hbody g _ hp with
    | done hq => exact hq s ((Session.pact R).refl s)
  have hheeds : ∀ g q q', p = .running g q → p' = .running g q' → ∀ k timed f,
      q = .join k timed f → Session.site.isDone s k = true ∨ q' = f false := by
    rintro g q q' rfl rfl k timed f rfl
    exact (hj g k timed f rfl).imp_right fun hd => (Position.running.inj hd).2
  obtain ⟨f, hf, heff, hw, hc⟩ | ⟨g, q, q', rfl, rfl, rfl, hstep⟩ := hn.effect hx hk.policy
  · refine h.works hn hx hf heff hw hq hs' hc fun g q hp => ?_
    subst hp
    cases hn with
    | begin _ =>
      rw [h.configs b (.claimed g) g.config (by simp) rfl]
      exact hQ g.task s' hs'
    | go hstep => exact ((hbody _ _ rfl).of_step hstep (hheeds _ _ _ rfl rfl)).2
  · -- The slice is in the body of a branch, which moves as a client does.
    obtain ⟨hmove, hrest⟩ := (hbody g q rfl).of_step hstep (hheeds g q q' rfl rfl)
    have hm : s.Moves s' := by
      obtain rfl | hm := hmove
      · exact .refl _
      · exact hm
    have hlater : (Session.pact R).later s s' := (Session.pact R).later_of_allows hm
    refine h.moved hm ⟨by simp, fun q hq => ?_, fun k z y extra hz hy hsame hc he => ?_,
      fun k p c' hp hc => ?_, fun k g' p hp => ?_, fun σ => ?_⟩
    · obtain hq | hq := List.mem_append.1 hq
      · exact h.logged q hq
      · rw [List.mem_singleton.1 hq]
        exact h.lt hx
    · by_cases hkb : k = b
      · subst hkb
        obtain rfl := Option.some.inj (hx.symm.trans hz)
        exact hk.own hn (.go hsame) hy hc hsame.policy hsame.workers hq he
      · refine (h.kept k z hz).other ?_ ?_ (hm.coordinator.spares (h.lt hz)) hy hsame hc
        · simp only [crew, ofBlock_append, ofBlock_cons_of_ne (Ne.symm hkb), he, List.append_nil]
        · simp only [records, ofBlock_append, ofBlock_cons_of_ne (Ne.symm hkb)]
          exact List.append_nil _
    · simp only [List.mem_append, List.mem_cons, Prod.mk.injEq] at hp
      obtain hp | ⟨rfl, rfl⟩ | hp := hp
      · exact h.configs k p c' (by simp [hp]) hc
      · exact h.config_of_next hn hc
      · exact h.configs k p c' (by simp [hp]) hc
    · simp only [List.mem_append, List.mem_cons, Prod.mk.injEq, Position.running.injEq] at hp
      obtain hp | ⟨rfl, rfl, rfl⟩ | hp := hp
      · exact (h.bodies k g' p (by simp [hp])).mono hlater
      · exact hrest
      · exact (h.bodies k g' p (by simp [hp])).mono hlater
    · simp [Position.hands, Position.result?]

/-- **What can happen keeps the invariant**, when all bodies end as `Q` says. -/
theorem Valid.reach (hR : ∀ w, Relation.ReflTransGen Step (new c) w → R.holds w.session)
    (h : Relation.ReflTransGen Step (new c) w) : Valid c R Q w := by
  -- What holds of the sessions is given for all that is reached, as bodies rely on it before their
  -- own steps are known to keep it.
  induction h with
  | refl => exact valid_new (hR _ .refl)
  | tail hrun hstep ih =>
    have hs' := hR _ (hrun.tail hstep)
    cases hstep with
    | slice hn hj => exact ih.slice hQ hn hj hs'
    | around hm => exact ih.around hm

end Run

/-- **The sessions that can be met.** -/
def reached (c : SessionConfig) : Session.Realm τ where
  holds s := ∃ w, Relation.ReflTransGen Step (new c) w ∧ w.session = s
  moves := by
    rintro _ t hm ⟨w, hw, rfl⟩
    exact ⟨_, hw.tail (.around hm), rfl⟩

/-- **All that can be met is valid**, when all bodies end as `Q` says. -/
theorem valid_of_reach (hQ : ∀ t, Process.Honours (Session.pact (reached c)) (Q t)
      ((Session.branchHost c).answer (IsRunnable.toTask c t)))
    (h : Relation.ReflTransGen Step (new c) w) : Valid c (reached c) Q w :=
  .reach hQ (fun w hw => ⟨w, hw, rfl⟩) h

end Floor

end MemoFlow
