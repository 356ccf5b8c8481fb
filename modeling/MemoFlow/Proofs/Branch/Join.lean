import MemoFlow.Proofs.Branch.Barrier
import MemoFlow.Session.Blocks

/-!
# The end of a block

When all slices of a block have retired, its results are those of all its branches, and a wait for
the block goes on to them.

* `NameMap.perm_entries_ofList`, `Coordinator.nodup_of_validate`: maps of distinct names, and the
  names of branches are distinct;
* `Shift.Sound.stored`, `Shift.Sound.keys_results`, `Shift.Sound.perm_results`: what is stored when
  the block is done;
* `Session.settled_of_spares`, **`Session.abides_collect`**, `Session.advance_collect`: the results
  are collected, also while other things go on;
* `Session.Gives`, **`Shift.Barrier`**, **`Shift.barrier`**: from the start of a block to its join.
-/

namespace MemoFlow

/-! ## Names of branches -/

namespace NameMap

variable {α : Type}

theorem perm_insertIn {n : String} {v : α} {l : List (String × α)} (h : n ∉ l.map Prod.fst) :
    (insertIn n v l).Perm ((n, v) :: l) := by
  induction l with
  | nil => exact .refl _
  | cons q r ih =>
    obtain ⟨k, w⟩ := q
    rw [List.map_cons, List.mem_cons, not_or] at h
    rw [insertIn]
    split
    · exact .refl _
    · rw [if_neg (Ne.symm h.1)]
      exact ((ih h.2).cons _).trans (.swap ..)

theorem perm_foldl_insert {l : List (String × α)} {m : NameMap α}
    (h : (l.map Prod.fst ++ m.keys).Nodup) :
    (l.foldl (fun m p => m.insert p.1 p.2) m).entries.Perm (l ++ m.entries) := by
  induction l generalizing m with
  | nil => exact .refl _
  | cons p l ih =>
    obtain ⟨n, v⟩ := p
    rw [List.map_cons, List.cons_append, List.nodup_cons] at h
    have hn : n ∉ m.keys := fun hm => h.1 (List.mem_append_right _ hm)
    have hins : (m.insert n v).entries.Perm ((n, v) :: m.entries) := perm_insertIn hn
    have hkeys : (l.map Prod.fst ++ (m.insert n v).keys).Perm (n :: (l.map Prod.fst ++ m.keys)) :=
      ((hins.map Prod.fst).append_left _).trans List.perm_middle
    refine (ih (hkeys.nodup_iff.2 (List.nodup_cons.2 h))).trans ?_
    exact (hins.append_left l).trans List.perm_middle

/-- **A map of distinct names** has the bindings of the list. -/
theorem perm_entries_ofList {l : List (String × α)} (h : (l.map Prod.fst).Nodup) :
    (ofList l).entries.Perm l := by
  have hl : (l.map Prod.fst ++ (∅ : NameMap α).keys).Nodup := by
    rw [show (∅ : NameMap α).keys = [] from rfl, List.append_nil]
    exact h
  exact (perm_foldl_insert hl).trans (List.Perm.of_eq (List.append_nil l))

end NameMap

namespace Coordinator

theorem nodup_of_validateFrom {τ : Type} [IsBranch τ] {tasks : List τ} {seen : List String}
    (h : validateFrom seen tasks = .ok ()) :
    (tasks.map IsBranch.id).Nodup ∧ ∀ t ∈ tasks, IsBranch.id t ∉ seen := by
  induction tasks generalizing seen with
  | nil => exact ⟨.nil, nofun⟩
  | cons t ts ih =>
    rw [validateFrom] at h
    split at h
    · exact nomatch h
    · split at h
      · exact nomatch h
      · next hseen =>
        split at h
        · exact nomatch h
        · obtain ⟨hn, hm⟩ := ih h
          rw [List.contains_iff_mem] at hseen
          refine ⟨List.nodup_cons.2 ⟨fun ht => ?_, hn⟩, fun t' ht' => ?_⟩
          · obtain ⟨t', ht', he⟩ := List.mem_map.1 ht
            exact hm t' ht' (he ▸ List.mem_cons_self)
          · obtain rfl | ht' := List.mem_cons.1 ht'
            · exact hseen
            · exact fun hs => hm t' ht' (List.mem_cons_of_mem _ hs)

/-- **The names of the branches of a block** are distinct. -/
theorem nodup_of_validate {τ : Type} [IsBranch τ] {tasks : List τ}
    (h : validate tasks = .ok ()) : (tasks.map IsBranch.id).Nodup := (nodup_of_validateFrom h).1

end Coordinator

/-- A block is worked on. -/
theorem Coordinator.resolve_pos {τ : Type} {c : Coordinator τ} {n w : Nat} {wanted : Option Nat}
    (h : c.resolve n wanted = .ok w) : 0 < w := by
  unfold resolve at h
  cases wanted with
  | none =>
    obtain rfl := Except.ok.inj h
    exact Nat.lt_of_lt_of_le Nat.zero_lt_one (Nat.le_max_left ..)
  | some k =>
    dsimp only at h
    split at h
    · exact nomatch h
    · next hk =>
      obtain rfl := Except.ok.inj h
      exact Nat.pos_of_ne_zero fun h0 => hk (.inl h0)

/-! ## Blocks that are done -/

variable {τ : Type}

namespace Shift.Sound

variable [IsRunnable τ] {b : Nat} {ts : List τ} {x : Block τ} {w : Shift τ}

/-- When a block is done, its slices have retired. -/
theorem retired (h : Sound b ts x w) (hx : x.remaining = 0) : ∀ p ∈ w.slices, p = .retired :=
  fun p hp => by
    have hzero : w.slices.countP Position.isAtWork = 0 := h.remaining.symm.trans hx
    have hp' := List.countP_eq_zero.1 hzero p hp
    cases p with
    | retired => rfl
    | _ => exact absurd rfl hp'

/-- **When a block is done**, each of its branches is stored, by its own name. -/
theorem stored (h : Sound b ts x w) (hw : w.slices ≠ []) (hx : x.remaining = 0) {i : Nat}
    {t : τ} (ht : ts[i]? = some t) :
    ∃ r, x.stored[i]? = some (some r) ∧ r.id = IsBranch.id t := by
  have hretired := h.retired hx
  obtain ⟨p, hp⟩ := List.exists_mem_of_ne_nil _ hw
  -- A slice has left, so all branches are claimed.
  have hall : ts.length ≤ x.next := by
    have hfits := h.fits p hp
    rw [hretired p hp] at hfits
    exact hfits
  have hi : i < ts.length := (List.getElem?_eq_some_iff.1 ht).1
  have hclaim : w.log.count (.claim i) = 1 := by
    rw [h.claims i, if_pos (by omega)]
  -- No slice has a branch in hand, so what was claimed is stored.
  have hhand : w.slices.countP (·.holds i) = 0 := List.countP_eq_zero.2 fun p hp => by
    rw [hretired p hp]
    exact Bool.false_ne_true
  have hbalance := h.balanced.holds i
  obtain ⟨t', r, ht', hr, hid⟩ := h.results i (List.count_pos_iff.1 (by omega))
  obtain rfl := Option.some.inj (ht.symm.trans ht')
  exact ⟨r, hr, hid⟩

/-- **When all branches are stored**, the results are those that are stored, by the names of the
branches. -/
theorem perm_results (h : Sound b ts x w) (hn : (ts.map IsBranch.id).Nodup)
    (hs : ∀ (i : Nat) (t : τ), ts[i]? = some t →
      ∃ r : BranchResult, x.stored[i]? = some (some r) ∧ r.id = IsBranch.id t) :
    x.results.entries.Perm ((x.stored.filterMap fun r => r).map fun r => (r.id, r)) ∧
      (x.stored.filterMap fun r => r).map BranchResult.id = ts.map IsBranch.id := by
  have hstored : x.stored.map (Option.map BranchResult.id) =
      ts.map fun t => some (IsBranch.id t) := by
    refine List.ext_getElem? fun i => ?_
    rw [List.getElem?_map, List.getElem?_map]
    cases ht : ts[i]? with
    | none =>
      rw [List.getElem?_eq_none_iff, ← h.length, ← List.getElem?_eq_none_iff] at ht
      rw [ht]
      rfl
    | some t =>
      obtain ⟨r, hr, hid⟩ := hs i t ht
      rw [hr]
      exact congrArg (some ∘ some) hid
  have hids : (x.stored.filterMap fun r => r).map BranchResult.id = ts.map IsBranch.id := by
    have hflat := congrArg (List.filterMap fun r => r) hstored
    rw [List.filterMap_map, List.filterMap_map] at hflat
    rw [List.map_filterMap]
    exact hflat.trans (congrFun List.filterMap_eq_map' ts)
  refine ⟨NameMap.perm_entries_ofList ?_, hids⟩
  rw [List.map_map]
  exact hids ▸ hn

/-- **When a block is done**, its results have the names of its branches. -/
theorem keys_results (h : Sound b ts x w) (hw : w.slices ≠ []) (hx : x.remaining = 0)
    (hn : (ts.map IsBranch.id).Nodup) : x.results.keys.Perm (ts.map IsBranch.id) := by
  obtain ⟨hperm, hids⟩ := h.perm_results hn fun i t => h.stored hw hx
  have hkeys := hperm.map Prod.fst
  rw [List.map_map] at hkeys
  exact hids ▸ hkeys

end Shift.Sound

/-! ## Collecting the results -/

namespace Session

variable {b : Nat} {x : Block τ}

/-- **The rule that a block stays done** with its results. -/
def settled (b : Nat) (stored : List (Option BranchResult)) : Rule (Session τ) where
  holds s := ∃ x, s.coordinator.block? b = some x ∧ x.isDone = true ∧ x.stored = stored ∧
    (x.collected = none ∨ x.collected = some x.results)
  allows s s' := s.coordinator.Spares b s'.coordinator

/-- A block that is spared stays done. -/
theorem settled_of_spares {stored : List (Option BranchResult)} {s s' : Session τ}
    (h : (settled b stored).holds s) (hs : s.coordinator.Spares b s'.coordinator) :
    (settled b stored).holds s' := by
  obtain ⟨x, hx, hdone, hstored, hc⟩ := h
  obtain ⟨y, hy, hk⟩ := hs.block x hx
  have hc' := Shift.collected_of_keeps hk (hc.imp_right fun hc => ⟨hdone, hc⟩)
  refine ⟨y, hy, ?_, hk.stored.trans hstored, hc'.imp_right And.right⟩
  rw [Block.isDone, hk.remaining]
  exact hdone

/-- The results leave the cache of branches. -/
def dropAll (b : Nat) (l : List BranchResult) : ActOf τ PUnit :=
  forIn l ⟨⟩ fun r _ => do
    let _ ← onBranch fun c _ => ⟨c.invalidate (.ofBranch b r.id), []⟩
    return .yield ⟨⟩

/-- The results are kept with the block. -/
def deposit (b : Nat) (r : BranchResults) : ActOf τ BranchResults := do
  onBlock b fun x => { x with collected := some r }
  return r

theorem collect_eq (b : Nat) : collect (τ := τ) b = Process.state >>= fun s =>
    match s.coordinator.block? b with
    | none => pure ∅
    | some x =>
      match x.collected with
      | some r => pure r
      | none => dropAll b (x.stored.filterMap fun r => r) >>= fun _ => deposit b x.results :=
  rfl

/-- **Collecting the results of a block that is done** spares the block, and it comes to its results
whatever else goes on. -/
theorem abides_collect (b : Nat) (x : Block τ) :
    Process.Abides (settled b x.stored) (fun r => r = x.results) (collect (τ := τ) b) := by
  rw [collect_eq]
  refine .read fun s hs => ?_
  obtain ⟨y, hy, -, hstored, hc⟩ := hs
  have hr : y.results = x.results := by rw [Block.results, Block.results, hstored]
  show Process.Abides _ _ (match s.coordinator.block? b with | none => _ | some x => _)
  rw [hy]
  dsimp only
  obtain hc | hc := hc
  · rw [hc]
    have hdrop : Process.Obeys (settled b x.stored)
        (dropAll (τ := τ) b (y.stored.filterMap fun r => r)) :=
      .forIn (fun r _ => .bind (.update fun s _ => Coordinator.Spares.of_blocks rfl rfl)
        fun _ => .pure _) _
    refine .bind hdrop fun _ _ => .change (fun s hs => ⟨Nat.le_refl _, fun z hz => ?_⟩)
      fun _ _ => .done hr
    obtain ⟨z', hz', hdone, hstored', -⟩ := hs
    obtain rfl := Option.some.inj (hz.symm.trans hz')
    refine ⟨{ z with collected := some y.results }, ?_, rfl, rfl, rfl, rfl, .inr ⟨hdone, ?_⟩⟩
    · exact Coordinator.block?_modifyBlock_self
        (fun z => { z with collected := some y.results }) (fun _ => rfl) hz
    · rw [Block.results, Block.results, hstored, hstored']
  · rw [hc]
    exact .done hr

/-- Dropping results runs to its end. -/
theorem advance_dropAll (b : Nat) (l : List BranchResult) (s : Session τ) :
    ∃ s', (dropAll b l).advance s = (.done ⟨⟩, s') := by
  unfold dropAll
  induction l generalizing s with
  | nil => exact ⟨s, rfl⟩
  | cons r l ih =>
    rw [List.forIn_cons]
    exact ih _

/-- **Collecting the results** of a block runs to its end. -/
theorem advance_collect {s : Session τ} (hx : s.coordinator.block? b = some x)
    (hc : x.collected = none ∨ x.collected = some x.results) :
    ∃ s', (collect b).advance s = (.done x.results, s') := by
  rw [collect_eq]
  show ∃ s', Process.advance (match s.coordinator.block? b with | none => _ | some x => _) s = _
  rw [hx]
  dsimp only
  obtain hc | hc := hc
  · rw [hc]
    obtain ⟨s', hs'⟩ := advance_dropAll b (x.stored.filterMap fun r => r) s
    exact ⟨_, (Process.advance_bind hs').trans rfl⟩
  · rw [hc]
    exact ⟨s, rfl⟩

/-- **What a wait for a block gives**: it stands before the end of the block, which has come, and
goes on to the results. -/
def Gives [IsRunnable τ] (s : Session τ) (b : Nat) (r : BranchResults) : Prop :=
  ∃ k s', wait (some b) τ = .join b false k ∧ site.isDone s b = true ∧
    (k true).advance s = (.done r, s')

theorem gives_results [IsRunnable τ] {s : Session τ} (hx : s.coordinator.block? b = some x)
    (hd : x.isDone = true) (hc : x.collected = none ∨ x.collected = some x.results) :
    s.Gives b x.results := by
  obtain ⟨s', hs'⟩ := advance_collect hx hc
  refine ⟨_, s', rfl, ?_, ?_⟩
  · show ((s.coordinator.block? b).map Block.isDone).getD true = true
    rw [hx]
    exact hd
  · have hsome : (collect b >>= fun r => pure (some r)).advance s = (.done (some x.results), s') :=
      Process.advance_bind hs'
    exact Process.advance_bind (f := fun r => pure (r.getD ∅)) hsome

end Session

/-! ## From the start to the join -/

namespace Shift

variable [IsRunnable τ] {b : Nat} {tasks : List τ}

/-- The slices of a block that was started are sound. -/
theorem sound_start {s : Session τ} {c : Coordinator τ} {k : Nat}
    {x : Block τ} (hb : b < c.nextBlock) (hx : c.block? b = some x)
    (hnew : x = { Block.new b x.policy x.workers tasks with remaining := k }) :
    Sound b tasks x (start k { s with coordinator := c }) := by
  rw [hnew] at hx ⊢
  refine ⟨hx, hb, rfl, List.length_replicate, ?_, fun i => ?_, balanced_start k, fun p hp => ?_,
    nofun, .inl rfl⟩
  · show k = (List.replicate k (Position.waiting (τ := τ))).countP Position.isAtWork
    rw [List.countP_replicate]
    rfl
  · show 0 = if i < min 0 tasks.length then 1 else 0
    rw [Nat.zero_min]
    rfl
  · rw [List.eq_of_mem_replicate hp]
    trivial

/-- A branch is claimed and begun at most once, and no more bodies are running than there are
slices. -/
theorem Sound.counts {x : Block τ} {w : Shift τ} (h : Sound b tasks x w) :
    (∀ i, w.log.count (.claim i) ≤ 1) ∧ (∀ i, w.log.count (.begin i) ≤ 1) ∧
      w.log.countP Event.isBegin ≤ w.log.countP Event.isFinish + w.slices.length := by
  have hclaim : ∀ i, w.log.count (.claim i) ≤ 1 := fun i => by
    rw [h.claims i]
    split <;> omega
  refine ⟨hclaim, fun i => ?_, ?_⟩
  · have h1 := hclaim i
    have h2 := h.balanced.begins i
    omega
  · have h1 := h.balanced.finishes
    have h2 : w.slices.countP Position.isRunning ≤ w.slices.length := List.countP_le_length
    omega

/-- **What the slices of a block keep to**, with `k` slices and the branches `tasks`. -/
structure Barrier (b k : Nat) (tasks : List τ) (z : Shift τ) : Prop where
  /-- The steps of a slice are those of its code. -/
  code : ∀ p ∈ z.slices, ∀ q s', Process.Step (p.process b) z.session q s' ↔
    ∃ e p', Position.Next b p z.session e p' s' ∧ p'.process b = q
  /-- No branch is claimed twice. -/
  claims : ∀ i, z.log.count (.claim i) ≤ 1
  /-- No body is run twice. -/
  begins : ∀ i, z.log.count (.begin i) ≤ 1
  /-- At most `k` bodies are between their begin and their end. -/
  running : z.log.countP Event.isBegin ≤ z.log.countP Event.isFinish + k
  /-- When all slices have retired, each branch has been stored by its own name, and a wait gives
  results with just the names of the branches. -/
  joined : ∃ x : Block τ, z.session.coordinator.block? b = some x ∧ (x.remaining = 0 →
    (∀ (i : Nat) (t : τ), tasks[i]? = some t →
      ∃ r : BranchResult, x.stored[i]? = some (some r) ∧ r.id = IsBranch.id t) ∧
    ∃ r, z.session.Gives b r ∧ r.keys.Perm (tasks.map IsBranch.id))

/-- **A block is a barrier.** A block of `n` branches, at least one, that is started with `w`
workers hands `min w n` slices to the pool. They keep to the barrier whatever their branches do, and
in whatever order they and everything around them make their steps. -/
theorem barrier [IsPlainBranch τ] {s : Session τ} {wanted : Option Nat} {c : Coordinator τ}
    (hne : tasks ≠ []) (h : (s.coordinator.start tasks wanted).value = (.ok b, c)) :
    ∃ w, s.coordinator.resolve tasks.length wanted = .ok w ∧
      c.handed b = s.coordinator.handed b + min w tasks.length ∧
      ∀ z, Relation.ReflTransGen (Step b)
          (start (min w tasks.length) { s with coordinator := c }) z →
        z.Barrier b (min w tasks.length) tasks := by
  obtain ⟨hv, hb, w, hw, hcount, hx⟩ := Coordinator.start_ok hne h
  refine ⟨w, hw, hcount, ?_⟩
  intro z hz
  obtain ⟨x, hsound⟩ := (sound_start (s := s) hb hx rfl).reach hz
  have hlength : z.slices.length = min w tasks.length :=
    (length_of_reach hz).trans List.length_replicate
  obtain ⟨hclaims, hbegins, hrunning⟩ := hsound.counts
  rw [hlength] at hrunning
  refine ⟨?_, hclaims, hbegins, hrunning, x, hsound.block, ?_⟩
  · intro p _ q s'
    exact Position.step_iff hsound.block
  · intro hx
    have hslices : z.slices ≠ [] := by
      apply List.ne_nil_of_length_pos
      rw [hlength]
      have hpos : 0 < tasks.length := List.length_pos_iff.2 hne
      have hw' : 0 < w := Coordinator.resolve_pos hw
      omega
    have hc : x.collected = none ∨ x.collected = some x.results :=
      hsound.collected.imp_right And.right
    refine ⟨fun i t => hsound.stored hslices hx, x.results, ?_, ?_⟩
    · exact Session.gives_results hsound.block (decide_eq_true hx) hc
    · exact hsound.keys_results hslices hx (Coordinator.nodup_of_validate hv)

end Shift

/-! ## A pair of branches -/

/-- A compiler that is not there. -/
def Compiler.missing : Compiler := ⟨false, fun _ => ⟨.error "no compiler", []⟩⟩

namespace Shift

/-- A branch that comes to its end, and one that fails. -/
def pair : List PreparedTask :=
  [⟨"left", ∅, some [], [], "", []⟩,
    ⟨"right", ∅, some [.throwing (.error .runtime "no")], [], "", []⟩]

/-- A session that can use no engine and no compiler. -/
def bare : Session :=
  .new
    { parts := { }
      engines := .const ⟨"", false, "", fun _ _ => none⟩
      compiler := .missing }

/-- Its coordinator, when the pair was started with three workers. -/
def pairStarted : Coordinator PreparedTask := (bare.coordinator.start pair (some 3)).value.2

/-- Two slices run the pair at the same time, and a wait gives both results. -/
theorem barrier_of_pair : ∃ z,
    Relation.ReflTransGen (Step 1) (start 2 { bare with coordinator := pairStarted }) z ∧
      z.log.countP Event.isBegin = 2 ∧
      ∃ r, z.session.Gives 1 r ∧ r.keys.Perm ["left", "right"] := by
  have hstart : (bare.coordinator.start pair (some 3)).value = (.ok 1, pairStarted) := rfl
  obtain ⟨w, hw, -, hall⟩ := barrier (by decide) hstart
  obtain rfl : 3 = w := Except.ok.inj hw
  have first : ∀ {Q : Shift PreparedTask → Prop} {p p' q : Position PreparedTask}
      {s s' : Session} {e : Event}
      {log : List Event}, Position.Next 1 p s e p' s' →
      (∃ z, Relation.ReflTransGen (Step 1) ⟨[p', q], s', log ++ [e]⟩ z ∧ Q z) →
      ∃ z, Relation.ReflTransGen (Step 1) ⟨[p, q], s, log⟩ z ∧ Q z :=
    fun h ⟨z, hz, hq⟩ => ⟨z, .head (@Step.slice _ _ _ [] [_] _ _ _ _ _ _ h) hz, hq⟩
  have second : ∀ {Q : Shift PreparedTask → Prop} {p q q' : Position PreparedTask}
      {s s' : Session} {e : Event}
      {log : List Event}, Position.Next 1 q s e q' s' →
      (∃ z, Relation.ReflTransGen (Step 1) ⟨[p, q'], s', log ++ [e]⟩ z ∧ Q z) →
      ∃ z, Relation.ReflTransGen (Step 1) ⟨[p, q], s, log⟩ z ∧ Q z :=
    fun h ⟨z, hz, hq⟩ => ⟨z, .head (@Step.slice _ _ _ [_] [] _ _ _ _ _ _ h) hz, hq⟩
  obtain ⟨z, hz, hrun⟩ : ∃ z,
      Relation.ReflTransGen (Step 1) (start 2 { bare with coordinator := pairStarted }) z ∧
        z.log.countP Event.isBegin = 2 ∧
        (z.session.coordinator.block? 1).map Block.remaining = some 0 := by
    refine first (.enter rfl) (second (.enter rfl) ?_)
    refine first (.claim rfl) (second (.claim rfl) ?_)
    refine second (.begin rfl) (first (.begin rfl) ?_)
    refine second (.finish rfl) (second (.file rfl) (second (.store rfl) ?_))
    refine first (.finish rfl) (first (.file rfl) (first (.store rfl) ?_))
    refine second (.exhaust rfl) (first (.exhaust rfl) ?_)
    exact first (.retire rfl) (second (.retire rfl) ⟨_, .refl, rfl, rfl⟩)
  obtain ⟨x, hx, hdone⟩ := (hall z hz).joined
  rw [hx] at hrun
  exact ⟨z, hz, hrun.1, (hdone (Option.some.inj hrun.2)).2⟩

end Shift

end MemoFlow
