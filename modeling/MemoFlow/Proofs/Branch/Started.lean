import MemoFlow.Branch.Coordinator

/-!
# Blocks that were started

A coordinator starts a block under a number of its own, hands its slices to the pool and leaves the
other blocks alone.

* **`Block.Keeps`**, `Coordinator.Spares`: what may become of a block without its slices;
* `Coordinator.block?_modifyBlock`: a change of one block is seen in that block only;
* `Coordinator.handed`: the slices of a block that wait in the pool;
* `Coordinator.spares_start`, **`Coordinator.start_ok`**: the other blocks, and the new one.
-/

namespace MemoFlow

/-! ## Blocks that stay -/

/-- What may become of a block without its slices: another branch may be kept from starting, and the
results may be collected when the block is done. -/
structure Block.Keeps {τ : Type} (x y : Block τ) : Prop where
  tasks : y.tasks = x.tasks
  stored : y.stored = x.stored
  next : y.next = x.next
  remaining : y.remaining = x.remaining
  collected : y.collected = x.collected ∨ x.isDone = true ∧ y.collected = some x.results

theorem Block.Keeps.refl {τ : Type} (x : Block τ) : x.Keeps x := ⟨rfl, rfl, rfl, rfl, .inl rfl⟩

namespace Coordinator

variable {τ : Type}

theorem block?_modifyBlock {f : Block τ → Block τ} (hf : ∀ x, (f x).id = x.id)
    (c : Coordinator τ) (id b : Nat) : (c.modifyBlock id f).block? b =
      if id = b then (c.block? b).map f else c.block? b := by
  unfold block? modifyBlock
  induction c.blocks with
  | nil => simp
  | cons x rest ih =>
    have hid : (if x.id = id then f x else x).id = x.id := by
      split
      · exact hf x
      · rfl
    rw [List.map_cons, List.find?_cons, List.find?_cons, ih, hid]
    by_cases hx : x.id = b
    · by_cases hb : id = b
      · simp [hx, hb]
      · simp [hx, hb, Ne.symm hb]
    · simp [hx]

/-- A block after a change of it. -/
theorem block?_modifyBlock_self (f : Block τ → Block τ) (hf : ∀ x, (f x).id = x.id)
    {c : Coordinator τ} {b : Nat} {x : Block τ} (hx : c.block? b = some x) :
    (c.modifyBlock b f).block? b = some (f x) := by
  rw [block?_modifyBlock hf, if_pos rfl, hx]
  rfl

/-- **A step spares a block**: it stays as it is but for what its slices have no part in, and no
number of a block is used twice. -/
structure Spares (b : Nat) (c c' : Coordinator τ) : Prop where
  next : c.nextBlock ≤ c'.nextBlock
  block : ∀ x, c.block? b = some x → ∃ y, c'.block? b = some y ∧ x.Keeps y

namespace Spares

variable {b : Nat} {c c' : Coordinator τ}

theorem of_block? (hn : c.nextBlock ≤ c'.nextBlock) (hb : c'.block? b = c.block? b) :
    c.Spares b c' := ⟨hn, fun x hx => ⟨x, hb.trans hx, .refl x⟩⟩

/-- A step that does nothing to the blocks. -/
theorem of_blocks (hb : c'.blocks = c.blocks) (hn : c'.nextBlock = c.nextBlock) : c.Spares b c' :=
  of_block? (Nat.le_of_eq hn.symm) (by rw [block?, block?, hb])

theorem refl (b : Nat) (c : Coordinator τ) : c.Spares b c := of_blocks rfl rfl

theorem modifyBlock_of_ne {id : Nat} {f : Block τ → Block τ} (hf : ∀ x, (f x).id = x.id)
    (h : id ≠ b) : c.Spares b (c.modifyBlock id f) :=
  of_block? (Nat.le_refl _) (by rw [block?_modifyBlock hf, if_neg h])

theorem modifyBlock {id : Nat} {f : Block τ → Block τ} (hf : ∀ x, (f x).id = x.id)
    (hk : ∀ x : Block τ, x.Keeps (f x)) : c.Spares b (c.modifyBlock id f) := by
  by_cases h : id = b
  · subst h
    exact ⟨Nat.le_refl _, fun x hx => ⟨f x, block?_modifyBlock_self f hf hx, hk x⟩⟩
  · exact modifyBlock_of_ne hf h

end Spares

/-- The start of a branch does nothing to the blocks. -/
theorem spares_permit (b id : Nat) (c : Coordinator τ) : c.Spares b (c.permit id).2 := by
  unfold permit
  split
  · exact .refl b c
  · split <;> exact .of_blocks rfl rfl

/-- The end of a branch at most keeps others from starting. -/
theorem spares_conclude (b id : Nat) (c : Coordinator τ) (r : BranchResult) :
    c.Spares b (c.conclude id r).value := by
  unfold conclude
  dsimp only
  split
  · exact .of_blocks rfl rfl
  · dsimp only
    split
    · have h : c.Spares b (c.modifyBlock id Block.raiseAbort) :=
        .modifyBlock (fun _ => rfl) fun x => ⟨rfl, rfl, rfl, rfl, .inl rfl⟩
      exact ⟨h.next, h.block⟩
    · exact .of_blocks rfl rfl

/-! ## Starting a block -/

/-- How many slices of a block wait in the pool. -/
def handed (c : Coordinator τ) (id : Nat) : Nat := c.pool.queues.flatten.count id

theorem count_flatten_modify {qs : List (List Nat)} {i : Nat} (hi : i < qs.length) (t : Nat) :
    (qs.modify i (· ++ [t])).flatten.count t = qs.flatten.count t + 1 := by
  induction qs generalizing i with
  | nil => exact absurd hi (Nat.not_lt_zero i)
  | cons q qs ih =>
    cases i with
    | zero =>
      simp only [List.modify_zero_cons, List.flatten_cons, List.count_append,
        List.count_singleton_self]
      omega
    | succ i =>
      simp only [List.modify_succ_cons, List.flatten_cons, List.count_append]
      rw [ih (Nat.lt_of_succ_lt_succ hi)]
      omega

theorem handed_submit {c : Coordinator τ} {p : Pool Nat} {id : Nat} (h : c.pool.submit id = .ok p) :
    handed { c with pool := p } id = c.handed id + 1 := by
  unfold Pool.submit at h
  split at h
  · exact nomatch h
  · next hn =>
    obtain rfl := Except.ok.inj h
    have hpos : 0 < c.pool.queues.length := Nat.pos_of_ne_zero fun h0 => hn (.inl h0)
    exact count_flatten_modify (Nat.mod_lt _ hpos) id

theorem handed_ensure {c : Coordinator τ} {p : Pool Nat} {n : Nat} {notes : List Note}
    (h : c.pool.ensure n = ⟨.ok p, notes⟩) (id : Nat) :
    handed { c with pool := p } id = c.handed id := by
  unfold Pool.ensure at h
  split at h
  · exact nomatch congrArg Told.value h
  · split at h
    · exact nomatch congrArg Told.value h
    · obtain rfl := Except.ok.inj (congrArg Told.value h)
      simp [handed]

theorem submitSlices_ok {c c' : Coordinator τ} {id n : Nat} (h : c.submitSlices id n = .ok c') :
    c'.blocks = c.blocks ∧ c'.nextBlock = c.nextBlock ∧ c'.handed id = c.handed id + n := by
  induction n generalizing c with
  | zero =>
    obtain rfl := Except.ok.inj h
    exact ⟨rfl, rfl, rfl⟩
  | succ n ih =>
    rw [submitSlices] at h
    split at h
    · exact nomatch h
    · next p hp =>
      obtain ⟨hb, hn, hc⟩ := ih h
      refine ⟨hb, hn, hc.trans ?_⟩
      rw [handed_submit hp]
      omega

/-- A block that is launched gets its slices, and the other blocks stay. -/
theorem launch_eq (c : Coordinator τ) (x : Block τ) :
    (c.launch x).value.2.nextBlock = c.nextBlock ∧
      (∀ b, b ≠ x.id → (c.launch x).value.2.block? b = c.block? b) ∧
      ∀ id, (c.launch x).value.1 = .ok id → id = x.id ∧ (x.tasks ≠ [] →
        (c.launch x).value.2.handed id = c.handed id + x.slices ∧
        (c.launch x).value.2.block? id =
          (c.block? id).map fun b => { b with remaining := b.slices }) := by
  have hid : ∀ y : Block τ, { y with remaining := y.slices }.id = y.id := fun y => rfl
  have hm : ∀ b, b ≠ x.id →
      (c.modifyBlock x.id fun b => { b with remaining := b.slices }).block? b = c.block? b :=
    fun b hb => by rw [block?_modifyBlock hid, if_neg (Ne.symm hb)]
  unfold launch
  split
  · next he =>
    refine ⟨rfl, fun _ _ => rfl, fun id h => ⟨(Except.ok.inj h).symm, fun hne => ?_⟩⟩
    exact absurd (List.isEmpty_iff.1 he) hne
  · split
    · exact ⟨rfl, fun _ _ => rfl, nofun⟩
    · next p notes hp =>
      dsimp only
      split
      · exact ⟨rfl, fun b hb => hm b hb, nofun⟩
      · next c' hc =>
        obtain ⟨hb, hn, hcount⟩ := submitSlices_ok hc
        have hblock : ∀ b, c'.block? b =
            (c.modifyBlock x.id fun b => { b with remaining := b.slices }).block? b := fun b => by
          unfold block?
          rw [hb]
          rfl
        refine ⟨hn, fun b hne => (hblock b).trans (hm b hne), fun id h => ?_⟩
        obtain rfl := Except.ok.inj h
        refine ⟨rfl, fun _ => ⟨hcount.trans ?_, ?_⟩⟩
        · exact congrArg (· + x.slices) (handed_ensure hp x.id)
        · rw [hblock, block?_modifyBlock hid, if_pos rfl]

variable [IsBranch τ]

/-- **Starting a block** spares the other ones. -/
theorem spares_start {b : Nat} {c : Coordinator τ} (hb : b < c.nextBlock) (tasks : List τ)
    (wanted : Option Nat) : c.Spares b (c.start tasks wanted).value.2 ∧
      ∀ id, (c.start tasks wanted).value.1 = .ok id → id ≠ b := by
  unfold start
  split
  · exact ⟨.refl b c, nofun⟩
  · split
    · exact ⟨.refl b c, nofun⟩
    · next workers _ =>
      obtain ⟨hn, hblock, hid⟩ := launch_eq (c.enroll tasks workers)
        (.new c.nextBlock c.config.policy workers tasks)
      refine ⟨.of_block? ?_ ?_, fun id h => ?_⟩
      · rw [hn]
        exact Nat.le_succ _
      · rw [hblock b (Nat.ne_of_lt hb)]
        have hne : ¬ c.nextBlock = b := Nat.ne_of_gt hb
        simp [block?, enroll, Block.new, hne]
      · rw [(hid id h).1]
        exact Nat.ne_of_gt hb

/-- **A block that was started** has its branches, none of which is claimed, and as many slices as
were handed to the pool. -/
theorem start_ok {c c' : Coordinator τ} {tasks : List τ} {wanted : Option Nat} {b : Nat}
    (hne : tasks ≠ []) (h : (c.start tasks wanted).value = (.ok b, c')) :
    validate tasks = .ok () ∧ b < c'.nextBlock ∧ ∃ w, c.resolve tasks.length wanted = .ok w ∧
      c'.handed b = c.handed b + min w tasks.length ∧
      c'.block? b = some { Block.new b c.config.policy w tasks with
        remaining := min w tasks.length } := by
  unfold start at h
  split at h
  · exact nomatch congrArg Prod.fst h
  · next hv =>
    split at h
    · exact nomatch congrArg Prod.fst h
    · next w hw =>
      obtain ⟨hn, -, hid⟩ := launch_eq (c.enroll tasks w)
        (.new c.nextBlock c.config.policy w tasks)
      obtain ⟨hb, hx⟩ := hid b (congrArg Prod.fst h)
      obtain ⟨hcount, hblock⟩ := hx hne
      rw [h] at hn hcount hblock
      refine ⟨hv, ?_, w, hw, hcount, hblock.trans ?_⟩
      · rw [hn, hb]
        exact Nat.lt_succ_self _
      · obtain rfl : b = c.nextBlock := hb
        simp [block?, enroll, Block.new, Block.slices]

end Coordinator

end MemoFlow
