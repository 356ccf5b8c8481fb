import Mathlib.Data.List.Nodup
import Mathlib.Data.Nat.Find
import MemoFlow.Proofs.Bindings
import MemoFlow.Proofs.Branch.Invariant

/-!
# Failure policies

Under the soft policy all branches of a block run. Under the fast policy a failure aborts the block,
and a branch that is checked after that is cancelled, while bodies that have begun go on to their
end.

* `Floor.events`, `Floor.IsManned`, `Block.Ends`: what happened, blocks with all their slices, and
  the end of a branch;
* `Floor.Kept.stored_of_done`, `Floor.Kept.failed_before`: where results come from;
* **`Floor.Policed`**, `Floor.Kept.policed`: what a policy makes of a block;
* `Floor.Kept.first_failure`: with one slice, the first failure tells all results;
* **`Floor.failure_policy`**: all blocks of a session, and its counters.
-/

namespace MemoFlow

/-- The body that begins. -/
def Event.begun? : Event → Option Nat
  | .begin i => some i
  | _ => none

/-- The result of a branch is stored, and has a status. -/
def Block.Ends {τ : Type} (x : Block τ) (i : Nat) (σ : BranchStatus) : Prop :=
  ∃ r, x.stored[i]? = some (some r) ∧ r.status = σ

theorem snd_eq_of_count_le_one {α β : Type} [DecidableEq α] {a : α} {v v' : β} {l : List (α × β)}
    (h : (l.map Prod.fst).count a ≤ 1) (hv : (a, v) ∈ l) (hv' : (a, v') ∈ l) : v = v' := by
  induction l with
  | nil => cases hv
  | cons q l ih =>
    rw [List.map_cons, List.count_cons] at h
    have hone : ∀ {u : β}, (a, u) ∈ l → q.1 ≠ a := fun hu hq => by
      have := List.count_pos_iff.2 (List.mem_map_of_mem (f := Prod.fst) hu)
      rw [if_pos (beq_iff_eq.2 hq)] at h
      dsimp only at this
      omega
    obtain hq | hv := List.mem_cons.1 hv
    · obtain hq' | hv' := List.mem_cons.1 hv'
      · exact congrArg Prod.snd (hq.trans hq'.symm)
      · exact absurd (congrArg Prod.fst hq).symm (hone hv')
    · obtain hq' | hv' := List.mem_cons.1 hv'
      · exact absurd (congrArg Prod.fst hq').symm (hone hv)
      · exact ih (by omega) hv hv'

namespace Floor

variable {τ : Type} [IsRunnable τ]

/-- What happened to the branches of a block. -/
def events (w : Floor τ) (b : Nat) : List Event := (w.records b).map Prod.fst

/-- A block has all its slices. -/
def IsManned (w : Floor τ) (x : Block τ) : Prop := (w.crew x.id).length = x.slices

variable {Q : τ → Except BranchFailure BranchOutcome → Prop} {w : Floor τ} {b : Nat}
  {x : Block τ}

/-! ## The end of a branch -/

namespace Kept

variable {i : Nat} {o : Option BranchResult} {r r' : BranchResult}

omit [IsRunnable τ] in
theorem mem_events {e : Event} (h : (e, o) ∈ w.records b) : e ∈ w.events b :=
  List.mem_map_of_mem (f := Prod.fst) h

/-- A branch is begun once or cancelled once, but not both. -/
theorem checks_le (h : Kept Q w b x) (i : Nat) :
    (w.events b).count (.begin i) + (w.events b).count (.cancel i) ≤ 1 := by
  have hclaim := h.sound.counts.1 i
  have hbegins := h.sound.balanced.begins i
  unfold events
  dsimp only at hclaim hbegins
  omega

theorem not_cancel (h : Kept Q w b x) (hb : .begin i ∈ w.events b) : .cancel i ∉ w.events b :=
  fun hc => by
    have := h.checks_le i
    have := List.count_pos_iff.2 hb
    have := List.count_pos_iff.2 hc
    omega

theorem lt_of_begin (h : Kept Q w b x) (hb : .begin i ∈ w.events b) : i < x.tasks.length := by
  have hclaim := h.sound.claims i
  have hbalance := h.sound.balanced.begins i
  have hpos := List.count_pos_iff.2 hb
  unfold events at hpos
  dsimp only at hclaim hbalance
  split at hclaim <;> omega

/-- A body that has come to its end has begun. -/
theorem begin_of_finish (h : Kept Q w b x) (hf : (.finish i, o) ∈ w.records b) :
    .begin i ∈ w.events b := by
  have hruns := h.recorded.runs i
  have hpos := List.count_pos_iff.2 (mem_events hf)
  unfold events at hpos
  exact List.count_pos_iff.1 (by unfold events; omega)

theorem status_of_finish (h : Kept Q w b x) (hf : (.finish i, some r) ∈ w.records b) :
    r.status = .ok ∨ r.status = .failed := by
  obtain ⟨t, out, -, -, ho⟩ := h.recorded.finished i _ hf
  rw [Option.some.inj ho]
  cases out
  · exact .inr rfl
  · exact .inl rfl

theorem status_of_cancel (h : Kept Q w b x) (hc : (.cancel i, some r) ∈ w.records b) :
    r.status = .cancelled := by
  obtain ⟨t, -, ho⟩ := h.recorded.cancelled i _ hc
  rw [Option.some.inj ho]
  rfl

/-- The body of a branch has one result. -/
theorem finish_unique (h : Kept Q w b x) (hf : (.finish i, some r) ∈ w.records b)
    (hf' : (.finish i, some r') ∈ w.records b) : r = r' := by
  refine Option.some.inj (snd_eq_of_count_le_one (a := Event.finish i) ?_ hf hf')
  have hruns := h.recorded.runs i
  have hle := h.checks_le i
  unfold events at hle
  omega

/-- **A stored result** comes from the body of the branch if that has begun. -/
theorem finish_of_begin (h : Kept Q w b x) (hr : x.stored[i]? = some (some r))
    (hb : .begin i ∈ w.events b) : (.finish i, some r) ∈ w.records b :=
  (h.recorded.stored i r hr).2.resolve_right fun hc => h.not_cancel hb (mem_events hc)

/-- A record of a failure is that of a branch that has failed. -/
theorem failed_of_isFailure (h : Kept Q w b x) {l₁ l₂ : List Record}
    (hl : w.records b = l₁ ++ l₂) :
    (∃ f ∈ l₁, f.IsFailure) ↔ ∃ j r, (.finish j, some r) ∈ l₁ ∧ r.status = .failed := by
  constructor
  · rintro ⟨f, hf, j, r, rfl, hr⟩
    have hmem : (.finish j, some r) ∈ w.records b := hl ▸ List.mem_append_left l₂ hf
    refine ⟨j, r, hf, (h.status_of_finish hmem).resolve_left fun hok => ?_⟩
    rw [BranchResult.isOk, hok] at hr
    exact absurd rfl (of_decide_eq_false hr)
  · rintro ⟨j, r, hf, hr⟩
    refine ⟨_, hf, j, r, rfl, decide_eq_false fun hok => ?_⟩
    rw [hr] at hok
    cases hok

/-- **A branch is cancelled** under the fast policy only, and after another one of the block has
failed. -/
theorem failed_before (h : Kept Q w b x) {l₁ l₂ : List Record}
    (hl : w.records b = l₁ ++ (.cancel i, o) :: l₂) :
    x.policy = .fast ∧ ∃ j r, j ≠ i ∧ (.finish j, some r) ∈ l₁ ∧ r.status = .failed := by
  obtain ⟨hfast, hfail⟩ := (h.recorded.follows l₁ _ l₂ hl).cancel i rfl
  obtain ⟨j, r, hf, hr⟩ := (h.failed_of_isFailure hl).1 hfail
  refine ⟨hfast, j, r, fun hj => ?_, hf, hr⟩
  subst hj
  have hbegin := h.begin_of_finish (hl ▸ List.mem_append_left _ hf)
  exact h.not_cancel hbegin (mem_events (o := o) (by rw [hl]; simp))

/-- **No body begins after a failure** under the fast policy. -/
theorem not_failed_before (h : Kept Q w b x) (hfast : x.policy = .fast) {l₁ l₂ : List Record}
    (hl : w.records b = l₁ ++ (.begin i, o) :: l₂) {j : Nat} (hf : (.finish j, some r) ∈ l₁) :
    r.status ≠ .failed := fun hr => by
  obtain ⟨f, hf, hfail⟩ := (h.failed_of_isFailure hl).2 ⟨j, r, hf, hr⟩
  exact (h.recorded.follows l₁ _ l₂ hl).begin i rfl hfast f hf hfail

/-- **When a block is done**, each of its branches is stored, by its own name. -/
theorem stored_of_done (h : Kept Q w b x) (hm : w.IsManned x) (hd : x.isDone = true)
    {t : τ} (ht : x.tasks[i]? = some t) :
    ∃ r, x.stored[i]? = some (some r) ∧ r.id = IsBranch.id t := by
  have hlt := (List.getElem?_eq_some_iff.1 ht).1
  have hid : x.id = b := by simpa using List.find?_some h.sound.block
  have hlen : (w.crew b).length = min x.workers x.tasks.length := by
    rw [← hid]
    exact hm
  have hcrew : w.crew b ≠ [] := fun hnil => by
    have := h.workers
    rw [hnil, List.length_nil] at hlen
    omega
  exact h.sound.stored hcrew (of_decide_eq_true hd) ht

end Kept

/-! ## One slice -/

/-- **The first failure tells all results**: the branches before it have ended in order, those after
it are cancelled, and the bodies begin in the order of the branches up to it. -/
structure FirstFailure (w : Floor τ) (b : Nat) (x : Block τ) (k : Nat) : Prop where
  before : ∀ i < k, x.Ends i .ok
  failed : k < x.tasks.length → x.Ends k .failed
  after : ∀ i, k < i → i < x.tasks.length → x.Ends i .cancelled
  begins : (w.events b).filterMap Event.begun? = List.range (min (k + 1) x.tasks.length)

namespace Kept

variable {k : Nat} {p : Position τ}

/-- A failure comes with its result, once the block is done. -/
theorem ends_failed (h : Kept Q w b x) (hm : w.IsManned x) (hd : x.isDone = true) {j : Nat}
    {r : BranchResult} (hf : (.finish j, some r) ∈ w.records b) (hr : r.status = .failed) :
    x.Ends j .failed := by
  obtain ⟨t, -, ht, -⟩ := h.recorded.finished j _ hf
  obtain ⟨r', hr', -⟩ := h.stored_of_done hm hd ht
  have hf' := h.finish_of_begin hr' (h.begin_of_finish hf)
  exact ⟨r', hr', h.finish_unique hf hf' ▸ hr⟩

/-- With one slice, a branch before the first failure is not cancelled. -/
theorem not_cancel_before (h : Kept Q w b x) (hm : w.IsManned x) (hd : x.isDone = true)
    (ho : InOrder x p (w.records b)) (hk : ∀ i < k, ¬ x.Ends i .failed) {i : Nat} (hi : i < k) :
    .cancel i ∉ w.events b := fun hc => by
  obtain ⟨⟨_, o⟩, hmem, rfl⟩ := List.mem_map.1 hc
  obtain ⟨l₁, l₂, hl⟩ := List.append_of_mem hmem
  obtain ⟨-, j, r, hj, hf, hr⟩ := h.failed_before hl
  have hle : j ≤ i := ho.place_ge hl rfl rfl (List.mem_map_of_mem (f := Prod.fst) hf)
  exact hk j (by omega) (h.ends_failed hm hd (hl ▸ List.mem_append_left _ hf) hr)

/-- With one slice, no body begins behind the first failure. -/
theorem not_begin_after (h : Kept Q w b x) (hfast : x.policy = .fast)
    (ho : InOrder x p (w.records b)) (hk : x.Ends k .failed) {i : Nat} (hi : k < i) :
    .begin i ∉ w.events b := fun hb => by
  obtain ⟨r, hr, hfailed⟩ := hk
  have hf : (.finish k, some r) ∈ w.records b :=
    (h.recorded.stored k r hr).2.resolve_right fun hc => by
      rw [h.status_of_cancel hc] at hfailed
      cases hfailed
  obtain ⟨⟨_, o⟩, hmem, rfl⟩ := List.mem_map.1 hb
  obtain ⟨l₁, l₂, hl⟩ := List.append_of_mem hmem
  rw [hl, List.mem_append, List.mem_cons] at hf
  obtain hf | hf | hf := hf
  · exact h.not_failed_before hfast hl hf hfailed
  · cases hf
  · have hle := ho.place_le hl rfl (j := k) rfl (List.mem_map_of_mem (f := Prod.fst) hf)
    omega

/-- Bodies begin in the order of their branches when one slice runs them. -/
theorem begins_eq_range (h : Kept Q w b x) (ho : InOrder x p (w.records b)) {n : Nat}
    (hn : ∀ i, .begin i ∈ w.events b ↔ i < n) :
    (w.events b).filterMap Event.begun? = List.range n := by
  have hmem : ∀ i, i ∈ (w.events b).filterMap Event.begun? ↔ .begin i ∈ w.events b := fun i => by
    rw [List.mem_filterMap]
    constructor
    · rintro ⟨e, he, hi⟩
      cases e <;> cases hi
      exact he
    · exact fun hb => ⟨_, hb, rfl⟩
  have hnodup : ((w.events b).filterMap Event.begun?).Nodup := by
    refine List.nodup_iff_count_le_one.2 fun i => ?_
    have hcount : (w.events b).countP (fun e => e.begun? == some i) =
        (w.events b).count (.begin i) := by
      rw [List.count]
      refine List.countP_congr fun e _ => ?_
      cases e <;> simp [Event.begun?]
    have := h.checks_le i
    rw [List.count_filterMap, hcount]
    omega
  have hsorted : ((w.events b).filterMap Event.begun?).Pairwise (· ≤ ·) := by
    rw [List.pairwise_filterMap]
    refine (List.pairwise_filterMap.1 ho.sorted).imp fun {e e'} hle i hi j hj => ?_
    cases e <;> cases hi
    cases e' <;> cases hj
    exact hle _ rfl _ rfl
  refine List.Perm.eq_of_pairwise (fun i j _ _ => Nat.le_antisymm) hsorted ?_ ?_
  · exact List.pairwise_le_range
  · refine (List.perm_ext_iff_of_nodup hnodup List.nodup_range).2 fun i => ?_
    rw [hmem, hn, List.mem_range]

/-- **With one slice, the results are told by the first failure**, if there is one. -/
theorem first_failure (h : Kept Q w b x) (hm : w.IsManned x) (hd : x.isDone = true)
    (hfast : x.policy = .fast) (hone : x.slices = 1) :
    ∃ k ≤ x.tasks.length, w.FirstFailure b x k := by
  have hid : x.id = b := by simpa using List.find?_some h.sound.block
  obtain ⟨p, hp⟩ : ∃ p, w.crew b = [p] := by
    refine List.length_eq_one_iff.1 ?_
    rw [← hone, ← hid]
    exact hm
  have ho := h.ordered p hp
  classical
  have hex : ∃ k, x.tasks.length ≤ k ∨ x.Ends k .failed := ⟨_, .inl (Nat.le_refl _)⟩
  have hfirst : ∀ i < Nat.find hex, ¬ x.Ends i .failed := fun i hi hf =>
    Nat.find_min hex hi (.inr hf)
  have hle : Nat.find hex ≤ x.tasks.length := Nat.find_min' hex (.inl (Nat.le_refl _))
  have hspec := Nat.find_spec hex
  generalize Nat.find hex = k at hfirst hle hspec
  have hfailed : k < x.tasks.length → x.Ends k .failed := fun hk =>
    hspec.resolve_left (Nat.not_le.2 hk)
  -- Each branch is begun up to the first failure, and cancelled behind it.
  have hended : ∀ i < x.tasks.length, ∃ r, x.stored[i]? = some (some r) ∧
      Ended (w.records b) i r := fun i hi => by
    obtain ⟨r, hr, -⟩ := h.stored_of_done hm hd (List.getElem?_eq_getElem hi)
    exact ⟨r, hr, (h.recorded.stored i r hr).2⟩
  have hbegin : ∀ i, .begin i ∈ w.events b ↔ i < min (k + 1) x.tasks.length := fun i => by
    constructor
    · intro hb
      obtain hlt | hge := Nat.lt_or_ge i x.tasks.length
      · refine Nat.lt_min.2 ⟨Nat.lt_succ_of_le (Nat.le_of_not_lt fun hki => ?_), hlt⟩
        exact h.not_begin_after hfast ho (hfailed (Nat.lt_trans hki hlt)) hki hb
      · exact absurd (h.lt_of_begin hb) (Nat.not_lt.2 hge)
    · intro hi
      obtain ⟨hik, hlt⟩ := Nat.lt_min.1 hi
      obtain ⟨r, hr, hf | hc⟩ := hended i hlt
      · exact h.begin_of_finish hf
      · obtain hik | rfl := Nat.lt_or_eq_of_le (Nat.le_of_lt_succ hik)
        · exact absurd (mem_events hc) (h.not_cancel_before hm hd ho hfirst hik)
        · obtain ⟨r', hr', hstatus⟩ := hfailed hlt
          obtain rfl := Option.some.inj (Option.some.inj (hr.symm.trans hr'))
          rw [h.status_of_cancel hc] at hstatus
          cases hstatus
  refine ⟨k, hle, fun i hi => ?_, hfailed, fun i hki hlt => ?_, h.begins_eq_range ho hbegin⟩
  · obtain ⟨r, hr, hf | hc⟩ := hended i (Nat.lt_of_lt_of_le hi hle)
    · exact ⟨r, hr, (h.status_of_finish hf).resolve_right fun hs => hfirst i hi ⟨r, hr, hs⟩⟩
    · exact absurd (mem_events hc) (h.not_cancel_before hm hd ho hfirst hi)
  · obtain ⟨r, hr, hf | hc⟩ := hended i hlt
    · have := (hbegin i).1 (h.begin_of_finish hf)
      omega
    · exact ⟨r, hr, h.status_of_cancel hc⟩

end Kept

/-! ## A block -/

/-- **What a failure policy makes of a block.** -/
structure Policed (w : Floor τ) (b : Nat) (x : Block τ) : Prop where
  /-- The block has the policy of the session. -/
  policy : x.policy = w.session.coordinator.config.policy
  /-- Under the soft policy no result is that of a cancelled branch. -/
  soft : x.policy = .soft → ∀ i, ¬ x.Ends i .cancelled
  /-- Under the soft policy all bodies run to their end. -/
  runs : x.policy = .soft → x.isDone = true → w.IsManned x → ∀ i < x.tasks.length,
    .begin i ∈ w.events b ∧ .finish i ∈ w.events b
  /-- The result of a cancelled branch goes back to a check after another branch of the block had
  failed, under the fast policy. -/
  cancelled : ∀ i, x.Ends i .cancelled → x.policy = .fast ∧ ∃ l₁ o l₂,
    w.records b = l₁ ++ (.cancel i, o) :: l₂ ∧
      ∃ j r, j ≠ i ∧ (.finish j, some r) ∈ l₁ ∧ r.status = .failed
  /-- The body of a cancelled branch never runs. -/
  unrun : ∀ i, .cancel i ∈ w.events b →
    .begin i ∉ w.events b ∧ ∀ p ∈ w.crew b, p.runs i = false
  /-- Under the fast policy, a check after a failure cancels the branch. -/
  stopped : x.policy = .fast → ∀ i l₁ o l₂, w.records b = l₁ ++ (.begin i, o) :: l₂ →
    ∀ j r, (.finish j, some r) ∈ l₁ → r.status ≠ .failed
  /-- A branch whose body has begun ends in order or fails, whatever else has failed. -/
  begun : ∀ i, .begin i ∈ w.events b → .cancel i ∉ w.events b ∧
    (∀ σ, x.Ends i σ → σ = .ok ∨ σ = .failed) ∧
    (x.isDone = true → w.IsManned x → x.Ends i .ok ∨ x.Ends i .failed)
  /-- When the block is done, a wait gives the stored results of all branches. -/
  joined : x.isDone = true → w.IsManned x → w.session.Gives b x.results ∧
    ∀ (i : Nat) (t : τ), x.tasks[i]? = some t →
      ∃ r, x.stored[i]? = some (some r) ∧ x.results.find? (IsBranch.id t) = some r
  /-- With one slice under the fast policy, the first failure tells all results. -/
  first : x.policy = .fast → x.isDone = true → w.IsManned x → x.slices = 1 →
    ∃ k ≤ x.tasks.length, w.FirstFailure b x k

namespace Kept

/-- The result of a cancelled branch has the check on record. -/
theorem cancel_of_ends (h : Kept Q w b x) {i : Nat} (hi : x.Ends i .cancelled) :
    .cancel i ∈ w.events b := by
  obtain ⟨r, hr, hstatus⟩ := hi
  refine (h.recorded.stored i r hr).2.elim (fun hf => ?_) mem_events
  obtain hs | hs := h.status_of_finish hf <;> rw [hs] at hstatus <;> cases hstatus

/-- **The results of a block that is done** are those that are stored. -/
theorem find?_results (h : Kept Q w b x) (hm : w.IsManned x) (hd : x.isDone = true) {i : Nat}
    {t : τ} (ht : x.tasks[i]? = some t) :
    ∃ r, x.stored[i]? = some (some r) ∧ x.results.find? (IsBranch.id t) = some r := by
  obtain ⟨r, hr, hid⟩ := h.stored_of_done hm hd ht
  have hnodup := Coordinator.nodup_of_validate h.named
  obtain ⟨hperm, hids⟩ := h.sound.perm_results hnodup fun i t => h.stored_of_done hm hd
  refine ⟨r, hr, (NameMap.findIn_eq_some_iff x.results.sorted).2 (hperm.mem_iff.2 ?_)⟩
  rw [← hid]
  exact List.mem_map.2 ⟨r, List.mem_filterMap.2 ⟨some r, List.mem_of_getElem? hr, rfl⟩, rfl⟩

/-- **The blocks of a floor are policed.** -/
theorem policed (h : Kept Q w b x) : w.Policed b x where
  policy := h.policy
  soft hsoft i hi := by
    obtain ⟨⟨_, o⟩, hmem, rfl⟩ := List.mem_map.1 (h.cancel_of_ends hi)
    obtain ⟨l₁, l₂, hl⟩ := List.append_of_mem hmem
    rw [(h.failed_before hl).1] at hsoft
    cases hsoft
  runs hsoft hd hm i hi := by
    obtain ⟨r, hr, -⟩ := h.stored_of_done hm hd (List.getElem?_eq_getElem hi)
    obtain hf | hc := (h.recorded.stored i r hr).2
    · exact ⟨h.begin_of_finish hf, mem_events hf⟩
    · obtain ⟨l₁, l₂, hl⟩ := List.append_of_mem hc
      rw [(h.failed_before hl).1] at hsoft
      cases hsoft
  cancelled i hi := by
    obtain ⟨⟨_, o⟩, hmem, rfl⟩ := List.mem_map.1 (h.cancel_of_ends hi)
    obtain ⟨l₁, l₂, hl⟩ := List.append_of_mem hmem
    obtain ⟨hfast, hfail⟩ := h.failed_before hl
    exact ⟨hfast, l₁, o, l₂, hl, hfail⟩
  unrun i hc := by
    have hbegin : .begin i ∉ w.events b := fun hb => h.not_cancel hb hc
    refine ⟨hbegin, fun p hp => Bool.eq_false_iff.2 fun hruns => hbegin ?_⟩
    have hcount := h.recorded.runs i
    have hpos : 0 < (w.crew b).countP (·.runs i) := List.countP_pos_iff.2 ⟨p, hp, hruns⟩
    exact List.count_pos_iff.1 (by unfold events; omega)
  stopped hfast i l₁ o l₂ hl j r hf := h.not_failed_before hfast hl hf
  begun i hb := by
    have hends : ∀ r, x.stored[i]? = some (some r) → r.status = .ok ∨ r.status = .failed :=
      fun r hr => h.status_of_finish (h.finish_of_begin hr hb)
    refine ⟨h.not_cancel hb, ?_, fun hd hm => ?_⟩
    · rintro σ ⟨r, hr, rfl⟩
      exact hends r hr
    · have hlt := h.lt_of_begin hb
      obtain ⟨r, hr, -⟩ := h.stored_of_done hm hd (List.getElem?_eq_getElem hlt)
      exact (hends r hr).imp (fun hs => ⟨r, hr, hs⟩) fun hs => ⟨r, hr, hs⟩
  joined hd hm := ⟨Session.gives_results h.sound.block hd (h.sound.collected.imp_right And.right),
    fun _ _ ht => h.find?_results hm hd ht⟩
  first hfast hd hm hone := h.first_failure hm hd hfast hone

end Kept

/-! ## All blocks -/

/-- How many results of blocks are in order. -/
def okResults (w : Floor τ) : Nat :=
  w.session.coordinator.total fun x => x.results.entries.countP fun q => q.2.isOk

/-- Each branch of a block that is done has ended in one of three ways. -/
theorem tally_of_stored {l : List (Option BranchResult)} (h : ∀ o ∈ l, o.isSome = true) :
    l.length = (l.countP fun r => r.any fun r => r.status = .ok) +
      (l.countP fun r => r.any fun r => r.status = .failed) +
      l.countP fun r => r.any fun r => r.status = .cancelled := by
  induction l with
  | nil => rfl
  | cons o l ih =>
    have ih := ih fun o ho => h o (List.mem_cons_of_mem _ ho)
    obtain ⟨r, rfl⟩ := Option.isSome_iff_exists.1 (h o List.mem_cons_self)
    simp only [List.length_cons, List.countP_cons, Option.any_some, decide_eq_true_eq]
    cases hr : r.status <;> simp only [reduceCtorEq, if_true, if_false] <;> omega

/-- The ends of the branches of a block that is done, by its results. -/
theorem Kept.tally_eq (h : Kept Q w b x) (hm : w.IsManned x) (hd : x.isDone = true) :
    x.tasks.length = (x.results.entries.countP fun q => q.2.isOk) + x.tally .failed +
      x.tally .cancelled := by
  have hstored : ∀ o ∈ x.stored, o.isSome = true := fun o ho => by
    obtain ⟨i, hi⟩ := List.mem_iff_getElem?.1 ho
    have hlt := (List.getElem?_eq_some_iff.1 hi).1
    rw [h.sound.length] at hlt
    obtain ⟨r, hr, -⟩ := h.stored_of_done hm hd (List.getElem?_eq_getElem hlt)
    rw [Option.some.inj (hi.symm.trans hr)]
    rfl
  have hnodup := Coordinator.nodup_of_validate h.named
  obtain ⟨hperm, -⟩ := h.sound.perm_results hnodup fun i t => h.stored_of_done hm hd
  have hok : (x.results.entries.countP fun q => q.2.isOk) = x.tally .ok := by
    rw [hperm.countP_eq, List.countP_map, List.countP_filterMap]
    refine List.countP_congr fun o _ => ?_
    cases o <;> exact Iff.rfl
  rw [hok, ← h.sound.length]
  exact tally_of_stored hstored

/-- **The counters of a session whose blocks are all joined.** -/
theorem Valid.counters {c : SessionConfig} {R : Session.Realm τ} (h : Valid c R Q w)
    (hd : ∀ x ∈ w.session.coordinator.blocks, x.isDone = true ∧ w.IsManned x) :
    w.session.coordinator.stats.branches = w.okResults +
      w.session.coordinator.stats.failed + w.session.coordinator.stats.cancelled := by
  have hkept : ∀ x ∈ w.session.coordinator.blocks, Kept Q w x.id x := fun x hx =>
    h.kept _ x ((Coordinator.block?_eq_some_iff h.tidy).2 ⟨hx, rfl⟩)
  -- All slices have retired, so no result is in hand.
  have hhands : ∀ σ, (w.slices.countP fun q => q.2.hands σ) = 0 := fun σ => by
    refine List.countP_eq_zero.2 fun q hq => ?_
    obtain ⟨x, hx⟩ := h.homes q hq
    obtain ⟨hmem, hid⟩ := (Coordinator.block?_eq_some_iff h.tidy).1 hx
    have hretired := (hkept x hmem).sound.retired (of_decide_eq_true (hd x hmem).1) q.2
      (mem_ofBlock.2 (hid ▸ hq))
    rw [hretired]
    exact Bool.false_ne_true
  rw [h.branches, h.failed, h.cancelled, tally, tally, hhands, hhands, Nat.zero_add, Nat.zero_add,
    okResults]
  exact Coordinator.total_add fun x hx => (hkept x hx).tally_eq (hd x hx).2 (hd x hx).1

/-- **A block has its slices** just when the call that starts it returns it. -/
theorem start_ok_iff {c : Coordinator τ} (hc : c.Tidy) (tasks : List τ)
    (wanted : Option Nat) (hx : c.Enters (c.start tasks wanted).value.2 x) :
    (c.start tasks wanted).value.1 = .ok x.id ↔
      hired c (c.start tasks wanted).value.2 = List.replicate x.slices (x.id, .waiting) := by
  obtain ⟨t, ht⟩ | ⟨y, hy, hend⟩ := Coordinator.start_cases hc.below tasks wanted
  · have hb := hx.blocks
    rw [ht] at hb
    exact absurd (congrArg List.length hb) (by simp)
  · obtain rfl : x = y := (List.cons.inj (hx.blocks.symm.trans hy.blocks)).1
    rw [hired_of_enters hc hx]
    obtain ⟨hok, hrem⟩ | ⟨⟨t, ht⟩, hrem, hpos⟩ := hend
    · exact iff_of_true hok (congrArg (List.replicate · _) hrem)
    · refine iff_of_false (fun hok => nomatch ht.symm.trans hok) fun heq => ?_
      have hlen := congrArg List.length heq
      rw [List.length_replicate, List.length_replicate] at hlen
      omega

/-- **Failure policies.** Whatever the clients of a session do, and in whatever order the slices of
all its blocks make their steps: its blocks are policed, each by failures of its own branches; a
call that starts a block returns it just when it has its slices; and when all blocks have their
slices and are joined, the counter of branches is that of the results in order, the failed and the
cancelled ones. -/
theorem failure_policy [IsPlainBranch τ] {setup : SessionConfig}
    (h : Relation.ReflTransGen Step (new setup) w) :
    (∀ b x, w.session.coordinator.block? b = some x → w.Policed b x) ∧
    (∀ tasks wanted x, w.session.coordinator.Enters
        (w.session.coordinator.start tasks wanted).value.2 x →
      ((w.session.coordinator.start tasks wanted).value.1 = .ok x.id ↔
        hired w.session.coordinator (w.session.coordinator.start tasks wanted).value.2 =
          List.replicate x.slices (x.id, .waiting))) ∧
    ((∀ x ∈ w.session.coordinator.blocks, x.isDone = true ∧ w.IsManned x) →
      w.session.coordinator.stats.branches = w.okResults +
        w.session.coordinator.stats.failed + w.session.coordinator.stats.cancelled) := by
  have hvalid : Valid setup (reached setup) (fun _ _ => True) w :=
    valid_of_reach (fun t => (Session.plain_answer setup t).honours) h
  refine ⟨fun b x hx => (hvalid.kept b x hx).policed, fun tasks wanted x hx => ?_, hvalid.counters⟩
  exact start_ok_iff hvalid.tidy tasks wanted hx

/-! ## A failure before another branch -/

/-- A session under the fast policy that can use no engine and no compiler. -/
def hasty : SessionConfig :=
  { parts := { parallel := { policy := .fast } }
    engines := .const ⟨"", false, "", fun _ _ => none⟩
    compiler := .missing }

/-- A branch that fails, and one after it. -/
def failing : List PreparedTask :=
  [⟨"bad", ∅, some [.throwing (.error .runtime "no")], [], "", []⟩,
    ⟨"later", ∅, some [], [], "", []⟩]

/-- The session when they were started with one worker. -/
def failingStarted : Session :=
  { (Session.new hasty : Session) with
    coordinator := ((Session.new hasty).coordinator.start failing (some 1)).value.2 }

/-- With one slice, the branch after the failure is cancelled. -/
theorem failure_policy_of_failing : ∃ (w : Floor PreparedTask) (x : Block PreparedTask),
    Relation.ReflTransGen Step (new hasty) w ∧
    w.session.coordinator.block? 1 = some x ∧ w.Policed 1 x ∧ x.Ends 0 .failed ∧
    x.Ends 1 .cancelled ∧ w.session.coordinator.stats.branches = w.okResults +
      w.session.coordinator.stats.failed + w.session.coordinator.stats.cancelled := by
  have hstart : Step (new hasty) ⟨[(1, .waiting)], failingStarted, []⟩ := by
    have hhired : hired (Session.new hasty).coordinator failingStarted.coordinator =
      [(1, .waiting)] := rfl
    exact hhired ▸ Step.opening ⟨.start failing (some 1) rfl, rfl⟩
  obtain ⟨w, hw, hx⟩ : ∃ w, Relation.ReflTransGen Step (new hasty) w ∧
      ∃ x, w.session.coordinator.blocks = [x] ∧ x.id = 1 ∧ x.remaining = 0 ∧ x.slices = 1 ∧
        w.slices = [(1, .retired)] ∧ x.Ends 0 .failed ∧ x.Ends 1 .cancelled := by
    refine hstart.head (Step.solo (.enter rfl) (.of_idle rfl) rfl ?_)
    refine Step.solo (.claim rfl) (.of_idle rfl) rfl ?_
    refine Step.solo (.begin rfl) (.of_idle rfl) rfl (Step.solo (.finish rfl) .of_done rfl ?_)
    refine Step.solo (.file rfl) (.of_idle rfl) rfl (Step.solo (.store rfl) (.of_idle rfl) rfl ?_)
    refine Step.solo (.claim rfl) (.of_idle rfl) rfl (Step.solo (.cancel rfl) (.of_idle rfl) rfl ?_)
    refine Step.solo (.file rfl) (.of_idle rfl) rfl (Step.solo (.store rfl) (.of_idle rfl) rfl ?_)
    refine Step.solo (.exhaust rfl) (.of_idle rfl) rfl ?_
    refine Step.solo (.retire rfl) (.of_idle rfl) rfl ?_
    exact ⟨_, .refl, _, rfl, rfl, rfl, rfl, rfl, ⟨_, rfl, rfl⟩, ⟨_, rfl, rfl⟩⟩
  obtain ⟨x, hblocks, hid, hrem, hone, hslices, hfailed, hcancelled⟩ := hx
  obtain ⟨hpoliced, -, hcounters⟩ := failure_policy hw
  have hx : w.session.coordinator.block? 1 = some x := by
    rw [Coordinator.block?, hblocks]
    exact List.find?_cons_of_pos (decide_eq_true hid)
  refine ⟨w, x, hw, hx, hpoliced 1 x hx, hfailed, hcancelled, hcounters fun y hy => ?_⟩
  rw [hblocks, List.mem_singleton] at hy
  subst hy
  refine ⟨decide_eq_true hrem, ?_⟩
  rw [IsManned, hone, hid, crew, hslices]
  rfl

end Floor

end MemoFlow
