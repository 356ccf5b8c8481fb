import MemoFlow.Proofs.Branch.Local
import MemoFlow.Proofs.Branch.Policy

/-!
# Independence of the schedule

When the stages and the work of the branches of a block are functions of their bindings, the results
of the block under the soft policy depend neither on the number of its slices nor on the order of
their steps, and merging them does not depend on the order in which they are met.

* `Floor.IsFunction`, `Floor.isFunction_of_isLocal`: branches that are functions of their bindings;
* `Floor.Joined`, **`Floor.Joined.gives`**: the results of a block that is joined;
* `mergeListed`, **`mergeListed_eq`**: merging results that come in any order;
* **`Floor.schedule_independence`**: two blocks with the same branches.
-/

namespace MemoFlow

open Process

/-! ## Results -/

namespace Floor

variable {τ : Type} [IsRunnable τ]

/-- **A block under the soft policy is joined**, whatever has led there. -/
structure Joined (c : SessionConfig) (ts : List τ) (w : Floor τ) (b : Nat) (x : Block τ) :
    Prop where
  reach : Relation.ReflTransGen Step (new c) w
  block : w.session.coordinator.block? b = some x
  tasks : x.tasks = ts
  policy : x.policy = .soft
  done : x.isDone = true
  manned : w.IsManned x

/-- **A branch is a function of its bindings**: it has no source text, its stages cannot be reused,
and in whatever session it may run, and whatever goes on there, its stages and its work give what
those of `f` give for the same bindings. -/
def IsFunction (c : SessionConfig) (t : τ) (f : BranchTask Id) : Prop :=
  (IsRunnable.toTask c t).Computes (Session.pact (reached c)) f

/-- Prepared branches whose stages and work are local are functions of their bindings. -/
theorem isFunction_of_isLocal {c : SessionConfig} {t : PreparedTask} (h : t.isLocal = true) :
    IsFunction c t t.alone :=
  PreparedTask.computes_toTask c h

variable [IsPlainBranch τ] {c : SessionConfig} {ts : List τ} {w : Floor τ} {b : Nat}
  {x : Block τ} {F : τ → BranchTask Id}

/-- Bodies end as they do alone where they are functions. -/
theorem honours_outcome (c : SessionConfig) (F : τ → BranchTask Id) (t : τ) :
    Honours (Session.pact (reached c))
      (fun o => IsFunction c t (F t) → o = (F t).outcome)
      ((Session.branchHost c).answer (IsRunnable.toTask c t)) := by
  by_cases ht : IsFunction c t (F t)
  · have hcomes := (Session.isPlain_branchHost c).comes_answer ht
    exact fun s hs => (hcomes s hs).imp fun _ _ ho _ => ho
  · exact fun s hs => ((Session.plain_answer c t).honours s hs).imp fun _ _ _ h => absurd h ht

/-- **The results of a block that is joined**, when its branches are functions: a wait gives them,
and each is that of running the branch alone. -/
theorem Joined.gives (h : Joined c ts w b x)
    (hF : ∀ t ∈ ts, IsFunction c t (F t)) :
    w.session.Gives b x.results ∧ x.results.keys.Perm (ts.map IsBranch.id) ∧
      ∀ t ∈ ts, x.results.find? (IsBranch.id t) =
        some (.ofOutcome (IsBranch.id t) (F t).outcome) := by
  have hk := (valid_of_reach (honours_outcome c F) h.reach).kept b x h.block
  have hp := hk.policed
  refine ⟨(hp.joined h.done h.manned).1, ?_, fun t ht => ?_⟩
  · have hnodup := Coordinator.nodup_of_validate hk.named
    obtain ⟨hperm, hids⟩ :=
      hk.sound.perm_results hnodup fun i t => hk.stored_of_done h.manned h.done
    have hkeys := hperm.map Prod.fst
    rw [List.map_map] at hkeys
    rw [← h.tasks]
    exact hids ▸ hkeys
  · rw [← h.tasks] at ht
    obtain ⟨i, hi⟩ := List.mem_iff_getElem?.1 ht
    obtain ⟨r, hr, hfind⟩ := (hp.joined h.done h.manned).2 i t hi
    -- The branch is not cancelled, so the result is that of its body.
    obtain hf | hcancel := (hk.recorded.stored i r hr).2
    · obtain ⟨t', out, ht', hout, ho⟩ := hk.recorded.finished i _ hf
      obtain rfl := Option.some.inj (hi.symm.trans ht')
      rw [hfind, ← hout (hF t (h.tasks ▸ ht))]
      exact ho
    · exact absurd ⟨r, hr, hk.status_of_cancel hcancel⟩ (hp.soft h.policy i)

end Floor

/-! ## Merging results -/

/-- Merge results that come in some order: the names of those that are in order are sorted, and
their values are bound one after the other. -/
def mergeListed (env : Environment) (l : List (String × BranchResult)) (start : String) :
    Nat × Environment :=
  let ids := ((l.filter fun p => p.2.isOk).map Prod.fst).mergeSort fun a b => decide (a ≤ b)
  (ids.length, ids.foldl (fun env id =>
    match NameMap.findIn id l with
    | some r => env.define (start ++ id) r.value
    | none => env) env)

theorem NameMap.findIn_of_mem {α : Type} {n : String} {v : α} {l : List (String × α)}
    (hl : (l.map Prod.fst).Nodup) (h : (n, v) ∈ l) : findIn n l = some v := by
  induction l with
  | nil => cases h
  | cons p l ih =>
    rw [List.map_cons, List.nodup_cons] at hl
    rw [findIn]
    obtain rfl | h := List.mem_cons.1 h
    · exact if_pos rfl
    · rw [if_neg fun hp : p.1 = n => hl.1 (hp ▸ List.mem_map_of_mem (f := Prod.fst) h)]
      exact ih hl.2 h

/-- The names of the results in order, sorted. -/
theorem mergeSort_ids {r : BranchResults} {l : List (String × BranchResult)}
    (h : l.Perm r.entries) :
    (((l.filter fun p => p.2.isOk).map Prod.fst).mergeSort fun a b => decide (a ≤ b)) =
      (r.entries.filter fun p => p.2.isOk).map Prod.fst := by
  refine @List.Perm.eq_of_pairwise _ (fun a b => decide (a ≤ b) = true) _ _ ?_ ?_ ?_ ?_
  · intro a b _ _ hab hba
    exact String.le_antisymm (of_decide_eq_true hab) (of_decide_eq_true hba)
  · refine List.pairwise_mergeSort (fun a b c hab hbc => ?_) (fun a b => ?_) _
    · exact decide_eq_true (String.le_trans (of_decide_eq_true hab) (of_decide_eq_true hbc))
    · simpa using String.le_total a b
  · rw [List.pairwise_map]
    refine (r.sorted.filter _).imp fun {p q} hpq => decide_eq_true ?_
    exact String.not_lt.1 (String.lt_asymm hpq)
  · exact (List.mergeSort_perm _ _).trans ((h.filter _).map Prod.fst)

/-- **Merging does not depend on the order in which results come.** -/
theorem mergeListed_eq {r : BranchResults} {l : List (String × BranchResult)} (h : l.Perm r.entries)
    (env : Environment) (start : String) : mergeListed env l start = mergeResults env r start := by
  have hnodup : (l.map Prod.fst).Nodup := by
    refine (h.map Prod.fst).nodup_iff.2 ?_
    rw [List.Nodup, List.pairwise_map]
    exact r.sorted.imp String.ne_of_lt
  have hids := mergeSort_ids h
  unfold mergeListed mergeResults Environment.overlay BranchResults.values
  dsimp only
  rw [hids, List.length_map, List.length_map, List.foldl_map, List.foldl_map, List.foldl_map]
  refine congrArg (Prod.mk _) (List.foldl_ext _ _ _ fun env p hp => ?_)
  rw [NameMap.findIn_of_mem hnodup (h.mem_iff.2 (List.mem_of_mem_filter hp))]

/-! ## Two schedules -/

namespace Floor

/-- **Independence of the schedule.** Two blocks with the same branches are joined under the soft
policy, in two sessions, with any numbers of workers, after any steps of their slices and of all
else. If the branches are functions of their bindings in both sessions, waits for the two blocks
give the same results: one for each branch, that of running it alone with its own bindings, as a
block of its own gives it, too. Merging them binds the same values in whatever order they are met.
-/
theorem schedule_independence {τ : Type} [IsRunnable τ] [IsPlainBranch τ]
    {c₁ c₂ : SessionConfig} {ts : List τ} {w₁ w₂ : Floor τ} {b₁ b₂ : Nat} {x₁ x₂ : Block τ}
    {F : τ → BranchTask Id}
    (h₁ : Joined c₁ ts w₁ b₁ x₁) (h₂ : Joined c₂ ts w₂ b₂ x₂)
    (hF₁ : ∀ t ∈ ts, IsFunction c₁ t (F t)) (hF₂ : ∀ t ∈ ts, IsFunction c₂ t (F t)) :
    ∃ r, w₁.session.Gives b₁ r ∧ w₂.session.Gives b₂ r ∧ r.keys.Perm (ts.map IsBranch.id) ∧
      (∀ t ∈ ts, r.find? (IsBranch.id t) = some (.ofOutcome (IsBranch.id t) (F t).outcome)) ∧
      (∀ t ∈ ts, ∀ w b x, Joined c₁ [t] w b x →
        ∃ r', w.session.Gives b r' ∧ r'.find? (IsBranch.id t) = r.find? (IsBranch.id t)) ∧
      ∀ env start l, l.Perm r.entries → mergeListed env l start = mergeResults env r start := by
  obtain ⟨hgives₁, hkeys₁, hfind₁⟩ := h₁.gives hF₁
  obtain ⟨hgives₂, hkeys₂, hfind₂⟩ := h₂.gives hF₂
  have hsame : x₂.results = x₁.results := NameMap.ext_find? fun n => by
    by_cases hn : n ∈ ts.map IsBranch.id
    · obtain ⟨t, ht, rfl⟩ := List.mem_map.1 hn
      rw [hfind₁ t ht, hfind₂ t ht]
    · exact (NameMap.findIn_eq_none_iff.2 (hkeys₂.mem_iff.not.2 hn)).trans
        (NameMap.findIn_eq_none_iff.2 (hkeys₁.mem_iff.not.2 hn)).symm
  refine ⟨x₁.results, hgives₁, hsame ▸ hgives₂, hkeys₁, hfind₁, fun t ht w b x hx => ?_,
    fun env start l hl => mergeListed_eq hl env start⟩
  obtain ⟨hgives, -, hfind⟩ := hx.gives (F := F) fun t' ht' => List.mem_singleton.1 ht' ▸ hF₁ t ht
  exact ⟨_, hgives, (hfind t (List.mem_singleton_self t)).trans (hfind₁ t ht).symm⟩

/-! ## A pair of branches -/

/-- A session under the soft policy that can use no engine and no compiler. -/
def calm : SessionConfig :=
  { parts := { }
    engines := .const ⟨"", false, "", fun _ _ => none⟩
    compiler := .missing }

/-- The session when a pair of branches was started. -/
def pairStarted (workers : Nat) : Session :=
  { (Session.new calm : Session) with
    coordinator := ((Session.new calm).coordinator.start Shift.pair (some workers)).value.2 }

/-- One slice runs the pair. -/
theorem joined_one : ∃ (w : Floor PreparedTask) (x : Block PreparedTask),
    Joined calm Shift.pair w 1 x ∧ x.workers = 1 := by
  have hhired : hired (Session.new calm).coordinator (pairStarted 1).coordinator =
    [(1, .waiting)] := rfl
  have hstart : Step (new calm) ⟨[(1, .waiting)], pairStarted 1, []⟩ :=
    hhired ▸ .opening ⟨.start Shift.pair (some 1) rfl, rfl⟩
  obtain ⟨w, hw, x, hx, htasks, hpolicy, hrem, hm, hworkers⟩ : ∃ w,
      Relation.ReflTransGen Step (new calm) w ∧ ∃ x, w.session.coordinator.block? 1 = some x ∧
        x.tasks = Shift.pair ∧ x.policy = .soft ∧ x.remaining = 0 ∧ w.IsManned x ∧
        x.workers = 1 := by
    refine hstart.head (Step.solo (.enter rfl) (.of_idle rfl) rfl ?_)
    refine Step.solo (.claim rfl) (.of_idle rfl) rfl ?_
    refine Step.solo (.begin rfl) (.of_idle rfl) rfl (Step.solo (.finish rfl) .of_done rfl ?_)
    refine Step.solo (.file rfl) (.of_idle rfl) rfl (Step.solo (.store rfl) (.of_idle rfl) rfl ?_)
    refine Step.solo (.claim rfl) (.of_idle rfl) rfl (Step.solo (.begin rfl) (.of_idle rfl) rfl ?_)
    refine Step.solo (.finish rfl) .of_done rfl (Step.solo (.file rfl) (.of_idle rfl) rfl ?_)
    refine Step.solo (.store rfl) (.of_idle rfl) rfl ?_
    refine Step.solo (.exhaust rfl) (.of_idle rfl) rfl ?_
    exact Step.solo (.retire rfl) (.of_idle rfl) rfl ⟨_, .refl, _, rfl, rfl, rfl, rfl, rfl, rfl⟩
  exact ⟨w, x, ⟨hw, hx, htasks, hpolicy, decide_eq_true hrem, hm⟩, hworkers⟩

/-- Two slices run the pair at the same time, and the second branch comes to its end first. -/
theorem joined_two : ∃ (w : Floor PreparedTask) (x : Block PreparedTask),
    Joined calm Shift.pair w 1 x ∧ x.workers = 2 := by
  have hhired : hired (Session.new calm).coordinator (pairStarted 2).coordinator =
    [(1, .waiting), (1, .waiting)] := rfl
  have hstart : Step (new calm) ⟨[(1, .waiting), (1, .waiting)], pairStarted 2, []⟩ :=
    hhired ▸ .opening ⟨.start Shift.pair (some 2) rfl, rfl⟩
  have first : ∀ {P : Floor PreparedTask → Prop} {p p' q : Position PreparedTask}
      {s s' : Session} {e : Event} {log : List (Nat × Record)},
      Position.Next 1 p s e p' s' → p.Heeds s p' → hired s.coordinator s'.coordinator = [] →
      (∃ w, Relation.ReflTransGen Step ⟨[(1, p'), (1, q)], s', log ++ [(1, e, p'.result?)]⟩ w ∧
        P w) →
      ∃ w, Relation.ReflTransGen Step ⟨[(1, p), (1, q)], s, log⟩ w ∧ P w :=
    fun hn hj hh => (Step.within [] [_] hn hj hh).head
  have second : ∀ {P : Floor PreparedTask → Prop} {p q q' : Position PreparedTask}
      {s s' : Session} {e : Event} {log : List (Nat × Record)},
      Position.Next 1 q s e q' s' → q.Heeds s q' → hired s.coordinator s'.coordinator = [] →
      (∃ w, Relation.ReflTransGen Step ⟨[(1, p), (1, q')], s', log ++ [(1, e, q'.result?)]⟩ w ∧
        P w) →
      ∃ w, Relation.ReflTransGen Step ⟨[(1, p), (1, q)], s, log⟩ w ∧ P w :=
    fun hn hj hh => (Step.within [_] [] hn hj hh).head
  obtain ⟨w, hw, x, hx, htasks, hpolicy, hrem, hm, hworkers⟩ : ∃ w,
      Relation.ReflTransGen Step (new calm) w ∧ ∃ x, w.session.coordinator.block? 1 = some x ∧
        x.tasks = Shift.pair ∧ x.policy = .soft ∧ x.remaining = 0 ∧ w.IsManned x ∧
        x.workers = 2 := by
    refine hstart.head (first (.enter rfl) (.of_idle rfl) rfl ?_)
    refine second (.enter rfl) (.of_idle rfl) rfl ?_
    refine first (.claim rfl) (.of_idle rfl) rfl (second (.claim rfl) (.of_idle rfl) rfl ?_)
    refine first (.begin rfl) (.of_idle rfl) rfl (second (.begin rfl) (.of_idle rfl) rfl ?_)
    refine second (.finish rfl) .of_done rfl (second (.file rfl) (.of_idle rfl) rfl ?_)
    refine second (.store rfl) (.of_idle rfl) rfl (second (.exhaust rfl) (.of_idle rfl) rfl ?_)
    refine first (.finish rfl) .of_done rfl (first (.file rfl) (.of_idle rfl) rfl ?_)
    refine first (.store rfl) (.of_idle rfl) rfl (first (.exhaust rfl) (.of_idle rfl) rfl ?_)
    refine second (.retire rfl) (.of_idle rfl) rfl (first (.retire rfl) (.of_idle rfl) rfl ?_)
    exact ⟨_, .refl, _, rfl, rfl, rfl, rfl, rfl, rfl⟩
  exact ⟨w, x, ⟨hw, hx, htasks, hpolicy, decide_eq_true hrem, hm⟩, hworkers⟩

/-- One slice or two give the same results for the pair. -/
theorem schedule_independence_of_pair : ∃ (w₁ : Floor PreparedTask) (x₁ : Block PreparedTask)
    (w₂ : Floor PreparedTask) (x₂ : Block PreparedTask) (r : BranchResults),
    Joined calm Shift.pair w₁ 1 x₁ ∧ x₁.workers = 1 ∧ Joined calm Shift.pair w₂ 1 x₂ ∧
      x₂.workers = 2 ∧ w₁.session.Gives 1 r ∧ w₂.session.Gives 1 r ∧
      r.keys.Perm ["left", "right"] := by
  obtain ⟨w₁, x₁, h₁, hone⟩ := joined_one
  obtain ⟨w₂, x₂, h₂, htwo⟩ := joined_two
  have hpair : ∀ t ∈ Shift.pair, IsFunction calm t t.alone := fun t ht =>
    isFunction_of_isLocal ((by decide : ∀ t ∈ Shift.pair, t.isLocal = true) t ht)
  obtain ⟨r, hr₁, hr₂, hkeys, -⟩ := schedule_independence h₁ h₂ hpair hpair
  exact ⟨w₁, x₁, w₂, x₂, r, h₁, hone, h₂, htwo, hr₁, hr₂, hkeys⟩

end Floor

end MemoFlow
