import MemoFlow.Proofs.Pool.Account

/-!
# What a shutdown drains

A worker leaves a closed pool when it has found all queues empty and then no pending task. A
submission passes its check before it counts its task, so the pool may be closed and the last worker
may leave in between. No worker runs the task then; it stays in its queue. Every other task is run.

* `Pool.Call.isCritical`, `Pool.Call.Knows`: the lock, and what a shutdown has read;
* `Pool.Call.Next.locked`, `Pool.Call.Next.knows`, `Pool.Call.Next.left_eq`,
  `Pool.Call.Next.counted`: what one step makes of the lock, of the workers that left and of the
  tasks that are counted;
* `Pool.Crowd.Orderly`, **`Pool.Crowd.Orderly.step`**: the order of a shutdown, and every step keeps
  it;
* **`Pool.Crowd.finished_or_late`**, `Pool.Crowd.drained_of_punctual`: after a shutdown only tasks
  that came too late are left;
* `Pool.Crowd.queued_of_late`: one such task.
-/

namespace MemoFlow.Pool

/-- Workers that have left do not come back, and no others come. -/
theorem Hall.isEmpty_mono {s s' : Hall} (h : s.isEmpty = true)
    (hactive : s'.pool.active ≤ s.pool.active) (hleft : s.left ⊆ s'.left) : s'.isEmpty = true := by
  refine List.all_eq_true.2 fun i hi => ?_
  have hlt := List.mem_range.1 hi
  have hmem := List.all_eq_true.1 h i (List.mem_range.2 (by omega))
  exact decide_eq_true (hleft (of_decide_eq_true hmem))

namespace Call

/-- Whether a call has the lock. -/
def isCritical : Call → Bool
  | .ensureCheck _ | .ensureActive _ | .grow _ _ | .grown _ _ => true
  | .closeStore | .closePending | .closeWake | .closeActive | .closeJoin _ _ => true
  | .unlock => true
  | _ => false

/-- Whether a call starts workers. -/
def isGrowing : Call → Bool
  | .ensureActive _ | .grow _ _ | .grown _ _ => true
  | _ => false

/-- The task of a submission that is counted as pending. -/
def counted : Call → List Nat
  | .submitPush _ t => [t]
  | _ => []

theorem isCritical_of_isGrowing {c : Call} (h : c.isGrowing = true) : c.isCritical = true := by
  cases c <;> first | rfl | exact Bool.noConfusion h

theorem counted_eq_nil {c : Call} (h : ¬ c.isPending = true) : c.counted = [] := by
  cases c <;> first | rfl | exact absurd rfl h

/-- **What a call knows** of a pool that is closed, and of the workers that have left. -/
def Knows (s : Hall) : Call → Prop
  | .closePending | .closeWake | .closeActive => s.pool.closed = true
  | .closeJoin a i => s.pool.closed = true ∧ s.pool.active ≤ a ∧ ∀ j, j < i → j ∈ s.left
  | _ => True

theorem Knows.mono {s s' : Hall} {c : Call} (h : c.Knows s)
    (hclosed : s.pool.closed = true → s'.pool.closed = true)
    (hactive : s.pool.closed = true → s'.pool.active ≤ s.pool.active) (hleft : s.left ⊆ s'.left) :
    c.Knows s' := by
  cases c with
  | closePending => exact hclosed h
  | closeWake => exact hclosed h
  | closeActive => exact hclosed h
  | closeJoin a i =>
    obtain ⟨hc, ha, hl⟩ := h
    exact ⟨hclosed hc, Nat.le_trans (hactive hc) ha, fun j hj => hleft (hl j hj)⟩
  | _ => trivial

namespace Next

variable {s s' : Hall} {c : Call} {cs : List Call} {e : Event}

/-- **The lock** is taken and given back. -/
theorem locked (h : Next c s e cs s') (hc : c.isCritical = true → s.locked = true) :
    s.locked.toNat + cs.countP isCritical = s'.locked.toNat + [c].countP isCritical := by
  cases h with
  | @enter c d s hcall hd => cases d <;> simp_all [isCritical, isRequest]
  | _ => simp_all [isCritical, List.countP_cons]

/-- Only a shutdown closes the pool. -/
theorem closed_eq (h : Next c s e cs s') (hc : c ≠ .closeStore) :
    s'.pool.closed = s.pool.closed := by
  cases h with
  | assistTake _ hp => exact (takes_popNewest hp).closed
  | workTake hp => exact (takes_popNewest hp).closed
  | stealTake _ hp => exact (takes_popOldest hp).closed
  | closeStore => exact absurd rfl hc
  | _ => rfl

/-- A closed pool stays closed. -/
theorem closed (h : Next c s e cs s') (hs : s.pool.closed = true) : s'.pool.closed = true := by
  by_cases hc : c = .closeStore
  · subst hc
    cases h with
    | enter hcall => simp [isCaller] at hcall
    | closeAgain => exact hs
    | closeStore => rfl
  · rw [h.closed_eq hc, hs]

/-- Only a call that starts workers makes more of them. -/
theorem active_eq (h : Next c s e cs s') (hc : c.isGrowing = false) :
    s'.pool.active = s.pool.active := by
  cases h with
  | push => exact active_push
  | assistTake _ hp => exact (takes_popNewest hp).active
  | workTake hp => exact (takes_popNewest hp).active
  | stealTake _ hp => exact (takes_popOldest hp).active
  | grown => simp [isGrowing] at hc
  | _ => rfl

/-- A worker that has left does not come back. -/
theorem left_subset (h : Next c s e cs s') : s.left ⊆ s'.left := by
  cases h with
  | leaveNone => exact List.subset_cons_self _ _
  | _ => exact List.Subset.refl _

/-- No call begins to start workers while the pool is closed. -/
theorem growing (h : Next c s e cs s') (hc : s.pool.closed = true ∨ c = .closeStore) :
    cs.countP isGrowing ≤ [c].countP isGrowing := by
  cases h with
  | @enter c d s hcall hd => cases d <;> simp_all [isGrowing, isRequest]
  | _ => simp_all [isGrowing]

/-- **What a call learns.** -/
theorem knows (h : Next c s e cs s') (hk : c.Knows s) : ∀ d ∈ cs, d.Knows s' := by
  cases h with
  | @enter c d s hcall hd =>
    intro b hb
    obtain rfl | hb := List.mem_cons.1 hb
    · cases b <;> simp_all [Knows, isRequest]
    · rwa [List.mem_singleton.1 hb]
  | closeStore => simp [Knows]
  | closePending => simpa [Knows] using hk
  | closeWake => simpa [Knows] using hk
  | closeActive => simpa [Knows] using hk
  | @join s a i hi hm =>
    obtain ⟨hclosed, hactive, hleft⟩ := hk
    intro d hd
    obtain rfl := List.mem_singleton.1 hd
    refine ⟨hclosed, hactive, fun j hj => ?_⟩
    obtain hj | rfl := Nat.lt_succ_iff_lt_or_eq.1 hj
    · exact hleft j hj
    · exact hm
  | _ => simp [Knows]

/-- A shutdown has waited for all workers. -/
theorem isEmpty_of_shut (h : Next c s e cs s') (hk : c.Knows s) (he : e = .shut) :
    s'.pool.closed = true ∧ s'.isEmpty = true := by
  cases h with
  | @shut s a i hi =>
    obtain ⟨hclosed, hactive, hleft⟩ := hk
    refine ⟨hclosed, List.all_eq_true.2 fun j hj => ?_⟩
    have := List.mem_range.1 hj
    simpa using hleft j (by omega)
  | _ => simp at he

/-- A worker leaves when it sees no pending task. -/
theorem left_eq (h : Next c s e cs s') :
    s'.left = s.left ∨ s.pool.pending = 0 ∧ cs = [] ∧ e.pushed = [] := by
  cases h with
  | leaveNone hp => exact .inr ⟨hp, rfl, rfl⟩
  | _ => exact .inl rfl

/-- A task is counted once, and it is late when all workers have left. -/
theorem counted (h : Next c s e cs s') :
    ∀ t ∈ cs.flatMap Call.counted ++ e.pushed, t ∈ c.counted ∨ e = .count t s.isEmpty := by
  cases h with
  | @enter c d s hcall hd => cases d <;> simp_all [Call.counted, isRequest, Event.pushed]
  | _ => simp [Call.counted, Event.pushed]

end Next

end Call

namespace Crowd

/-- **The order of a shutdown.** -/
structure Orderly (w : Crowd) : Prop where
  /-- One call at most has the lock. -/
  lock : w.calls.countP Call.isCritical = w.hall.locked.toNat
  /-- No workers start once the pool is closed. -/
  growing : w.hall.pool.closed = true → w.calls.countP Call.isGrowing = 0
  /-- What the calls know is true. -/
  knows : ∀ c ∈ w.calls, c.Knows w.hall
  /-- All workers have left when a shutdown has waited for them. -/
  shut : .shut ∈ w.log → w.hall.pool.closed = true ∧ w.hall.isEmpty = true
  /-- When all workers have left, the tasks that are still counted came too late. -/
  late : w.hall.isEmpty = true → ∀ t ∈ w.calls.flatMap Call.counted ++ w.queued,
    .count t true ∈ w.log

/-- Where no task is pending, none is counted. -/
theorem Balanced.counted_eq_nil {w : Crowd} (h : w.Balanced) (hp : w.hall.pool.pending = 0) :
    w.calls.flatMap Call.counted = [] ∧ w.queued = [] := by
  have hqueued := h.queued.length_eq
  have hpending := h.pending
  rw [List.length_append] at hqueued
  have hnone : w.calls.countP Call.isPending = 0 := by omega
  have hcounted : w.calls.flatMap Call.counted = [] :=
    List.flatMap_eq_nil_iff.2 fun c hc => Call.counted_eq_nil (List.countP_eq_zero.1 hnone c hc)
  exact ⟨hcounted, List.eq_nil_of_length_eq_zero (by omega)⟩

namespace Orderly

variable {w w' : Crowd}

theorem start (n bound : Nat) : (Crowd.start n bound).Orderly := by
  have hcalls := calls_start n bound
  have hcounted : (Crowd.start n bound).calls.flatMap Call.counted = [] :=
    List.flatMap_eq_nil_iff.2 fun c hc => by rw [hcalls c hc]; rfl
  refine ⟨?_, ?_, ?_, ?_, ?_⟩
  · exact List.countP_eq_zero.2 fun c hc => by simp [hcalls c hc, Call.isCritical]
  · exact fun hclosed => Bool.noConfusion hclosed
  · intro c hc
    rw [hcalls c hc]
    trivial
  · exact fun hm => absurd hm List.not_mem_nil
  · intro _ t ht
    rw [hcounted] at ht
    simp [queued, Crowd.start] at ht

section Step

variable {ps qs : List (List Call)} {r cs : List Call} {c : Call} {e : Event} {s s' : Hall}
  {log : List Event} {t : Nat}

theorem locked_of_isCritical (h : Orderly ⟨ps ++ (c :: r) :: qs, s, log⟩)
    (hc : c.isCritical = true) : s.locked = true := by
  have hlock := h.lock
  have hpos : 0 < (ps ++ (c :: r) :: qs).flatten.countP Call.isCritical :=
    List.countP_pos_iff.2 ⟨c, by simp, hc⟩
  simp only [calls] at hlock
  rw [hlock] at hpos
  cases hl : s.locked with
  | true => rfl
  | false => simp [hl] at hpos

/-- No more workers come to a pool that is closed. -/
theorem active_le_of_closed (h : Orderly ⟨ps ++ (c :: r) :: qs, s, log⟩) (hn : c.Next s e cs s')
    (hclosed : s.pool.closed = true) : s'.pool.active ≤ s.pool.active := by
  have hnone := List.countP_eq_zero.1 (h.growing hclosed) c (by simp [calls])
  exact Nat.le_of_eq (hn.active_eq (by simpa using hnone))

/-- No call starts workers when the pool is closed: a shutdown has the lock when it closes it. -/
theorem growing_step (h : Orderly ⟨ps ++ (c :: r) :: qs, s, log⟩) (hn : c.Next s e cs s')
    (hclosed : s'.pool.closed = true) :
    (ps ++ (cs ++ r) :: (qs ++ e.hires)).flatten.countP Call.isGrowing = 0 := by
  have hlock := h.lock
  have hcritical := countP_calls ps qs [c] r Call.isCritical
  have hgrowing := countP_calls ps qs [c] r Call.isGrowing
  simp only [calls, List.singleton_append] at hlock hcritical hgrowing
  rw [countP_threads ps qs cs r e Call.isGrowing fun _ => rfl]
  by_cases hc : c = .closeStore
  · have hnew := hn.growing (.inr hc)
    have hrest : (ps ++ r :: qs).flatten.countP Call.isGrowing ≤
        (ps ++ r :: qs).flatten.countP Call.isCritical :=
      List.countP_mono_left fun d _ hd => Call.isCritical_of_isGrowing hd
    have hone := Bool.toNat_le s.locked
    have hlocks : [c].countP Call.isCritical = 1 := by rw [hc]; rfl
    have hgrows : [c].countP Call.isGrowing = 0 := by rw [hc]; rfl
    omega
  · rw [hn.closed_eq hc] at hclosed
    have hold : (ps ++ (c :: r) :: qs).flatten.countP Call.isGrowing = 0 := h.growing hclosed
    have hnew := hn.growing (.inl hclosed)
    omega

/-- A task that is counted after a step was counted before, or the step has counted it or put it
into a queue. -/
theorem mem_counted (hn : c.Next s e cs s') (hc : c.Fits s.pool.active)
    (ht : t ∈ (ps ++ (cs ++ r) :: (qs ++ e.hires)).flatten.flatMap Call.counted ++
      s'.pool.queues.flatten) :
    t ∈ cs.flatMap Call.counted ++ e.pushed ∨
      t ∈ (ps ++ (c :: r) :: qs).flatten.flatMap Call.counted ++ s.pool.queues.flatten := by
  obtain ht | ht := List.mem_append.1 ht
  · obtain ⟨d, hd, htd⟩ := List.mem_flatMap.1 ht
    obtain hd | hd | ⟨i, rfl⟩ := mem_threads c hd
    · exact .inr (List.mem_append_left _ (List.mem_flatMap.2 ⟨d, hd, htd⟩))
    · exact .inl (List.mem_append_left _ (List.mem_flatMap.2 ⟨d, hd, htd⟩))
    · simp [Call.counted] at htd
  · obtain ht | ht := List.mem_append.1 ((hn.queues hc).mem_iff.1 (List.mem_append_right _ ht))
    · exact .inl (List.mem_append_right _ ht)
    · exact .inr (List.mem_append_right _ ht)

/-- A task that is still counted when all workers have left came too late: the last of them has seen
that no task was pending. -/
theorem late_step (h : Orderly ⟨ps ++ (c :: r) :: qs, s, log⟩)
    (hb : Balanced ⟨ps ++ (c :: r) :: qs, s, log⟩) (hn : c.Next s e cs s')
    (hempty : s'.isEmpty = true)
    (ht : t ∈ (ps ++ (cs ++ r) :: (qs ++ e.hires)).flatten.flatMap Call.counted ++
      s'.pool.queues.flatten) : .count t true ∈ log ++ [e] := by
  have hmem : c ∈ (ps ++ (c :: r) :: qs).flatten := by simp
  have hwhere := mem_counted hn (hb.fits c hmem) ht
  obtain hleft | ⟨hp, rfl, hpushed⟩ := hn.left_eq
  · have hbefore : s.isEmpty = true :=
      Hall.isEmpty_mono hempty hn.active_le (hleft ▸ List.Subset.refl _)
    have hlate : ∀ u, u ∈ (ps ++ (c :: r) :: qs).flatten.flatMap Call.counted ++
        s.pool.queues.flatten → .count u true ∈ log := h.late hbefore
    obtain ht | ht := hwhere
    · obtain ht | rfl := hn.counted t ht
      · exact List.mem_append_left _
          (hlate t (List.mem_append_left _ (List.mem_flatMap.2 ⟨c, hmem, ht⟩)))
      · rw [hbefore]
        exact List.mem_append_right _ (List.mem_singleton_self _)
    · exact List.mem_append_left _ (hlate t ht)
  · obtain ⟨hcounted, hnone⟩ := hb.counted_eq_nil hp
    simp only [calls, queued] at hcounted hnone
    rw [hcounted, hnone, hpushed] at hwhere
    simp at hwhere

end Step

/-- **A step keeps the order of a shutdown.** -/
theorem step (h : w.Orderly) (hb : w.Balanced) (hs : Step w w') : w'.Orderly := by
  obtain @⟨ps, qs, r, c, cs, e, s, s', log, hn⟩ := hs
  have hmem : c ∈ (ps ++ (c :: r) :: qs).flatten := by simp
  have hactive : s.pool.closed = true → s'.pool.active ≤ s.pool.active := h.active_le_of_closed hn
  refine ⟨?_, h.growing_step hn, ?_, ?_, fun hempty t => h.late_step hb hn hempty⟩
  · have hlock := h.lock
    have hcritical := countP_calls ps qs [c] r Call.isCritical
    have hstep := hn.locked h.locked_of_isCritical
    simp only [calls, List.singleton_append] at hlock hcritical
    simp only [calls, countP_threads ps qs cs r e Call.isCritical fun _ => rfl]
    omega
  · intro d hd
    obtain hd | hd | ⟨i, rfl⟩ := mem_threads c hd
    · exact (h.knows d hd).mono hn.closed hactive hn.left_subset
    · exact hn.knows (h.knows c hmem) d hd
    · trivial
  · intro hm
    obtain hm | hm := List.mem_append.1 hm
    · obtain ⟨hclosed, hempty⟩ := h.shut hm
      exact ⟨hn.closed hclosed, Hall.isEmpty_mono hempty (hactive hclosed) hn.left_subset⟩
    · exact hn.isEmpty_of_shut (h.knows c hmem) (List.mem_singleton.1 hm).symm

theorem reach {n bound : Nat} (h : Reach n bound w) : w.Orderly := by
  induction h with
  | refl => exact start n bound
  | tail hr hs ih => exact ih.step (Balanced.reach hr) hs

end Orderly

/-! ## After a shutdown -/

theorem mem_accepted {log : List Event} {t : Nat} :
    t ∈ log.flatMap Event.accepted ↔ .accept t ∈ log := by
  rw [List.mem_flatMap]
  constructor
  · rintro ⟨e, he, ht⟩
    cases e <;> simp_all [Event.accepted]
  · exact fun h => ⟨_, h, List.mem_singleton_self t⟩

theorem mem_finished {log : List Event} {t : Nat} :
    t ∈ log.flatMap Event.finished ↔ .finish t ∈ log := by
  rw [List.mem_flatMap]
  constructor
  · rintro ⟨e, he, ht⟩
    cases e <;> simp_all [Event.finished]
  · exact fun h => ⟨_, h, List.mem_singleton_self t⟩

section Shut

variable {n bound : Nat} {w : Crowd} {t : Nat}

/-- **What is left in the queues** after a shutdown was counted when all workers had left. -/
theorem late_of_queued (h : Reach n bound w) (hs : .shut ∈ w.log) (ht : t ∈ w.queued) :
    .count t true ∈ w.log := by
  have ho := Orderly.reach h
  exact ho.late (ho.shut hs).2 t (List.mem_append_right _ ht)

/-- **What a shutdown drains.** Once it has waited for all workers, and no thread has a task, each
task that was accepted has come to its end, or lies in a queue because it was counted too late. -/
theorem finished_or_late (h : Reach n bound w) (hs : .shut ∈ w.log)
    (hr : ∀ c ∈ w.calls, c.isBusy = false) (ht : .accept t ∈ w.log) :
    .finish t ∈ w.log ∧ t ∉ w.queued ∨ t ∈ w.queued ∧ .count t true ∈ w.log := by
  have hb := Balanced.reach h
  have hsubmitted : w.calls.flatMap Call.submitted = [] :=
    List.flatMap_eq_nil_iff.2 fun c hc => Call.submitted_eq_nil (hr c hc)
  have hheld : w.calls.flatMap Call.held = [] :=
    List.flatMap_eq_nil_iff.2 fun c hc => Call.held_eq_nil (hr c hc)
  have hplaces := hb.places
  rw [hsubmitted, hheld, List.nil_append, List.append_nil] at hplaces
  have hapart := (List.nodup_append.1 (hplaces.nodup_iff.2 hb.nodup)).2.2
  obtain hq | hf := List.mem_append.1 (hplaces.mem_iff.2 (mem_accepted.2 ht))
  · exact .inr ⟨hq, late_of_queued h hs hq⟩
  · exact .inl ⟨mem_finished.1 hf, fun hq => hapart t hq t hf rfl⟩

/-- A shutdown drains the pool when no submission comes too late. -/
theorem drained_of_punctual (h : Reach n bound w) (hs : .shut ∈ w.log)
    (hr : ∀ c ∈ w.calls, c.isBusy = false) (hl : ∀ t, .count t true ∉ w.log) :
    w.queued = [] ∧ ∀ t, .accept t ∈ w.log → .finish t ∈ w.log := by
  have hqueued : w.queued = [] :=
    List.eq_nil_iff_forall_not_mem.2 fun t ht => hl t (late_of_queued h hs ht)
  refine ⟨hqueued, fun t ht => ?_⟩
  obtain hf | hq := finished_or_late h hs hr ht
  · exact hf.1
  · exact absurd hq.2 (hl t)

end Shut

/-- **A task that comes too late is left**: it passes its check before the shutdown closes the pool,
and is counted when the last worker has left. -/
theorem queued_of_late : ∃ w, Reach 2 1 w ∧ (∀ c ∈ w.calls, c = .outside) ∧ .shut ∈ w.log ∧
    .accept 0 ∈ w.log ∧ .finish 0 ∉ w.log ∧ w.queued = [0] := by
  have h : Reach 2 1 (start 2 1) := .refl
  have h := Reach.solo [] h (.step (.enter (d := .ensure 1) rfl rfl)
    (.step (.ensure (by decide) rfl) (.step (.ensureOpen rfl) (.step .ensureActive
      (.step (.hire (by decide)) (.step .grown (.step (.growDone (by decide)) (.one .unlock))))))))
  have h := Reach.solo [] h (.step (.enter (d := .submit) rfl rfl)
    (.step .submit (.one (.accept (by decide) rfl))))
  have h := Reach.solo [[.submitTurn 1 0, .outside]] h
    (.step .enterClose (solo_close rfl rfl))
  have h := Reach.solo [[.submitTurn 1 0, .outside], [.closeJoin 1 0, .outside]] h
    (.step (.workNone rfl) (.step .steal (.step (.stealNone (by decide)) (.step (.waitClosed rfl)
      (.step (.leaveClosed rfl) (.one (.leaveNone rfl)))))))
  have h := Reach.solo [[.submitTurn 1 0, .outside]] h
    (.step (.join (by decide) (by decide)) (.step (.shut (by decide)) (.one .unlock)))
  have h := Reach.solo [] h
    (.step .turn (.step .count (.step .push (.step .tally (.one .wakeOne)))))
  exact ⟨_, h, by decide, by decide, by decide, by decide, rfl⟩

end Crowd

end MemoFlow.Pool
