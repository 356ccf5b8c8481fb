import Mathlib.Logic.Relation
import MemoFlow.Proofs.Pool.Calls

/-!
# No task of a pool is lost or run twice

Any number of threads submit tasks to a pool, ask it for workers and help it, and tasks do so
themselves while they run. Whatever the order of their steps, each task that was accepted is in one
place, and the counters of the pool agree with the places.

* `Pool.Takes`, `Pool.perm_push`: a task leaves a queue, or comes into one;
* `Pool.Call.submitted`, `Pool.Call.held`, `Pool.Call.Fits`: the task of a call, and its queue;
* **`Pool.Call.Next.queues`**, `Pool.Call.Next.submitted`, `Pool.Call.Next.held`,
  `Pool.Call.Next.pending`: what one step makes of the tasks and the counters;
* **`Pool.Crowd`**, `Pool.Crowd.Step`, `Pool.Crowd.Reach`: threads at work on a pool;
* `Pool.Crowd.Balanced`, **`Pool.Crowd.Balanced.step`**: the account, and every step keeps it;
* **`Pool.Crowd.conserves`**: no task is lost or run twice.
-/

namespace MemoFlow.Pool

/-! ## Queues -/

theorem count_flatten_set {qs : List (List Nat)} {i : Nat} {l : List Nat} (h : qs[i]? = some l)
    (m : List Nat) (t : Nat) :
    (qs.set i m).flatten.count t + l.count t = qs.flatten.count t + m.count t := by
  induction qs generalizing i with
  | nil => simp at h
  | cons a r ih =>
    cases i with
    | zero =>
      obtain rfl : a = l := by simpa using h
      simp only [List.set_cons_zero, List.flatten_cons, List.count_append]
      omega
    | succ i =>
      have := ih (i := i) (by simpa using h)
      simp only [List.set_cons_succ, List.flatten_cons, List.count_append]
      omega

variable {p q : Pool Nat} {i t : Nat}

/-- **A task leaves a queue**: the other tasks stay, and nothing else changes. -/
structure Takes (p : Pool Nat) (t : Nat) (q : Pool Nat) : Prop where
  queues : p.queues.flatten.Perm (t :: q.queues.flatten)
  active : q.active = p.active
  closed : q.closed = p.closed
  pending : q.pending = p.pending
  spawned : q.spawned = p.spawned
  executed : q.executed = p.executed

theorem takes_popNewest (h : p.popNewest i = some (t, q)) : p.Takes t q := by
  unfold popNewest at h
  split at h
  · simp at h
  · next l hl =>
    obtain ⟨u, hu, he⟩ := Option.map_eq_some_iff.1 h
    obtain ⟨rfl, rfl⟩ := Prod.mk.inj he
    obtain ⟨m, rfl⟩ := List.getLast?_eq_some_iff.1 hu
    refine ⟨List.perm_iff_count.2 fun x => ?_, by simp [active], rfl, rfl, rfl, rfl⟩
    have := count_flatten_set hl m x
    simp only [List.dropLast_concat, List.count_append, List.count_cons, List.count_nil] at this ⊢
    omega

theorem takes_popOldest (h : p.popOldest i = some (t, q)) : p.Takes t q := by
  unfold popOldest at h
  split at h
  · next u l hl =>
    obtain ⟨rfl, rfl⟩ := Prod.mk.inj (Option.some.inj h)
    refine ⟨List.perm_iff_count.2 fun x => ?_, by simp [active], rfl, rfl, rfl, rfl⟩
    have := count_flatten_set hl l x
    simp only [List.count_cons] at this ⊢
    omega
  · simp at h

/-- A task comes into a queue. -/
theorem perm_push (hi : i < p.active) (t : Nat) :
    (p.push i t).queues.flatten.Perm (t :: p.queues.flatten) := by
  have hl : p.queues[i]? = some p.queues[i] := List.getElem?_eq_getElem hi
  have hset : (p.push i t).queues = p.queues.set i (p.queues[i] ++ [t]) := by
    simp [push, List.modify_eq_set, hl]
  refine List.perm_iff_count.2 fun x => ?_
  have := count_flatten_set hl (p.queues[i] ++ [t]) x
  rw [hset]
  simp only [List.count_append, List.count_cons, List.count_nil] at this ⊢
  omega

theorem active_push : (p.push i t).active = p.active := by simp [push, active]

theorem flatten_raise (n : Nat) : (p.raise n).queues.flatten = p.queues.flatten := by
  simp [raise]

/-! ## Calls with a task -/

namespace Event

/-- The task that is put into a queue. -/
def pushed : Event → List Nat
  | .push t => [t]
  | _ => []

/-- The task that is taken out of a queue. -/
def taken : Event → List Nat
  | .take t => [t]
  | _ => []

/-- The task that has come to its end. -/
def finished : Event → List Nat
  | .finish t => [t]
  | _ => []

/-- The task that is accepted. -/
def accepted : Event → List Nat
  | .accept t => [t]
  | _ => []

end Event

namespace Call

/-- The task of a submission that has passed its check, and has not put it into a queue. -/
def submitted : Call → List Nat
  | .submitTurn _ t | .submitCount _ t | .submitPush _ t => [t]
  | _ => []

/-- The task that was taken out of a queue, and is not counted as executed. -/
def held : Call → List Nat
  | .stolen t | .taken t | .running t | .ended t => [t]
  | _ => []

/-- Whether a task is counted as pending without being in a queue. -/
def isPending : Call → Bool
  | .submitPush _ _ | .stolen _ | .taken _ => true
  | _ => false

/-- Whether a call has a task, or is yet to count its submission. -/
def isBusy : Call → Bool
  | .submitTurn _ _ | .submitCount _ _ | .submitPush _ _ | .submitTally => true
  | .stolen _ | .taken _ | .running _ | .ended _ => true
  | _ => false

/-- Whether a task is in a queue, and its submission is not counted. -/
def isTally : Call → Bool
  | .submitTally => true
  | _ => false

theorem isBusy_of_isPending {c : Call} (h : c.isPending = true) : c.isBusy = true := by
  cases c <;> first | rfl | exact Bool.noConfusion h

theorem isBusy_of_isTally {c : Call} (h : c.isTally = true) : c.isBusy = true := by
  cases c <;> first | rfl | exact Bool.noConfusion h

theorem submitted_eq_nil {c : Call} (h : c.isBusy = false) : c.submitted = [] := by
  cases c <;> first | rfl | exact Bool.noConfusion h

theorem held_eq_nil {c : Call} (h : c.isBusy = false) : c.held = [] := by
  cases c <;> first | rfl | exact Bool.noConfusion h

/-- **What holds of a call** while `n` workers run: a submission goes to the queue of one of
them. -/
def Fits (n : Nat) : Call → Prop
  | .submitCheck a => a ≤ n
  | .submitTurn a _ => 0 < a ∧ a ≤ n
  | .submitCount i _ | .submitPush i _ => i < n
  | _ => True

theorem Fits.mono {c : Call} {m n : Nat} (h : c.Fits m) (hmn : m ≤ n) : c.Fits n := by
  cases c <;> simp only [Fits] at h ⊢ <;> omega

namespace Next

variable {s s' : Hall} {c : Call} {cs : List Call} {e : Event}

theorem active_le (h : Next c s e cs s') : s.pool.active ≤ s'.pool.active := by
  cases h with
  | push => exact Nat.le_of_eq active_push.symm
  | assistTake _ hp => exact Nat.le_of_eq (takes_popNewest hp).active.symm
  | workTake hp => exact Nat.le_of_eq (takes_popNewest hp).active.symm
  | stealTake _ hp => exact Nat.le_of_eq (takes_popOldest hp).active.symm
  | @grown s n a =>
    show s.pool.active ≤ (s.pool.raise (a + 1)).active
    rw [active_raise]
    exact Nat.le_max_left _ _
  | _ => exact Nat.le_refl _

/-- A call goes on as it fits. -/
theorem fits (h : Next c s e cs s') (hc : c.Fits s.pool.active) :
    ∀ d ∈ cs, d.Fits s'.pool.active := by
  cases h with
  | @enter c d s hcall hd =>
    intro b hb
    obtain rfl | hb := List.mem_cons.1 hb
    · cases b <;> simp_all [Fits, isRequest]
    · rwa [List.mem_singleton.1 hb]
  | accept ha => simpa [Fits] using ⟨Nat.pos_of_ne_zero ha, hc⟩
  | @turn s a t =>
    intro d hd
    obtain rfl := List.mem_singleton.1 hd
    exact Nat.lt_of_lt_of_le (Nat.mod_lt s.pool.turn hc.1) hc.2
  | count => exact fun d hd => List.mem_singleton.1 hd ▸ hc
  | _ => simp [Fits]

/-- **The queues** have what is put into them and not taken out. -/
theorem queues (h : Next c s e cs s') (hc : c.Fits s.pool.active) :
    (e.taken ++ s'.pool.queues.flatten).Perm (e.pushed ++ s.pool.queues.flatten) := by
  cases h with
  | push => exact perm_push hc _
  | assistTake _ hp => exact (takes_popNewest hp).queues.symm
  | workTake hp => exact (takes_popNewest hp).queues.symm
  | stealTake _ hp => exact (takes_popOldest hp).queues.symm
  | grown => simp [Event.taken, Event.pushed, flatten_raise]
  | _ => exact .refl _

/-- **A submission** has its task until it is put into a queue. -/
theorem submitted (h : Next c s e cs s') :
    (c.submitted ++ e.accepted).Perm (cs.flatMap Call.submitted ++ e.pushed) := by
  cases h with
  | @enter c d s hcall hd =>
    cases d <;> simp_all [Call.submitted, isRequest, Event.accepted, Event.pushed]
  | _ => exact .refl _

/-- **A task that was taken** is held until it is counted as executed. -/
theorem held (h : Next c s e cs s') :
    (c.held ++ e.taken).Perm (cs.flatMap Call.held ++ e.finished) := by
  cases h with
  | @enter c d s hcall hd =>
    cases d <;> simp_all [Call.held, isRequest, Event.taken, Event.finished]
  | _ => exact .refl _

/-- **Pending tasks** are in queues, or on the way into one or out of one. -/
theorem pending (h : Next c s e cs s') (hpos : ∀ t, c = .taken t → 0 < s.pool.pending) :
    s'.pool.pending + [c].countP isPending + e.taken.length =
      s.pool.pending + cs.countP isPending + e.pushed.length := by
  cases h with
  | @enter c d s hcall hd => cases d <;> simp_all [isPending, isRequest, Event.taken, Event.pushed]
  | @begin s t =>
    have := hpos t rfl
    simp [isPending, Event.taken, Event.pushed]
    omega
  | assistTake _ hp => simp [isPending, Event.taken, Event.pushed, (takes_popNewest hp).pending]
  | workTake hp =>
    simp [isPending, Event.taken, Event.pushed, (takes_popNewest hp).pending, List.countP_cons]
  | stealTake _ hp =>
    simp [isPending, Event.taken, Event.pushed, (takes_popOldest hp).pending, List.countP_cons]
  | push => simp [isPending, Event.taken, Event.pushed, Pool.push]
  | grown => simp [isPending, Event.taken, Event.pushed, raise]
  | finish => simp [isPending, Event.taken, Event.pushed, Pool.finish]
  | _ => simp [isPending, Event.taken, Event.pushed]

/-- A submission is counted once its task is in a queue. -/
theorem spawned (h : Next c s e cs s') :
    s.pool.spawned + [c].countP isTally + e.pushed.length =
      s'.pool.spawned + cs.countP isTally := by
  cases h with
  | @enter c d s hcall hd => cases d <;> simp_all [isTally, isRequest, Event.pushed]
  | assistTake _ hp => simp [isTally, Event.pushed, (takes_popNewest hp).spawned]
  | workTake hp => simp [isTally, Event.pushed, (takes_popNewest hp).spawned]
  | stealTake _ hp => simp [isTally, Event.pushed, (takes_popOldest hp).spawned]
  | push => simp [isTally, Event.pushed, Pool.push]
  | grown => simp [isTally, Event.pushed, raise]
  | finish => simp [isTally, Event.pushed, Pool.finish]
  | _ => simp [isTally, Event.pushed]

/-- A task is counted as executed when it has come to its end. -/
theorem executed (h : Next c s e cs s') :
    s'.pool.executed = s.pool.executed + e.finished.length := by
  cases h with
  | assistTake _ hp => simp [Event.finished, (takes_popNewest hp).executed]
  | workTake hp => simp [Event.finished, (takes_popNewest hp).executed]
  | stealTake _ hp => simp [Event.finished, (takes_popOldest hp).executed]
  | push => simp [Event.finished, Pool.push]
  | grown => simp [Event.finished, raise]
  | finish => simp [Event.finished, Pool.finish]
  | _ => simp [Event.finished]

/-- The tasks are accepted one after the other. -/
theorem accepted (h : Next c s e cs s') :
    List.range s'.accepted = List.range s.accepted ++ e.accepted := by
  cases h with
  | accept => simp [Event.accepted, List.range_succ]
  | _ => simp [Event.accepted]

end Next

end Call

/-! ## Crowds -/

/-- **Threads at work on a pool.** Each thread has the calls that it is in, the innermost one
first. -/
structure Crowd where
  /-- The threads. -/
  threads : List (List Call)
  /-- What they share. -/
  hall : Hall
  /-- What happened, the first event first. -/
  log : List Event

namespace Crowd

/-- The calls of all threads. -/
def calls (w : Crowd) : List Call := w.threads.flatten

/-- The tasks in the queues. -/
def queued (w : Crowd) : List Nat := w.hall.pool.queues.flatten

/-- Threads before their first calls to a pool without workers. -/
def start (n bound : Nat) : Crowd :=
  ⟨List.replicate n [.outside], { pool := { bound := bound } }, []⟩

/-- **A step** of one of the threads. -/
inductive Step : Crowd → Crowd → Prop where
  | mk {ps qs : List (List Call)} {r : List Call} {c : Call} {cs : List Call} {e : Event}
    {s s' : Hall} {log : List Event} (h : Call.Next c s e cs s') :
    Step ⟨ps ++ (c :: r) :: qs, s, log⟩ ⟨ps ++ (cs ++ r) :: (qs ++ e.hires), s', log ++ [e]⟩

/-- **What the threads of a pool can come to**, `n` of them at the start. -/
def Reach (n bound : Nat) : Crowd → Prop := Relation.ReflTransGen Step (start n bound)

/-- The steps of one thread are steps of the crowd. -/
theorem steps_of_solo {cs ds : List Call} {s s' : Hall} {es : List Event} (h : Solo cs s es ds s')
    (ps qs : List (List Call)) (log : List Event) :
    Relation.ReflTransGen Step ⟨ps ++ cs :: qs, s, log⟩
      ⟨ps ++ ds :: (qs ++ es.flatMap Event.hires), s', log ++ es⟩ := by
  induction h generalizing qs log with
  | rest cs s =>
    simp only [List.flatMap_nil, List.append_nil]
    exact .refl
  | @step c r cs ds s s' s'' e es hn _ ih =>
    have := ih (qs ++ e.hires) (log ++ [e])
    simp only [List.append_assoc, List.singleton_append] at this
    exact .head (.mk hn) this

/-- One of the threads makes steps of its own. -/
theorem Reach.solo {n bound : Nat} (ps : List (List Call)) {qs : List (List Call)}
    {cs ds : List Call} {s s' : Hall} {es log : List Event}
    (h : Reach n bound ⟨ps ++ cs :: qs, s, log⟩) (hs : Solo cs s es ds s') :
    Reach n bound ⟨ps ++ ds :: (qs ++ es.flatMap Event.hires), s', log ++ es⟩ :=
  h.trans (steps_of_solo hs ps qs log)

/-! ## The account -/

section Threads

variable {α : Type} (ps qs : List (List Call)) (cs r : List Call) (e : Event)

/-- A thread that starts is before its first step. -/
theorem flatten_hires (e : Event) : ∀ c ∈ e.hires.flatten, ∃ i, c = .work i := by
  cases e <;> simp [Event.hires]

/-- After a step, a call was there before it, or it is one of the new ones. -/
theorem mem_threads {ps qs : List (List Call)} {cs r : List Call} {e : Event} {d : Call} (c : Call)
    (hd : d ∈ (ps ++ (cs ++ r) :: (qs ++ e.hires)).flatten) :
    d ∈ (ps ++ (c :: r) :: qs).flatten ∨ d ∈ cs ∨ ∃ i, d = .work i := by
  simp only [List.flatten_append, List.flatten_cons, List.mem_append, List.mem_cons] at hd ⊢
  obtain hd | (hd | hd) | hd | hd := hd
  · exact .inl (.inl hd)
  · exact .inr (.inl hd)
  · exact .inl (.inr (.inl (.inr hd)))
  · exact .inl (.inr (.inr hd))
  · exact .inr (.inr (flatten_hires e d hd))

theorem countP_calls (f : Call → Bool) :
    (ps ++ (cs ++ r) :: qs).flatten.countP f = cs.countP f + (ps ++ r :: qs).flatten.countP f := by
  simp only [List.flatten_append, List.flatten_cons, List.countP_append]
  omega

theorem countP_threads (f : Call → Bool) (hf : ∀ i, f (.work i) = false) :
    (ps ++ (cs ++ r) :: (qs ++ e.hires)).flatten.countP f =
      cs.countP f + (ps ++ r :: qs).flatten.countP f := by
  have hnew : e.hires.flatten.countP f = 0 := by
    rw [List.countP_eq_zero]
    intro c hc
    obtain ⟨i, rfl⟩ := flatten_hires e c hc
    simp [hf]
  simp only [List.flatten_append, List.flatten_cons, List.countP_append, hnew]
  omega

theorem count_calls [BEq α] (f : Call → List α) (a : α) :
    ((ps ++ (cs ++ r) :: qs).flatten.flatMap f).count a =
      (cs.flatMap f).count a + ((ps ++ r :: qs).flatten.flatMap f).count a := by
  simp only [List.flatten_append, List.flatten_cons, List.flatMap_append, List.count_append]
  omega

theorem count_threads [BEq α] (f : Call → List α) (hf : ∀ i, f (.work i) = []) (a : α) :
    ((ps ++ (cs ++ r) :: (qs ++ e.hires)).flatten.flatMap f).count a =
      (cs.flatMap f).count a + ((ps ++ r :: qs).flatten.flatMap f).count a := by
  have hnew : e.hires.flatten.flatMap f = [] := by
    rw [List.flatMap_eq_nil_iff]
    intro c hc
    obtain ⟨i, rfl⟩ := flatten_hires e c hc
    exact hf i
  simp only [List.flatten_append, List.flatten_cons, List.flatMap_append, List.count_append, hnew,
    List.count_nil]
  omega

end Threads

/-- **The account of a pool.** -/
structure Balanced (w : Crowd) : Prop where
  /-- Every call fits. -/
  fits : ∀ c ∈ w.calls, c.Fits w.hall.pool.active
  /-- The tasks are accepted one after the other. -/
  accepted : w.log.flatMap Event.accepted = List.range w.hall.accepted
  /-- A task that was accepted is in a submission, or was put into a queue. -/
  submitted : (w.log.flatMap Event.accepted).Perm
    (w.calls.flatMap Call.submitted ++ w.log.flatMap Event.pushed)
  /-- A task that was put into a queue is in one, or was taken. -/
  queued : (w.log.flatMap Event.taken ++ w.queued).Perm (w.log.flatMap Event.pushed)
  /-- A task that was taken is held, or has come to its end. -/
  held : (w.log.flatMap Event.taken).Perm
    (w.calls.flatMap Call.held ++ w.log.flatMap Event.finished)
  /-- Pending tasks are in queues, or on the way into one or out of one. -/
  pending : w.hall.pool.pending + (w.log.flatMap Event.taken).length =
    w.calls.countP Call.isPending + (w.log.flatMap Event.pushed).length
  /-- A submission is counted once its task is in a queue. -/
  spawned : (w.log.flatMap Event.pushed).length =
    w.hall.pool.spawned + w.calls.countP Call.isTally
  /-- A task is counted as executed when it has come to its end. -/
  executed : w.hall.pool.executed = (w.log.flatMap Event.finished).length

theorem calls_start (n bound : Nat) : ∀ c ∈ (Crowd.start n bound).calls, c = .outside := by
  simp only [calls, Crowd.start, List.mem_flatten, List.mem_replicate]
  rintro c ⟨l, ⟨-, rfl⟩, hc⟩
  exact List.mem_singleton.1 hc

namespace Balanced

variable {w w' : Crowd}

theorem start (n bound : Nat) : (Crowd.start n bound).Balanced := by
  have hcalls := calls_start n bound
  have hsubmitted : (Crowd.start n bound).calls.flatMap Call.submitted = [] :=
    List.flatMap_eq_nil_iff.2 fun c hc => by rw [hcalls c hc]; rfl
  have hheld : (Crowd.start n bound).calls.flatMap Call.held = [] :=
    List.flatMap_eq_nil_iff.2 fun c hc => by rw [hcalls c hc]; rfl
  have hpending : (Crowd.start n bound).calls.countP Call.isPending = 0 :=
    List.countP_eq_zero.2 fun c hc => by simp [hcalls c hc, Call.isPending]
  have htally : (Crowd.start n bound).calls.countP Call.isTally = 0 :=
    List.countP_eq_zero.2 fun c hc => by simp [hcalls c hc, Call.isTally]
  refine ⟨fun c hc => by rw [hcalls c hc]; trivial, rfl, ?_, .refl _, ?_, ?_, ?_, rfl⟩
  · rw [hsubmitted]
    exact .refl _
  · rw [hheld]
    exact .refl _
  · rw [hpending]
    rfl
  · rw [htally]
    rfl

/-- While a task is about to be counted as begun, one is pending. -/
theorem pending_pos (h : w.Balanced) {t : Nat} (ht : .taken t ∈ w.calls) :
    0 < w.hall.pool.pending := by
  have hqueued := h.queued.length_eq
  have hpending := h.pending
  have hpos : 0 < w.calls.countP Call.isPending := List.countP_pos_iff.2 ⟨_, ht, rfl⟩
  rw [List.length_append] at hqueued
  omega

/-- **A step keeps the account.** -/
theorem step (h : w.Balanced) (hs : Step w w') : w'.Balanced := by
  obtain @⟨ps, qs, r, c, cs, e, s, s', log, hn⟩ := hs
  have hmem : c ∈ (ps ++ (c :: r) :: qs).flatten := by simp
  have hc := h.fits c hmem
  have hpos : ∀ t, c = .taken t → 0 < s.pool.pending := by
    rintro t rfl
    exact h.pending_pos hmem
  refine ⟨?_, ?_, ?_, ?_, ?_, ?_, ?_, ?_⟩
  · intro d hd
    obtain hd | hd | ⟨i, rfl⟩ := mem_threads c hd
    · exact (h.fits d hd).mono hn.active_le
    · exact hn.fits hc d hd
    · trivial
  · have := h.accepted
    simp only [List.flatMap_append, List.flatMap_singleton] at this ⊢
    rw [this, hn.accepted]
  · refine List.perm_iff_count.2 fun t => ?_
    have hold := h.submitted.count_eq t
    have hstep := hn.submitted.count_eq t
    have hcalls := count_calls ps qs [c] r Call.submitted t
    simp only [calls, List.flatMap_append, List.flatMap_singleton, List.count_append,
      List.singleton_append, count_threads ps qs cs r e Call.submitted fun _ => rfl] at *
    omega
  · refine List.perm_iff_count.2 fun t => ?_
    have hold := h.queued.count_eq t
    have hstep := (hn.queues hc).count_eq t
    simp only [Crowd.queued, List.flatMap_append, List.flatMap_singleton, List.count_append] at *
    omega
  · refine List.perm_iff_count.2 fun t => ?_
    have hold := h.held.count_eq t
    have hstep := hn.held.count_eq t
    have hcalls := count_calls ps qs [c] r Call.held t
    simp only [calls, List.flatMap_append, List.flatMap_singleton, List.count_append,
      List.singleton_append, count_threads ps qs cs r e Call.held fun _ => rfl] at *
    omega
  · have hold := h.pending
    have hstep := hn.pending hpos
    have hcalls := countP_calls ps qs [c] r Call.isPending
    simp only [calls, List.flatMap_append, List.flatMap_singleton, List.length_append,
      List.singleton_append, countP_threads ps qs cs r e Call.isPending fun _ => rfl] at *
    omega
  · have hold := h.spawned
    have hstep := hn.spawned
    have hcalls := countP_calls ps qs [c] r Call.isTally
    simp only [calls, List.flatMap_append, List.flatMap_singleton, List.length_append,
      List.singleton_append, countP_threads ps qs cs r e Call.isTally fun _ => rfl] at *
    omega
  · have hold := h.executed
    have hstep := hn.executed
    simp only [List.flatMap_append, List.flatMap_singleton, List.length_append] at *
    omega

theorem reach {n bound : Nat} (h : Reach n bound w) : w.Balanced := by
  induction h with
  | refl => exact start n bound
  | tail _ hs ih => exact ih.step hs

theorem nodup (h : w.Balanced) : (w.log.flatMap Event.accepted).Nodup := by
  rw [h.accepted]
  exact List.nodup_range

/-- Each accepted task is in a submission, in a queue, in the hands of a thread, or at its end. -/
theorem places (h : w.Balanced) :
    (w.calls.flatMap Call.submitted ++ w.queued ++ w.calls.flatMap Call.held ++
      w.log.flatMap Event.finished).Perm (w.log.flatMap Event.accepted) := by
  refine List.perm_iff_count.2 fun t => ?_
  have h1 := h.submitted.count_eq t
  have h2 := h.queued.count_eq t
  have h3 := h.held.count_eq t
  simp only [List.count_append] at h1 h2 h3 ⊢
  omega

/-- While no call has a task or is yet to count one, the counters agree with the queues. -/
theorem rest (h : w.Balanced) (hr : ∀ c ∈ w.calls, c.isBusy = false) (hq : w.queued = []) :
    w.hall.pool.pending = 0 ∧ w.hall.pool.executed = w.hall.pool.spawned := by
  have hqueued := h.queued.length_eq
  have hheld := h.held.length_eq
  have hpending := h.pending
  have hspawned := h.spawned
  have hexecuted := h.executed
  have hnone : w.calls.countP Call.isPending = 0 :=
    List.countP_eq_zero.2 fun c hc hp => by simpa [hr c hc] using Call.isBusy_of_isPending hp
  have htally : w.calls.countP Call.isTally = 0 :=
    List.countP_eq_zero.2 fun c hc ht => by simpa [hr c hc] using Call.isBusy_of_isTally ht
  have hfree : w.calls.flatMap Call.held = [] :=
    List.flatMap_eq_nil_iff.2 fun c hc => Call.held_eq_nil (hr c hc)
  rw [hq, List.append_nil] at hqueued
  rw [hfree, List.nil_append] at hheld
  omega

end Balanced

/-! ## No task is lost or run twice -/

/-- **No task is lost or run twice.** -/
structure Conserves (w : Crowd) : Prop where
  /-- No task is accepted twice. -/
  nodup : (w.log.flatMap Event.accepted).Nodup
  /-- Each accepted task is in one place: in a submission, in a queue, in the hands of a thread, or
  counted as executed. -/
  places : (w.calls.flatMap Call.submitted ++ w.queued ++ w.calls.flatMap Call.held ++
    w.log.flatMap Event.finished).Perm (w.log.flatMap Event.accepted)
  /-- The tasks in queues are pending. -/
  pending : w.queued.length ≤ w.hall.pool.pending
  /-- A task is pending when one is counted as begun. -/
  begins : ∀ t, .taken t ∈ w.calls → 0 < w.hall.pool.pending
  /-- Tasks that are counted as executed were put into a queue. -/
  executed : w.hall.pool.executed ≤ (w.log.flatMap Event.pushed).length
  /-- At rest no task is pending, and all submissions are executed. -/
  rest : (∀ c ∈ w.calls, c.isBusy = false) → w.queued = [] →
    w.hall.pool.pending = 0 ∧ w.hall.pool.executed = w.hall.pool.spawned

theorem conserves {n bound : Nat} {w : Crowd} (h : Reach n bound w) : w.Conserves := by
  have hb := Balanced.reach h
  have hqueued := hb.queued.length_eq
  have hheld := hb.held.length_eq
  have hpending := hb.pending
  have hspawned := hb.spawned
  have hexecuted := hb.executed
  simp only [List.length_append] at hqueued hheld
  exact ⟨hb.nodup, hb.places, by omega, fun t => hb.pending_pos, by omega, hb.rest⟩

/-- A task submits another one, which the other worker takes when it has ended its own. -/
theorem conserves_of_theft : ∃ w, Reach 1 2 w ∧ w.Conserves ∧ w.hall.pool.spawned = 3 ∧
    w.hall.pool.executed = 1 ∧ w.hall.pool.steals = 1 := by
  have h : Reach 1 2 (start 1 2) := .refl
  obtain ⟨es, hires, hensure⟩ :=
    solo_ensure (r := [.outside]) (n := 2) (s := (start 1 2).hall) rfl rfl
  have h := Reach.solo [] h (.step (.enter rfl rfl) hensure)
  simp only [List.flatMap_cons, hires] at h
  have h := Reach.solo [] h (.step (.enter (d := .submit) rfl rfl) (solo_submit rfl))
  have h := Reach.solo [] h (.step (.enter (d := .submit) rfl rfl) (solo_submit rfl))
  have h := Reach.solo [[.outside]] h (.step (.workTake rfl) (.one .begin))
  have h := Reach.solo [[.outside]] h (.step (.enter (d := .submit) rfl rfl) (solo_submit rfl))
  have h := Reach.solo [[.outside], [.running 0, .work 0]] h
    (.step (.workTake rfl) (.step .begin (.step .halt (.one .finish))))
  have h := Reach.solo [[.outside], [.running 0, .work 0]] h
    (.step (.workNone rfl) (.step .steal (.step (.stealTake (by decide) rfl)
      (.step .stolen (.one .begin)))))
  exact ⟨_, h, conserves h, rfl, rfl, rfl⟩

end Crowd

end MemoFlow.Pool
