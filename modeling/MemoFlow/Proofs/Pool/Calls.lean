import MemoFlow.Branch.Pool

/-!
# Calls to a pool, step by step

Many threads call a pool at once. A call goes step by step: each load and each change of a counter
is one, and so is each look into a queue. Other threads may make their steps in between, and a task
may make calls of its own while it runs.

* `Pool.Event`, `Pool.Hall`: what happens, and what the threads share;
* **`Pool.Call`**, **`Pool.Call.Next`**: where a call stands, and its next step;
* `Pool.Solo`: steps of one thread without those of others in between;
* **`Pool.solo_submit`**, `Pool.solo_assist`, **`Pool.solo_take`**, `Pool.solo_finish`,
  `Pool.solo_ensure`, `Pool.solo_close`: a call alone is the operation on the pool.
-/

namespace MemoFlow.Pool

/-! ## Calls -/

/-- What happens in a pool, to its tasks and its workers. -/
inductive Event where
  /-- A submission passes its check, with a new task. -/
  | accept (t : Nat)
  /-- A task is counted as pending, `late` when all workers have left. -/
  | count (t : Nat) (late : Bool)
  /-- A task is put into a queue. -/
  | push (t : Nat)
  /-- A task is taken out of a queue. -/
  | take (t : Nat)
  /-- A task has come to its end. -/
  | finish (t : Nat)
  /-- A call is refused. -/
  | refuse
  /-- A worker starts. -/
  | hire (i : Nat)
  /-- A worker leaves. -/
  | leave (i : Nat)
  /-- A shutdown has waited for all workers. -/
  | shut
  /-- Anything else. -/
  | other
deriving DecidableEq, Repr

/-- **Where a call stands**, by what is left of it. -/
inductive Call where
  /-- A thread that is not one of the workers, between its calls. -/
  | outside
  /-- A submission, before it reads the number of workers. -/
  | submit
  /-- It has read `a` workers, and is to ask whether the pool is closed. -/
  | submitCheck (a : Nat)
  /-- It has a task, and is to take its turn. -/
  | submitTurn (a t : Nat)
  /-- It has a queue, and is to count its task. -/
  | submitCount (i t : Nat)
  /-- It is to put its task into the queue. -/
  | submitPush (i t : Nat)
  /-- It is to count itself. -/
  | submitTally
  /-- It is to wake a worker. -/
  | submitWake
  /-- A helper, before it reads the number of workers. -/
  | assist
  /-- It is to look into the queue `i` of `a`. -/
  | assistScan (a i : Nat)
  /-- A task from another queue, before the theft is counted. -/
  | stolen (t : Nat)
  /-- A task that was taken, before it is counted as begun. -/
  | taken (t : Nat)
  /-- A task that runs. -/
  | running (t : Nat)
  /-- A task that came to its end, before it is counted. -/
  | ended (t : Nat)
  /-- The worker `i`, before it looks into its own queue. -/
  | work (i : Nat)
  /-- It has found nothing, and is to read the number of workers. -/
  | steal (i : Nat)
  /-- It is to look into the queue `k` places on, of `a`. -/
  | stealScan (i a k : Nat)
  /-- It has found nothing at all, and is to ask whether the pool is closed. -/
  | wait (i : Nat)
  /-- It is to ask whether a task is pending. -/
  | waitPending (i : Nat)
  /-- It sleeps. -/
  | asleep (i : Nat)
  /-- It need not wait, and is to ask again whether the pool is closed. -/
  | leave (i : Nat)
  /-- It is closed, and the worker is to ask whether a task is pending. -/
  | leavePending (i : Nat)
  /-- A call for `n` workers, before the lock. -/
  | ensure (n : Nat)
  /-- It is to ask whether the pool is closed. -/
  | ensureCheck (n : Nat)
  /-- It is to read the number of workers. -/
  | ensureActive (n : Nat)
  /-- It has read or made `a` workers. -/
  | grow (n a : Nat)
  /-- It has started the worker `a`, and is to count it. -/
  | grown (n a : Nat)
  /-- A shutdown, before the lock. -/
  | close
  /-- It is to close the pool. -/
  | closeStore
  /-- It is to ask how many tasks are pending, for its note. -/
  | closePending
  /-- It is to wake the workers. -/
  | closeWake
  /-- It is to read the number of workers. -/
  | closeActive
  /-- It waits for the worker `i` of `a`. -/
  | closeJoin (a i : Nat)
  /-- Before the lock is given back. -/
  | unlock
deriving DecidableEq, Repr

namespace Call

/-- Whether calls can be made from here. -/
def isCaller : Call → Bool
  | .outside | .running _ => true
  | _ => false

/-- Whether this is a call that a caller can make at any time. -/
def isRequest : Call → Bool
  | .submit | .assist | .ensure _ => true
  | _ => false

end Call

/-- **What the threads share.** -/
structure Hall where
  /-- The pool. -/
  pool : Pool Nat
  /-- Whether a call for workers or a shutdown has the lock. -/
  locked : Bool := false
  /-- The workers that have left. -/
  left : List Nat := []
  /-- The number of tasks that were accepted, which is the next task. -/
  accepted : Nat := 0

/-- Run at least `n` workers. -/
def raise (p : Pool Nat) (n : Nat) : Pool Nat :=
  { p with queues := p.queues ++ List.replicate (n - p.active) [] }

namespace Hall

/-- Put a pool in the place of the one that is shared. -/
def put (s : Hall) (p : Pool Nat) : Hall := { s with pool := p }

@[simp] theorem put_pool (s : Hall) (p : Pool Nat) : (s.put p).pool = p := rfl

@[simp] theorem put_locked (s : Hall) (p : Pool Nat) : (s.put p).locked = s.locked := rfl

@[simp] theorem put_left (s : Hall) (p : Pool Nat) : (s.put p).left = s.left := rfl

@[simp] theorem put_accepted (s : Hall) (p : Pool Nat) : (s.put p).accepted = s.accepted := rfl

/-- Whether all workers have left. -/
def isEmpty (s : Hall) : Bool := (List.range s.pool.active).all fun i => decide (i ∈ s.left)

end Hall

/-- **The next step of a call**: what happens, and the calls that stand in its place, the innermost
one first. A sleeping worker may wake at any time. -/
inductive Call.Next : Call → Hall → Event → List Call → Hall → Prop where
  | enter {c d : Call} {s : Hall} (hc : c.isCaller = true) (hd : d.isRequest = true) :
    Next c s .other [d, c] s
  | enterClose {s : Hall} : Next .outside s .other [.close, .outside] s
  -- Submissions.
  | submit {s : Hall} : Next .submit s .other [.submitCheck s.pool.active] s
  | refuse {s : Hall} {a : Nat} (h : a = 0 ∨ s.pool.closed = true) :
    Next (.submitCheck a) s .refuse [] s
  | accept {s : Hall} {a : Nat} (ha : a ≠ 0) (hc : s.pool.closed = false) :
    Next (.submitCheck a) s (.accept s.accepted) [.submitTurn a s.accepted]
      { s with accepted := s.accepted + 1 }
  | turn {s : Hall} {a t : Nat} : Next (.submitTurn a t) s .other [.submitCount (s.pool.turn % a) t]
      (s.put { s.pool with turn := s.pool.turn + 1 })
  | count {s : Hall} {i t : Nat} : Next (.submitCount i t) s (.count t s.isEmpty) [.submitPush i t]
      (s.put { s.pool with pending := s.pool.pending + 1 })
  | push {s : Hall} {i t : Nat} : Next (.submitPush i t) s (.push t) [.submitTally]
      (s.put (s.pool.push i t))
  | tally {s : Hall} : Next .submitTally s .other [.submitWake]
      (s.put { s.pool with spawned := s.pool.spawned + 1 })
  | wakeOne {s : Hall} : Next .submitWake s .other [] s
  -- Helpers.
  | assist {s : Hall} : Next .assist s .other [.assistScan s.pool.active 0] s
  | assistTake {s : Hall} {a i t : Nat} {p : Pool Nat} (hi : i < a)
    (hp : s.pool.popNewest i = some (t, p)) :
    Next (.assistScan a i) s (.take t) [.taken t] (s.put p)
  | assistNext {s : Hall} {a i : Nat} (hi : i < a) (hp : s.pool.popNewest i = none) :
    Next (.assistScan a i) s .other [.assistScan a (i + 1)] s
  | assistNone {s : Hall} {a i : Nat} (hi : a ≤ i) : Next (.assistScan a i) s .other [] s
  -- Tasks.
  | stolen {s : Hall} {t : Nat} : Next (.stolen t) s .other [.taken t]
      (s.put { s.pool with steals := s.pool.steals + 1 })
  | begin {s : Hall} {t : Nat} : Next (.taken t) s .other [.running t]
      (s.put { s.pool with pending := s.pool.pending - 1 })
  | halt {s : Hall} {t : Nat} : Next (.running t) s .other [.ended t] s
  | finish {s : Hall} {t : Nat} : Next (.ended t) s (.finish t) [] (s.put s.pool.finish)
  -- Workers.
  | workTake {s : Hall} {i t : Nat} {p : Pool Nat} (hp : s.pool.popNewest i = some (t, p)) :
    Next (.work i) s (.take t) [.taken t, .work i] (s.put p)
  | workNone {s : Hall} {i : Nat} (hp : s.pool.popNewest i = none) :
    Next (.work i) s .other [.steal i] s
  | steal {s : Hall} {i : Nat} : Next (.steal i) s .other [.stealScan i s.pool.active 1] s
  | stealTake {s : Hall} {i a k t : Nat} {p : Pool Nat} (hk : k < a)
    (hp : s.pool.popOldest ((i + k) % a) = some (t, p)) :
    Next (.stealScan i a k) s (.take t) [.stolen t, .work i] (s.put p)
  | stealNext {s : Hall} {i a k : Nat} (hk : k < a) (hp : s.pool.popOldest ((i + k) % a) = none) :
    Next (.stealScan i a k) s .other [.stealScan i a (k + 1)] s
  | stealNone {s : Hall} {i a k : Nat} (hk : a ≤ k) : Next (.stealScan i a k) s .other [.wait i] s
  | waitClosed {s : Hall} {i : Nat} (hc : s.pool.closed = true) :
    Next (.wait i) s .other [.leave i] s
  | waitOpen {s : Hall} {i : Nat} (hc : s.pool.closed = false) :
    Next (.wait i) s .other [.waitPending i] s
  | waitSome {s : Hall} {i : Nat} (hp : s.pool.pending ≠ 0) :
    Next (.waitPending i) s .other [.leave i] s
  | waitNone {s : Hall} {i : Nat} (hp : s.pool.pending = 0) :
    Next (.waitPending i) s .other [.asleep i] s
  | wake {s : Hall} {i : Nat} : Next (.asleep i) s .other [.wait i] s
  | leaveOpen {s : Hall} {i : Nat} (hc : s.pool.closed = false) :
    Next (.leave i) s .other [.work i] s
  | leaveClosed {s : Hall} {i : Nat} (hc : s.pool.closed = true) :
    Next (.leave i) s .other [.leavePending i] s
  | leaveSome {s : Hall} {i : Nat} (hp : s.pool.pending ≠ 0) :
    Next (.leavePending i) s .other [.work i] s
  | leaveNone {s : Hall} {i : Nat} (hp : s.pool.pending = 0) :
    Next (.leavePending i) s (.leave i) [] { s with left := i :: s.left }
  -- Growth.
  | ensureBound {s : Hall} {n : Nat} (hn : s.pool.bound < n) : Next (.ensure n) s .refuse [] s
  | ensure {s : Hall} {n : Nat} (hn : n ≤ s.pool.bound) (hl : s.locked = false) :
    Next (.ensure n) s .other [.ensureCheck n] { s with locked := true }
  | ensureClosed {s : Hall} {n : Nat} (hc : s.pool.closed = true) :
    Next (.ensureCheck n) s .refuse [.unlock] s
  | ensureOpen {s : Hall} {n : Nat} (hc : s.pool.closed = false) :
    Next (.ensureCheck n) s .other [.ensureActive n] s
  | ensureActive {s : Hall} {n : Nat} : Next (.ensureActive n) s .other [.grow n s.pool.active] s
  | hire {s : Hall} {n a : Nat} (ha : a < n) : Next (.grow n a) s (.hire a) [.grown n a] s
  | hireFail {s : Hall} {n a : Nat} (ha : a < n) : Next (.grow n a) s .refuse [.unlock] s
  | growDone {s : Hall} {n a : Nat} (ha : n ≤ a) : Next (.grow n a) s .other [.unlock] s
  | grown {s : Hall} {n a : Nat} : Next (.grown n a) s .other [.grow n (a + 1)]
      (s.put (s.pool.raise (a + 1)))
  -- Shutdown.
  | close {s : Hall} (hl : s.locked = false) :
    Next .close s .other [.closeStore] { s with locked := true }
  | closeAgain {s : Hall} (hc : s.pool.closed = true) : Next .closeStore s .other [.unlock] s
  | closeStore {s : Hall} (hc : s.pool.closed = false) :
    Next .closeStore s .other [.closePending] (s.put { s.pool with closed := true })
  | closePending {s : Hall} : Next .closePending s .other [.closeWake] s
  | closeWake {s : Hall} : Next .closeWake s .other [.closeActive] s
  | closeActive {s : Hall} : Next .closeActive s .other [.closeJoin s.pool.active 0] s
  | join {s : Hall} {a i : Nat} (hi : i < a) (hm : i ∈ s.left) :
    Next (.closeJoin a i) s .other [.closeJoin a (i + 1)] s
  | shut {s : Hall} {a i : Nat} (hi : a ≤ i) : Next (.closeJoin a i) s .shut [.unlock] s
  | unlock {s : Hall} : Next .unlock s .other [] { s with locked := false }

/-- The threads that start with an event. -/
def Event.hires : Event → List (List Call)
  | .hire i => [[.work i]]
  | _ => []

/-! ## A call alone -/

/-- **Steps of one thread**, without those of others in between. -/
inductive Solo : List Call → Hall → List Event → List Call → Hall → Prop where
  | rest (cs : List Call) (s : Hall) : Solo cs s [] cs s
  | step {c : Call} {r cs ds : List Call} {s s' s'' : Hall} {e : Event} {es : List Event}
    (h : Call.Next c s e cs s') (hs : Solo (cs ++ r) s' es ds s'') :
    Solo (c :: r) s (e :: es) ds s''

variable {s s' s'' : Hall} {c : Call} {r cs ds fs : List Call} {e : Event} {es es' : List Event}
  {t : Nat} {p : Pool Nat}

theorem Solo.trans (h : Solo cs s es ds s') (h' : Solo ds s' es' fs s'') :
    Solo cs s (es ++ es') fs s'' := by
  induction h with
  | rest => exact h'
  | step hn _ ih => exact .step hn (ih h')

theorem Solo.one (h : Call.Next c s e cs s') : Solo (c :: r) s [e] (cs ++ r) s' :=
  .step h (.rest _ _)

/-- **Submitting a task.** -/
theorem solo_submit {q : Pool Nat} (h : s.pool.submit s.accepted = .ok q) :
    Solo (.submit :: r) s [.other, .accept s.accepted, .other, .count s.accepted s.isEmpty,
      .push s.accepted, .other, .other] r { s with pool := q, accepted := s.accepted + 1 } := by
  unfold Pool.submit at h
  split at h
  · simp at h
  · next hopen =>
    rw [not_or, Bool.not_eq_true] at hopen
    obtain rfl := Except.ok.inj h
    refine .step .submit (.step (.accept hopen.1 hopen.2) (.step .turn ?_))
    refine .step .count (.step .push (.step .tally ?_))
    exact .one .wakeOne

/-- A submission that is refused changes nothing. -/
theorem solo_submit_error {x : Thrown} (h : s.pool.submit s.accepted = .error x) :
    Solo (.submit :: r) s [.other, .refuse] r s := by
  unfold Pool.submit at h
  split at h
  · next hclosed => exact .step .submit (.one (.refuse hclosed))
  · simp at h

/-- **Looking into places one after the other**, from the place `i` up to `a`: what is found first
is taken. -/
theorem solo_scan {f : Nat → Option (Nat × Pool Nat)} {a : Nat} (look : Nat → Call)
    (found : Nat → List Call) (none : List Call)
    (hfound : ∀ i t p, i < a → f i = some (t, p) →
      Call.Next (look i) s (.take t) (found t) (s.put p))
    (hnext : ∀ i, i < a → f i = .none → Call.Next (look i) s .other [look (i + 1)] s)
    (hnone : ∀ i, a ≤ i → Call.Next (look i) s .other none s) (i : Nat) :
    (∀ t p, (List.range' i (a - i)).findSome? f = some (t, p) →
        ∃ es, Solo (look i :: r) s es (found t ++ r) (s.put p)) ∧
      ((List.range' i (a - i)).findSome? f = .none →
        ∃ es, Solo (look i :: r) s es (none ++ r) s) := by
  generalize hn : a - i = n
  induction n generalizing i with
  | zero => exact ⟨by simp, fun _ => ⟨_, .one (hnone i (by omega))⟩⟩
  | succ n ih =>
    obtain ⟨ihfound, ihnone⟩ := ih (i + 1) (by omega)
    rw [List.range'_succ, List.findSome?_cons]
    cases hf : f i with
    | none =>
      have hstep := hnext i (by omega) hf
      constructor
      · intro t p hr
        obtain ⟨es, hes⟩ := ihfound t p hr
        exact ⟨_, .step hstep hes⟩
      · intro hr
        obtain ⟨es, hes⟩ := ihnone hr
        exact ⟨_, .step hstep hes⟩
    | some x =>
      refine ⟨fun t p hr => ?_, by simp⟩
      obtain rfl : x = (t, p) := by simpa using hr
      exact ⟨_, .one (hfound i t p (by omega) hf)⟩

/-- A helper looks into the queues. -/
theorem solo_assistScan (a i : Nat) :
    (∀ t p, (List.range' i (a - i)).findSome? s.pool.popNewest = some (t, p) →
        ∃ es, Solo (.assistScan a i :: r) s es (.taken t :: r) (s.put p)) ∧
      ((List.range' i (a - i)).findSome? s.pool.popNewest = none →
        ∃ es, Solo (.assistScan a i :: r) s es r s) :=
  solo_scan (.assistScan a) (fun t => [.taken t]) [] (fun _ _ _ hi hp => .assistTake hi hp)
    (fun _ hi hp => .assistNext hi hp) (fun _ hi => .assistNone hi) i

/-- **Helping**: the task that is taken is begun. -/
theorem solo_assist (h : s.pool.assist = some (t, p)) :
    ∃ es, Solo (.assist :: r) s es (.running t :: r) (s.put p) := by
  obtain ⟨⟨u, q⟩, hq, hb⟩ := Option.map_eq_some_iff.1 h
  obtain ⟨rfl, rfl⟩ := Prod.mk.inj hb
  rw [List.range_eq_range'] at hq
  obtain ⟨es, hes⟩ := (solo_assistScan (r := r) s.pool.active 0).1 u q hq
  exact ⟨_, .step .assist (hes.trans (.one .begin))⟩

/-- A helper that finds nothing changes nothing. -/
theorem solo_assist_none (h : s.pool.assist = none) : ∃ es, Solo (.assist :: r) s es r s := by
  have hq := Option.map_eq_none_iff.1 h
  rw [List.range_eq_range'] at hq
  obtain ⟨es, hes⟩ := (solo_assistScan (r := r) s.pool.active 0).2 hq
  exact ⟨_, .step .assist hes⟩

/-- The queues of the other workers, in the order of a theft. -/
theorem siblings_eq (p : Pool Nat) (i : Nat) :
    p.siblings i = (List.range' 1 (p.active - 1)).map fun k => (i + k) % p.active := by
  rw [siblings, List.range'_eq_map_range, List.map_map]
  exact List.map_congr_left fun k _ => by simp [Nat.add_comm]

/-- A worker looks into the queues of the others. -/
theorem solo_stealScan (i a k : Nat) :
    (∀ t p, (List.range' k (a - k)).findSome? (fun k => s.pool.popOldest ((i + k) % a)) =
        some (t, p) →
        ∃ es, Solo (.stealScan i a k :: r) s es (.stolen t :: .work i :: r) (s.put p)) ∧
      ((List.range' k (a - k)).findSome? (fun k => s.pool.popOldest ((i + k) % a)) = none →
        ∃ es, Solo (.stealScan i a k :: r) s es (.wait i :: r) s) :=
  solo_scan (.stealScan i a) (fun t => [.stolen t, .work i]) [.wait i]
    (fun _ _ _ hk hp => .stealTake hk hp) (fun _ hk hp => .stealNext hk hp)
    (fun _ hk => .stealNone hk) k

/-- **Taking a task**: a worker begins the task that it takes. -/
theorem solo_take {i : Nat} (h : s.pool.take i = some (t, p)) :
    ∃ es, Solo (.work i :: r) s es (.running t :: .work i :: r) (s.put p) := by
  obtain ⟨⟨u, q⟩, hq, hb⟩ := Option.map_eq_some_iff.1 h
  obtain ⟨rfl, rfl⟩ := Prod.mk.inj hb
  cases hown : s.pool.popNewest i with
  | some x =>
    obtain rfl : x = (u, q) := by simpa [hown] using hq
    exact ⟨_, .step (.workTake hown) (.one .begin)⟩
  | none =>
    rw [hown, Option.none_or] at hq
    obtain ⟨⟨v, w⟩, hw, hv⟩ := Option.map_eq_some_iff.1 hq
    obtain ⟨rfl, rfl⟩ := Prod.mk.inj hv
    rw [siblings_eq, List.findSome?_map] at hw
    obtain ⟨es, hes⟩ := (solo_stealScan (r := r) i s.pool.active 1).1 v w hw
    exact ⟨_, .step (.workNone hown) (.step .steal (hes.trans (.step .stolen (.one .begin))))⟩

/-- A worker that finds nothing is to wait. -/
theorem solo_take_none {i : Nat} (h : s.pool.take i = none) :
    ∃ es, Solo (.work i :: r) s es (.wait i :: r) s := by
  have hq := Option.map_eq_none_iff.1 h
  rw [Option.or_eq_none_iff] at hq
  have hw := Option.map_eq_none_iff.1 hq.2
  rw [siblings_eq, List.findSome?_map] at hw
  obtain ⟨es, hes⟩ := (solo_stealScan (r := r) i s.pool.active 1).2 hw
  exact ⟨_, .step (.workNone hq.1) (.step .steal hes)⟩

/-- The end of a task. -/
theorem solo_finish : Solo (.running t :: r) s [.other, .finish t] r (s.put s.pool.finish) :=
  .step .halt (.one .finish)

/-! ### Growth and shutdown -/

theorem raise_of_le (p : Pool Nat) {n : Nat} (hn : n ≤ p.active) : p.raise n = p := by
  simp [raise, Nat.sub_eq_zero_of_le hn]

theorem active_raise (p : Pool Nat) (n : Nat) : (p.raise n).active = max p.active n := by
  simp only [raise, active, List.length_append, List.length_replicate]
  omega

theorem raise_raise (p : Pool Nat) {m n : Nat} (hm : p.active ≤ m) (hn : m ≤ n) :
    (p.raise m).raise n = p.raise n := by
  have hcount : m - p.active + (n - (p.raise m).active) = n - p.active := by
    rw [active_raise]
    omega
  have hqueues : (p.raise m).queues ++ List.replicate (n - (p.raise m).active) [] =
      p.queues ++ List.replicate (n - p.active) [] := by
    show p.queues ++ List.replicate (m - p.active) [] ++ _ = _
    rw [List.append_assoc, List.replicate_append_replicate, hcount]
  rw [raise, hqueues]
  rfl

/-- The threads of the workers that a pool is short of. -/
def recruits (p : Pool Nat) (n : Nat) : List (List Call) :=
  (List.range' p.active (n - p.active)).map fun i => [.work i]

/-- Growing by one worker after the other. -/
theorem solo_grow (s : Hall) (n : Nat) : ∃ es, es.flatMap Event.hires = s.pool.recruits n ∧
    Solo (.grow n s.pool.active :: r) s es r { s.put (s.pool.raise n) with locked := false } := by
  generalize hk : n - s.pool.active = k
  induction k generalizing s with
  | zero =>
    rw [raise_of_le _ (by omega), recruits, hk]
    exact ⟨_, rfl, .step (.growDone (by omega)) (.one .unlock)⟩
  | succ k ih =>
    have hactive : (s.pool.raise (s.pool.active + 1)).active = s.pool.active + 1 := by
      rw [active_raise]
      omega
    obtain ⟨es, hires, hes⟩ := ih (s.put (s.pool.raise (s.pool.active + 1))) (by
      show n - (s.pool.raise (s.pool.active + 1)).active = k
      omega)
    change es.flatMap Event.hires = (s.pool.raise (s.pool.active + 1)).recruits n at hires
    change Solo (.grow n (s.pool.raise (s.pool.active + 1)).active :: r) _ es r
      { s.put ((s.pool.raise (s.pool.active + 1)).raise n) with locked := false } at hes
    have hrange : n - (s.pool.active + 1) = k := by omega
    rw [hactive, raise_raise _ (by omega) (by omega)] at hes
    rw [recruits, hactive, hrange] at hires
    refine ⟨_, ?_, .step (.hire (by omega)) (.step .grown hes)⟩
    rw [recruits, hk, List.range'_succ, List.map_cons, ← hires]
    rfl

/-- **A call for workers** that finds the lock free. -/
theorem solo_ensure {n : Nat} (hl : s.locked = false) (h : (s.pool.ensure n).value = .ok p) :
    ∃ es, es.flatMap Event.hires = s.pool.recruits n ∧ Solo (.ensure n :: r) s es r (s.put p) := by
  obtain ⟨q, locked, left, accepted⟩ := s
  obtain rfl : locked = false := hl
  unfold Pool.ensure at h
  split at h
  · simp at h
  · next hbound =>
    split at h
    · simp at h
    · next hopen =>
      rw [Bool.not_eq_true] at hopen
      obtain rfl := Except.ok.inj h
      obtain ⟨es, hires, hes⟩ := solo_grow (r := r) ⟨q, true, left, accepted⟩ n
      refine ⟨.other :: .other :: .other :: es, hires, ?_⟩
      exact .step (.ensure (Nat.not_lt.1 hbound) rfl) (.step (.ensureOpen hopen)
        (.step .ensureActive hes))

/-- A call for workers that is refused changes nothing. -/
theorem solo_ensure_error {n : Nat} {x : Thrown} (hl : s.locked = false)
    (h : (s.pool.ensure n).value = .error x) :
    ∃ es, .refuse ∈ es ∧ Solo (.ensure n :: r) s es r s := by
  obtain ⟨q, locked, left, accepted⟩ := s
  obtain rfl : locked = false := hl
  unfold Pool.ensure at h
  split at h
  · next hbound => exact ⟨[.refuse], by simp, .one (.ensureBound hbound)⟩
  · next hbound =>
    split at h
    · next hclosed =>
      refine ⟨[.other, .refuse, .other], by simp, ?_⟩
      exact .step (.ensure (Nat.not_lt.1 hbound) rfl) (.step (.ensureClosed hclosed) (.one .unlock))
    · simp at h

/-- **A shutdown** that finds the lock free closes the pool before it waits for the workers. -/
theorem solo_close (hl : s.locked = false) (hc : s.pool.closed = false) :
    Solo (.close :: r) s [.other, .other, .other, .other, .other]
      (.closeJoin s.pool.active 0 :: r) { s.put s.pool.close.value with locked := true } :=
  .step (.close hl) (.step (.closeStore hc) (.step .closePending (.step .closeWake
    (.one .closeActive))))

/-- Waiting for workers that have left. -/
theorem solo_join {a : Nat} (hleft : ∀ i, i < a → i ∈ s.left) (i : Nat) :
    ∃ es, .shut ∈ es ∧ Solo (.closeJoin a i :: r) s es r { s with locked := false } := by
  generalize hk : a - i = k
  induction k generalizing i with
  | zero => exact ⟨[.shut, .other], by simp, .step (.shut (by omega)) (.one .unlock)⟩
  | succ k ih =>
    obtain ⟨es, hshut, hes⟩ := ih (i + 1) (by omega)
    exact ⟨.other :: es, List.mem_cons_of_mem _ hshut,
      .step (.join (by omega) (hleft i (by omega))) hes⟩

/-- A second shutdown changes nothing. -/
theorem solo_close_again (hl : s.locked = false) (hc : s.pool.closed = true) :
    Solo (.close :: r) s [.other, .other, .other] r s := by
  obtain ⟨q, locked, left, accepted⟩ := s
  obtain rfl : locked = false := hl
  exact .step (.close rfl) (.step (.closeAgain hc) (.one .unlock))

end MemoFlow.Pool
