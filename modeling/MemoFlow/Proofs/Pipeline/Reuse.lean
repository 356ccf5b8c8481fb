import MemoFlow.Proofs.Pipeline.Perform

/-!
# Reuse of results

When a stage asks a request that was asked before, a run with reuse gives what that step gave. It
cannot be told from a run without reuse, whatever the cache and the clock, exactly when steps of one
request give the same, as long as no two requests share an identity.

* `Stage.Replies`: a stage whose body does nothing but give a result where it has a request;
* **`Step.Matches`**: a step gives what an earlier one of the same request gave;
* `Desk.Recalls`, `Desk.Recalls.perform`: every kept record was made by a step before;
* `Desk.Knows`, `Desk.Knows.perform`: without bounds, every step before has its record;
* **`Desk.Recalls.journal_eq_of_matches`**, **`Desk.Knows.matches_of_journal_eq`**: when reuse
  cannot be seen.
-/

namespace MemoFlow

variable {ω : Type}

/-! ## Steps and their requests -/

namespace Step

variable {m : Type → Type} [Monad m]

/-- The step asks a request. -/
def Asks (x : Step m) (q : Request) : Prop := x.stage.Asks x.env (some q)

/-- The second step gives what the first one gave when they ask one request. -/
def Matches (x y : Step m) : Prop :=
  ∀ q c, x.Asks q → y.Asks q → x.outcome = .ok c → y.outcome = .ok c

/-- Requests of steps are the same when they have one identity. -/
def Distinct (xs : List (Step m)) : Prop :=
  ∀ x ∈ xs, ∀ y ∈ xs, ∀ q r, x.Asks q → y.Asks r → q.key = r.key → q = r

theorem Distinct.mono {xs ys : List (Step m)} (h : Distinct ys) (hs : ∀ x ∈ xs, x ∈ ys) :
    Distinct xs := fun x hx y hy => h x (hs x hx) y (hs y hy)

end Step

/-- **A stage replies to its requests**: when it can be reused it has a request, or none, on all
bindings, and where it has one its body does nothing but give a result. -/
structure Stage.Replies {m : Type → Type} [Monad m] (s : Stage m) : Prop where
  asks : s.isReusable → ∀ env, ∃ r, s.Asks env r
  gives : ∀ env q, s.Asks env (some q) → ∃ c, s.fresh env = pure c

/-- The step of a stage on bindings. -/
def Stage.step (s : Stage (StateM ω)) (env : Environment) (w : ω) : Step (StateM ω) :=
  ⟨s, env, (s.fresh env w).1⟩

theorem Stage.Replies.world_eq {s : Stage (StateM ω)} (h : s.Replies) {env : Environment}
    {q : Request} (hq : s.Asks env (some q)) (w : ω) : (s.fresh env w).2 = w := by
  obtain ⟨c, hc⟩ := h.gives env q hq
  rw [hc]
  rfl

namespace Desk

variable {s : Stage (StateM ω)} {env : Environment} {d : Desk ω} {o : CacheOptions}
  {g : Computation → UInt64} {xs : List (Step (StateM ω))}

/-! ## Every kept record was made before -/

/-- **A cache recalls steps**: all that it keeps was given by one of them, under the identity of its
request. -/
def Recalls (c : Cache Computation) (o : CacheOptions) (g : Computation → UInt64)
    (xs : List (Step (StateM ω))) : Prop :=
  ∃ l, c.Holds o g l ∧
    ∀ p ∈ l, ∃ x ∈ xs, ∃ q, x.Asks q ∧ q.key = p.1 ∧ x.outcome = .ok p.2.value

theorem Recalls.new (o : CacheOptions) (g : Computation → UInt64) :
    Recalls (ω := ω) (Cache.new o g) o g [] := ⟨[], .new o g, by simp⟩

theorem Recalls.append (h : Recalls d.cache o g xs) (ys : List (Step (StateM ω))) :
    Recalls d.cache o g (xs ++ ys) := by
  obtain ⟨l, hl, hp⟩ := h
  refine ⟨l, hl, fun p hm => ?_⟩
  obtain ⟨x, hx, hq⟩ := hp p hm
  exact ⟨x, List.mem_append_left _ hx, hq⟩

/-- **One stage with reuse**: it gives what its body gives, and the cache recalls this step, too. -/
theorem Recalls.perform (h : Recalls d.cache o g xs) (hs : s.Replies)
    (hd : Step.Distinct (xs ++ [s.step env d.world]))
    (ha : ∀ x ∈ xs, x.Matches (s.step env d.world)) :
    ((host true).perform s.onDesk env d).1.map Prod.fst = (s.fresh env d.world).1 ∧
      ((host true).perform s.onDesk env d).2.world = (s.fresh env d.world).2 ∧
      Recalls ((host true).perform s.onDesk env d).2.cache o g (xs ++ [s.step env d.world]) := by
  cases hr : s.isReusable with
  | false =>
    obtain ⟨h1, h2, h3⟩ := perform_of_plain (a := true) env d hr
    rw [h1, h2, h3, map_fst_unmarked]
    exact ⟨rfl, rfl, h.append _⟩
  | true =>
    obtain ⟨r, hq⟩ := hs.asks hr env
    obtain ⟨k, hk, hc, hkey⟩ := Stage.key_of_asks hq
    obtain ⟨l, hl, hp⟩ := h
    obtain ⟨l', hl', hsub, hfound⟩ := hl.get (d.clock 0) k
    cases hg : (d.cache.get (d.clock 0) k).value.1 with
    | some c =>
      obtain ⟨hkc, e, hm, rfl⟩ := hfound c hg
      obtain ⟨q, rfl⟩ := Option.isSome_iff_exists.1 (hc.symm.trans hkc)
      obtain ⟨x, hxm, q', hxq, hq', hxo⟩ := hp _ hm
      have hy : s.step env d.world ∈ xs ++ [s.step env d.world] := by simp
      have hqq : q' = q :=
        hd x (List.mem_append_left _ hxm) _ hy q' q hxq hq (hq'.trans (hkey q rfl).symm)
      subst hqq
      have ho : (s.fresh env d.world).1 = .ok e.value := ha x hxm q' e.value hxq hq hxo
      rw [perform_of_hit hr hk hg, hs.world_eq hq, ho]
      exact ⟨rfl, rfl, Recalls.append ⟨l', hl', fun p hm => hp p (hsub p hm)⟩ _⟩
    | none =>
      obtain ⟨h1, h2, h3⟩ := perform_of_miss hr hk hg
      rw [h1, h2, h3, map_fst_unmarked]
      obtain ⟨l₂, hl₂, hp₂⟩ := holds_keptIn hl' (d.clock 1) k (s.fresh env d.world).1
      refine ⟨rfl, rfl, l₂, hl₂, fun p hm => ?_⟩
      rcases hp₂ p hm with hm | ⟨hkc, rfl, hf⟩
      · obtain ⟨x, hxm, hx⟩ := hp p (hsub p hm)
        exact ⟨x, List.mem_append_left _ hxm, hx⟩
      · obtain ⟨q, rfl⟩ := Option.isSome_iff_exists.1 (hc.symm.trans hkc)
        exact ⟨_, List.mem_append_right _ (List.mem_singleton_self _), q, hq, hkey q rfl, hf⟩

end Desk

/-! ## Runs -/

namespace Stage

variable {s : Stage (StateM ω)} {rest : List (Stage (StateM ω))} {env : Environment} {w w₁ : ω}

theorem course_of_error {t : Thrown} (h : s.fresh env w = (.error t, w₁)) :
    course (s :: rest) env w = ([s.step env w], w₁) := by
  rw [course, Desk.bind_of_eq h, step, h]
  rfl

theorem course_of_ok {c : Computation} (h : s.fresh env w = (.ok c, w₁)) :
    course (s :: rest) env w =
      (s.step env w :: (course rest (env.overlay c.bindings) w₁).1,
        (course rest (env.overlay c.bindings) w₁).2) := by
  rw [course, Desk.bind_of_eq h, step, h]
  rfl

theorem step_mem_course : s.step env w ∈ (course (s :: rest) env w).1 := by
  rcases h : s.fresh env w with ⟨t | c, w₁⟩
  · rw [course_of_error h]
    exact List.mem_singleton_self _
  · rw [course_of_ok h]
    exact List.mem_cons_self

end Stage

namespace Desk

variable {d : Desk ω} {o : CacheOptions} {g : Computation → UInt64} {xs : List (Step (StateM ω))}

/-- **Runs with reuse**: every stage gives what its body gives, and the cache recalls all steps. -/
theorem Recalls.outcomes (ss : List (Stage (StateM ω))) (env : Environment)
    (h : Recalls d.cache o g xs) (hs : ∀ s ∈ ss, s.Replies)
    (hd : Step.Distinct (xs ++ (Stage.course ss env d.world).1))
    (ha : (xs ++ (Stage.course ss env d.world).1).Pairwise Step.Matches) :
    ((host true).outcomes (ss.map Stage.onDesk) env d).1 =
        (Stage.course ss env d.world).1.map Step.outcome ∧
      ((host true).outcomes (ss.map Stage.onDesk) env d).2.world =
        (Stage.course ss env d.world).2 ∧
      Recalls ((host true).outcomes (ss.map Stage.onDesk) env d).2.cache o g
        (xs ++ (Stage.course ss env d.world).1) := by
  induction ss generalizing env d xs with
  | nil => exact ⟨rfl, rfl, h.append []⟩
  | cons s rest ih =>
    have hy : s.step env d.world ∈ (Stage.course (s :: rest) env d.world).1 :=
      Stage.step_mem_course
    have hs0 := hs s List.mem_cons_self
    have hsub : ∀ x ∈ xs ++ [s.step env d.world],
        x ∈ xs ++ (Stage.course (s :: rest) env d.world).1 := fun x hm =>
      (List.mem_append.1 hm).elim (List.mem_append_left _) fun hm =>
        List.mem_append_right _ (List.mem_singleton.1 hm ▸ hy)
    obtain ⟨h1, h2, h3⟩ := h.perform hs0 (hd.mono hsub) fun x hx =>
      (List.pairwise_append.1 ha).2.2 x hx _ hy
    rcases hf : s.fresh env d.world with ⟨t | c, w₁⟩
    · rw [hf] at h1 h2
      rw [Stage.course_of_error hf, List.map_cons, outcomes_of_error (perform_eq_error h1)]
      exact ⟨by rw [Stage.step, hf]; rfl, h2, h3⟩
    · rw [hf] at h1 h2
      obtain ⟨b, hp⟩ := perform_eq_ok h1
      rw [Stage.course_of_ok hf, List.append_cons] at hd ha ⊢
      rw [List.map_cons, outcomes_of_ok hp]
      have hi := ih (env.overlay c.bindings) h3 fun s hm => hs s (List.mem_cons_of_mem _ hm)
      rw [h2] at hi
      obtain ⟨i1, i2, i3⟩ := hi hd ha
      refine ⟨?_, i2, i3⟩
      rw [i1, List.map_cons, Stage.step, hf]

/-- Runs without reuse: every stage gives what its body gives. -/
theorem outcomes_false (ss : List (Stage (StateM ω))) (env : Environment) (d : Desk ω) :
    ((host false).outcomes (ss.map Stage.onDesk) env d).1 =
        (Stage.course ss env d.world).1.map Step.outcome ∧
      ((host false).outcomes (ss.map Stage.onDesk) env d).2.world =
        (Stage.course ss env d.world).2 := by
  induction ss generalizing env d with
  | nil => exact ⟨rfl, rfl⟩
  | cons s rest ih =>
    obtain ⟨h1, h2, -⟩ := perform_of_plain (a := false) (s := s) env d rfl
    have h1 := (congrArg (Except.map Prod.fst) h1).trans (map_fst_unmarked _)
    rcases hf : s.fresh env d.world with ⟨t | c, w₁⟩
    · rw [hf] at h1 h2
      rw [Stage.course_of_error hf, List.map_cons, outcomes_of_error (perform_eq_error h1)]
      exact ⟨by rw [Stage.step, hf]; rfl, h2⟩
    · rw [hf] at h1 h2
      obtain ⟨b, hp⟩ := perform_eq_ok h1
      rw [Stage.course_of_ok hf, List.map_cons, outcomes_of_ok hp]
      have hi := ih (env.overlay c.bindings) ((host false).perform s.onDesk env d).2
      rw [h2] at hi
      refine ⟨?_, hi.2⟩
      rw [hi.1, List.map_cons, Stage.step, hf]

/-- **When all steps match, reuse cannot be seen.** -/
theorem Recalls.journal_eq_of_matches (ps : List (PipelineCall ω)) {d' : Desk ω}
    (h : Recalls d.cache o g xs) (hw : d'.world = d.world)
    (hs : ∀ p ∈ ps, ∀ s ∈ p.stages, s.Replies)
    (hd : Step.Distinct (xs ++ PipelineCall.courses ps d.world))
    (ha : (xs ++ PipelineCall.courses ps d.world).Pairwise Step.Matches) :
    journal true ps d = journal false ps d' := by
  induction ps generalizing d d' xs with
  | nil => rfl
  | cons p rest ih =>
    have hp := hs p List.mem_cons_self
    rw [PipelineCall.courses, ← List.append_assoc] at hd ha
    obtain ⟨h1, h2, h3⟩ := h.outcomes p.stages p.env hp
      (hd.mono fun x => List.mem_append_left _) (List.pairwise_append.1 ha).1
    obtain ⟨f1, f2⟩ := outcomes_false p.stages p.env d'
    rw [hw] at f1 f2
    have ho := h1.trans f1.symm
    obtain ⟨r1, r2⟩ := run_congr ho
    rw [journal, journal]
    simp only [run_snd]
    rw [r1, r2, ho]
    refine congrArg _ (ih h3 ?_ (fun p hm => hs p (List.mem_cons_of_mem _ hm)) ?_ ?_)
    · rw [h2, f2]
    · rw [h2]
      exact hd
    · rw [h2]
      exact ha

/-! ## Without bounds, every record is kept -/

/-- What each of the steps gave is in the slots, under the identity of its request. -/
def Filed (xs : List (Step (StateM ω))) (l : List (Slot Computation)) : Prop :=
  ∀ x ∈ xs, ∀ q r, x.Asks q → x.outcome = .ok r → ∃ e, (q.key, e) ∈ l ∧ e.value = r

/-- **A cache without bounds knows steps**: it keeps what each of them gave. -/
def Knows (c : Cache Computation) (g : Computation → UInt64) (xs : List (Step (StateM ω))) : Prop :=
  ∃ l, c.Holds .unbounded g l ∧ (∀ p ∈ l, Slot.Lasts p) ∧ Filed xs l

theorem Knows.new (g : Computation → UInt64) : Knows (ω := ω) (Cache.new .unbounded g) g [] :=
  ⟨[], .new _ g, by simp, by simp [Filed]⟩

theorem key_eq_of_asks {s : Stage (StateM ω)} {env : Environment} {q q' : Request} (w : ω)
    (h : s.Asks env (some q)) (h' : s.Asks env (some q')) : q.key = q'.key := by
  have hk := congrArg (fun x => (x w).1)
    ((Stage.key_of_asked h).1.symm.trans (Stage.key_of_asked h').1)
  exact Except.ok.inj hk

variable {s : Stage (StateM ω)} {env : Environment}

/-- A stage without a request changes nothing in the cache. -/
theorem Knows.perform_of_silent (h : Knows d.cache g xs) (hs : s.Replies)
    (hn : ∀ q, ¬ s.Asks env (some q)) :
    (∀ x ∈ xs, x.Matches (s.step env d.world)) ∧
      ((host true).perform s.onDesk env d).2.world = (s.fresh env d.world).2 ∧
      Knows ((host true).perform s.onDesk env d).2.cache g (xs ++ [s.step env d.world]) := by
  have hk : ∀ {c}, Knows c g xs → Knows c g (xs ++ [s.step env d.world]) := by
    rintro c ⟨l, hl, hd, hx⟩
    refine ⟨l, hl, hd, fun x hm q r hq => ?_⟩
    rcases List.mem_append.1 hm with hm | hm
    · exact hx x hm q r hq
    · rw [List.mem_singleton.1 hm] at hq
      exact absurd hq (hn q)
  refine ⟨fun x _ q c _ hq => absurd hq (hn q), ?_⟩
  cases hr : s.isReusable with
  | false =>
    obtain ⟨-, h2, h3⟩ := perform_of_plain (a := true) env d hr
    rw [h3]
    exact ⟨h2, hk h⟩
  | true =>
    obtain ⟨r, hq⟩ := hs.asks hr env
    obtain rfl : r = none := Option.eq_none_iff_forall_ne_some.2 fun q he => hn q (he ▸ hq)
    obtain ⟨k, hkey, hc, -⟩ := Stage.key_of_asks hq
    obtain ⟨l, hl, hd, hx⟩ := h
    obtain ⟨hg, hl'⟩ := hl.get_of_not_cacheable (d.clock 0) hc
    obtain ⟨-, h2, h3⟩ := perform_of_miss hr hkey hg
    have hkept : ∀ x, keptIn (d.looked k).cache (d.clock 1) k x = (d.looked k).cache := fun x => by
      cases x with
      | error t => rfl
      | ok r => rw [keptIn, hc]; rfl
    rw [h3, hkept]
    exact ⟨h2, hk ⟨l, hl', hd, hx⟩⟩

/-- A record that is used again is that of every step before with this request. -/
theorem Knows.perform_of_found {l : List (Slot Computation)} {q : Request}
    {e : CacheEntry Computation} (hl : d.cache.Holds .unbounded g l) (hd : ∀ p ∈ l, Slot.Lasts p)
    (hxl : Filed xs l) (hs : s.Replies) (hq : s.Asks env (some q)) (hm : (q.key, e) ∈ l)
    (hp : ((host true).perform s.onDesk env d).1.map Prod.fst = (s.fresh env d.world).1) :
    (∀ x ∈ xs, x.Matches (s.step env d.world)) ∧
      ((host true).perform s.onDesk env d).2.world = (s.fresh env d.world).2 ∧
      Knows ((host true).perform s.onDesk env d).2.cache g (xs ++ [s.step env d.world]) := by
  have hkey : ∀ q', s.Asks env (some q') → q'.key = q.key := fun q' hq' =>
    key_eq_of_asks d.world hq' hq
  obtain ⟨hk, hc⟩ := Stage.key_of_asked hq
  have hr := Stage.isReusable_of_asks hq
  obtain ⟨hg, l', hl', hiff⟩ := hl.get_unbounded hd (d.clock 0) hc
  rw [hl.lookup_eq_some_iff.2 hm] at hg
  have hhit := perform_of_hit hr hk hg
  have hf : (s.fresh env d.world).1 = .ok e.value := by
    rw [← hp, hhit]
    rfl
  rw [hhit, hs.world_eq hq]
  refine ⟨fun x hxm q' c hxq hyq ho => ?_, rfl, l', hl', fun p hp => hd p ((hiff p).1 hp),
    fun x hxm q' r hxq ho => ?_⟩
  · obtain ⟨e', hm', rfl⟩ := hxl x hxm q' c hxq ho
    rw [hkey q' hyq] at hm'
    obtain rfl : e' = e := Option.some.inj
      ((hl.lookup_eq_some_iff.2 hm').symm.trans (hl.lookup_eq_some_iff.2 hm))
    exact hf
  · rcases List.mem_append.1 hxm with hxm | hxm
    · obtain ⟨e', hm', hv⟩ := hxl x hxm q' r hxq ho
      exact ⟨e', (hiff _).2 hm', hv⟩
    · rw [List.mem_singleton.1 hxm] at hxq ho
      rw [hkey q' hxq]
      exact ⟨e, (hiff _).2 hm, Except.ok.inj (hf.symm.trans ho)⟩

/-- Where no record is kept, no step before gave anything for this request. -/
theorem Knows.perform_of_absent {l : List (Slot Computation)} {q : Request}
    (hl : d.cache.Holds .unbounded g l) (hd : ∀ p ∈ l, Slot.Lasts p)
    (hxl : Filed xs l) (hq : s.Asks env (some q)) (hm : ∀ e, (q.key, e) ∉ l) :
    (∀ x ∈ xs, x.Matches (s.step env d.world)) ∧
      ((host true).perform s.onDesk env d).2.world = (s.fresh env d.world).2 ∧
      Knows ((host true).perform s.onDesk env d).2.cache g (xs ++ [s.step env d.world]) := by
  have hkey : ∀ q', s.Asks env (some q') → q'.key = q.key := fun q' hq' =>
    key_eq_of_asks d.world hq' hq
  obtain ⟨hk, hc⟩ := Stage.key_of_asked hq
  obtain ⟨hg, l', hl', hiff⟩ := hl.get_unbounded hd (d.clock 0) hc
  have he : l.lookup q.key = none :=
    Option.eq_none_iff_forall_ne_some.2 fun e he => hm e (hl.lookup_eq_some_iff.1 he)
  rw [he] at hg
  obtain ⟨-, h2, h3⟩ := perform_of_miss (Stage.isReusable_of_asks hq) hk hg
  have hd' : ∀ p ∈ l', Slot.Lasts p := fun p hp => hd p ((hiff p).1 hp)
  refine ⟨fun x hxm q' c hxq hyq ho => ?_, h2, ?_⟩
  · obtain ⟨e, hm', -⟩ := hxl x hxm q' c hxq ho
    exact absurd (hkey q' hyq ▸ hm') (hm e)
  · rw [h3]
    cases hf : (s.fresh env d.world).1 with
    | error t =>
      refine ⟨l', hl', hd', fun x hxm q' r hxq ho => ?_⟩
      rcases List.mem_append.1 hxm with hxm | hxm
      · obtain ⟨e, hm', hv⟩ := hxl x hxm q' r hxq ho
        exact ⟨e, (hiff _).2 hm', hv⟩
      · rw [List.mem_singleton.1 hxm, Stage.step, hf] at ho
        cases ho
    | ok c =>
      obtain ⟨e, rfl, hlast, -, hh⟩ := Cache.Holds.put_unbounded hl' hd' (d.clock 1) hc c
      rw [keptIn, if_pos hc]
      refine ⟨_, hh, ?_, fun x hxm q' r hxq ho => ?_⟩
      · exact List.forall_mem_cons.2 ⟨hlast, fun p hp => hd' p (Cache.mem_without.1 hp).1⟩
      · rcases List.mem_append.1 hxm with hxm | hxm
        · obtain ⟨e', hm', hv⟩ := hxl x hxm q' r hxq ho
          have hne : q'.key ≠ q.key := fun hk => hm e' (hk ▸ hm')
          exact ⟨e', List.mem_cons_of_mem _ (Cache.mem_without.2 ⟨(hiff _).2 hm', hne⟩), hv⟩
        · rw [List.mem_singleton.1 hxm] at hxq ho
          rw [hkey q' hxq]
          exact ⟨e, List.mem_cons_self, Except.ok.inj (hf.symm.trans ho)⟩

/-- **One stage with reuse and without bounds**: when it gives what its body gives, its step matches
all steps before it. -/
theorem Knows.perform (h : Knows d.cache g xs) (hs : s.Replies)
    (hp : ((host true).perform s.onDesk env d).1.map Prod.fst = (s.fresh env d.world).1) :
    (∀ x ∈ xs, x.Matches (s.step env d.world)) ∧
      ((host true).perform s.onDesk env d).2.world = (s.fresh env d.world).2 ∧
      Knows ((host true).perform s.onDesk env d).2.cache g (xs ++ [s.step env d.world]) := by
  by_cases hn : ∀ q, ¬ s.Asks env (some q)
  · exact h.perform_of_silent hs hn
  · obtain ⟨q, hq⟩ := Classical.not_forall_not.1 hn
    obtain ⟨l, hl, hd, hxl⟩ := h
    by_cases hm : ∃ e, (q.key, e) ∈ l
    · obtain ⟨e, hm⟩ := hm
      exact Knows.perform_of_found hl hd hxl hs hq hm hp
    · exact Knows.perform_of_absent hl hd hxl hq (not_exists.1 hm)

theorem matches_concat {x : Step (StateM ω)} (h : xs.Pairwise Step.Matches)
    (hx : ∀ y ∈ xs, y.Matches x) : (xs ++ [x]).Pairwise Step.Matches :=
  List.pairwise_append.2 ⟨h, List.pairwise_singleton _ _, fun y hy _ hm =>
    List.mem_singleton.1 hm ▸ hx y hy⟩

/-- **Runs with reuse and without bounds**: when every stage gives what its body gives, the steps
match. -/
theorem Knows.outcomes (ss : List (Stage (StateM ω))) (env : Environment) (h : Knows d.cache g xs)
    (hs : ∀ s ∈ ss, s.Replies) (ha : xs.Pairwise Step.Matches)
    (hp : ((host true).outcomes (ss.map Stage.onDesk) env d).1 =
      (Stage.course ss env d.world).1.map Step.outcome) :
    (xs ++ (Stage.course ss env d.world).1).Pairwise Step.Matches ∧
      ((host true).outcomes (ss.map Stage.onDesk) env d).2.world =
        (Stage.course ss env d.world).2 ∧
      Knows ((host true).outcomes (ss.map Stage.onDesk) env d).2.cache g
        (xs ++ (Stage.course ss env d.world).1) := by
  induction ss generalizing env d xs with
  | nil =>
    have hc : (Stage.course [] env : StateM ω _) d.world = ([], d.world) := rfl
    rw [hc, List.append_nil]
    exact ⟨ha, rfl, h⟩
  | cons s rest ih =>
    have hs0 := hs s List.mem_cons_self
    rcases hf : s.fresh env d.world with ⟨t | c, w₁⟩ <;>
      rcases hq : (host true).perform s.onDesk env d with ⟨t' | ⟨c', b⟩, d₁⟩
    · rw [Stage.course_of_error hf, List.map_cons, outcomes_of_error hq] at hp
      have h1 : ((host true).perform s.onDesk env d).1.map Prod.fst = (s.fresh env d.world).1 := by
        rw [hq]
        exact (List.cons.inj hp).1
      obtain ⟨h2, h3, h4⟩ := h.perform hs0 h1
      rw [hf, hq] at h3
      rw [hq] at h4
      rw [Stage.course_of_error hf, List.map_cons, outcomes_of_error hq]
      exact ⟨matches_concat ha h2, h3, h4⟩
    · rw [Stage.course_of_error hf, List.map_cons, outcomes_of_ok hq, Stage.step, hf] at hp
      cases (List.cons.inj hp).1
    · rw [Stage.course_of_ok hf, List.map_cons, outcomes_of_error hq, List.map_cons, Stage.step,
        hf] at hp
      cases (List.cons.inj hp).1
    · rw [Stage.course_of_ok hf, List.map_cons, outcomes_of_ok hq, List.map_cons] at hp
      obtain ⟨hc, ht⟩ := List.cons.inj hp
      have h1 : ((host true).perform s.onDesk env d).1.map Prod.fst = (s.fresh env d.world).1 := by
        rw [hq]
        exact hc
      obtain ⟨h2, h3, h4⟩ := h.perform hs0 h1
      rw [hf, hq] at h3
      rw [hq] at h4
      rw [Stage.step, hf] at hc
      obtain rfl : c' = c := Except.ok.inj hc
      rw [Stage.course_of_ok hf, List.map_cons, outcomes_of_ok hq, List.append_cons]
      have hi := ih (env.overlay c'.bindings) h4 (fun s hm => hs s (List.mem_cons_of_mem _ hm))
        (matches_concat ha h2)
      rw [h3] at hi
      exact hi ht

/-- **Where reuse cannot be seen without bounds, all steps match.** -/
theorem Knows.matches_of_journal_eq (ps : List (PipelineCall ω)) {d' : Desk ω}
    (h : Knows d.cache g xs) (hw : d'.world = d.world)
    (hs : ∀ p ∈ ps, ∀ s ∈ p.stages, s.Replies) (ha : xs.Pairwise Step.Matches)
    (hj : journal true ps d = journal false ps d') :
    (xs ++ PipelineCall.courses ps d.world).Pairwise Step.Matches := by
  induction ps generalizing d d' xs with
  | nil => rwa [PipelineCall.courses, List.append_nil]
  | cons p rest ih =>
    have hp := hs p List.mem_cons_self
    obtain ⟨f1, f2⟩ := outcomes_false p.stages p.env d'
    rw [hw] at f1 f2
    rw [journal, journal] at hj
    obtain ⟨h0, ht⟩ := List.cons.inj hj
    obtain ⟨h1, h2, h3⟩ := h.outcomes p.stages p.env hp ha
      ((congrArg (fun x => x.2.2) h0).trans f1)
    simp only [run_snd] at ht
    have hi := ih h3 (f2.trans h2.symm) (fun p hm => hs p (List.mem_cons_of_mem _ hm)) h1 ht
    rwa [PipelineCall.courses, ← List.append_assoc, ← h2]

end Desk

end MemoFlow
