import MemoFlow.Proofs.Branch.Compute

/-!
# Reuse of branches

Branches are answered one after the other over one cache. A branch whose result is kept already is
not run; the bindings of the kept record are written over its own ones. That is what the branch
itself would do, unless it forgets names, binds names only where they are bound, or leaves values
that are not the same as themselves.

* `Desk.found`, `Desk.opened`: the record that a branch finds, and the desk it is run on;
* `Desk.afterAll`, `Desk.Unseen`: branches that were answered before;
* **`Desk.Remembers`**, `Desk.Remembers.answer`: every kept record was made by a branch before, or
  by a stage of it;
* **`Desk.bindings_of_reused`**: when a reused branch ends like one that is run.
-/

namespace MemoFlow

variable {ω : Type}

namespace BranchTask

/-- Every stage that can be reused has a request, or none, on all bindings. -/
def Asking {m : Type → Type} [Monad m] (t : BranchTask m) : Prop :=
  ∀ s ∈ t.stages, s.isReusable → ∀ env, ∃ r, s.Asks env r

/-- The request of a branch shares its identity with no other request of branches or stages. -/
structure Apart {m : Type → Type} [Monad m] (t : BranchTask m) (ts : List (BranchTask m)) :
    Prop where
  branches : ∀ u ∈ ts, ∀ q r, u.request? = some q → t.request? = some r → q.key = r.key → q = r
  stages : ∀ u ∈ ts, ∀ s ∈ u.stages, ∀ env q r, s.Asks env (some q) → t.request? = some r →
    q.key ≠ r.key

end BranchTask

namespace Desk

variable {a : Bool} {d : Desk ω} {t : BranchTask (StateM ω)} {ts : List (BranchTask (StateM ω))}

/-! ## The answer to a branch -/

/-- The record that a branch finds. -/
def found (t : BranchTask (StateM ω)) (d : Desk ω) : Option Computation :=
  if t.source = "" then none else (d.cache.get (d.clock 0) (BranchHost.key t)).value.1

/-- The desk after a branch looked for a record. -/
def opened (t : BranchTask (StateM ω)) (d : Desk ω) : Desk ω :=
  if t.source = "" then d else d.looked (BranchHost.key t)

theorem answer_of_found {c : Computation} (h : found t d = some c) :
    (branchHost a).answer t.onDesk d = (.ok (BranchHost.replay t c), opened t d) :=
  BranchHost.answer_of_found (h := branchHost a) (t := t.onDesk) h

theorem answer_of_absent (h : found t d = none) :
    (branchHost a).answer t.onDesk d =
      (branchHost a).compute t.onDesk (BranchHost.key t) (opened t d) :=
  BranchHost.answer_of_absent (h := branchHost a) (t := t.onDesk) h

/-- The desk after branches, the first one first. -/
def afterAll (memoize : Bool) (ts : List (BranchTask (StateM ω))) (d : Desk ω) : Desk ω :=
  ts.foldl (fun d t => ((branchHost memoize).answer t.onDesk d).2) d

/-- The reuse of stages cannot be seen in any of the branches. -/
def AllUnseen (memoize : Bool) : List (BranchTask (StateM ω)) → Desk ω → Prop
  | [], _ => True
  | t :: ts, d =>
    (found t d = none → Unseen memoize t (opened t d)) ∧
      AllUnseen memoize ts ((branchHost memoize).answer t.onDesk d).2

/-! ## Every kept record was made before -/

variable {lib : Request → BranchPlan} {o : CacheOptions} {g : Computation → UInt64}

/-- A slot holds the record of a branch, under the identity of its request. -/
def Made (lib : Request → BranchPlan) (u : BranchTask (StateM ω)) (p : Slot Computation) : Prop :=
  ∃ q v env, u.request? = some q ∧ q.key = p.1 ∧
    (lib q).result u.env.clearWrites = some (v, env) ∧ p.2.value = recordOf u v env

/-- A slot holds the record of a branch or of one of its stages. -/
def Accounted (lib : Request → BranchPlan) (ts : List (BranchTask (StateM ω)))
    (p : Slot Computation) : Prop :=
  ∃ u ∈ ts, Made lib u p ∨ ∃ s ∈ u.stages, ∃ env q, s.Asks env (some q) ∧ q.key = p.1

/-- **A cache remembers branches**: all that it keeps was made by one of them. -/
def Remembers (lib : Request → BranchPlan) (c : Cache Computation) (o : CacheOptions)
    (g : Computation → UInt64) (ts : List (BranchTask (StateM ω))) : Prop :=
  ∃ l, c.Holds o g l ∧ ∀ p ∈ l, Accounted lib ts p

theorem Remembers.new (o : CacheOptions) (g : Computation → UInt64) :
    Remembers (ω := ω) lib (Cache.new o g) o g [] := ⟨[], .new o g, by simp⟩

theorem Accounted.append {p : Slot Computation} (h : Accounted lib ts p)
    (us : List (BranchTask (StateM ω))) : Accounted lib (ts ++ us) p :=
  let ⟨u, hu, hp⟩ := h
  ⟨u, List.mem_append_left _ hu, hp⟩

theorem Remembers.opened (h : Remembers lib d.cache o g ts) (t : BranchTask (StateM ω)) :
    Remembers lib (opened t d).cache o g ts := by
  obtain ⟨l, hl, hp⟩ := h
  rw [Desk.opened]
  split
  · exact ⟨l, hl, hp⟩
  · obtain ⟨l', hl', hsub, -⟩ := hl.get (d.clock 0) (BranchHost.key t)
    exact ⟨l', hl', fun p hm => hp p (hsub p hm)⟩

/-- **A branch that is run** leaves its record and those of its stages. -/
theorem Remembers.compute (h : Remembers lib d.cache o g ts) (hs : t.Asking)
    (hf : ∀ q, t.request? = some q → t.Follows (lib q)) (hu : Unseen a t d) :
    Remembers lib ((branchHost a).compute t.onDesk (BranchHost.key t) d).2.cache o g
      (ts ++ [t]) := by
  obtain ⟨l, hl, hp⟩ := h
  obtain ⟨l₁, hl₁, hp₁⟩ := holds_outcomes (a := a) t.env.clearWrites hl hs
  have ha : ∀ p ∈ l₁, Accounted lib (ts ++ [t]) p := fun p hm =>
    (hp₁ p hm).elim (fun hm => (hp p hm).append [t]) fun hq =>
      ⟨t, List.mem_append_right _ (List.mem_singleton_self _), .inr hq⟩
  rw [← runStages_snd] at hl₁
  rcases hx : (branchHost a).runStages t.onDesk t.env.clearWrites d with ⟨e | ⟨v, env⟩, d₁⟩ <;>
    rw [hx] at hl₁
  · rw [BranchHost.compute_of_thrown hx]
    exact ⟨l₁, hl₁, ha⟩
  · cases hy : (BranchHost.runWork t v env d₁.world).1 with
    | error f =>
      obtain ⟨w, hc⟩ := compute_of_failed (k := BranchHost.key t) hx hy
      rw [hc]
      exact ⟨l₁, hl₁, ha⟩
    | ok r =>
      obtain ⟨hr, hc⟩ := compute_of_ok (k := BranchHost.key t) hx hy
      rw [hc]
      obtain ⟨l₂, hl₂, hp₂⟩ := holds_keptIn hl₁ (d₁.clock 0) (BranchHost.key t)
        (.ok (recordOf t r.1 r.2))
      refine ⟨l₂, hl₂, fun p hm => (hp₂ p hm).elim (ha p) ?_⟩
      rintro ⟨hkc, hk, hv⟩
      obtain ⟨hc, hkey⟩ := t.key_of_request
      obtain ⟨q, hq⟩ := Option.isSome_iff_exists.1 (hc.symm.trans hkc)
      have hres := compute_of_follows (hf q hq) hu (BranchHost.key t)
      rw [hr] at hres
      exact ⟨t, List.mem_append_right _ (List.mem_singleton_self _), .inl ⟨q, r.1, r.2, hq,
        (hkey q hq).trans hk.symm, hres.symm, (Except.ok.inj hv).symm⟩⟩

/-- **One answer**: the cache remembers this branch, too. -/
theorem Remembers.answer (h : Remembers lib d.cache o g ts) (hs : t.Asking)
    (hf : ∀ q, t.request? = some q → t.Follows (lib q))
    (hu : found t d = none → Unseen a t (Desk.opened t d)) :
    Remembers lib ((branchHost a).answer t.onDesk d).2.cache o g (ts ++ [t]) := by
  have ho := h.opened t
  cases hx : found t d with
  | some c =>
    rw [answer_of_found hx]
    obtain ⟨l, hl, hp⟩ := ho
    exact ⟨l, hl, fun p hm => (hp p hm).append [t]⟩
  | none =>
    rw [answer_of_absent hx]
    exact ho.compute hs hf (hu hx)

/-- **All answers**: the cache remembers every branch. -/
theorem Remembers.afterAll (us : List (BranchTask (StateM ω))) (h : Remembers lib d.cache o g ts)
    (hs : ∀ u ∈ us, u.Asking) (hf : ∀ u ∈ us, ∀ q, u.request? = some q → u.Follows (lib q))
    (hu : AllUnseen a us d) : Remembers lib (afterAll a us d).cache o g (ts ++ us) := by
  induction us generalizing d ts with
  | nil => rwa [List.append_nil]
  | cons u us ih =>
    have h1 := h.answer (hs u List.mem_cons_self) (hf u List.mem_cons_self) hu.1
    rw [List.append_cons]
    exact ih h1 (fun u hm => hs u (List.mem_cons_of_mem _ hm))
      (fun u hm => hf u (List.mem_cons_of_mem _ hm)) hu.2

/-- A record that is found was made by a branch with the same request. -/
theorem Remembers.found (h : Remembers lib d.cache o g ts) (ha : t.Apart ts) {c : Computation}
    (hc : found t d = some c) :
    ∃ u ∈ ts, ∃ q v env, u.request? = some q ∧ t.request? = some q ∧
      (lib q).result u.env.clearWrites = some (v, env) ∧ c = recordOf u v env := by
  obtain ⟨l, hl, hp⟩ := h
  rw [Desk.found] at hc
  split at hc
  · cases hc
  obtain ⟨-, -, -, hfound⟩ := hl.get (d.clock 0) (BranchHost.key t)
  obtain ⟨hkc, e, hm, rfl⟩ := hfound c hc
  obtain ⟨hsome, hkey⟩ := t.key_of_request
  obtain ⟨r, hr⟩ := Option.isSome_iff_exists.1 (hsome.symm.trans hkc)
  obtain ⟨u, hu, ⟨q, v, env, hq, hqk, hres, hv⟩ | ⟨s, hs, env, q, hq, hqk⟩⟩ := hp _ hm
  · obtain rfl := ha.branches u hu q r hq hr (hqk.trans (hkey r hr).symm)
    exact ⟨u, hu, q, v, env, hq, hr, hres, hv⟩
  · exact absurd (hqk.trans (hkey r hr).symm) (ha.stages u hu s hs env q r hq hr)

/-! ## Results -/

/-- The result of a branch after others. -/
def resultAfter (memoize : Bool) (ts : List (BranchTask (StateM ω))) (t : BranchTask (StateM ω))
    (d : Desk ω) : BranchResult :=
  .ofOutcome t.id ((branchHost memoize).answer t.onDesk (afterAll memoize ts d)).1

/-- The result of a branch that is run with nothing reused. -/
def freshResult (t : BranchTask (StateM ω)) (d : Desk ω) : BranchResult :=
  .ofOutcome t.id ((branchHost false).compute t.onDesk .uncacheable d).1

/-- **A reused branch ends like one that is run**, with the same status and value; and it has the
same bindings exactly when the touch of every name by its plan fits the bindings of the branch that
left the record and its own. -/
theorem bindings_of_reused (lib : Request → BranchPlan) {o : CacheOptions} {clock : Nat → Int64}
    {w : ω} (hs : ∀ u ∈ ts, u.Asking)
    (hf : ∀ u ∈ t :: ts, ∀ q, u.request? = some q → u.Follows (lib q))
    (ha : t.Apart ts) (hu : AllUnseen a ts ⟨.new o fun _ => 1, clock, w⟩)
    (hr : (resultAfter a ts t ⟨.new o fun _ => 1, clock, w⟩).reused = true) (d : Desk ω) :
    ∃ u ∈ ts, ∃ q, u.request? = some q ∧ t.request? = some q ∧
      (resultAfter a ts t ⟨.new o fun _ => 1, clock, w⟩).status = (freshResult t d).status ∧
      (resultAfter a ts t ⟨.new o fun _ => 1, clock, w⟩).value = (freshResult t d).value ∧
      ((resultAfter a ts t ⟨.new o fun _ => 1, clock, w⟩).env.bindings =
          (freshResult t d).env.bindings ↔
        ∀ n, ((lib q).touch n).Fits (u.env.find? n) (t.env.find? n)) := by
  have hn : Remembers (ω := ω) lib (Cache.new o fun _ => 1) o (fun _ => 1) [] := .new ..
  have hm := Remembers.afterAll ts (d := ⟨.new o fun _ => 1, clock, w⟩) hn hs
    (fun u hm => hf u (List.mem_cons_of_mem _ hm)) hu
  rw [List.nil_append] at hm
  rw [resultAfter] at hr ⊢
  cases hx : found t (afterAll a ts ⟨.new o fun _ => 1, clock, w⟩) with
  -- What is not found is run, and then it is not reused.
  | none =>
    rw [answer_of_absent hx, reused_compute] at hr
    cases hr
  | some c =>
    obtain ⟨u, hum, q, v, env, hq, ht, hres, rfl⟩ := hm.found ha hx
    have hfresh := compute_of_follows (hf t List.mem_cons_self q ht) (d := d) (a := false) rfl
      .uncacheable
    have hv := (lib q).result_value u.env.clearWrites t.env.clearWrites
    rw [hres] at hv
    rw [answer_of_found hx, freshResult]
    cases hy : ((branchHost false).compute t.onDesk .uncacheable d).1 with
    | error f =>
      rw [hy] at hfresh
      rw [← hfresh] at hv
      cases hv
    | ok b =>
      rw [hy] at hfresh
      rw [← hfresh] at hv
      exact ⟨u, hum, q, hq, ht, rfl, Option.some.inj hv, BranchPlan.replay_iff hres hfresh.symm⟩

/-- A branch that forgets `x`. -/
def scrap : BranchTask (StateM Unit) where
  id := "scrap"
  env := .ofList [("a", .int 1), ("x", .int 2)]
  work := some fun env => pure (.ok (.nil, env.erase "x"))
  source := "unset x"
  inputs := ["a"]

/-- What it does. -/
def scrapPlan : BranchPlan := { work := some (.ok ⟨[.erase "x"], .nil⟩) }

theorem find?_scrap : scrap.env.find? "x" = some (.int 2) := by
  simp [scrap, Environment.ofList, Environment.find?, NameMap.ofList, NameMap.find?_insert]

theorem follows_scrap : scrap.Follows scrapPlan := ⟨trivial, fun _ _ _ => rfl⟩

theorem touch_scrapPlan : scrapPlan.touch "x" = .drop := by
  simp [scrapPlan, BranchPlan.touch, BranchPlan.stagesTouch, BranchPlan.workTouch, Edit.touches,
    Edit.touch, Touch.comp]

/-- A reused branch does not forget. -/
theorem bindings_ne_of_erase :
    (resultAfter true [scrap] scrap ⟨.new { } fun _ => 1, fun _ => 0, ()⟩).reused = true ∧
      (resultAfter true [scrap] scrap ⟨.new { } fun _ => 1, fun _ => 0, ()⟩).env.bindings ≠
        (freshResult scrap ⟨.new { } fun _ => 1, fun _ => 0, ()⟩).env.bindings := by
  have hm : ∀ u ∈ [scrap], u = scrap := fun u hu => List.mem_singleton.1 hu
  have hs : ∀ u ∈ [scrap], u.Asking := fun u hu => by
    rw [hm u hu]
    nofun
  have ha : scrap.Apart [scrap] := by
    refine ⟨fun u hu q r hq hr _ => ?_, fun u hu s hs => ?_⟩
    · rw [hm u hu] at hq
      exact Option.some.inj (hq.symm.trans hr)
    · rw [hm u hu] at hs
      cases hs
  have hu : AllUnseen true [scrap] ⟨.new { } fun _ => 1, fun _ => 0, ()⟩ := ⟨fun _ => rfl, trivial⟩
  have hr : (resultAfter true [scrap] scrap ⟨.new { } fun _ => 1, fun _ => 0, ()⟩).reused =
      true := by decide +kernel
  have hf : ∀ u ∈ [scrap, scrap], ∀ q : Request, u.request? = some q → u.Follows scrapPlan :=
    fun u hu _ _ => by
      obtain rfl : u = scrap := by simpa using hu
      exact follows_scrap
  obtain ⟨u, hum, q, -, -, -, -, h⟩ := bindings_of_reused (fun _ => scrapPlan) hs hf ha hu hr
    ⟨.new { } fun _ => 1, fun _ => 0, ()⟩
  refine ⟨hr, fun hb => ?_⟩
  have hx := h.1 hb "x"
  rw [hm u hum, find?_scrap, touch_scrapPlan] at hx
  cases hx

end Desk

end MemoFlow
