import MemoFlow.Proofs.Branch.Parts
import MemoFlow.Proofs.Branch.Synthesis
import MemoFlow.Proofs.Cache.Recall
import MemoFlow.Proofs.Pipeline.Desk
import MemoFlow.Proofs.Schedule.Steps

/-!
# Values put together over a shared cache

Requests to put values of branches together share a cache with pipelines and branches, and all of
them run at the same time. A record under the identity of such a request was always made by a
request with the same source text, names and values, so no reply shows whether it was kept.

* **`Registry`**: a desk with the replies to the requests; `Registry.Errand`: what runs over it;
* `Registry.Distinct`, `Registry.Agree`: marks without a common fingerprint, functions that agree;
* **`Registry.Faithful`**, `Faithful.look`, `Faithful.file`: what holds in every state;
* `Registry.abides_run`, `Registry.obeys_errand`: requests, and all errands;
* **`Registry.transparent`**: every reply is what the function gives.
-/

namespace MemoFlow

open Process

/-- **A desk with replies** to requests that go by `ι`, the last one first. -/
structure Registry (ω ι : Type) extends Desk ω where
  replies : List (ι × Except Thrown (Value × Bool))

namespace Registry

variable {ω ι : Type}

/-- A registry without records and replies. -/
def new (o : CacheOptions) (g : Computation → UInt64) (clock : Nat → Int64) (w : ω) :
    Registry ω ι :=
  ⟨⟨.new o g, clock, w⟩, []⟩

/-- Look for a record. -/
def look (k : Fingerprint) (b : Registry ω ι) : Option Computation × Registry ω ι :=
  let r := Desk.onCache (fun c now => c.get now k) b.toDesk
  (r.1, { b with toDesk := r.2 })

/-- File a record. -/
def file (k : Fingerprint) (c : Computation) (b : Registry ω ι) : Registry ω ι :=
  { b with toDesk := (Desk.onCache (fun d now => d.put now k c none none) b.toDesk).2 }

/-- What pipelines need around them. -/
def pipelineHost (memoize : Bool) : PipelineHost (Process (Registry ω ι)) where
  memoize := memoize
  note _ := pure ()
  kept? k := .update (look k)
  keep k c := .modify (file k c)
  count _ := pure ()

/-- What branches need around them. -/
def branchHost (memoize : Bool) : BranchHost (Process (Registry ω ι)) where
  pipeline := pipelineHost memoize
  kept? k := .update (look k)
  keep k c := .modify (file k c)
  countReused := pure ()

/-! ## Errands -/

/-- **What runs over a registry**: a pipeline, a branch, requests one after the other, or upkeep of
the cache. -/
inductive Errand (ω ι : Type) where
  | pipeline (stages : List (Stage (Process (Registry ω ι)))) (env : Environment)
  | branch (t : BranchTask (Process (Registry ω ι)))
  | requests (is : List ι)
  | upkeep (f : Cache Computation → Int64 → Cache Computation)

/-- Requests that are served one after the other. -/
def serve (memoize : Bool) (calls : ι → SynthesisCall (Process (Registry ω ι))) :
    List ι → Process (Registry ω ι) Unit
  | [] => return ()
  | i :: is => do
    let r ← (calls i).run (pipelineHost memoize)
    .modify fun b => { b with replies := (i, r) :: b.replies }
    serve memoize calls is

/-- The errand as a process. -/
def Errand.process (memoize : Bool) (calls : ι → SynthesisCall (Process (Registry ω ι))) :
    Errand ω ι → Process (Registry ω ι) Unit
  | .pipeline stages env => do
    let _ ← (pipelineHost memoize).run stages env
    return ()
  | .branch t => do
    let _ ← (branchHost memoize).answer t
    return ()
  | .requests is => serve memoize calls is
  | .upkeep f => .modify fun b => { b with cache := f b.cache (b.clock 0) }

/-! ## Identities and functions -/

/-- **What is asked for**: by stages and branches, and by requests with a source text. -/
inductive Wanted (asked : Request → Prop) (calls : ι → SynthesisCall (Process (Registry ω ι))) :
    Mark → Prop
  | request {q : Request} (h : asked q) : Wanted asked calls q.mark
  | call {i : ι} {vs : List Value} (source : (calls i).source ≠ "")
      (values : (calls i).values = .ok vs) :
      Wanted asked calls (SynthesisCall.mark (calls i).source (calls i).names vs)

/-- **Different marks have different fingerprints.** -/
def Distinct (asked : Request → Prop) (calls : ι → SynthesisCall (Process (Registry ω ι))) :
    Prop :=
  ∀ a b, Wanted asked calls a → Wanted asked calls b → a.key.cacheable = true → a.key = b.key →
    a = b

/-- **One source text comes with functions that agree** on values with the same fingerprints;
values that cannot be compared have none. -/
def Agree (calls : ι → SynthesisCall (Process (Registry ω ι)))
    (gives : ι → List Value → Except Thrown Value) : Prop :=
  ∀ i j vs ws, (calls i).source ≠ "" → (calls i).source = (calls j).source →
    (∀ v ∈ vs, (Fingerprint.ofValue v).cacheable = true) →
    vs.map Fingerprint.ofValue = ws.map Fingerprint.ofValue → gives i vs = gives j ws

/-- A slot under the identity of a request holds what its function gives. -/
def IsAnswer (calls : ι → SynthesisCall (Process (Registry ω ι)))
    (gives : ι → List Value → Except Thrown Value) (p : Slot Computation) : Prop :=
  ∀ i vs v, (calls i).source ≠ "" → (calls i).values = .ok vs →
    synthesisKey (calls i).source (calls i).names vs = p.1 → p.2.value.value = some v →
      gives i vs = .ok v

/-- **A faithful registry**: its slots hold what the functions give, and so do its replies. -/
structure Faithful (o : CacheOptions) (g : Computation → UInt64)
    (calls : ι → SynthesisCall (Process (Registry ω ι)))
    (gives : ι → List Value → Except Thrown Value) (b : Registry ω ι) : Prop where
  slots : ∃ l, b.cache.Holds o g l ∧ ∀ p ∈ l, IsAnswer calls gives p
  replies : ∀ x ∈ b.replies, x.2.map Prod.fst = (calls x.1).values >>= gives x.1

/-- The rule of all steps over a registry. -/
def keeping (o : CacheOptions) (g : Computation → UInt64)
    (calls : ι → SynthesisCall (Process (Registry ω ι)))
    (gives : ι → List Value → Except Thrown Value) : Rule (Registry ω ι) where
  holds := Faithful o g calls gives
  allows _ := Faithful o g calls gives

variable {o : CacheOptions} {g : Computation → UInt64}
  {calls : ι → SynthesisCall (Process (Registry ω ι))}
  {gives : ι → List Value → Except Thrown Value} {asked : Request → Prop} {b : Registry ω ι}
  {k : Fingerprint}

/-- A slot of a stage or a branch is not under the identity of a request. -/
theorem isAnswer_of_asked (hd : Distinct asked calls) {q : Request} (hq : asked q)
    (hc : q.key.cacheable = true) (e : CacheEntry Computation) :
    IsAnswer calls gives (q.key, e) := by
  intro i vs v hs hv hk _
  have hmark := hd _ _ (.request hq) (.call hs hv) (by rwa [Request.key_mark])
    (by rw [Request.key_mark, SynthesisCall.key_mark]; exact hk.symm)
  exact absurd hmark.symm (SynthesisCall.mark_ne_request _ _ _ q)

/-- **What the function of one request gives is what that of every other request with the same
identity gives.** -/
theorem isAnswer_of_gives (hd : Distinct asked calls) (ha : Agree calls gives) {i : ι}
    {vs : List Value} {v : Value} (hs : (calls i).source ≠ "") (hv : (calls i).values = .ok vs)
    (hg : gives i vs = .ok v)
    (hc : (synthesisKey (calls i).source (calls i).names vs).cacheable = true)
    {e : CacheEntry Computation} (he : e.value = ⟨[], some v⟩) :
    IsAnswer calls gives (synthesisKey (calls i).source (calls i).names vs, e) := by
  intro j ws w hs' hv' hk hw
  have hmark := hd _ _ (.call hs hv) (.call hs' hv') (by rwa [SynthesisCall.key_mark])
    (by rw [SynthesisCall.key_mark, SynthesisCall.key_mark]; exact hk.symm)
  obtain ⟨hsource, -, hvalues⟩ := SynthesisCall.mark_inj hmark
  rw [← ha i j vs ws hs hsource (fun _ => SynthesisCall.cacheable_of_mem hc) hvalues, hg]
  rw [he] at hw
  exact congrArg Except.ok (Option.some.inj hw)

namespace Faithful

theorem new (clock : Nat → Int64) (w : ω) :
    Faithful o g calls gives (.new o g clock w) where
  slots := ⟨[], .new o g, by simp⟩
  replies := nofun

/-- **A look-up** finds what the functions give. -/
theorem look (h : Faithful o g calls gives b) (k : Fingerprint) :
    Faithful o g calls gives (b.look k).2 ∧
      ∀ c, (b.look k).1 = some c → ∃ e, IsAnswer calls gives (k, e) ∧ e.value = c := by
  obtain ⟨l, hl, hp⟩ := h.slots
  obtain ⟨l', hl', hsub, hfound⟩ := hl.get (b.clock 0) k
  refine ⟨⟨⟨l', hl', fun p hm => hp p (hsub p hm)⟩, h.replies⟩, fun c hc => ?_⟩
  obtain ⟨-, e, hm, he⟩ := hfound c hc
  exact ⟨e, hp _ hm, he⟩

/-- **A store** of what the functions give. -/
theorem file (h : Faithful o g calls gives b) {c : Computation}
    (hk : k.cacheable = true → ∀ e : CacheEntry Computation, e.value = c →
      IsAnswer calls gives (k, e)) :
    Faithful o g calls gives (b.file k c) := by
  obtain ⟨l, hl, hp⟩ := h.slots
  obtain ⟨l', hl', hput⟩ := hl.put (b.clock 0) k c none none
  refine ⟨⟨l', hl', fun p hm => ?_⟩, h.replies⟩
  obtain hm | ⟨hc, rfl, he⟩ := hput p hm
  · exact hp p hm
  · exact hk hc p.2 he

end Faithful

/-! ## Stages and branches -/

/-- The identity is that of a request that is asked, or no record can have it. -/
def Names (asked : Request → Prop) (k : Fingerprint) : Prop :=
  k.cacheable = true → ∃ q, asked q ∧ q.key = k

/-- **Code that keeps a registry faithful**, as a trait; stages have the identities that they ask
for. -/
def traffic (asked : Request → Prop) (o : CacheOptions) (g : Computation → UInt64)
    (calls : ι → SynthesisCall (Process (Registry ω ι)))
    (gives : ι → List Value → Except Thrown Value) : Trait (Process (Registry ω ι)) where
  has := Obeys (keeping o g calls gives)
  admits := Names asked
  names := Abides (keeping o g calls gives) fun r => ∀ k, r = .ok k → Names asked k
  pure := .pure
  bind := .bind
  bind_names hp hf := Abides.bind hp hf

theorem has_pipelineHost (hd : Distinct asked calls) (memoize : Bool) :
    (pipelineHost memoize).Has (traffic asked o g calls gives) where
  note _ := .pure _
  kept k _ := .update fun _ h => (h.look k).1
  keep k c hk := .modify fun _ h => h.file fun hc e _ => by
    obtain ⟨q, hq, rfl⟩ := hk hc
    exact isAnswer_of_asked hd hq hc e
  count _ := .pure _

theorem has_branchHost (hd : Distinct asked calls) (memoize : Bool) :
    (branchHost memoize).Has (traffic asked o g calls gives) (Names asked) where
  pipeline := has_pipelineHost hd memoize
  kept k _ := .update fun _ h => (h.look k).1
  keep k c hk := .modify fun _ h => h.file fun hc e _ => by
    obtain ⟨q, hq, rfl⟩ := hk hc
    exact isAnswer_of_asked hd hq hc e
  countReused := .pure _

/-! ## Requests -/

section Requests

variable {i : ι} {memoize : Bool}

/-- The steps of the functions keep the registry faithful, and they give what they are said to
give. -/
def Steady (o : CacheOptions) (g : Computation → UInt64)
    (calls : ι → SynthesisCall (Process (Registry ω ι)))
    (gives : ι → List Value → Except Thrown Value) : Prop :=
  ∀ i vs, Abides (keeping o g calls gives) (fun r => r = gives i vs) ((calls i).fn vs)

theorem abides_afresh (hf : Steady o g calls gives) {vs : List Value} {key : Option Fingerprint}
    (hk : ∀ k v, key = some k → gives i vs = .ok v → k.cacheable = true →
      ∀ e : CacheEntry Computation, e.value = ⟨[], some v⟩ → IsAnswer calls gives (k, e)) :
    Abides (keeping o g calls gives) (fun r => r.map Prod.fst = gives i vs)
      ((calls i).afresh (pipelineHost memoize) vs key) := by
  refine (hf i vs).bind fun r hr => ?_
  cases r with
  | error t => exact .done hr
  | ok v =>
    cases key with
    | none => exact .done hr
    | some k =>
      have hkeep : Obeys (keeping o g calls gives) ((pipelineHost memoize).keep k ⟨[], some v⟩) :=
        .modify fun _ h => h.file (hk k v rfl hr.symm)
      exact Abides.bind hkeep fun _ _ => .done hr

/-- **A request returns what its function gives on the values**, whatever the cache holds. -/
theorem abides_run (hd : Distinct asked calls) (ha : Agree calls gives)
    (hf : Steady o g calls gives) (i : ι) :
    Abides (keeping o g calls gives) (fun r => r.map Prod.fst = (calls i).values >>= gives i)
      ((calls i).run (pipelineHost memoize)) := by
  rw [SynthesisCall.run]
  cases hv : (calls i).values with
  | error t => exact .done rfl
  | ok vs =>
    by_cases hs : (calls i).source = ""
    · simp only [hs, if_true]
      exact abides_afresh hf fun k _ hk => absurd hk.symm (Option.some_ne_none k)
    · simp only [hs, if_false]
      have hlook : Abides (keeping o g calls gives)
          (fun r => ∀ v, r.bind Computation.value = some v → gives i vs = .ok v)
          ((pipelineHost (ω := ω) (ι := ι) memoize).kept?
            (synthesisKey (calls i).source (calls i).names vs)) :=
        .update fun b h => by
          obtain ⟨h', hfound⟩ := h.look (synthesisKey (calls i).source (calls i).names vs)
          refine ⟨h', fun v hr => ?_⟩
          obtain ⟨c, hc, hval⟩ := Option.bind_eq_some_iff.1 hr
          obtain ⟨e, he, rfl⟩ := hfound c hc
          exact he i vs v hs hv rfl hval
      refine hlook.bind fun r hr => ?_
      cases hkept : r.bind Computation.value with
      | some v => exact .done (hr v hkept).symm
      | none =>
        refine abides_afresh hf fun k v hk hg hc e he => ?_
        obtain rfl := Option.some.inj hk
        exact isAnswer_of_gives hd ha hs hv hg hc he

theorem obeys_serve (hd : Distinct asked calls) (ha : Agree calls gives)
    (hf : Steady o g calls gives) (is : List ι) :
    Obeys (keeping o g calls gives) (serve memoize calls is) := by
  induction is with
  | nil => exact .pure _
  | cons i is ih =>
    refine Abides.bind (abides_run hd ha hf i) fun r hr => ?_
    have hnote : Obeys (keeping o g calls gives)
        (.modify fun b => { b with replies := (i, r) :: b.replies }) :=
      .modify fun b h => ⟨h.slots, List.forall_mem_cons.2 ⟨hr, h.replies⟩⟩
    exact hnote.bind fun _ => ih

end Requests

/-! ## Errands that fit -/

/-- **Stages and branches ask for what is asked**, their bodies keep the registry faithful, and
upkeep stores nothing. -/
def Errand.Fits (asked : Request → Prop) (o : CacheOptions) (g : Computation → UInt64)
    (calls : ι → SynthesisCall (Process (Registry ω ι)))
    (gives : ι → List Value → Except Thrown Value) : Errand ω ι → Prop
  | .pipeline stages _ => ∀ s ∈ stages, s.Has (traffic asked o g calls gives)
  | .branch t => t.Has (traffic asked o g calls gives) (Names asked)
  | .requests _ => True
  | .upkeep f => ∀ c now l, c.Holds o g l → ∃ l', (f c now).Holds o g l' ∧ ∀ p ∈ l', p ∈ l

theorem obeys_errand {memoize : Bool} (hd : Distinct asked calls) (ha : Agree calls gives)
    (hf : Steady o g calls gives) {e : Errand ω ι} (he : e.Fits asked o g calls gives) :
    Obeys (keeping o g calls gives) (e.process memoize calls) := by
  cases e with
  | pipeline stages env =>
    exact Obeys.bind ((has_pipelineHost hd memoize).run he env) fun _ => .pure _
  | branch t => exact Obeys.bind ((has_branchHost hd memoize).answer he) fun _ => .pure _
  | requests is => exact obeys_serve hd ha hf is
  | upkeep f =>
    refine .modify fun b h => ?_
    obtain ⟨l, hl, hp⟩ := h.slots
    obtain ⟨l', hl', hsub⟩ := he _ (b.clock 0) l hl
    exact ⟨⟨l', hl', fun p hm => hp p (hsub p hm)⟩, h.replies⟩

/-! ## Transparency -/

variable {es : List (Errand ω ι)} {ps : List (Process (Registry ω ι) Unit)} {memoize : Bool}

/-- **Every reply is what the function gives** on the values of the named branches, each once and in
the order of the names, whatever ran before and whatever runs at the same time. A request that names
a branch without a value is refused and does nothing else, and one without a source text runs its
function. -/
theorem transparent (hd : Distinct asked calls) (ha : Agree calls gives)
    (hf : Steady o g calls gives) (he : ∀ e ∈ es, e.Fits asked o g calls gives)
    {clock : Nat → Int64} {w : ω}
    (hr : Interleaves (es.map (Errand.process memoize calls)) (.new o g clock w) ps b) :
    (∀ i r, (i, r) ∈ b.replies → r.map Prod.fst = (calls i).values >>= gives i) ∧
      (∀ i v fresh, (i, .ok (v, fresh)) ∈ b.replies → ∃ vs, gives i vs = .ok v ∧
        List.Forall₂ (fun id v => ∃ r, (calls i).results.find? id = some r ∧ r.isOk = true ∧
          r.value = v) (calls i).names vs) ∧
      (∀ i, (calls i).names.Pairwise (· < ·) ∧ ∀ id, id ∈ (calls i).names ↔ id ∈ (calls i).ids) ∧
      (∀ i, ∀ id ∈ (calls i).ids, (∀ r, (calls i).results.find? id = some r → r.isOk = false) →
        ∃ text, (calls i).run (pipelineHost memoize) =
          pure (.error (.error .branchSet text))) ∧
      (∀ i vs, (calls i).values = .ok vs → (calls i).source = "" →
        (calls i).run (pipelineHost memoize) =
          (fun r => r.map fun v => (v, true)) <$> (calls i).fn vs) := by
  have hkeeps : Faithful o g calls gives b := by
    refine (hr.keeps (ρ := keeping o g calls gives) (fun _ h => h) (fun _ _ _ h => h) ?_
      (.new clock w)).1
    intro p hp
    obtain ⟨e, hm, rfl⟩ := List.mem_map.1 hp
    exact obeys_errand hd ha hf (he e hm)
  refine ⟨fun i r hm => hkeeps.replies _ hm, fun i v fresh hm => ?_,
    fun i => (calls i).names_spec, fun i id hid hbad => ?_, fun i vs hv hs => ?_⟩
  · have hreply : Except.ok v = (calls i).values >>= gives i := hkeeps.replies _ hm
    cases hv : (calls i).values with
    | error t => rw [hv] at hreply; cases hreply
    | ok vs =>
      rw [hv] at hreply
      exact ⟨vs, hreply.symm, SynthesisCall.values_eq_ok_iff.1 hv⟩
  · obtain ⟨text, ht⟩ := SynthesisCall.exists_refusal hid hbad
    exact ⟨text, SynthesisCall.run_of_refused ht _⟩
  · exact SynthesisCall.run_of_no_source hv hs _

/-- Two branches that ended with a value. -/
def pair : BranchResults :=
  .ofList [("a", { id := "a", value := .int 1 }), ("b", { id := "b", value := .int 2 })]

/-- The number of values. -/
def tally (vs : List Value) : Except Thrown Value := .ok (.int (Int64.ofNat vs.length))

/-- Three requests with one source text. The first two are for the same branch, and one of them
names it twice. -/
def tallies (i : Fin 3) : SynthesisCall (Process (Registry Unit (Fin 3))) where
  results := pair
  ids := if i = 0 then ["a", "a"] else if i = 1 then ["a"] else ["b"]
  source := "s"
  fn vs := pure (tally vs)

/-- The values that they put together. -/
def tallied (i : Fin 3) : List Value := [.int (if i = 2 then 2 else 1)]

theorem values_tallies (i : Fin 3) : (tallies i).values = .ok (tallied i) := by
  match i with
  | 0 => rfl
  | 1 => rfl
  | 2 => rfl

theorem distinct_tallies : Distinct (fun _ => False) tallies := by
  have hkeys : ∀ i j : Fin 3,
      (SynthesisCall.mark (tallies i).source (tallies i).names (tallied i)).key =
        (SynthesisCall.mark (tallies j).source (tallies j).names (tallied j)).key →
      (tallies i).names = (tallies j).names ∧ (i = 2 ↔ j = 2) := by
    decide +kernel
  rintro _ _ (h | ⟨-, hi⟩) (h' | ⟨-, hj⟩) - hk
  · exact h.elim
  · exact h.elim
  · exact h'.elim
  · obtain rfl := Except.ok.inj ((values_tallies _).symm.trans hi)
    obtain rfl := Except.ok.inj ((values_tallies _).symm.trans hj)
    obtain ⟨hn, hv⟩ := hkeys _ _ hk
    rw [hn, tallied, tallied]
    simp only [hv]
    rfl

theorem agree_tallies : Agree tallies fun _ => tally := by
  intro i j vs ws _ _ _ h
  have hlength : vs.length = ws.length := by simpa using congrArg List.length h
  show tally vs = tally ws
  unfold tally
  rw [hlength]

/-- A registry before these requests. -/
def beforeTallies : Registry Unit (Fin 3) := .new .unbounded (fun _ => 1) (fun _ => 0) ()

/-- The registry after two of the requests. -/
def betweenTallies : Registry Unit (Fin 3) :=
  ((Errand.requests [0, 2]).process true tallies).advance beforeTallies |>.2

/-- The registry after all requests. -/
def afterTallies : Registry Unit (Fin 3) :=
  ((Errand.requests [1]).process true tallies).advance betweenTallies |>.2

/-- A request is served with what one that names its branch twice has put together. -/
theorem transparent_of_repeats : ∃ ps,
    Interleaves ([.requests [0, 2], .requests [1]].map (Errand.process true tallies))
      beforeTallies ps afterTallies ∧
    afterTallies.replies.map (fun x => (x.1, x.2.toOption.map Prod.snd)) =
      [(1, some false), (2, some true), (0, some true)] ∧
    ∀ i r, (i, r) ∈ afterTallies.replies → r.map Prod.fst = (tallies i).values >>= tally := by
  have h1 : Interleaves ([.requests [0, 2], .requests [1]].map (Errand.process true tallies))
      beforeTallies _ betweenTallies :=
    Interleaves.start.finish (i := 0) rfl (by decide +kernel)
  have h2 := h1.finish (i := 1) rfl (by decide +kernel)
  have hfits : ∀ e ∈ [Errand.requests [0, 2], .requests [1]],
      e.Fits (fun _ => False) .unbounded (fun _ => 1) tallies fun _ => tally := by
    intro e he
    obtain rfl | rfl : e = .requests [0, 2] ∨ e = .requests [1] := by simpa using he
    · trivial
    · trivial
  exact ⟨_, h2, by decide +kernel,
    (transparent distinct_tallies agree_tallies (fun _ _ => .done rfl) hfits h2).1⟩

end Registry

end MemoFlow
