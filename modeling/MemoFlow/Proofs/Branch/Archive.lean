import MemoFlow.Proofs.Branch.Compute
import MemoFlow.Proofs.Branch.Parts
import MemoFlow.Proofs.Cache.Recall
import MemoFlow.Proofs.Schedule.Steps

/-!
# The log of a cache of records

Pipelines and branches run at the same time over one cache. A log tells who sought which record, and
who filed one. Nothing that runs reads the log.

A record is found under its identity alone, and a stage and a branch that ask the same request have
the same identity. So either of them is served with what was filed last, be it by a stage or by a
branch.

* `Archive.Event`, **`Archive`**: a desk with a log; `Archive.latest?`: the last record of an
  identity;
* `Archive.pipelineHost`, `Archive.branchHost`, **`Errand`**: pipelines and branches over an
  archive;
* `Archive.Files`, `Archive.filing`: what each step of them does to the archive;
* **`Archive.Traced`**, **`Archive.Full`**: every slot of the cache holds the last record of its
  identity, and without bounds every record has a slot;
* `Archive.traced`, `Archive.full`: so it is after all turns;
* `Archive.Event.maker`, `Archive.Event.key`: who seeks or files a record, and under which identity;
* **`Archive.origin_of_records`**: who filed the records that are found.
-/

namespace MemoFlow

open Process

/-- Those who file records: stages of pipelines, and branches. -/
inductive Maker where
  | stage
  | branch
deriving DecidableEq, Repr

/-- What happens to records. -/
inductive Archive.Event where
  /-- A record is sought, and found or not. -/
  | sought (m : Maker) (k : Fingerprint) (r : Option Computation)
  /-- A record is filed. -/
  | filed (m : Maker) (k : Fingerprint) (c : Computation)

/-- **A desk with a log**, the last event first. -/
structure Archive (ω : Type) extends Desk ω where
  /-- The log. -/
  log : List Archive.Event

variable {ω : Type}

namespace Archive

/-- An archive without records. -/
def new (o : CacheOptions) (g : Computation → UInt64) (clock : Nat → Int64) (w : ω) : Archive ω :=
  ⟨⟨.new o g, clock, w⟩, []⟩

/-! ## The last record -/

/-- The record of an identity that an event files. -/
def Event.record? (k : Fingerprint) : Event → Option (Maker × Computation)
  | .sought .. => none
  | .filed m j c => if j = k then some (m, c) else none

/-- **The last record of an identity**, and who filed it. -/
def latest? (k : Fingerprint) (log : List Event) : Option (Maker × Computation) :=
  log.findSome? (Event.record? k)

section Latest

variable {m : Maker} {j k : Fingerprint} {c : Computation} {log : List Event}

theorem latest?_filed_self : latest? k (.filed m k c :: log) = some (m, c) := by
  simp [latest?, Event.record?]

theorem latest?_filed_of_ne (h : j ≠ k) : latest? k (.filed m j c :: log) = latest? k log := by
  simp [latest?, Event.record?, h]

theorem mem_of_latest? (h : latest? k log = some (m, c)) : .filed m k c ∈ log := by
  obtain ⟨e, he, hr⟩ := List.exists_of_findSome?_eq_some h
  cases e with
  | sought m' j r => cases hr
  | filed m' j c' =>
    rw [Event.record?] at hr
    split at hr
    · next hj =>
      obtain ⟨rfl, rfl⟩ := Prod.mk.inj (Option.some.inj hr)
      exact hj ▸ he
    · cases hr

end Latest

/-! ## Pipelines and branches over an archive -/

/-- Seek a record. -/
def look (m : Maker) (k : Fingerprint) (a : Archive ω) : Option Computation × Archive ω :=
  let r := Desk.onCache (fun c now => c.get now k) a.toDesk
  (r.1, ⟨r.2, .sought m k r.1 :: a.log⟩)

/-- File a record; what the cache does not take is not filed. -/
def file (m : Maker) (k : Fingerprint) (c : Computation) (a : Archive ω) : Archive ω :=
  let r := Desk.onCache (fun d now => d.put now k c none none) a.toDesk
  ⟨r.2, if r.1 then .filed m k c :: a.log else a.log⟩

/-- What pipelines need around them. -/
def pipelineHost (memoize : Bool) : PipelineHost (Process (Archive ω)) where
  memoize := memoize
  note _ := pure ()
  kept? k := .update (look .stage k)
  keep k c := .modify (file .stage k c)
  count _ := pure ()

/-- What branches need around them. -/
def branchHost (memoize : Bool) : BranchHost (Process (Archive ω)) where
  pipeline := pipelineHost memoize
  kept? k := .update (look .branch k)
  keep k c := .modify (file .branch k c)
  countReused := pure ()

/-- The identity is that of a request that is asked, or no record can have it. -/
def Names (asked : Maker → Request → Prop) (m : Maker) (k : Fingerprint) : Prop :=
  k.cacheable = true → ∃ q, asked m q ∧ q.key = k

/-- **What a step does to an archive**: it seeks or files a record under the identity of a request
that is asked, or it works on the world. -/
inductive Files (asked : Maker → Request → Prop) (a : Archive ω) : Archive ω → Prop
  | work (w : ω) : Files asked a { a with world := w }
  | look (m : Maker) (k : Fingerprint) (h : Names asked m k) : Files asked a (a.look m k).2
  | file (m : Maker) (k : Fingerprint) (c : Computation) (h : Names asked m k) :
    Files asked a (a.file m k c)

/-- The rule of all steps over an archive. -/
def filing (asked : Maker → Request → Prop) : Rule (Archive ω) where
  holds _ := True
  allows := Files asked

/-- **Code that keeps to the rule**, as a trait; stages have the identities that they ask for. -/
def files (asked : Maker → Request → Prop) : Trait (Process (Archive ω)) where
  has := Obeys (filing asked)
  admits := Names asked .stage
  names := Abides (filing asked) fun r => ∀ k, r = .ok k → Names asked .stage k
  pure := .pure
  bind := .bind
  bind_names hp hf := Abides.bind hp hf

variable {asked : Maker → Request → Prop}

theorem has_pipelineHost (memoize : Bool) :
    (pipelineHost (ω := ω) memoize).Has (files asked) where
  note _ := .pure _
  kept k h := .update fun _ _ => .look .stage k h
  keep k c h := .modify fun _ _ => .file .stage k c h
  count _ := .pure _

theorem has_branchHost (memoize : Bool) :
    (branchHost (ω := ω) memoize).Has (files asked) (Names asked .branch) where
  pipeline := has_pipelineHost memoize
  kept k h := .update fun _ _ => .look .branch k h
  keep k c h := .modify fun _ _ => .file .branch k c h
  countReused := .pure _

/-! ## Errands -/

/-- **A run of a pipeline or of a branch** over an archive. The branches of a block are errands of
their own. -/
inductive Errand (ω : Type) where
  | pipeline (stages : List (Stage (Process (Archive ω)))) (env : Environment)
  | branch (t : BranchTask (Process (Archive ω)))

namespace Errand

/-- The errand as a process. -/
def process (memoize : Bool) : Errand ω → Process (Archive ω) Unit
  | .pipeline stages env => do
    let _ ← (pipelineHost memoize).run stages env
    return ()
  | .branch t => do
    let _ ← (branchHost memoize).answer t
    return ()

/-- **The stages and the branch of an errand ask requests**, and their bodies keep to the rule. -/
def Asks (asked : Maker → Request → Prop) : Errand ω → Prop
  | .pipeline stages _ => ∀ s ∈ stages, s.Has (files asked)
  | .branch t => t.Has (files asked) (Names asked .branch)

theorem obeys (memoize : Bool) {e : Errand ω} (h : e.Asks asked) :
    Obeys (filing asked) (e.process memoize) := by
  cases e with
  | pipeline stages env => exact ((has_pipelineHost memoize).run h env).bind fun _ => .pure _
  | branch t => exact ((has_branchHost memoize).answer h).bind fun _ => .pure _

end Errand

/-! ## The slots and the log -/

section Slots

variable {o : CacheOptions} {g : Computation → UInt64} {a a' : Archive ω} {m : Maker}
  {k : Fingerprint} {c : Computation}

/-- The cache takes a record. -/
def Takes (a : Archive ω) (k : Fingerprint) (c : Computation) : Prop :=
  (a.cache.put (a.clock 0) k c none none).value.1 = true

theorem log_file_of_takes (h : a.Takes k c) : (a.file m k c).log = .filed m k c :: a.log :=
  if_pos h

theorem log_file_of_not_takes (h : ¬ a.Takes k c) : (a.file m k c).log = a.log := if_neg h

/-- **The slots hold the last records of their identities**, what was found is the last record, and
all that was found or filed has the identity of a request. -/
structure Traced (asked : Maker → Request → Prop) (o : CacheOptions) (g : Computation → UInt64)
    (a : Archive ω) : Prop where
  slots : ∃ l, a.cache.Holds o g l ∧ ∀ p ∈ l, ∃ m, latest? p.1 a.log = some (m, p.2.value)
  filed : ∀ m k c, .filed m k c ∈ a.log → ∃ q, asked m q ∧ q.key = k
  found : ∀ m k c l, .sought m k (some c) :: l <:+ a.log →
    (∃ q, asked m q ∧ q.key = k) ∧ ∃ m', latest? k l = some (m', c)

namespace Traced

theorem new (clock : Nat → Int64) (w : ω) : Traced asked o g (.new o g clock w) where
  slots := ⟨[], .new o g, by simp⟩
  filed := nofun
  found m k c l h := by simp [Archive.new] at h

theorem look (h : Traced asked o g a) (hk : Names asked m k) :
    Traced asked o g (a.look m k).2 := by
  obtain ⟨l, hl, hp⟩ := h.slots
  obtain ⟨l', hl', hsub, hfound⟩ := hl.get (a.clock 0) k
  refine ⟨⟨l', hl', fun p hm => hp p (hsub p hm)⟩, fun m' j d hm => ?_, fun m' j d r hs => ?_⟩
  · obtain hm | hm := List.mem_cons.1 hm
    · cases hm
    · exact h.filed m' j d hm
  · obtain hs | hs := List.suffix_cons_iff.1 hs
    · obtain ⟨he, rfl⟩ := List.cons.inj hs
      obtain ⟨rfl, rfl, hd⟩ := Event.sought.inj he
      obtain ⟨hkc, e, hm, rfl⟩ := hfound d hd.symm
      exact ⟨hk hkc, hp _ hm⟩
    · exact h.found m' j d r hs

theorem file (h : Traced asked o g a) (hk : Names asked m k) :
    Traced asked o g (a.file m k c) := by
  obtain ⟨l, hl, hp⟩ := h.slots
  obtain ⟨l', hl', hput⟩ := hl.put_told (a.clock 0) k c none none
  by_cases ht : a.Takes k c
  · have hlog := log_file_of_takes (m := m) ht
    refine ⟨⟨l', hl', fun p hm => ?_⟩, fun m' j d hm => ?_, fun m' j d r hs => ?_⟩
    · rw [hlog]
      obtain ⟨hm, hne⟩ | ⟨-, rfl, rfl⟩ := hput p hm
      · obtain ⟨m', hl⟩ := hp p hm
        exact ⟨m', (latest?_filed_of_ne fun he => hne ht he.symm).trans hl⟩
      · exact ⟨m, latest?_filed_self⟩
    · rw [hlog] at hm
      obtain hm | hm := List.mem_cons.1 hm
      · obtain ⟨rfl, rfl, -⟩ := Event.filed.inj hm
        exact hk (Cache.cacheable_of_put ht)
      · exact h.filed m' j d hm
    · rw [hlog] at hs
      obtain hs | hs := List.suffix_cons_iff.1 hs
      · cases hs
      · exact h.found m' j d r hs
  · have hlog := log_file_of_not_takes (m := m) ht
    refine ⟨⟨l', hl', fun p hm => ?_⟩, by rw [hlog]; exact h.filed, by rw [hlog]; exact h.found⟩
    rw [hlog]
    obtain ⟨hm, -⟩ | ⟨hn, -⟩ := hput p hm
    · exact hp p hm
    · exact absurd hn ht

end Traced

/-- **Every record has a slot**, when nothing leaves the cache, and every search finds the last
record. -/
structure Full (g : Computation → UInt64) (a : Archive ω) : Prop where
  slots : ∃ l, a.cache.Holds .unbounded g l ∧ (∀ p ∈ l, Slot.Lasts p) ∧
    ∀ k, (l.lookup k).map CacheEntry.value = (latest? k a.log).map Prod.snd
  sought : ∀ m k r l, .sought m k r :: l <:+ a.log → k.cacheable = true →
    r = (latest? k l).map Prod.snd

namespace Full

theorem new (clock : Nat → Int64) (w : ω) : Full g (.new .unbounded g clock w) where
  slots := ⟨[], .new _ g, by simp, fun _ => rfl⟩
  sought m k r l h := by simp [Archive.new] at h

theorem look (h : Full g a) (m : Maker) (k : Fingerprint) : Full g (a.look m k).2 := by
  obtain ⟨l, hl, hd, hp⟩ := h.slots
  cases hk : k.cacheable with
  | false =>
    obtain ⟨-, hl'⟩ := hl.get_of_not_cacheable (a.clock 0) hk
    refine ⟨⟨l, hl', hd, hp⟩, fun m' j r t hs hj => ?_⟩
    obtain hs | hs := List.suffix_cons_iff.1 hs
    · obtain ⟨he, -⟩ := List.cons.inj hs
      obtain ⟨-, rfl, -⟩ := Event.sought.inj he
      rw [hk] at hj
      cases hj
    · exact h.sought m' j r t hs hj
  | true =>
    obtain ⟨hg, l', hl', hiff⟩ := hl.get_unbounded hd (a.clock 0) hk
    have hsame : ∀ j, l'.lookup j = l.lookup j := fun j =>
      Option.ext fun e => by rw [hl'.lookup_eq_some_iff, hl.lookup_eq_some_iff, hiff]
    refine ⟨⟨l', hl', fun p hm => hd p ((hiff p).1 hm), fun j => ?_⟩, fun m' j r t hs hj => ?_⟩
    · rw [hsame]
      exact hp j
    · obtain hs | hs := List.suffix_cons_iff.1 hs
      · obtain ⟨he, rfl⟩ := List.cons.inj hs
        obtain ⟨-, rfl, rfl⟩ := Event.sought.inj he
        exact hg.trans (hp j)
      · exact h.sought m' j r t hs hj

theorem file (h : Full g a) (m : Maker) (k : Fingerprint) (c : Computation) :
    Full g (a.file m k c) := by
  obtain ⟨l, hl, hd, hp⟩ := h.slots
  cases hk : k.cacheable with
  | false =>
    have hlog : (a.file m k c).log = a.log := log_file_of_not_takes fun ht => by
      rw [Cache.cacheable_of_put ht] at hk
      cases hk
    have hl' := hl.put_of_not_cacheable (a.clock 0) c none none hk
    exact ⟨⟨l, hl', hd, by rw [hlog]; exact hp⟩, by rw [hlog]; exact h.sought⟩
  | true =>
    obtain ⟨e, rfl, hlast, ht, hl'⟩ := hl.put_unbounded hd (a.clock 0) hk c
    have hlog := log_file_of_takes (m := m) ht
    refine ⟨⟨_, hl', fun p hm => ?_, fun j => ?_⟩, fun m' j r t hs hj => ?_⟩
    · obtain rfl | hm := List.mem_cons.1 hm
      · exact hlast
      · exact hd p (Cache.mem_without.1 hm).1
    · rw [hlog]
      by_cases hj : k = j
      · obtain rfl := hj
        rw [latest?_filed_self, hl'.lookup_eq_some_iff.2 List.mem_cons_self]
        rfl
      · have hsame : ((k, e) :: Cache.without k l).lookup j = l.lookup j := Option.ext fun e' => by
          rw [hl'.lookup_eq_some_iff, hl.lookup_eq_some_iff, List.mem_cons, Cache.mem_without]
          constructor
          · rintro (he | ⟨hm, -⟩)
            · exact absurd (congrArg Prod.fst he).symm hj
            · exact hm
          · exact fun hm => .inr ⟨hm, fun he => hj he.symm⟩
        rw [hsame, latest?_filed_of_ne hj]
        exact hp j
    · rw [hlog] at hs
      obtain hs | hs := List.suffix_cons_iff.1 hs
      · cases hs
      · exact h.sought m' j r t hs hj

end Full

/-- **Each step keeps the trace.** -/
theorem Traced.step (h : Traced asked o g a) (hs : Files asked a a') : Traced asked o g a' := by
  cases hs with
  | work w => exact ⟨h.slots, h.filed, h.found⟩
  | look m k hk => exact h.look hk
  | file m k c hk => exact h.file hk

theorem Full.step (h : Full g a) (hs : Files asked a a') : Full g a' := by
  cases hs with
  | work w => exact ⟨h.slots, h.sought⟩
  | look m k _ => exact h.look m k
  | file m k c _ => exact h.file m k c

end Slots

/-! ## Turns -/

section Turns

variable {o : CacheOptions} {g : Computation → UInt64} {a a' : Archive ω}
  {es : List (Errand ω)} {ps : List (Process (Archive ω) Unit)} {memoize : Bool}

theorem obeys_errands (hs : ∀ e ∈ es, e.Asks asked) :
    ∀ p ∈ es.map (Errand.process memoize), Obeys (filing asked) p := fun p hp => by
  obtain ⟨e, he, rfl⟩ := List.mem_map.1 hp
  exact Errand.obeys memoize (hs e he)

theorem traced (hs : ∀ e ∈ es, e.Asks asked) (h : Traced asked o g a)
    (hr : Interleaves (es.map (Errand.process memoize)) a ps a') : Traced asked o g a' :=
  (hr.keeps (I := Traced asked o g) (fun _ _ => trivial) (fun _ _ => Traced.step)
    (obeys_errands hs) h).1

theorem full (hs : ∀ e ∈ es, e.Asks asked) (h : Full g a)
    (hr : Interleaves (es.map (Errand.process memoize)) a ps a') : Full g a' :=
  (hr.keeps (I := Full g) (fun _ _ => trivial) (fun _ _ => Full.step) (obeys_errands hs) h).1

end Turns

end Archive

end MemoFlow

/-! ## Who filed a record that is found -/

namespace MemoFlow

namespace Archive

open Process

variable {ω : Type}

/-- Who seeks or files a record. -/
def Event.maker : Event → Maker
  | .sought m _ _ => m
  | .filed m _ _ => m

/-- The identity of the record. -/
def Event.key : Event → Fingerprint
  | .sought _ k _ => k
  | .filed _ k _ => k

/-- The identity of a stage is that of a branch that asks the same request. -/
theorem key_eq_of_asks {m : Type → Type} [Monad m] {s : Stage m} {env : Environment} {q : Request}
    {t : BranchTask m} (hs : s.Asks env (some q)) (ht : t.request? = some q) :
    s.key env = pure (.ok (BranchHost.key t)) := by
  rw [(Stage.key_of_asked hs).1, t.key_of_request.2 q ht]

/-- **A record that is found is the one that was filed last** under its identity, by whomever: the
one who seeks it and the one who filed it have asked requests of that identity. It is a record of
the own kind if only that kind has used the identity. Where nothing leaves the cache, what was filed
last is always found. And the identity of a request is the same for stages and for branches. -/
theorem origin_of_records (memoize : Bool) (o : CacheOptions) (g : Computation → UInt64)
    (clock : Nat → Int64) (w : ω) {asked : Maker → Request → Prop} {es : List (Errand ω)}
    (hs : ∀ e ∈ es, e.Asks asked) {ps : List (Process (Archive ω) Unit)} {a : Archive ω}
    (hr : Interleaves (es.map (Errand.process memoize)) (.new o g clock w) ps a) :
    (∀ m k c l, .sought m k (some c) :: l <:+ a.log →
      (∃ m', latest? k l = some (m', c) ∧
        (∃ q, asked m q ∧ q.key = k) ∧ ∃ q, asked m' q ∧ q.key = k) ∧
      ((∀ x ∈ l, x.key = k → x.maker = m) → latest? k l = some (m, c))) ∧
    (o = .unbounded → ∀ m k r l, .sought m k r :: l <:+ a.log → k.cacheable = true →
      r = (latest? k l).map Prod.snd) ∧
    ∀ (s : Stage (Process (Archive ω))) env q (t : BranchTask (Process (Archive ω))),
      s.Asks env (some q) → t.request? = some q → s.key env = pure (.ok (BranchHost.key t)) := by
  have ht := traced hs (.new clock w) hr
  refine ⟨fun m k c l h => ?_, fun ho => ?_, fun s env q t => key_eq_of_asks⟩
  · obtain ⟨hq, m', hl⟩ := ht.found m k c l h
    have hm : .filed m' k c ∈ l := mem_of_latest? hl
    refine ⟨⟨m', hl, hq, ht.filed m' k c (h.subset (List.mem_cons_of_mem _ hm))⟩, fun hx => ?_⟩
    obtain rfl : m' = m := hx _ hm rfl
    exact hl
  · subst ho
    exact (full hs (.new clock w) hr).sought

/-! ## A branch with the request of a stage -/

/-- A source text has the identities of its requests. -/
theorem names_ofText {source : String} (hs : source ≠ "") (inputs : List String)
    (env : Environment) (m : Maker) :
    Names (fun _ q => ∃ env, Request.ofText source env inputs = some q) m
      (.ofRequest source env inputs) := fun hc => by
  obtain ⟨hsome, hq⟩ := Request.key_ofText hs env inputs
  obtain ⟨q, he⟩ := Option.isSome_iff_exists.1 (hsome.symm.trans hc)
  exact ⟨q, ⟨env, he⟩, hq q he⟩

/-- A stage that binds a name, and gives no value. -/
def bindY : Stage (Process (Archive Unit)) :=
  .block "s" (fun env => pure (.ok (none, env.define "y" (.int 1)))) "y = a" ["a"]

/-- A branch with the same request that gives a value, too. -/
def giveY : BranchTask (Process (Archive Unit)) where
  id := "b"
  env := .ofList [("a", .int 1)]
  work := some fun env => pure (.ok (.int 1, env.define "y" (.int 1)))
  source := "y = a"
  inputs := ["a"]

/-- The stage in a pipeline, and then the branch. -/
def errandsOfY : List (Errand Unit) := [.pipeline [bindY] giveY.env, .branch giveY]

/-- The archive before them. -/
def beforeY : Archive Unit := .new .unbounded (fun _ => 1) (fun _ => 0) ()

/-- The archive after the pipeline. -/
def betweenY : Archive Unit :=
  ((Errand.pipeline [bindY] giveY.env).process true).advance beforeY |>.2

/-- The archive after both. -/
def afterY : Archive Unit := ((Errand.branch giveY).process true).advance betweenY |>.2

theorem asks_errandsOfY :
    ∀ e ∈ errandsOfY, e.Asks fun _ q => ∃ env, Request.ofText "y = a" env ["a"] = some q := by
  intro e he
  obtain rfl | rfl : e = .pipeline [bindY] giveY.env ∨ e = .branch giveY := by
    simpa [errandsOfY] using he
  · intro s hm
    obtain rfl := List.mem_singleton.1 hm
    refine ⟨?_, fun _ env => .done fun k hk => ?_⟩
    · rintro _ ⟨⟩ env
      exact .pure _
    · obtain rfl := Except.ok.inj hk
      exact names_ofText (by decide) _ env .stage
  · refine ⟨nofun, ?_, fun hs => names_ofText hs _ giveY.env .branch⟩
    rintro _ ⟨⟩ env
    exact .pure _

/-- A branch found a record without a value, filed by a stage that had found none. -/
def servedByStage (log : List Event) : Bool :=
  match log with
  | [.sought .branch _ (some c), .filed .stage _ _, .sought .stage _ none] => c.value.isNone
  | _ => false

theorem interleaves_errandsOfY : ∃ ps,
    Interleaves (errandsOfY.map (Errand.process true)) beforeY ps afterY := by
  have h1 : Interleaves (errandsOfY.map (Errand.process true)) beforeY _ betweenY :=
    Interleaves.start.finish (i := 0) rfl (by decide +kernel)
  exact ⟨_, h1.finish (i := 1) rfl (by decide +kernel)⟩

/-- A branch is served with what a stage filed, and ends without the value that it gives. -/
theorem branch_served_by_stage : ∃ ps a k c l,
    Interleaves (errandsOfY.map (Errand.process true)) beforeY ps a ∧
      .sought .branch k (some c) :: l <:+ a.log ∧ latest? k l = some (.stage, c) ∧
      (BranchHost.replay giveY c).value = .nil := by
  obtain ⟨ps, hr⟩ := interleaves_errandsOfY
  have hlog : servedByStage afterY.log = true := by decide +kernel
  unfold servedByStage at hlog
  split at hlog
  · next k c j d i he =>
    have hs : .sought .branch k (some c) :: [.filed .stage j d, .sought .stage i none] <:+
        afterY.log := he ▸ List.suffix_rfl
    have ho := (origin_of_records true .unbounded _ _ _ asks_errandsOfY hr).1 _ _ _ _ hs
    obtain ⟨⟨m', hl, -⟩, -⟩ := ho
    have hm := mem_of_latest? hl
    obtain rfl : m' = .stage := by
      rcases List.mem_cons.1 hm with hm | hm
      · exact (Event.filed.inj hm).1
      · cases List.mem_singleton.1 hm
    have hv : c.value = none := Option.isNone_iff_eq_none.1 hlog
    exact ⟨ps, afterY, k, c, _, hr, hs, hl, by rw [BranchHost.replay, hv]; rfl⟩
  · cases hlog

end Archive

end MemoFlow
