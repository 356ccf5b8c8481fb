import MemoFlow.Proofs.Branch.Originals
import MemoFlow.Session.Caches

/-!
# Clients of blocks

Clients start blocks, look at results and wait for them, while the slices of all blocks make their
steps and others use the caches, in any order.

* **`Visit`**, `Answer`, `Visit.process`, `Visit.May`: the calls of clients and their code;
* **`Hall`**, **`Hall.Step`**, `Hall.names`, **`Hall.Reaches`**: the slices with the clients, and
  what can be met as long as fingerprints tell names apart;
* `Floor.Onward`, `Visit.Sound`: what stays, and what holds of the rest of a call;
* **`Hall.Orderly`**, `Hall.Orderly.slice`, `Hall.Orderly.visit`: the invariant, kept by each step;
* **`Hall.candid`**: what the clients see.
-/

namespace MemoFlow

open Process

variable {τ : Type}

/-! ## Calls -/

/-- What a call gives. -/
inductive Answer where
  /-- Nothing. -/
  | done
  /-- The result of a branch, if there is one. -/
  | peeked (r : Option BranchResult)
  /-- The results of a block, if it has come to its end in time. -/
  | joined (r : Option BranchResults)

/-- **A call of a client.** -/
inductive Visit (τ : Type) where
  /-- Start the branches that some code puts together. -/
  | start (prepare : ActOf τ (Except Thrown (List τ))) (workers : Option Nat)
  /-- Look at the result of a branch. -/
  | peek (b : Nat) (id : String)
  /-- Wait for a block. -/
  | wait (b : Nat)
  /-- Wait for a block, at most for a while. -/
  | waitFor (b : Nat)
  /-- Drop everything from all caches. -/
  | clear
  /-- Something that has nothing to do with blocks. -/
  | traffic (f : Session τ → Session τ)
  /-- Plain code. -/
  | work (p : ActOf τ Unit)

/-- **A change of the session that has nothing to do with blocks**: whatever it drops from the cache
of branches, what it brings in is foreign to blocks. -/
structure Session.Strays (foreign : Fingerprint → Prop) (f : Session τ → Session τ) : Prop where
  coordinator : ∀ s, (f s).coordinator = s.coordinator
  config : ∀ s, (f s).config = s.config
  brings : ∀ (s : Session τ) o g l, s.caches.branch.Holds o g l →
    ∃ l', (f s).caches.branch.Holds o g l' ∧ ∀ p ∈ l', p ∈ l ∨ foreign p.1

namespace Visit

/-- **The code of a call.** -/
def process [IsBranch τ] : Visit τ → ActOf τ Answer
  | .start prepare workers => Session.startPrepared prepare workers >>= fun _ => pure .done
  | .peek b id => Session.peek (some b) id τ >>= fun r => pure (.peeked r)
  | .wait b => Session.wait (some b) τ >>= fun r => pure (.joined (some r))
  | .waitFor b => Session.waitFor (some b) τ >>= fun r => pure (.joined r)
  | .clear => Session.clear τ >>= fun _ => pure .done
  | .traffic f => Process.modify f >>= fun _ => pure .done
  | .work p => p >>= fun _ => pure .done

/-- Whether a call may be made: blocks that are waited for were started. -/
def May [IsBranch τ] (foreign : Fingerprint → Prop) (s : Session τ) : Visit τ → Prop
  | .start p _ => Session.Plain p
  | .wait b | .waitFor b => ∃ x, s.coordinator.block? b = some x
  | .traffic f => Session.Strays foreign f
  | .work p => Session.Plain p
  | _ => True

/-- The block that a call waits for. -/
def awaits : Visit τ → Option Nat
  | .wait b | .waitFor b => some b
  | _ => none

/-- The name that a call looks up. -/
def name? : Visit τ → Option (Nat × String)
  | .peek b id => some (b, id)
  | _ => none

end Visit

/-- A join is passed at the end of its block, or given up when its time is over. -/
def Session.Waits [IsRunnable τ] {α : Type} (s : Session τ) (p q : ActOf τ α) : Prop :=
  ∀ b timed k, p = .join b timed k →
    site.isDone s b = true ∧ q = k true ∨ timed = true ∧ q = k false

/-! ## The hall -/

variable [IsRunnable τ]

/-- **The slices of all blocks with the clients.** -/
structure Hall (τ : Type) extends Floor τ where
  /-- The calls so far, each with the code that is left of it. -/
  visits : List (Visit τ × ActOf τ Answer)

namespace Hall

/-- A session at its start, without clients. -/
def new (c : SessionConfig) : Hall τ := ⟨.new c, []⟩

/-- **One step in the hall**, by a slice or by a client. -/
inductive Step (foreign : Fingerprint → Prop) : Hall τ → Hall τ → Prop where
  /-- A slice makes a step. -/
  | slice (ps qs : List (Nat × Position τ)) {b : Nat} {p p' : Position τ} {s s' : Session τ}
    {e : Event} {log : List (Nat × Record)} {vs : List (Visit τ × ActOf τ Answer)}
    (h : Position.Next b p s e p' s') (hj : p.Heeds s p') :
    Step foreign ⟨⟨ps ++ (b, p) :: qs, s, log⟩, vs⟩
      ⟨⟨ps ++ (b, p') :: qs ++ Floor.hired s.coordinator s'.coordinator, s',
        log ++ [(b, e, p'.result?)]⟩, vs⟩
  /-- A client makes a call. -/
  | come {w : Floor τ} {vs : List (Visit τ × ActOf τ Answer)} {v : Visit τ}
    (h : v.May foreign w.session) : Step foreign ⟨w, vs⟩ ⟨w, vs ++ [(v, v.process)]⟩
  /-- The code of a call makes a step. -/
  | visit (vs us : List (Visit τ × ActOf τ Answer)) {ps : List (Nat × Position τ)}
    {s s' : Session τ} {log : List (Nat × Record)} {v : Visit τ} {p q : ActOf τ Answer}
    (h : Process.Step p s q s')
    (hj : s.Waits p q) :
    Step foreign ⟨⟨ps, s, log⟩, vs ++ (v, p) :: us⟩
      ⟨⟨ps ++ Floor.hired s.coordinator s'.coordinator, s', log⟩, vs ++ (v, q) :: us⟩

/-- The names of all branches, and those that were looked up. -/
def names (w : Hall τ) : List (Nat × String) :=
  w.toFloor.names ++ w.visits.filterMap fun v => v.1.name?

/-- **What can be met**, as long as fingerprints tell names apart. -/
inductive Reaches (c : SessionConfig) (foreign : Fingerprint → Prop) : Hall τ → Prop where
  | new : Reaches c foreign (new c)
  | step {w w' : Hall τ} (h : Reaches c foreign w) (hs : Step foreign w w')
    (hd : DistinctNames foreign w'.names) : Reaches c foreign w'

end Hall

/-! ## Floors go on -/

/-- **A later floor.** -/
structure Floor.Onward (w w' : Floor τ) : Prop where
  session : w.session.Onward w'.session
  log : ∃ l, w'.log = w.log ++ l

section Onward

variable {c : SessionConfig} {R : Session.Realm τ}
  {Q : τ → Except BranchFailure BranchOutcome → Prop}
  {w w' : Floor τ} {b : Nat} {id : String} {r : BranchResult}

theorem Floor.HasEnded.onward (h : w.HasEnded b id r) (hv : Floor.Valid c R Q w)
    (ho : w.Onward w') : w'.HasEnded b id r := by
  obtain ⟨x, i, t, hx, ht, hid, he⟩ := h
  obtain ⟨y, hy, hk⟩ := ho.session.block b x (hv.lt hx) hx
  obtain ⟨l, hl⟩ := ho.log
  refine ⟨y, i, t, hy, hk.tasks ▸ ht, hid, ?_⟩
  rw [Floor.records, hl, Floor.ofBlock_append]
  exact he.append _

end Onward

/-! ## Sound calls -/

/-- **The rest of a call that waits for a block**, when the wait is over. -/
def Session.Joining (b : Nat) (s : Session τ) (p : ActOf τ Answer) : Prop :=
  Assures (care (· = b)) (fun t a => ∀ r, a = .joined (some r) → t.Joined b r) s p

/-- **What holds of the rest of a call.** -/
def Visit.Sound (foreign : Fingerprint → Prop) (w : Floor τ) (v : Visit τ) (p : ActOf τ Answer) :
    Prop :=
  match v with
  | .start _ _ | .work _ =>
    Assures (Session.care fun _ => True) (fun _ _ => True) w.session p
  | .peek b id =>
    p = v.process ∨ ∃ r, p = .done (.peeked r) ∧ ∀ a, r = some a → w.HasEnded b id a
  | .wait b | .waitFor b =>
    p = v.process ∧ (∃ x, w.session.coordinator.block? b = some x) ∨ w.session.Joining b p
  | .clear => p = v.process ∨ p = .done .done
  | .traffic f => p = v.process ∧ Session.Strays foreign f ∨ p = .done .done

/-- A call that waits is at its join, or past it. -/
theorem Visit.Sound.of_awaits {foreign : Fingerprint → Prop} {w : Floor τ} {v : Visit τ}
    {p : ActOf τ Answer} {b : Nat} (h : v.Sound foreign w p) (hv : v.awaits = some b) :
    p = v.process ∧ (∃ x, w.session.coordinator.block? b = some x) ∨ w.session.Joining b p := by
  cases v with
  | wait k =>
    obtain rfl := Option.some.inj hv
    exact h
  | waitFor k =>
    obtain rfl := Option.some.inj hv
    exact h
  | _ => cases hv

/-- A call stays sound. -/
theorem Visit.Sound.onward {foreign : Fingerprint → Prop} {c : SessionConfig} {R : Session.Realm τ}
    {Q : τ → Except BranchFailure BranchOutcome → Prop} {w w' : Floor τ} {v : Visit τ}
    {p : ActOf τ Answer} (h : v.Sound foreign w p) (hv : Floor.Valid c R Q w) (ho : w.Onward w') :
    v.Sound foreign w' p := by
  have hwait : ∀ {b : Nat} {v : Visit τ},
      p = v.process ∧ (∃ x, w.session.coordinator.block? b = some x) ∨ w.session.Joining b p →
      p = v.process ∧ (∃ x, w'.session.coordinator.block? b = some x) ∨ w'.session.Joining b p := by
    rintro b v (⟨hp, x, hx⟩ | hj)
    · obtain ⟨y, hy, -⟩ := ho.session.block b x (hv.lt hx) hx
      exact .inl ⟨hp, y, hy⟩
    · exact .inr (hj.mono ho.session)
  cases v with
  | start tasks workers => exact Assures.mono h ho.session
  | work p => exact Assures.mono h ho.session
  | peek b id =>
    exact h.imp_right fun ⟨r, hp, he⟩ => ⟨r, hp, fun a ha => (he a ha).onward hv ho⟩
  | wait b => exact hwait h
  | waitFor b => exact hwait h
  | clear => exact h
  | traffic f => exact h

namespace Session

variable {s : Session τ} {b : Nat} {x : Block τ}

/-- Starting a block keeps to the pact. -/
theorem assures_startPrepared {p : ActOf τ (Except Thrown (List τ))} (hp : Plain p)
    (workers : Option Nat) :
    Assures (care fun _ => True) (fun _ _ => True) s (startPrepared p workers) := by
  refine (hp.cares (fun _ => trivial) s trivial).bind fun r t _ _ => ?_
  cases r with
  | error e => exact .done fun _ _ => trivial
  | ok ts => exact (assures_start ts workers).imp fun _ _ _ => trivial

/-- A wait goes on at the end of its block. -/
theorem joining_collect (hb : b < s.coordinator.nextBlock) (hx : s.coordinator.block? b = some x)
    (hd : x.isDone = true) (hh : x.IsHonest) :
    s.Joining b (collect b >>= fun r => pure (.joined (some r))) := by
  have hcollect : Assures (care (· = b)) (fun t r => t.Joined b r) s (collect b) :=
    assures_collect_joined rfl hb hx hd hh
  refine hcollect.bind fun r t _ hr => .done fun u hu r' he => ?_
  obtain rfl := Option.some.inj (Answer.joined.inj he)
  exact hr.onward hu

/-- A wait that is given up gives no results. -/
theorem joining_note (n : Note) :
    s.Joining b (note (τ := τ) n >>= fun _ => pure (.joined none)) :=
  .change (fun _ _ => .rest (.of_eq rfl rfl rfl)) fun _ _ => .done fun _ _ _ he => nomatch he

/-- **A wait passes its join** when the block is done, and comes to its results then. -/
theorem joining_of_step {v : Visit τ} {q : ActOf τ Answer} {s' : Session τ} (hv : v.awaits = some b)
    (hb : b < s.coordinator.nextBlock) (hx : s.coordinator.block? b = some x) (hh : x.IsHonest)
    (h : Process.Step v.process s q s') (hj : s.Waits v.process q) : s' = s ∧ s.Joining b q := by
  have hdone : site.isDone s b = true →
      s.Joining b (collect b >>= fun r => pure (.joined (some r))) := fun hd =>
    joining_collect hb hx (block?_of_isDone hx hd) hh
  -- A step of a join leaves the session as it is.
  have hstep : ∀ {timed : Bool} {k : Bool → ActOf τ Answer}, Process.Step (.join b timed k) s q s' →
      s' = s := fun h => by
    cases h
    rfl
  cases v with
  | wait k =>
    obtain rfl := Option.some.inj hv
    refine ⟨hstep h, ?_⟩
    obtain ⟨hd, rfl⟩ | ⟨ht, -⟩ := hj k false _ rfl
    · change s.Joining k (((collect k >>= fun r => pure (some r)) >>= fun r => pure (r.getD ∅)) >>=
        fun r => pure (.joined (some r)))
      simpa only [bind_assoc, pure_bind, Option.getD_some] using hdone hd
    · cases ht
  | waitFor k =>
    obtain rfl := Option.some.inj hv
    refine ⟨hstep h, ?_⟩
    obtain ⟨hd, rfl⟩ | ⟨-, rfl⟩ := hj k true _ rfl
    · change s.Joining k ((collect k >>= fun r => pure (some r)) >>= fun r => pure (.joined r))
      simpa only [bind_assoc, pure_bind] using hdone hd
    · change s.Joining k ((note (τ := τ) _ >>= fun _ => pure none) >>= fun r => pure (.joined r))
      simpa only [bind_assoc, pure_bind] using joining_note _
  | _ => cases hv

end Session

theorem DistinctNames.mono {foreign : Fingerprint → Prop} {l l' : List (Nat × String)}
    (h : DistinctNames foreign l) (hl : ∀ p ∈ l', p ∈ l) : DistinctNames foreign l' :=
  ⟨fun p hp q hq => h.inj p (hl p hp) q (hl q hq), fun p hp => h.home p (hl p hp)⟩

theorem Session.Strays.yields {foreign : Fingerprint → Prop} {f : Session τ → Session τ}
    (h : Strays foreign f) (s : Session τ) : s.Yields foreign (f s) :=
  .of_blocks ⟨.rest (h.coordinator s ▸ .refl _), h.config s⟩ (by rw [h.coordinator]) (h.brings s)

omit [IsRunnable τ] in
/-- What clears all caches has nothing to do with blocks. -/
theorem Session.strays_clear (foreign : Fingerprint → Prop) :
    Strays foreign fun s : Session τ => { s with caches := s.caches.clear } where
  coordinator _ := rfl
  config _ := rfl
  brings _ _ _ _ hl := ⟨[], hl.clear, fun _ hp => absurd hp List.not_mem_nil⟩

/-! ## The invariant -/

namespace Hall

variable {c : SessionConfig} {foreign : Fingerprint → Prop} {w w' : Hall τ}

/-- **The invariant of a hall.** -/
structure Orderly (c : SessionConfig) (foreign : Fingerprint → Prop) (w : Hall τ) : Prop where
  run : Relation.ReflTransGen Floor.Step (.new c) w.toFloor
  distinct : DistinctNames foreign w.names
  backed : w.toFloor.Backed foreign
  bodies : ∀ b g p, (b, .running g p) ∈ w.slices →
    Assures (Session.care fun _ => True) (fun _ _ => True) w.session p
  visits : ∀ v p, (v, p) ∈ w.visits → v.Sound foreign w.toFloor p

theorem mem_names_of_floor {p : Nat × String} (h : p ∈ w.toFloor.names) : p ∈ w.names :=
  List.mem_append_left _ h

theorem mem_names_of_visit {v : Visit τ} {p : ActOf τ Answer} {n : Nat × String}
    (h : (v, p) ∈ w.visits) (hn : v.name? = some n) : n ∈ w.names :=
  List.mem_append_right _ (List.mem_filterMap.2 ⟨(v, p), h, hn⟩)

namespace Orderly

theorem new (c : SessionConfig) (foreign : Fingerprint → Prop) :
    Orderly c foreign (Hall.new c : Hall τ) where
  run := .refl
  distinct := ⟨fun _ h => absurd h List.not_mem_nil, fun _ h => absurd h List.not_mem_nil⟩
  backed := ⟨_, _, [], .new _ _, fun _ h => absurd h List.not_mem_nil⟩
  bodies _ _ _ h := absurd h List.not_mem_nil
  visits _ _ h := absurd h List.not_mem_nil

theorem distinct_floor (h : Orderly c foreign w) : DistinctNames foreign w.toFloor.names :=
  h.distinct.mono fun _ => mem_names_of_floor

variable [IsPlainBranch τ]

theorem valid (h : Orderly c foreign w) :
    Floor.Valid c (Floor.reached c) (fun _ _ => True) w.toFloor :=
  Floor.valid_of_reach (fun t => (Session.plain_answer c t).honours) h.run

theorem isHonest (h : Orderly c foreign w) {b : Nat} {x : Block τ}
    (hx : w.session.coordinator.block? b = some x) : x.IsHonest := fun r hr => by
  obtain hc | ⟨hd, hc⟩ := (h.valid.kept b x hx).sound.collected
  · exact nomatch hc.symm.trans hr
  · exact ⟨hd, Option.some.inj (hr.symm.trans hc)⟩

/-- A copy of a name that is told apart has an original. -/
theorem original (h : Orderly c foreign w) {b : Nat} {id : String} {e : CacheEntry BranchResult}
    (hn : (b, id) ∈ w.names) (he : w.session.copy? b id = some e) :
    w.toFloor.Original b id e.value :=
  h.backed.original h.valid h.distinct (fun _ => mem_names_of_floor) hn he

/-- **A step that leads onward keeps the invariant**, when it does for the body or the call that
made it. -/
theorem next (h : Orderly c foreign w)
    (hrun : Relation.ReflTransGen Floor.Step w.toFloor w'.toFloor)
    (ho : w.toFloor.Onward w'.toFloor) (hb : w'.toFloor.Backed foreign)
    (hd : DistinctNames foreign w'.names)
    (hbodies : ∀ b g p, (b, .running g p) ∈ w'.slices → (b, .running g p) ∈ w.slices ∨
      Assures (Session.care fun _ => True) (fun _ _ => True) w'.session p)
    (hvisits : ∀ v p, (v, p) ∈ w'.visits → (v, p) ∈ w.visits ∨ v.Sound foreign w'.toFloor p) :
    Orderly c foreign w' where
  run := h.run.trans hrun
  distinct := hd
  backed := hb
  bodies b g p hp := (hbodies b g p hp).elim (fun hp => (h.bodies b g p hp).mono ho.session) id
  visits v p hp := (hvisits v p hp).elim (fun hp => (h.visits v p hp).onward h.valid ho) id

theorem onward_yields (h : Orderly c foreign w) {s' : Session τ} (hy : w.session.Yields foreign s')
    (ps : List (Nat × Position τ)) {log : List (Nat × Record)} (hlog : ∃ l, log = w.log ++ l) :
    w.toFloor.Onward ⟨ps, s', log⟩ :=
  ⟨h.backed.onward_yields h.valid h.distinct_floor hy, hlog⟩

/-- A step of code that tends to blocks. -/
theorem assured_step (h : Orderly c foreign w) {α : Type} {own : Nat → Prop}
    {Q : Session τ → α → Prop}
    {p q : ActOf τ α} {s' : Session τ} (hp : Assures (Session.care own) Q w.session p)
    (hs : Process.Step p w.session q s')
    (hj : ∀ b timed k, p = .join b timed k →
      Session.site.isDone w.session b = true ∨ q = k false) :
    w.session.Yields foreign s' ∧ Assures (Session.care own) Q s' q := by
  obtain ⟨hstep, hq⟩ := hp.of_step hs hj
  obtain rfl | ht := hstep
  · exact ⟨.refl foreign _, hq⟩
  · exact ⟨ht.yields h.valid.tidy foreign, hq⟩

/-- **A look at a result** finds that of a branch that has ended. -/
theorem peek_step (h : Orderly c foreign w) {b : Nat} {id : String} {q : ActOf τ Answer}
    {s' : Session τ} (hn : (b, id) ∈ w.names)
    (hs : Process.Step (Visit.peek b id).process w.session q s') :
    w.session.Yields foreign s' ∧
      ∃ r, q = .done (.peeked r) ∧ ∀ a, r = some a → w.HasEnded b id a := by
  obtain ⟨r, hr, rfl⟩ := step_update_iff (g := fun r => (pure (.peeked r) : ActOf τ Answer)).1 hs
  obtain ⟨hdone, rfl⟩ := Prod.mk.inj hr
  refine ⟨.of_blocks ⟨.rest (.refl _), rfl⟩ rfl fun o g l hl => ?_, r, rfl, fun a ha => ?_⟩
  · obtain ⟨l', hl', hsub, -⟩ := hl.get w.session.now (.ofBranch b id)
    exact ⟨l', hl', fun p hp => .inl (hsub p hp)⟩
  · obtain ⟨o, g, l, hl, -⟩ := h.backed
    obtain ⟨-, -, -, hfound⟩ := hl.get w.session.now (.ofBranch b id)
    obtain ⟨-, e, he, rfl⟩ := hfound a ((Stop.done.inj hdone).trans ha)
    exact (h.original hn (hl.entry?_eq_some_iff.2 he)).hasEnded h.valid

/-- **A call keeps sound.** -/
theorem visit_step (h : Orderly c foreign w) {v : Visit τ} {p q : ActOf τ Answer} {s' : Session τ}
    (hm : (v, p) ∈ w.visits) (hs : Process.Step p w.session q s') (hj : w.session.Waits p q)
    (ps : List (Nat × Position τ)) :
    w.session.Yields foreign s' ∧ v.Sound foreign ⟨ps, s', w.log⟩ q := by
  have hsound := h.visits v p hm
  have hjoin : ∀ b timed k, p = .join b timed k →
      Session.site.isDone w.session b = true ∨ q = k false := fun b timed k hp =>
    (hj b timed k hp).imp And.left And.right
  have hwait : ∀ {b : Nat}, v.awaits = some b →
      w.session.Yields foreign s' ∧ s'.Joining b q := fun {b} hv => by
    obtain ⟨rfl, x, hx⟩ | hp := hsound.of_awaits hv
    · obtain ⟨rfl, hq⟩ := Session.joining_of_step hv (h.valid.lt hx) hx (h.isHonest hx) hs hj
      exact ⟨.refl foreign _, hq⟩
    · exact h.assured_step hp hs hjoin
  have hstray : ∀ {f : Session τ → Session τ}, Session.Strays foreign f →
      Process.Step (Process.modify f >>= fun _ => pure .done) w.session q s' →
      w.session.Yields foreign s' ∧ q = .done .done := fun hf hs => by
    obtain ⟨hr, rfl⟩ := step_modify_iff.1 hs
    obtain ⟨-, rfl⟩ := Prod.mk.inj hr
    exact ⟨hf.yields w.session, rfl⟩
  cases v with
  | start tasks workers => exact h.assured_step hsound hs hjoin
  | work p => exact h.assured_step hsound hs hjoin
  | peek b id =>
    obtain rfl | ⟨r, rfl, -⟩ := hsound
    · obtain ⟨hy, r, hq, he⟩ := h.peek_step (mem_names_of_visit hm rfl) hs
      have ho := h.onward_yields hy ps ⟨[], (List.append_nil _).symm⟩
      exact ⟨hy, .inr ⟨r, hq, fun a ha => (he a ha).onward h.valid ho⟩⟩
    · cases hs
  | wait b => exact (hwait rfl).imp_right .inr
  | waitFor b => exact (hwait rfl).imp_right .inr
  | clear =>
    obtain rfl | rfl := hsound
    · exact (hstray (Session.strays_clear foreign) hs).imp_right .inr
    · cases hs
  | traffic f =>
    obtain ⟨rfl, hf⟩ | rfl := hsound
    · exact (hstray hf hs).imp_right .inr
    · cases hs

section Slice

variable {ps qs : List (Nat × Position τ)} {b : Nat} {p p' : Position τ} {s s' : Session τ}
  {e : Event} {log : List (Nat × Record)} {vs : List (Visit τ × ActOf τ Answer)}

omit [IsRunnable τ] [IsPlainBranch τ] in
/-- A body that is at work after a step of a slice was so before, or it is that of the slice. -/
theorem body_of_slice {sl : List (Nat × Position τ)} {c' : Coordinator τ} {k : Nat}
    {g : Errand τ} {q : ActOf τ (Except BranchFailure BranchOutcome)}
    (hsl : sl = ps ++ (b, p') :: qs ++ Floor.hired s.coordinator c')
    (hm : (k, .running g q) ∈ sl) :
    (k, .running g q) ∈ ps ++ (b, p) :: qs ∨ p' = .running g q := by
  subst hsl
  simp only [List.mem_append, List.mem_cons, Prod.mk.injEq] at hm ⊢
  obtain (hm | ⟨-, hp⟩ | hm) | hm := hm
  · exact .inl (.inl hm)
  · exact .inr hp.symm
  · exact .inl (.inr (.inr hm))
  · cases Floor.eq_waiting_of_hired hm

/-- A step in the body of a branch keeps the invariant. -/
theorem body {g : Errand τ} {q q' : ActOf τ (Except BranchFailure BranchOutcome)}
    (h : Orderly c foreign ⟨⟨ps ++ (b, .running g q) :: qs, s, log⟩, vs⟩)
    (hs : Process.Step q s q' s') (hj : Position.Heeds s (.running g q) (.running g q'))
    {w' : Hall τ}
    (hw' : w' = ⟨⟨ps ++ (b, .running g q') :: qs ++ Floor.hired s.coordinator s'.coordinator, s',
      log ++ [(b, .other, none)]⟩, vs⟩) (hd : DistinctNames foreign w'.names) :
    Orderly c foreign w' := by
  subst hw'
  have hjoin : ∀ k timed f, q = .join k timed f →
      Session.site.isDone s k = true ∨ q' = f false := fun k timed f hq =>
    (hj g k timed f (hq ▸ rfl)).imp_right fun he => (Position.running.inj he).2
  obtain ⟨hy, hrest⟩ := h.assured_step (h.bodies b g q (by simp)) hs hjoin
  have hstep : Floor.Step ⟨ps ++ (b, .running g q) :: qs, s, log⟩ _ := .slice (.go hs) hj
  refine h.next (.single hstep) (h.onward_yields hy _ ⟨_, rfl⟩)
    (h.backed.yields h.valid hy fun k g' r hm => ?_) hd (fun k g' r hm => ?_) fun v p hm => .inl hm
  · simp only [List.mem_append, List.mem_cons, Prod.mk.injEq] at hm ⊢
    obtain hm | ⟨-, hp⟩ | hm := hm
    · exact .inl (.inl hm)
    · cases hp
    · exact .inl (.inr (.inr hm))
  · refine (body_of_slice rfl hm).imp_right fun he => ?_
    obtain ⟨rfl, rfl⟩ := Position.running.inj he
    exact hrest

/-- **A step of a slice keeps the invariant.** -/
theorem slice (h : Orderly c foreign ⟨⟨ps ++ (b, p) :: qs, s, log⟩, vs⟩)
    (hn : Position.Next b p s e p' s') (hj : p.Heeds s p') {w' : Hall τ}
    (hw' : w' = ⟨⟨ps ++ (b, p') :: qs ++ Floor.hired s.coordinator s'.coordinator, s',
      log ++ [(b, e, p'.result?)]⟩, vs⟩) (hd : DistinctNames foreign w'.names) :
    Orderly c foreign w' := by
  by_cases hbody : ∃ g q q', p = .running g q ∧ p' = .running g q'
  · obtain ⟨g, q, q', rfl, rfl⟩ := hbody
    cases hn with
    | go hs => exact h.body hs hj hw' hd
  · subst hw'
    have hv := h.valid
    obtain ⟨x, hx⟩ : ∃ x, s.coordinator.block? b = some x := hv.homes (b, p) (by simp)
    have hnot : ∀ g q q', p = .running g q → p' ≠ .running g q' := fun g q q' hp hp' =>
      hbody ⟨g, q, q', hp, hp'⟩
    have hstep : Floor.Step ⟨ps ++ (b, p) :: qs, s, log⟩ _ := .slice hn hj
    obtain ⟨f, hf, heff, hw, -⟩ | ⟨g, q, q', hp, -, hp', -⟩ := hn.effect hx (hv.kept b x hx).policy
    · refine h.next (.single hstep) ⟨?_, _, rfl⟩ (h.backed.works hv hn hx hf heff hw hnot _) hd
        (fun k g q hm => ?_) fun v p hm => .inl hm
      · exact h.backed.onward_works hv h.distinct_floor hn hx hf heff hw hnot
      · refine (body_of_slice rfl hm).imp_right fun hp => ?_
        subst hp
        cases hn with
        | begin _ =>
          rw [hv.configs b (.claimed g) g.config (by simp) rfl]
          exact (Session.plain_answer c g.task).cares (fun _ => trivial) s' trivial
        | go _ => exact absurd rfl (hnot g _ _ rfl)
    · exact absurd hp' (hnot g q q' hp)

end Slice

/-- **A call that is made keeps the invariant.** -/
theorem come {f : Floor τ} {vs : List (Visit τ × ActOf τ Answer)} {v : Visit τ}
    (h : Orderly c foreign ⟨f, vs⟩) (hv : v.May foreign f.session)
    (hd : DistinctNames foreign (names ⟨f, vs ++ [(v, v.process)]⟩)) :
    Orderly c foreign ⟨f, vs ++ [(v, v.process)]⟩ := by
  refine h.next .refl ⟨.refl _, [], (List.append_nil _).symm⟩ h.backed hd
    (fun b g p hp => .inl hp) fun u p hm => ?_
  obtain hm | hm := List.mem_append.1 hm
  · exact .inl hm
  · obtain ⟨rfl, rfl⟩ := Prod.mk.inj (List.mem_singleton.1 hm)
    right
    cases u with
    | start p workers =>
      have hstart := Session.assures_startPrepared (s := f.session) hv workers
      exact hstart.bind fun _ _ _ _ => .done fun _ _ => trivial
    | work p => exact (hv.bind fun _ => .pure _).cares (fun _ => trivial) _ trivial
    | peek b id => exact .inl rfl
    | wait b => exact .inl ⟨rfl, hv⟩
    | waitFor b => exact .inl ⟨rfl, hv⟩
    | clear => exact .inl rfl
    | traffic f => exact .inl ⟨rfl, hv⟩

/-- **A step of a call keeps the invariant.** -/
theorem visit {ps : List (Nat × Position τ)} {s s' : Session τ} {log : List (Nat × Record)}
    {vs us : List (Visit τ × ActOf τ Answer)} {v : Visit τ} {p q : ActOf τ Answer}
    (h : Orderly c foreign ⟨⟨ps, s, log⟩, vs ++ (v, p) :: us⟩) (hs : Process.Step p s q s')
    (hj : s.Waits p q) {w' : Hall τ}
    (hw' : w' = ⟨⟨ps ++ Floor.hired s.coordinator s'.coordinator, s', log⟩, vs ++ (v, q) :: us⟩)
    (hd : DistinctNames foreign w'.names) : Orderly c foreign w' := by
  subst hw'
  have hm : (v, p) ∈ vs ++ (v, p) :: us := by simp
  obtain ⟨hy, hq⟩ := h.visit_step hm hs hj (ps ++ Floor.hired s.coordinator s'.coordinator)
  have hrun : Floor.Step ⟨ps, s, log⟩ _ := .around hy.moves
  refine h.next (.single hrun) (h.onward_yields hy _ ⟨[], (List.append_nil _).symm⟩)
    (h.backed.yields h.valid hy fun _ _ _ hm => List.mem_append_left _ hm) hd
    (fun b g r hm => ?_) fun u r hm => ?_
  · obtain hm | hm := List.mem_append.1 hm
    · exact .inl hm
    · cases Floor.eq_waiting_of_hired hm
  · simp only [List.mem_append, List.mem_cons, Prod.mk.injEq] at hm ⊢
    obtain hm | ⟨rfl, rfl⟩ | hm := hm
    · exact .inl (.inl hm)
    · exact .inr hq
    · exact .inl (.inr (.inr hm))

/-- **All that can be met is orderly.** -/
theorem of_reaches (h : Reaches c foreign w) : Orderly c foreign w := by
  induction h with
  | new => exact .new c foreign
  | step _ hs hd ih =>
    cases hs with
    | slice ps qs hn hj => exact ih.slice hn hj rfl hd
    | come hv => exact ih.come hv hd
    | visit vs us hs hj => exact ih.visit hs hj rfl hd

/-- What code drops from the cache of branches belongs to a block of its own. -/
theorem assured_copy (h : Orderly c foreign w) {α : Type} {own : Nat → Prop}
    {Q : Session τ → α → Prop} {p q : ActOf τ α} {s' : Session τ}
    (hp : Assures (Session.care own) Q w.session p) (hs : Process.Step p w.session q s')
    (hj : ∀ b timed k, p = .join b timed k →
      Session.site.isDone w.session b = true ∨ q = k false) :
    (∀ k id, s'.copy? k id = w.session.copy? k id) ∨ ∃ b, own b ∧
      ∀ k id, k ≠ b → (k, id) ∈ w.names → s'.copy? k id = w.session.copy? k id := by
  obtain ⟨rfl | ht, -⟩ := hp.of_step hs hj
  · exact .inl fun _ _ => rfl
  · refine ht.copy?_cases.imp_right fun ⟨b, x, r, hb, hx, hr, hcopy⟩ =>
      ⟨b, hb, fun k id hne hn => hcopy k id fun he => hne ?_⟩
    have hmem := mem_names_of_floor (h.valid.mem_names_of_stored hx hr)
    have hpair : (k, id) = (b, r.id) := h.distinct.inj (k, id) hn (b, r.id) hmem he
    exact (Prod.mk.inj hpair).1

omit [IsPlainBranch τ] in
/-- **What a wait gives** are the results of its block. -/
theorem joined (h : Orderly c foreign w) {v : Visit τ} {b : Nat} {rs : BranchResults}
    (hv : v.awaits = some b) (hm : (v, .done (.joined (some rs))) ∈ w.visits) :
    w.session.Joined b rs := by
  obtain ⟨he, -⟩ | hj := (h.visits v _ hm).of_awaits hv
  · cases v with
    | wait k => cases he
    | waitFor k => cases he
    | _ => cases hv
  · cases hj with
    | done hq => exact hq _ (Session.Onward.refl _) rs rfl

end Orderly

/-! ## What clients see -/

/-- **What clients see.** -/
structure Candid (w : Hall τ) : Prop where
  /-- What a look has found is the result of a branch that has ended. -/
  peeked : ∀ b id r, (.peek b id, .done (.peeked (some r))) ∈ w.visits → w.HasEnded b id r
  /-- What a wait has given are the results of its block, which are collected. -/
  joined : ∀ v b rs, v.awaits = some b → (v, .done (.joined (some rs))) ∈ w.visits →
    w.session.Joined b rs
  /-- What a look has found is what each wait for the block gives for the branch. -/
  agreed : ∀ v b id r rs, v.awaits = some b → (v, .done (.joined (some rs))) ∈ w.visits →
    (.peek b id, .done (.peeked (some r))) ∈ w.visits → rs.find? id = some r
  /-- All waits for a block give the same. -/
  same : ∀ v v' b rs rs', v.awaits = some b → v'.awaits = some b →
    (v, .done (.joined (some rs))) ∈ w.visits → (v', .done (.joined (some rs'))) ∈ w.visits →
    rs = rs'
  /-- There are no copies of a block whose results are collected. -/
  gone : ∀ b x, w.session.coordinator.block? b = some x → x.collected.isSome = true →
    ∀ id, (b, id) ∈ w.names → w.session.copy? b id = none
  /-- A step of a wait leaves the copies of all other blocks where they are. -/
  apart : ∀ v b p q s', v.awaits = some b → (v, p) ∈ w.visits → Process.Step p w.session q s' →
    w.session.Waits p q → ∀ k id, k ≠ b → (k, id) ∈ w.names →
      s'.copy? k id = w.session.copy? k id
  /-- So does a step of a body, which may wait for a block of its own. -/
  nested : ∀ b g p q s', (b, .running g p) ∈ w.slices → Process.Step p w.session q s' →
    Position.Heeds w.session (.running g p) (.running g q) → ∃ own, ∀ k id, k ≠ own →
      (k, id) ∈ w.names → s'.copy? k id = w.session.copy? k id

/-- **Looks and waits tell the same.** However the slices of all blocks, the clients and what else
uses the caches make their steps, and however many copies the cache of branches can keep: as long as
fingerprints tell names apart, what a look finds is the result of a branch that has ended, each wait
gives it for the branch, all waits for a block give the same, and a block whose results are
collected has left nothing in the cache, while the copies of other blocks are where they were. -/
theorem candid [IsPlainBranch τ] (h : Reaches c foreign w) : w.Candid := by
  have ho := Orderly.of_reaches h
  have hpeeked : ∀ b id r, (.peek b id, .done (.peeked (some r))) ∈ w.visits →
      w.HasEnded b id r := fun b id r hm => by
    obtain he | ⟨a, he, hended⟩ := ho.visits _ _ hm
    · cases he
    · exact hended r (Answer.peeked.inj (Process.done.inj he)).symm
  refine ⟨hpeeked, fun v b rs hv hm => ho.joined hv hm, fun v b id r rs hv hm hp => ?_,
    fun v v' b rs rs' hv hv' hm hm' => ?_, fun b x hx hc id hn => ?_,
    fun v b p q s' hv hm hs hj k id hne hn => ?_, fun b g p q s' hm hs hj => ?_⟩
  · exact (hpeeked b id r hp).find?_joined ho.valid (ho.joined hv hm)
  · obtain ⟨-, x, hx, -, -, rfl⟩ := ho.joined hv hm
    obtain ⟨-, y, hy, -, -, rfl⟩ := ho.joined hv' hm'
    rw [Option.some.inj (hx.symm.trans hy)]
  · refine Option.eq_none_iff_forall_ne_some.2 fun e he => ?_
    obtain ⟨y, hy, hnone, -⟩ := ho.original hn he
    obtain rfl := Option.some.inj (hx.symm.trans hy)
    rw [hnone] at hc
    cases hc
  · obtain ⟨rfl, x, hx⟩ | hp := (ho.visits v p hm).of_awaits hv
    · obtain ⟨rfl, -⟩ := Session.joining_of_step hv (ho.valid.lt hx) hx (ho.isHonest hx) hs hj
      rfl
    · obtain hsame | ⟨own, rfl, hsame⟩ := ho.assured_copy hp hs fun b timed k hp =>
        (hj b timed k hp).imp And.left And.right
      · exact hsame k id
      · exact hsame k id hne hn
  · obtain hsame | ⟨own, -, hsame⟩ := ho.assured_copy (ho.bodies b g p hm) hs fun k timed f hp =>
      (hj g k timed f (hp ▸ rfl)).imp_right fun he => (Position.running.inj he).2
    · exact ⟨0, fun k id _ _ => hsame k id⟩
    · exact ⟨own, hsame⟩

/-! ## A block of two branches -/

/-- Two branches without instructions. -/
def halves : List Script.TaskSpec :=
  [.mk "left" ∅ (some []) [] "" [], .mk "right" ∅ (some []) [] "" []]

/-- A key that has nothing to do with blocks. -/
def elsewhere (k : Fingerprint) : Prop := k = .ofText "elsewhere"

/-- The names of the two branches are told apart. -/
theorem distinct_halves {l : List (Nat × String)}
    (h : l <+: [(1, "left"), (1, "right"), (1, "left")]) : DistinctNames elsewhere l := by
  have hl : ∀ p ∈ l, p = (1, "left") ∨ p = (1, "right") := fun p hp => by
    have hp := h.subset hp
    simp only [List.mem_cons, List.not_mem_nil, or_false] at hp
    obtain hp | hp | hp := hp
    · exact .inl hp
    · exact .inr hp
    · exact .inl hp
  have hne : Fingerprint.ofBranch 1 "left" ≠ .ofBranch 1 "right" := by decide +kernel
  have hleft : Fingerprint.ofBranch 1 "left" ≠ .ofText "elsewhere" := by decide +kernel
  have hright : Fingerprint.ofBranch 1 "right" ≠ .ofText "elsewhere" := by decide +kernel
  constructor
  · intro p hp q hq he
    obtain rfl | rfl := hl p hp <;> obtain rfl | rfl := hl q hq
    · rfl
    · exact absurd he hne
    · exact absurd he.symm hne
    · rfl
  · intro p hp
    obtain rfl | rfl := hl p hp
    · exact hleft
    · exact hright

/-- A step of a run with no other names. -/
theorem Reaches.carry {w w' : Hall PreparedTask} (h : Reaches Floor.hasty elsewhere w)
    (hs : Step elsewhere w w') (hl : w'.names <+: [(1, "left"), (1, "right"), (1, "left")]) :
    Reaches Floor.hasty elsewhere w' := h.step hs (distinct_halves hl)

/-- A look finds what the wait gives later. -/
theorem candid_of_halves : ∃ (w : Hall PreparedTask) (r : BranchResult) (rs : BranchResults),
    Reaches Floor.hasty elsewhere w ∧ w.Candid ∧
    (.peek 1 "left", .done (.peeked (some r))) ∈ w.visits ∧ r.status = .ok ∧
    (.wait 1, .done (.joined (some rs))) ∈ w.visits ∧ rs.find? "left" = some r := by
  obtain ⟨w, a, rs, hw, hp, hj, ha⟩ : ∃ (w : Hall PreparedTask) (a : Option BranchResult)
      (rs : BranchResults), Reaches Floor.hasty elsewhere w ∧
      w.visits[1]? = some (.peek 1 "left", .done (.peeked a)) ∧
      w.visits[2]? = some (.wait 1, .done (.joined (some rs))) ∧
      a.map BranchResult.status = some .ok := by
    have h := Reaches.new.carry (.come (v := .start (Session.prepareTasks halves) (some 1))
      (Session.plain_prepareTasks halves)) ⟨_, rfl⟩
    have h := h.carry (.visit [] [] (.change rfl) nofun) ⟨_, rfl⟩
    -- The slice runs the first branch and keeps its result.
    have h := h.carry (.slice [] _ (.enter rfl) (.of_idle rfl)) ⟨_, rfl⟩
    have h := h.carry (.slice [] _ (.claim rfl) (.of_idle rfl)) ⟨_, rfl⟩
    have h := h.carry (.slice [] _ (.begin rfl) (.of_idle rfl)) ⟨_, rfl⟩
    have h := h.carry (.slice [] _ (.finish rfl) .of_done) ⟨_, rfl⟩
    have h := h.carry (.slice [] _ (.file rfl) (.of_idle rfl)) ⟨_, rfl⟩
    -- A client looks at it.
    have h := h.carry (.come (v := .peek 1 "left") trivial) ⟨_, rfl⟩
    have h := h.carry (.visit [_] [] (.change rfl) nofun) ⟨_, rfl⟩
    -- The slice goes on to its end.
    have h := h.carry (.slice [] _ (.store rfl) (.of_idle rfl)) ⟨_, rfl⟩
    have h := h.carry (.slice [] _ (.claim rfl) (.of_idle rfl)) ⟨_, rfl⟩
    have h := h.carry (.slice [] _ (.begin rfl) (.of_idle rfl)) ⟨_, rfl⟩
    have h := h.carry (.slice [] _ (.finish rfl) .of_done) ⟨_, rfl⟩
    have h := h.carry (.slice [] _ (.file rfl) (.of_idle rfl)) ⟨_, rfl⟩
    have h := h.carry (.slice [] _ (.store rfl) (.of_idle rfl)) ⟨_, rfl⟩
    have h := h.carry (.slice [] _ (.exhaust rfl) (.of_idle rfl)) ⟨_, rfl⟩
    have h := h.carry (.slice [] _ (.retire rfl) (.of_idle rfl)) ⟨_, rfl⟩
    -- A client waits for the block and collects its results.
    have h := h.carry (.come (v := .wait 1) ⟨_, rfl⟩) ⟨_, rfl⟩
    have h := h.carry (.visit [_, _] [] (.join true) fun _ _ _ he => by
      cases he
      exact .inl ⟨rfl, rfl⟩) ⟨_, rfl⟩
    have h := h.carry (.visit [_, _] [] (.read fun _ _ he => nomatch he) nofun) ⟨_, rfl⟩
    have h := h.carry (.visit [_, _] [] (.change rfl) nofun) ⟨_, rfl⟩
    have h := h.carry (.visit [_, _] [] (.change rfl) nofun) ⟨_, rfl⟩
    have h := h.carry (.visit [_, _] [] (.change rfl) nofun) ⟨_, rfl⟩
    exact ⟨_, _, _, h, rfl, rfl, by decide +kernel⟩
  obtain ⟨r, rfl, hr⟩ := Option.map_eq_some_iff.1 ha
  have hc := candid hw
  refine ⟨w, r, rs, hw, hc, List.mem_of_getElem? hp, hr, List.mem_of_getElem? hj, ?_⟩
  exact hc.agreed (.wait 1) 1 "left" r rs rfl (List.mem_of_getElem? hj) (List.mem_of_getElem? hp)

end Hall

end MemoFlow
