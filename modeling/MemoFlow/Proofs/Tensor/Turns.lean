import MemoFlow.Proofs.Tensor.Wear

/-!
# Turns of a dispatcher

Requests are served one after the other. Whatever they are, the dispatcher stays in order, and the
selected handle is the last one that was given.

* `Dispatcher.Request`, `Dispatcher.Turn`: requests, and one that is served;
* **`Dispatcher.Turn.Acts`**, `Turn.acts`: what a turn does;
* `Turn.sane`, `Turn.later`, `Turn.current_after`: what it keeps;
* `Dispatcher.turns`, `Dispatcher.afterTurns`: runs, with `sane_afterTurns`, `later_afterTurns` and
  `given_of_mem_turns` by induction on the requests;
* `Turn.Lawful`, `Turn.Precedes`: a turn by itself, and two turns of a run;
* **`Dispatcher.turns_invariant`**: what holds of every run of a new dispatcher.
-/

namespace MemoFlow

namespace Dispatcher

/-! ## Requests -/

/-- What is asked of a dispatcher. -/
inductive Request (α : Type) where
  /-- The selected handle. -/
  | select
  /-- An operation by name, with the cache of results and the time. -/
  | op (key : Op → List (Tensor α) → Fingerprint) (cache : Option (Results α))
    (now : Int64) (h : Handle) (name : String) (args : List (Tensor α))
  /-- A handle of another engine. -/
  | migrate (h : Handle) (target : Engine)
  /-- A tensor owned by the engine of a handle. -/
  | move (t : Tensor α) (h : Handle)

/-- What a request gives. -/
inductive Reply (α : Type) where
  /-- A handle. -/
  | handle (h : Handle)
  /-- Tensors. -/
  | tensors (ts : List (Tensor α))

variable {α : Type} [Arith α] [Scalar α]

/-- What a request gives, or why it raises, and the dispatcher after it. -/
def Request.run : Request α → Dispatcher α → Except DispatchError (Reply α) × Dispatcher α
  | .select, d => (d.select.value.1.map .handle, d.select.value.2)
  | .op key cache now h name args, d =>
    let r := (d.op key cache now h name args).value
    (r.1.map .tensors, r.2.1)
  | .migrate h target, d => ((d.migrate h target).value.1.map .handle, (d.migrate h target).value.2)
  | .move t h, d => ((d.move t h).map fun t => .tensors [t], d)

/-- **A turn**: a dispatcher, and what is asked of it. -/
structure Turn (α : Type) where
  /-- The dispatcher. -/
  before : Dispatcher α
  /-- The request. -/
  request : Request α

namespace Turn

/-- What the request gives. -/
def reply (t : Turn α) : Except DispatchError (Reply α) := (t.request.run t.before).1

/-- The dispatcher after the turn. -/
def after (t : Turn α) : Dispatcher α := (t.request.run t.before).2

/-- Whether an operation was tried and raised. -/
def isRaised (t : Turn α) : Bool :=
  match t.request with
  | .op _ _ _ h name args => t.before.admits h name args && !t.reply.isOk
  | _ => false

/-- The handle that was given. -/
def given (t : Turn α) : Option Handle :=
  match t.reply with
  | .ok (.handle h) => some h
  | _ => none

/-- Whether a migration succeeded. -/
def isMigration (t : Turn α) : Bool :=
  match t.request with
  | .migrate _ _ => t.reply.isOk
  | _ => false

/-- **What a turn does**: it leaves the dispatcher as it is, gives a new handle, or tries an
operation. -/
inductive Acts (t : Turn α) : Prop where
  /-- Nothing changes; a handle that is given is the selected one. -/
  | idle (after : t.after = t.before) (given : ∀ h, t.given = some h → t.before.current = some h)
    (raised : t.isRaised = false) (migration : t.isMigration = false)
  /-- A new handle is given, by a migration or because none was selected. -/
  | renewed (e : Engine) (more : Nat)
    (after : t.after = (t.before.renew e).2.count fun s => { s with migrations := more })
    (given : t.given = some (t.before.renew e).1) (ok : t.reply.isOk = true)
    (raised : t.isRaised = false) (needed : t.isMigration = false → t.before.current = none)
  /-- An operation is tried. -/
  | tried (key : Op → List (Tensor α) → Fingerprint) (cache : Option (Results α))
    (now : Int64) (h : Handle) (name : String) (args : List (Tensor α))
    (request : t.request = .op key cache now h name args)
    (ends : t.before.OpEnds h (!t.isRaised) t.after) (given : t.given = none)
    (migration : t.isMigration = false)

theorem acts_select (d : Dispatcher α) : Acts ⟨d, .select⟩ := by
  have hr : Turn.reply ⟨d, .select⟩ = d.select.value.1.map .handle := rfl
  have ha : Turn.after ⟨d, .select⟩ = d.select.value.2 := rfl
  rw [Dispatcher.select] at hr ha
  split at hr
  · next h hc =>
    rw [hc] at ha
    refine .idle ha (fun k hk => ?_) rfl rfl
    rw [given, hr] at hk
    exact hc.trans hk
  · next hc =>
    rw [hc] at ha
    split at hr
    · next hn =>
      rw [hn] at ha
      refine .idle ha (fun k hk => ?_) rfl rfl
      rw [given, hr] at hk
      cases hk
    · next e hn =>
      rw [hn] at ha
      refine .renewed e d.stats.migrations ha ?_ (by rw [hr]; rfl) rfl fun _ => hc
      rw [given, hr]
      rfl

theorem acts_migrate (d : Dispatcher α) (h : Handle) (target : Engine) :
    Acts ⟨d, .migrate h target⟩ := by
  have hr : Turn.reply ⟨d, .migrate h target⟩ = (d.migrate h target).value.1.map .handle := rfl
  have ha : Turn.after ⟨d, .migrate h target⟩ = (d.migrate h target).value.2 := rfl
  have idle : ∀ e, Turn.reply ⟨d, .migrate h target⟩ = .error e →
      Turn.after ⟨d, .migrate h target⟩ = d → Acts ⟨d, .migrate h target⟩ := fun e hr ha =>
    .idle ha (fun k hk => by rw [given, hr] at hk; cases hk) rfl
      (by change Except.isOk (Turn.reply ⟨d, .migrate h target⟩) = false; rw [hr]; rfl)
  rw [Dispatcher.migrate] at hr ha
  split at hr
  · next hn =>
    rw [if_pos hn] at ha
    exact idle _ hr ha
  · next hn =>
    rw [if_neg hn] at ha
    split at hr
    · next hd =>
      rw [if_pos hd] at ha
      exact idle _ hr ha
    · next hd =>
      rw [if_neg hd] at ha
      have hok : (Turn.reply ⟨d, .migrate h target⟩).isOk = true := by rw [hr]; rfl
      refine .renewed target (d.stats.migrations + 1) ha ?_ hok rfl fun hm => ?_
      · rw [given, hr]
        rfl
      · exact absurd (hok.symm.trans hm) (by decide)

theorem acts_op (d : Dispatcher α) (key : Op → List (Tensor α) → Fingerprint)
    (cache : Option (Results α)) (now : Int64) (h : Handle) (name : String)
    (args : List (Tensor α)) : Acts ⟨d, .op key cache now h name args⟩ := by
  have hr : Turn.reply ⟨d, .op key cache now h name args⟩ =
      (d.op key cache now h name args).value.1.map .tensors := rfl
  have hg : given ⟨d, .op key cache now h name args⟩ = none := by
    rw [given, hr]
    cases (d.op key cache now h name args).value.1 <;> rfl
  cases ha : d.admits h name args with
  | false =>
    refine .idle (op_of_not_admits key cache now ha) (by rw [hg]; simp) ?_ rfl
    simp [isRaised, ha]
  | true =>
    refine .tried key cache now h name args rfl ?_ hg rfl
    have hok : (!isRaised ⟨d, .op key cache now h name args⟩) =
        (d.op key cache now h name args).value.1.isOk := by
      simp only [isRaised, ha, hr, Bool.true_and, Bool.not_not]
      cases (d.op key cache now h name args).value.1 <;> rfl
    rw [hok]
    exact op_of_admits key cache now ha

theorem acts (t : Turn α) : t.Acts := by
  obtain ⟨d, r⟩ := t
  cases r with
  | select => exact acts_select d
  | op key cache now h name args => exact acts_op d key cache now h name args
  | migrate h target => exact acts_migrate d h target
  | move x h =>
    have hr : Turn.reply ⟨d, .move x h⟩ = (d.move x h).map fun t => .tensors [t] := rfl
    refine .idle rfl (fun k hk => ?_) rfl rfl
    rw [given, hr] at hk
    cases hm : d.move x h <;> rw [hm] at hk <;> cases hk

/-- **A turn keeps a dispatcher in order.** -/
theorem sane {t : Turn α} {n : Nat} (hd : t.before.Sane n) :
    t.after.Sane (n + t.isRaised.toNat) := by
  cases t.acts with
  | idle after _ raised _ => rw [after, raised]; exact hd
  | renewed e more after _ _ raised _ =>
    rw [after, raised]
    refine ⟨⟨hd.faults_le, hd.degraded_iff⟩, hd.ops_eq, hd.fallbacks_le, ?_⟩
    rintro _ ⟨⟩
    exact Nat.le_refl _
  | tried _ _ _ h _ _ _ ends _ _ =>
    have := ends.sane hd
    rwa [Bool.not_not] at this

theorem later (t : Turn α) : t.before.Later t.after := by
  cases t.acts with
  | idle after _ _ _ => rw [after]; exact .refl _
  | renewed _ _ after _ _ _ _ => rw [after]; exact ⟨rfl, rfl, fun _ => id, fun _ _ => rfl⟩
  | tried _ _ _ _ _ _ _ ends _ _ => exact ends.later

theorem served_of_rank_lt {t : Turn α} {key : Op → List (Tensor α) → Fingerprint}
    {cache : Option (Results α)} {now : Int64} {h : Handle} {name : String}
    {args : List (Tensor α)} (hr : t.request = .op key cache now h name args) {e : Engine}
    (he : e.rank < h.engine.rank) :
    t.after.stats.served.get e = t.before.stats.served.get e := by
  cases t.acts with
  | idle after _ _ _ => rw [after]
  | renewed _ _ after _ _ _ _ => rw [after]; rfl
  | tried _ _ _ k _ _ request ends _ _ =>
    rw [hr] at request
    cases request
    exact ends.served_of_rank_lt he

/-- **A request other than an operation that raises changes nothing.** -/
theorem after_of_error {t : Turn α} {e : DispatchError} (he : t.reply = .error e)
    (hr : ∀ key cache now h name args, t.request ≠ .op key cache now h name args) :
    t.after = t.before := by
  cases t.acts with
  | idle after _ _ _ => exact after
  | renewed _ _ _ _ ok _ _ =>
    rw [he] at ok
    cases ok
  | tried key cache now h name args request _ _ _ =>
    exact absurd request (hr key cache now h name args)

/-! ## Handles -/

theorem current_of_given {t : Turn α} {h : Handle} (hg : t.given = some h) :
    t.after.current = some h := by
  cases t.acts with
  | idle after given _ _ => rw [after]; exact given h hg
  | renewed e _ after given _ _ _ => rw [after, ← hg, given]; rfl
  | tried _ _ _ _ _ _ _ _ given _ =>
    rw [given] at hg
    cases hg

/-- A turn keeps the selected handle, or selects a new one. -/
theorem current_after (t : Turn α) :
    (t.after.current = t.before.current ∧ t.after.generation = t.before.generation ∧
      t.isMigration = false) ∨
    ∃ k, t.given = some k ∧ t.after.current = some k ∧
      k.generation = t.before.generation + 1 ∧ t.after.generation = k.generation ∧
      (t.isMigration = false → t.before.current = none) := by
  cases t.acts with
  | idle after _ _ migration => exact .inl ⟨by rw [after], by rw [after], migration⟩
  | renewed e more after given _ _ needed =>
    exact .inr ⟨_, given, by rw [after]; rfl, rfl, by rw [after]; rfl, needed⟩
  | tried _ _ _ _ _ _ _ ends _ migration =>
    refine .inl ⟨?_, ?_, migration⟩
    · exact ends.handles.1
    · exact ends.handles.2

/-- A handle stays selected until a migration succeeds. -/
theorem current_of_not_isMigration {t : Turn α} {h : Handle} (hc : t.before.current = some h)
    (hm : t.isMigration = false) : t.after.current = some h := by
  rcases t.current_after with ⟨hk, -, -⟩ | ⟨k, -, -, -, -, hn⟩
  · exact hk.trans hc
  · rw [hn hm] at hc
    cases hc

end Turn

/-- The turns of some requests, the first one first. -/
def turns : List (Request α) → Dispatcher α → List (Turn α)
  | [], _ => []
  | r :: rs, d => ⟨d, r⟩ :: turns rs (Turn.after ⟨d, r⟩)

/-- The dispatcher after some requests. -/
def afterTurns (rs : List (Request α)) (d : Dispatcher α) : Dispatcher α :=
  rs.foldl (fun d r => Turn.after ⟨d, r⟩) d

/-- **A run keeps a dispatcher in order.** -/
theorem sane_afterTurns (rs : List (Request α)) {d : Dispatcher α} {n : Nat} (hd : d.Sane n) :
    (afterTurns rs d).Sane (n + (turns rs d).countP Turn.isRaised) := by
  induction rs generalizing d n with
  | nil => exact hd
  | cons r rs ih =>
    have hs := ih (Turn.sane (t := ⟨d, r⟩) hd)
    rw [turns, List.countP_cons]
    cases ht : Turn.isRaised ⟨d, r⟩ <;> rw [ht] at hs
    · exact hs
    · rw [if_pos rfl, Nat.add_comm _ 1, ← Nat.add_assoc]
      exact hs

theorem later_afterTurns (rs : List (Request α)) (d : Dispatcher α) :
    d.Later (afterTurns rs d) := by
  induction rs generalizing d with
  | nil => exact .refl d
  | cons r rs ih => exact (Turn.later ⟨d, r⟩).trans (ih _)

/-- A handle stays selected in a run without a migration that succeeds. -/
theorem current_afterTurns {rs : List (Request α)} {d : Dispatcher α} {h : Handle}
    (hc : d.current = some h) (hm : ∀ t ∈ turns rs d, t.isMigration = false) :
    (afterTurns rs d).current = some h := by
  induction rs generalizing d with
  | nil => exact hc
  | cons r rs ih =>
    obtain ⟨hr, hrs⟩ := List.forall_mem_cons.1 hm
    exact ih (Turn.current_of_not_isMigration hc hr) hrs

/-- Handles that are given in a run are new or the selected one, and those of migrations are
new. -/
theorem given_of_mem_turns {rs : List (Request α)} {d : Dispatcher α} {t : Turn α}
    (ht : t ∈ turns rs d) {h : Handle} (hg : t.given = some h) :
    (d.current = some h ∨ d.generation < h.generation) ∧
      (t.isMigration = true → d.generation < h.generation) := by
  -- The first turn may change what is selected, and then all later handles are newer than its own.
  induction rs generalizing d with
  | nil => cases ht
  | cons r rs ih =>
    have hcur := Turn.current_after ⟨d, r⟩
    rcases List.mem_cons.1 ht with rfl | ht
    · rcases hcur with ⟨hc, -, hm⟩ | ⟨k, hk, -, hgen, -, -⟩
      · exact ⟨.inl (hc.symm.trans (Turn.current_of_given hg)), fun h => by rw [hm] at h; cases h⟩
      · obtain rfl : k = h := Option.some.inj (hk.symm.trans hg)
        have hlt : d.generation < k.generation := by rw [hgen]; exact Nat.lt_succ_self _
        exact ⟨.inr hlt, fun _ => hlt⟩
    · obtain ⟨hor, hm⟩ := ih ht
      rcases hcur with ⟨hc, hgen, -⟩ | ⟨k, -, hk, hgen, hafter, -⟩
      · rw [hc, hgen] at hor
        rw [hgen] at hm
        exact ⟨hor, hm⟩
      · have hlt : d.generation < (Turn.after ⟨d, r⟩).generation := by
          rw [hafter, hgen]
          exact Nat.lt_succ_self _
        refine ⟨.inr ?_, fun h => Nat.lt_trans hlt (hm h)⟩
        rcases hor with hor | hor
        · obtain rfl : k = h := Option.some.inj (hk.symm.trans hor)
          rw [← hafter]
          exact hlt
        · exact Nat.lt_trans hlt hor

namespace Turn

/-- **What holds of every turn.** -/
structure Lawful (t : Turn α) : Prop where
  /-- No engine before that of the handle serves an operation. -/
  served : ∀ {key cache now h name args}, t.request = .op key cache now h name args →
    ∀ e : Engine, e.rank < h.engine.rank →
      t.after.stats.served.get e = t.before.stats.served.get e
  /-- The handle that was given stays selected until a migration succeeds. -/
  selected : ∀ {h}, t.given = some h → ∀ rs,
    (∀ t' ∈ turns rs t.after, t'.isMigration = false) →
      (afterTurns rs t.after).select.value.1 = .ok h
  /-- Requests other than operations that raise change nothing. -/
  unchanged : ∀ {e}, t.reply = .error e →
    (∀ key cache now h name args, t.request ≠ .op key cache now h name args) → t.after = t.before

theorem lawful (t : Turn α) : t.Lawful where
  served hr _ he := served_of_rank_lt hr he
  selected hg rs hm := by
    rw [select_of_current (current_afterTurns (current_of_given hg) hm)]
  unchanged he hr := after_of_error he hr

/-- **A turn and one after it give handles in order**: the later one is newer or the same, and newer
when a migration gives it. -/
structure Precedes (t t' : Turn α) : Prop where
  newer_or_eq : ∀ {h h'}, t.given = some h → t'.given = some h' →
    h.generation < h'.generation ∨ h = h'
  newer : ∀ {h h'}, t.given = some h → t'.given = some h' → t'.isMigration = true →
    h.generation < h'.generation

end Turn

/-- **The handles of a run are in order.** -/
theorem pairwise_precedes (rs : List (Request α)) {d : Dispatcher α} {n : Nat} (hd : d.Sane n) :
    (turns rs d).Pairwise Turn.Precedes := by
  induction rs generalizing d n with
  | nil => exact .nil
  | cons r rs ih =>
    have hs := Turn.sane (t := ⟨d, r⟩) hd
    refine .cons (fun t' ht' => ?_) (ih hs)
    have hle : ∀ {h}, Turn.given ⟨d, r⟩ = some h →
        h.generation ≤ (Turn.after ⟨d, r⟩).generation := fun hg =>
      hs.generation_le _ (Turn.current_of_given hg)
    refine ⟨fun {h h'} hg hg' => ?_, fun {h h'} hg hg' hm => ?_⟩
    · rcases (given_of_mem_turns ht' hg').1 with hc | hlt
      · exact .inr (Option.some.inj ((Turn.current_of_given hg).symm.trans hc))
      · exact .inl (Nat.lt_of_le_of_lt (hle hg) hlt)
    · exact Nat.lt_of_le_of_lt (hle hg) ((given_of_mem_turns ht' hg').2 hm)

/-- **Every run of a new dispatcher** keeps it in order, its later states never undo what was left
out, each turn is lawful, and the handles are given in order. -/
theorem turns_invariant (config : TensorConfig) (found : PerEngine (Backend α))
    (rs : List (Request α)) :
    let d := afterTurns rs (new config found).value
    let ts := turns rs (new config found).value
    d.config = config ∧ d.Sane (ts.countP Turn.isRaised) ∧
      (∀ rs', d.Later (afterTurns rs' d)) ∧ (∀ t ∈ ts, t.Lawful) ∧ ts.Pairwise Turn.Precedes := by
  have hs := sane_afterTurns rs (sane_new config found)
  rw [Nat.zero_add] at hs
  exact ⟨(later_afterTurns rs _).config, hs, fun rs' => later_afterTurns rs' _,
    fun t _ => t.lawful, pairwise_precedes rs (sane_new config found)⟩

/-- An addition on an engine that always fails. -/
def stumble : Request Double :=
  .op Fingerprint.ofOp none 0 ⟨.eigen, "eigen:standin", 1⟩ "add"
    [(Tensor.zeros [1] .f64).onEngine .eigen, (Tensor.zeros [1] .f64).onEngine .eigen]

example :
    let d : Dispatcher Double := afterTurns [stumble, stumble]
      (new { faults := ["eigen"], maxFaults := 0 } (Backend.atHand "" true)).value
    d.degraded.get .eigen = true ∧ d.stats.faults.get .eigen = 1 ∧ d.stats.ops = 2 ∧
      d.stats.served.get .native = 2 ∧ d.stats.fallbacks = 1 := by
  decide +kernel

end Dispatcher

end MemoFlow
