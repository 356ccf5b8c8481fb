import Mathlib.Data.List.Forall2
import Mathlib.Data.List.Induction
import MemoFlow.Proofs.Pipeline.Desk
import MemoFlow.Session.Blocks

/-!
# Values of branches put together

The values of some branches are put together by a function of their list, in the order of their
names and each once. The identity of such a request is built from its source text, its names and the
fingerprints of the values, one pair after the other, and it can be taken apart again.

* **`SynthesisCall`**, `SynthesisCall.run`, `Session.synthesize_eq`: requests with any function;
* `SynthesisCall.names_spec`, **`SynthesisCall.values_eq_ok_iff`**: the names and the values;
* `SynthesisCall.run_of_refused`, `SynthesisCall.run_of_no_source`: requests that leave the cache
  alone;
* **`Mark`**, `Mark.key`, `Request.mark`: what a fingerprint is made of;
* `SynthesisCall.key_mark`, **`SynthesisCall.mark_inj`**: the mark of a request tells all of it;
* `SynthesisCall.cacheable_of_mem`: requests for values that cannot be compared.
-/

namespace MemoFlow

/-- **A request to put the values of branches together**: the results of a block, the names of the
branches, a source text, and the function. -/
structure SynthesisCall (m : Type → Type) where
  results : BranchResults
  ids : List String
  source : String
  fn : List Value → m (Except Thrown Value)

namespace SynthesisCall

variable {m : Type → Type}

/-- The names, in ascending order and each once. -/
def names (c : SynthesisCall m) : List String := Stream.nameSet c.ids

/-- The values of the branches in the order of their names, or why they are refused. -/
def values (c : SynthesisCall m) : Except Thrown (List Value) := synthesisValues c.results c.names

/-! ## Names and values -/

/-- **The names are those that were given**, in ascending order and each once. -/
theorem names_spec (c : SynthesisCall m) :
    c.names.Pairwise (· < ·) ∧ ∀ id, id ∈ c.names ↔ id ∈ c.ids := by
  refine ⟨List.pairwise_map.2 (NameMap.ofList _).sorted, fun id => ?_⟩
  rw [names, Stream.nameSet, NameMap.mem_keys_ofList, List.map_map]
  exact (List.map_id c.ids).symm ▸ Iff.rfl

theorem mapM_eq_ok_iff {α β ε : Type} {f : α → Except ε β} {l : List α} {r : List β} :
    l.mapM f = .ok r ↔ List.Forall₂ (fun a b => f a = .ok b) l r := by
  induction l generalizing r with
  | nil => cases r <;> simp [pure, Except.pure]
  | cons a l ih =>
    rw [List.mapM_cons, List.forall₂_cons_left_iff]
    cases ha : f a with
    | error e => simp [bind, Except.bind]
    | ok b =>
      simp only [bind, Except.bind, Except.ok.injEq, exists_and_left, exists_eq_left', ← ih]
      cases hl : l.mapM f with
      | error e => simp
      | ok bs => simp [pure, Except.pure, eq_comm]

/-- The value of a branch, or why it is refused. -/
def valueOf (results : BranchResults) (id : String) : Except Thrown Value :=
  match results.find? id with
  | none => .error (.error .branchSet ("synthesis references unknown branch '" ++ id ++ "'"))
  | some r =>
    if r.isOk then .ok r.value
    else .error (.error .branchSet ("synthesis references " ++ r.status.name ++ " branch '" ++
      id ++ "'"))

theorem valueOf_eq_ok_iff {results : BranchResults} {id : String} {v : Value} :
    valueOf results id = .ok v ↔
      ∃ r, results.find? id = some r ∧ r.isOk = true ∧ r.value = v := by
  rw [valueOf]
  cases hr : results.find? id with
  | none => simp
  | some r => cases hok : r.isOk <;> simp [hok]

theorem valueOf_cases (results : BranchResults) (id : String) :
    (∃ v, valueOf results id = .ok v) ∨
      ∃ text, valueOf results id = .error (.error .branchSet text) := by
  rw [valueOf]
  split
  · exact .inr ⟨_, rfl⟩
  · split
    · exact .inl ⟨_, rfl⟩
    · exact .inr ⟨_, rfl⟩

theorem values_eq (c : SynthesisCall m) : c.values = c.names.mapM (valueOf c.results) := rfl

/-- **The values of the branches**: each of them is known and has ended well. -/
theorem values_eq_ok_iff {c : SynthesisCall m} {vs : List Value} :
    c.values = .ok vs ↔ List.Forall₂ (fun id v => ∃ r, c.results.find? id = some r ∧
      r.isOk = true ∧ r.value = v) c.names vs := by
  rw [values_eq, mapM_eq_ok_iff]
  simp only [valueOf_eq_ok_iff]

/-- **A branch that is unknown, failed or was not started** makes the request refused. -/
theorem exists_refusal {c : SynthesisCall m} {id : String} (hid : id ∈ c.ids)
    (h : ∀ r, c.results.find? id = some r → r.isOk = false) :
    ∃ text, c.values = .error (.error .branchSet text) := by
  have hbad : ∀ v, valueOf c.results id ≠ .ok v := fun v hv => by
    obtain ⟨r, hr, hok, -⟩ := valueOf_eq_ok_iff.1 hv
    rw [h r hr] at hok
    cases hok
  have hm : id ∈ c.names := (c.names_spec.2 id).2 hid
  rw [values_eq]
  generalize c.names = l at hm
  induction l with
  | nil => cases hm
  | cons k l ih =>
    rw [List.mapM_cons]
    obtain ⟨v, hv⟩ | ⟨text, ht⟩ := valueOf_cases c.results k
    · rw [hv]
      have hm : id ∈ l := by
        rcases List.mem_cons.1 hm with rfl | hm
        · exact absurd hv (hbad v)
        · exact hm
      obtain ⟨text, ht⟩ := ih hm
      exact ⟨text, by rw [ht]; rfl⟩
    · exact ⟨text, by rw [ht]; rfl⟩

/-! ## Serving a request -/

section Run

variable [Monad m]

/-- Put values together afresh; the result is kept under a key, if there is one. -/
def afresh (c : SynthesisCall m) (h : PipelineHost m) (vs : List Value)
    (key : Option Fingerprint) : m (Except Thrown (Value × Bool)) := do
  match ← c.fn vs with
  | .error t => return .error t
  | .ok v =>
    if let some k := key then h.keep k ⟨[], some v⟩
    return .ok (v, true)

/-- **Serve the request**: the result, and whether it was computed. -/
def run (c : SynthesisCall m) (h : PipelineHost m) : m (Except Thrown (Value × Bool)) := do
  match c.values with
  | .error t => return .error t
  | .ok vs =>
    if c.source = "" then c.afresh h vs none
    else
      let key := synthesisKey c.source c.names vs
      match (← h.kept? key).bind Computation.value with
      | some v => return .ok (v, false)
      | none => c.afresh h vs (some key)

/-- A request that is refused does nothing at all. -/
theorem run_of_refused {c : SynthesisCall m} {t : Thrown} (hc : c.values = .error t)
    (h : PipelineHost m) : c.run h = pure (.error t) := by
  rw [run, hc]

/-- A request without a source text runs its function. -/
theorem run_of_no_source {c : SynthesisCall m} [LawfulMonad m] {vs : List Value}
    (hc : c.values = .ok vs) (hs : c.source = "") (h : PipelineHost m) :
    c.run h = (fun r => r.map fun v => (v, true)) <$> c.fn vs := by
  rw [run, hc]
  simp only [hs, if_true]
  rw [afresh, map_eq_pure_bind]
  refine bind_congr fun r => ?_
  cases r with
  | error t => rfl
  | ok v => simp [Except.map]

end Run

end SynthesisCall

/-- A session serves such requests with functions of its own. -/
theorem Session.synthesize_eq (config : SessionConfig) (results : BranchResults)
    (ids : List String) (source : String) (f : Synthesis) :
    synthesize results ids source f =
      SynthesisCall.run ⟨results, ids, source, fun vs => pure (f.eval vs)⟩
        (pipelineHost config) := by
  rw [synthesize, SynthesisCall.run, SynthesisCall.values, SynthesisCall.names]
  rfl

/-! ## Marks -/

/-- **What a fingerprint is made of**: a text, the names of branches, the bytes of bindings, a
fingerprint that is given, or two others. -/
inductive Mark where
  | text (s : String)
  | ids (l : List String)
  | content (bs : List UInt8)
  | given (k : Fingerprint)
  | pair (a b : Mark)
deriving DecidableEq

/-- The fingerprint. -/
def Mark.key : Mark → Fingerprint
  | .text s => .ofText s
  | .ids l => .ofSynthesis l
  | .content bs => .ofBytes bs
  | .given k => k
  | .pair a b => .combine a.key b.key

/-- The mark of what a stage or a branch asks for. -/
def Request.mark : Request → Mark
  | .text source _ content => .pair (.text source) (.content content)
  | .given k => .given k

theorem Request.key_mark (q : Request) : q.mark.key = q.key := by
  cases q <;> rfl

namespace SynthesisCall

variable {m : Type → Type}

/-- The mark of a request for some values. -/
def mark (source : String) (names : List String) (vs : List Value) : Mark :=
  vs.foldl (fun a v => .pair a (.given (.ofValue v))) (.pair (.text source) (.ids names))

/-- **The fingerprint of the mark** is the identity of the request. -/
theorem key_mark (source : String) (names : List String) (vs : List Value) :
    (mark source names vs).key = synthesisKey source names vs := by
  rw [mark, synthesisKey]
  have h : ∀ (vs : List Value) (a : Mark),
      (vs.foldl (fun a v => Mark.pair a (.given (.ofValue v))) a).key =
        vs.foldl (fun k v => .combine k (.ofValue v)) a.key := by
    intro vs
    induction vs with
    | nil => exact fun _ => rfl
    | cons v vs ih => exact fun a => ih _
  exact h vs _

theorem mark_concat (source : String) (names : List String) (vs : List Value) (v : Value) :
    mark source names (vs ++ [v]) = .pair (mark source names vs) (.given (.ofValue v)) := by
  rw [mark, List.foldl_append]
  rfl

/-- **The mark tells the source text, the names and the fingerprints of the values.** -/
theorem mark_inj {s s' : String} {l l' : List String} {vs vs' : List Value}
    (h : mark s l vs = mark s' l' vs') :
    s = s' ∧ l = l' ∧ vs.map Fingerprint.ofValue = vs'.map Fingerprint.ofValue := by
  -- The last value comes off both marks, down to the pair of the source text and the names.
  induction vs using List.reverseRecOn generalizing vs' with
  | nil =>
    induction vs' using List.reverseRecOn with
    | nil =>
      obtain ⟨hs, hl⟩ := Mark.pair.inj h
      exact ⟨Mark.text.inj hs, Mark.ids.inj hl, rfl⟩
    | append_singleton vs' v' _ =>
      rw [mark_concat] at h
      cases (Mark.pair.inj h).2
  | append_singleton vs v ih =>
    rw [mark_concat] at h
    induction vs' using List.reverseRecOn with
    | nil => cases (Mark.pair.inj h).2
    | append_singleton vs' v' _ =>
      rw [mark_concat] at h
      obtain ⟨hm, hv⟩ := Mark.pair.inj h
      obtain ⟨hs, hl, hvs⟩ := ih hm
      refine ⟨hs, hl, ?_⟩
      rw [List.map_append, List.map_append, hvs]
      exact congrArg (fun k => vs'.map Fingerprint.ofValue ++ [k]) (Mark.given.inj hv)

/-- A request for values that cannot be compared has no identity. -/
theorem cacheable_of_mem {source : String} {names : List String} {vs : List Value}
    (h : (synthesisKey source names vs).cacheable = true) {v : Value} (hv : v ∈ vs) :
    (Fingerprint.ofValue v).cacheable = true := by
  rw [← key_mark] at h
  induction vs using List.reverseRecOn with
  | nil => cases hv
  | append_singleton vs w ih =>
    rw [mark_concat, Mark.key, Fingerprint.cacheable_combine, Bool.and_eq_true] at h
    rcases List.mem_append.1 hv with hv | hv
    · exact ih h.1 hv
    · obtain rfl := List.mem_singleton.1 hv
      exact h.2

/-- The mark of a stage or a branch is never that of values put together. -/
theorem mark_ne_request (source : String) (names : List String) (vs : List Value) (q : Request) :
    mark source names vs ≠ q.mark := by
  induction vs using List.reverseRecOn with
  | nil => cases q <;> nofun
  | append_singleton vs v _ =>
    rw [mark_concat]
    cases q <;> exact fun h => by simp [Request.mark] at h

end SynthesisCall

end MemoFlow
