import MemoFlow.Proofs.Branch.Edit
import MemoFlow.Proofs.Fingerprint.Inputs

/-!
# What has changed in bindings

A record of the outputs of some edits, written over the bindings that they began with, stands for
the edits. The difference between two environments does so only as far as values that are the same
are of one kind at every depth.

* `Edit.Writes`, `Edit.written_applyAll`: the names that edits write, and the log after them;
* **`Environment.outputs_replay`**: a record of the outputs, over the bindings of the beginning and
  over others;
* `Value.OfAKind`: values of one kind at every depth;
* `Value.stream_eq_of_same`, `Value.tells_of_same`, **`Value.stream_eq_iff_of_same`**: the bytes of
  values that are the same;
* `Environment.patched`, `Environment.KeepsKinds`: a difference written over its base, and bindings
  that change no kind below a value that stays the same;
* **`Environment.difference_restores_iff`**: what a difference restores, and what it leaves out.
-/

namespace MemoFlow

open NameMap

/-! ## Outputs of edits -/

namespace Edit

variable {σ : Type} [IsText σ] {env : Environment σ} {n : σ}

/-- An edit writes a name: it binds it, or all names of an environment that binds it. -/
def Writes (env : Environment σ) (n : σ) : Edit σ → Prop
  | define k _ => k = n
  | set k _ => k = n ∧ env.contains k = true
  | merge other => other.contains n = true
  | erase _ => False

/-- The log has the names that are written. -/
theorem written_apply (e : Edit σ) : (e.apply env).written.contains n = true ↔
    env.written.contains n = true ∨ e.Writes env n := by
  cases e with
  | define k v =>
    rw [apply, Environment.written_define, Bool.or_eq_true, decide_eq_true_iff, or_comm]
    rfl
  | set k v =>
    rw [apply, Environment.set?, Writes]
    cases hk : env.contains k with
    | true =>
      rw [if_pos rfl, Option.getD_some, Environment.written_define, Bool.or_eq_true,
        decide_eq_true_iff, or_comm, and_iff_left rfl]
    | false => simp
  | merge other =>
    have hother : other.contains n = decide (n ∈ other.toList.map Prod.fst) := findIn_isSome
    rw [apply, Environment.merge, Environment.written_overlay, Writes, hother, Bool.or_eq_true,
      or_comm]
  | erase k => exact (or_false _).symm ▸ Iff.rfl

/-- A name that is not written keeps its binding, if it stays bound. -/
theorem find?_apply {e : Edit σ} {v : Value σ} (h : (e.apply env).find? n = some v)
    (hw : ¬ e.Writes env n) : env.find? n = some v := by
  cases e with
  | define k w =>
    have hk : ¬ k = n := hw
    rwa [apply, Environment.find?_define, if_neg hk] at h
  | set k w =>
    rw [apply, Environment.set?] at h
    split at h
    · next hk =>
      rwa [Option.getD_some, Environment.find?_define, if_neg fun hn => hw ⟨hn, hk⟩] at h
    · exact h
  | merge other =>
    have hother : other.find? n = none := Option.not_isSome_iff_eq_none.1 hw
    rwa [apply, Environment.find?_merge, hother, Option.none_or] at h
  | erase k =>
    rw [apply, Environment.find?_erase] at h
    exact (Option.ite_none_left_eq_some.1 h).2

/-- The log after edits has the names that one of them writes. -/
theorem written_applyAll (l : List (Edit σ)) : (applyAll l env).written.contains n = true ↔
    env.written.contains n = true ∨ ∃ p e s, l = p ++ e :: s ∧ e.Writes (applyAll p env) n := by
  induction l generalizing env with
  | nil => simp [applyAll]
  | cons e l ih =>
    have hrun : applyAll (e :: l) env = applyAll l (e.apply env) := rfl
    rw [hrun, ih, written_apply, or_assoc]
    refine or_congr_right ⟨?_, ?_⟩
    · rintro (he | ⟨p, e', s, rfl, he'⟩)
      · exact ⟨[], e, l, rfl, he⟩
      · exact ⟨e :: p, e', s, rfl, he'⟩
    · rintro ⟨_ | ⟨_, p⟩, e', s, hl, he'⟩
      · obtain ⟨rfl, rfl⟩ := List.cons.inj hl
        exact .inl he'
      · obtain ⟨rfl, rfl⟩ := List.cons.inj hl
        exact .inr ⟨p, e', s, rfl, he'⟩

/-- A name that is not in the log after edits keeps its binding, if it stays bound. -/
theorem find?_applyAll {l : List (Edit σ)} {v : Value σ} (h : (applyAll l env).find? n = some v)
    (hw : (applyAll l env).written.contains n = false) : env.find? n = some v := by
  induction l generalizing env with
  | nil => exact h
  | cons e l ih =>
    refine find?_apply (ih h hw) fun he => ?_
    have hwritten := (written_applyAll l).2 (.inl ((written_apply e).2 (.inr he)))
    exact Bool.false_ne_true (hw.symm.trans hwritten)

end Edit

namespace Environment

/-- **A record of the outputs stands for the edits.** It lists names in the order of their bytes,
each of them once, and each name that is written and still bound. Over the base it binds each name
to the very value that the edits leave; over other bindings it leaves the names that it does not
list. -/
theorem outputs_replay {σ : Type} [IsText σ] (base : Environment σ) (l : List (Edit σ)) :
    let scratch := Edit.applyAll l base.clearWrites
    let outs := scratch.outputsSince base
    (outs.Pairwise fun p q => Stream.textBytes p.1 < Stream.textBytes q.1) ∧
    (∀ n, (∃ p e s, l = p ++ e :: s ∧ e.Writes (Edit.applyAll p base.clearWrites) n) →
      scratch.contains n = true → n ∈ outs.map Prod.fst) ∧
    (∀ n v, scratch.find? n = some v → (base.overlay outs).find? n = some v) ∧
    ∀ (other : Environment σ) n, (other.overlay outs).find? n =
      if n ∈ outs.map Prod.fst then scratch.find? n else other.find? n := by
  intro scratch outs
  have hsorted := sorted_outputsSince scratch base
  have hlog : ∀ n, scratch.written.contains n = true ↔
      ∃ p e s, l = p ++ e :: s ∧ e.Writes (Edit.applyAll p base.clearWrites) n := fun n =>
    (Edit.written_applyAll l).trans (or_iff_right Bool.false_ne_true)
  -- A name that is left out has not been written, and the copy binds it as the base does.
  have hlisted : ∀ n v, scratch.find? n = some v →
      findIn n outs = some v ∨ findIn n outs = none ∧ base.find? n = some v := fun n v hv => by
    have hfind : findIn n outs = _ := findIn_outputsSince scratch base
    rw [hv, Option.filter_some] at hfind
    split at hfind
    · exact .inl hfind
    · next hn =>
      rw [Bool.or_eq_true, not_or, Bool.not_eq_true] at hn
      have hbase : base.clearWrites.find? n = some v := Edit.find?_applyAll hv hn.1
      exact .inr ⟨hfind, hbase⟩
  refine ⟨?_, fun n hw hn => ?_, fun n v hv => ?_, fun other n => ?_⟩
  · exact hsorted.imp IsText.bytes_lt_iff.2
  · obtain ⟨v, hv⟩ : ∃ v, scratch.find? n = some v := Option.isSome_iff_exists.1 hn
    have hfind : findIn n outs = some v := by
      rw [findIn_outputsSince scratch base, hv, Option.filter_some, (hlog n).2 hw, Bool.true_or,
        if_pos rfl]
    exact List.mem_map.2 ⟨(n, v), (findIn_eq_some_iff hsorted).1 hfind, rfl⟩
  · rw [find?_overlay_of_sorted _ hsorted]
    obtain hf | ⟨hf, hb⟩ := hlisted n v hv
    · rw [hf, Option.some_or]
    · rw [hf, Option.none_or, hb]
  · rw [find?_overlay_of_sorted _ hsorted]
    split
    · next hn =>
      have hsome : (findIn n outs).isSome = true := findIn_isSome.trans (decide_eq_true hn)
      obtain ⟨v, hv⟩ := Option.isSome_iff_exists.1 hsome
      have hfilter : (scratch.find? n).filter _ = some v :=
        (findIn_outputsSince scratch base).symm.trans hv
      rw [hv, Option.some_or, (Option.filter_eq_some_iff.1 hfilter).1]
    · next hn => rw [findIn_eq_none_iff.2 hn, Option.none_or]

end Environment

/-! ## Values that are the same -/

namespace Value

variable {σ : Type} [IsText σ]

mutual

/-- Values are of one kind at every depth. -/
def OfAKind : Value σ → Value σ → Prop
  | .list vs, .list ws => AllOfAKind vs ws
  | v, w => v.sameKind w = true

/-- As many values, each two of them of one kind at every depth. -/
def AllOfAKind : List (Value σ) → List (Value σ) → Prop
  | [], [] => True
  | v :: vs, w :: ws => v.OfAKind w ∧ AllOfAKind vs ws
  | _, _ => False

end

theorem length_eq_of_sameList {vs ws : List (Value σ)} (h : sameList vs ws = true) :
    vs.length = ws.length := by
  induction vs generalizing ws with
  | nil =>
    cases ws with
    | nil => rfl
    | cons w ws => exact absurd h Bool.false_ne_true
  | cons v vs ih =>
    cases ws with
    | nil => exact absurd h Bool.false_ne_true
    | cons w ws =>
      rw [sameList, Bool.and_eq_true] at h
      exact congrArg (· + 1) (ih h.2)

omit [IsText σ] in
/-- Tensors that are the same are alike. -/
theorem alike_of_same_tensor {a b : Tensor Double} (h : a.same b = true) :
    Alike (.tensor (some a) : Value σ) (.tensor (some b)) := by
  rw [Tensor.same] at h
  simp only [Bool.and_eq_true, decide_eq_true_eq] at h
  obtain ⟨⟨⟨hd, hs⟩, hsize⟩, hall⟩ := h
  refine .tensor hd hs (List.forall₂_iff_zip.2 ⟨by simpa using hsize, fun hxy => ?_⟩)
  have hsame := List.all_eq_true.1 hall _ hxy
  rw [Tensor.sameNumber, Bool.or_eq_true, Bool.and_eq_true] at hsame
  exact hsame

mutual

/-- Values that are the same and of one kind at every depth have the same bytes. -/
theorem stream_eq_of_same : (v w : Value σ) → v.same w = true → v.OfAKind w →
    Stream.value v = Stream.value w
  | .nil, w, h, _ => by
    cases w with
    | nil => rfl
    | _ => simp [same] at h
  | .int m, w, h, hk => by
    cases w with
    | int n =>
      obtain rfl : m = n := by simpa [same] using h
      rfl
    | dbl y => simp [OfAKind, sameKind] at hk
    | _ => simp [same] at h
  | .dbl x, w, h, hk => by
    cases w with
    | int n => simp [OfAKind, sameKind] at hk
    | dbl y =>
      rw [same] at h
      exact (Alike.dbl (.inl h)).stream_eq
    | _ => simp [same] at h
  | .bool c, w, h, _ => by
    cases w with
    | bool d =>
      obtain rfl : c = d := by simpa [same] using h
      rfl
    | _ => simp [same] at h
  | .str s, w, h, _ => by
    cases w with
    | str t =>
      obtain rfl : s = t := by simpa [same] using h
      rfl
    | _ => simp [same] at h
  | .list vs, w, h, hk => by
    cases w with
    | list ws =>
      rw [same] at h
      rw [OfAKind] at hk
      rw [Stream.value, Stream.value, length_eq_of_sameList h, streams_eq_of_same vs ws h hk]
    | _ => simp [same] at h
  | .tensor none, w, h, _ => by
    cases w with
    | tensor u =>
      cases u with
      | none => rfl
      | some u => simp [same, sameTensor] at h
    | _ => simp [same] at h
  | .tensor (some t), w, h, _ => by
    cases w with
    | tensor u =>
      cases u with
      | none => simp [same, sameTensor] at h
      | some u =>
        rw [same, sameTensor] at h
        exact (alike_of_same_tensor h).stream_eq
    | _ => simp [same] at h
  | .handle _ _, w, h, _ => by
    cases w with
    | handle => rfl
    | _ => simp [same] at h

theorem streams_eq_of_same : (vs ws : List (Value σ)) → sameList vs ws = true → AllOfAKind vs ws →
    Stream.values vs = Stream.values ws
  | [], [], _, _ => rfl
  | v :: vs, w :: ws, h, hk => by
    rw [sameList, Bool.and_eq_true] at h
    rw [AllOfAKind] at hk
    rw [Stream.values, Stream.values, stream_eq_of_same v w h.1 hk.1,
      streams_eq_of_same vs ws h.2 hk.2]

end

omit [IsText σ] in
/-- Values that begin with one byte are of one kind. -/
theorem sameKind_of_kindByte {v w : Value σ} (h : v.kindByte = w.kindByte) :
    v.sameKind w = true := by
  cases v <;> cases w <;> first | rfl | exact absurd h (by simp [kindByte])

/-- Values that are not of one kind have different bytes. -/
theorem tells_of_not_sameKind {v w : Value σ} {P : Prop} (h : ¬ v.sameKind w = true) :
    Stream.Tells (Stream.value v) (Stream.value w) P := fun _ _ _ _ ha hb hab =>
  absurd (sameKind_of_kindByte (kindByte_eq ha hb hab)) h

theorem tells_of_same_flat {v w : Value σ} (h : v.same w = true)
    (hk : v.OfAKind w ↔ v.sameKind w = true) :
    Stream.Tells (Stream.value v) (Stream.value w) (v.OfAKind w) := by
  by_cases hkind : v.sameKind w = true
  · rw [stream_eq_of_same v w h (hk.2 hkind)]
    exact (Stream.Tells.refl _).imp fun _ => hk.2 hkind
  · exact tells_of_not_sameKind hkind

mutual

/-- **Values that are the same tell by their bytes** whether they are of one kind at every depth. -/
theorem tells_of_same : (v w : Value σ) → v.same w = true →
    Stream.Tells (Stream.value v) (Stream.value w) (v.OfAKind w)
  | .list vs, w, h => by
    cases w with
    | list ws =>
      rw [same] at h
      rw [Stream.value, Stream.value, length_eq_of_sameList h, OfAKind]
      exact ((Stream.Tells.refl _).append fun _ => tells_of_sameList vs ws h).imp And.right
    | _ => simp [same] at h
  | .nil, _, h | .int _, _, h | .dbl _, _, h | .bool _, _, h | .str _, _, h | .tensor _, _, h
  | .handle _ _, _, h => tells_of_same_flat h Iff.rfl

theorem tells_of_sameList : (vs ws : List (Value σ)) → sameList vs ws = true →
    Stream.Tells (Stream.values vs) (Stream.values ws) (AllOfAKind vs ws)
  | [], [], _ => (Stream.Tells.refl _).imp fun _ => by rw [AllOfAKind]; trivial
  | v :: vs, w :: ws, h => by
    rw [sameList, Bool.and_eq_true] at h
    rw [Stream.values, Stream.values, AllOfAKind]
    exact (tells_of_same v w h.1).append fun _ => tells_of_sameList vs ws h.2

end

mutual

/-- Values that are the same can both be compared by content, or none of them can. -/
theorem isOpaque_of_same : (v w : Value σ) → v.same w = true → v.IsOpaque → w.IsOpaque
  | .list vs, w, h, ho => by
    cases w with
    | list ws =>
      rw [same] at h
      exact anyOpaque_of_same vs ws h ho
    | _ => simp [same] at h
  | .tensor none, w, h, _ => by
    cases w with
    | tensor u =>
      cases u with
      | none => trivial
      | some u => simp [same, sameTensor] at h
    | _ => simp [same] at h
  | .handle _ _, w, h, _ => by
    cases w with
    | handle => trivial
    | _ => simp [same] at h

theorem anyOpaque_of_same : (vs ws : List (Value σ)) → sameList vs ws = true → AnyOpaque vs →
    AnyOpaque ws
  | v :: vs, w :: ws, h, ho => by
    rw [sameList, Bool.and_eq_true] at h
    exact ho.imp (isOpaque_of_same v w h.1) (anyOpaque_of_same vs ws h.2)

end

/-- **Values that are the same have the same bytes** exactly when they are of one kind at every
depth, or when they cannot be compared by content at all. -/
theorem stream_eq_iff_of_same {v w : Value σ} (h : v.same w = true) :
    Stream.value v = Stream.value w ↔ (¬ v.IsOpaque → v.OfAKind w) := by
  constructor
  · intro heq ho
    obtain ⟨a, ha⟩ := Option.ne_none_iff_exists'.1 fun hn => ho ((stream_eq_none_iff v).1 hn)
    exact (tells_of_same v w h).of_eq ha (heq ▸ ha)
  · intro hk
    by_cases ho : v.IsOpaque
    · rw [(stream_eq_none_iff v).2 ho, (stream_eq_none_iff w).2 (isOpaque_of_same v w h ho)]
    · exact stream_eq_of_same v w h (hk ho)

end Value

/-! ## Differences -/

namespace Environment

variable {σ : Type} [IsText σ] {n : σ}

/-- The difference to a base, written over the base, without the names that are not bound. -/
def patched (env base : Environment σ) : Environment σ :=
  (base.keys.filter fun n => !env.contains n).foldl erase (base.overlay (env.diffFrom base))

/-- Wherever both bind a name to values that are the same and of one kind, these are of one kind at
every depth. -/
def KeepsKinds (base env : Environment σ) : Prop :=
  ∀ n v w, base.find? n = some v → env.find? n = some w → v.sameKind w = true →
    v.same w = true → ¬ v.IsOpaque → v.OfAKind w

theorem find?_foldl_erase (l : List σ) (env : Environment σ) :
    (l.foldl erase env).find? n = if n ∈ l then none else env.find? n := by
  induction l generalizing env with
  | nil => rfl
  | cons k l ih =>
    rw [List.foldl_cons, ih, find?_erase]
    by_cases hl : n ∈ l
    · rw [if_pos hl, if_pos (List.mem_cons_of_mem k hl)]
    · by_cases hk : k = n
      · simp [hk]
      · simp [hl, hk, Ne.symm hk]

theorem findIn_diffFrom (env base : Environment σ) : findIn n (env.diffFrom base) =
    (env.find? n).filter fun v => base.differs (n, v) := findIn_filter env.bindings.sorted _

theorem find?_patched (env base : Environment σ) : (env.patched base).find? n =
    (env.find? n).bind fun w => if base.differs (n, w) then some w else base.find? n := by
  have hsorted : (env.diffFrom base).Pairwise fun p q => p.1 < q.1 := env.bindings.sorted.filter _
  rw [patched, find?_foldl_erase, find?_overlay_of_sorted _ hsorted, findIn_diffFrom]
  cases hw : env.find? n with
  | none =>
    have hfree : env.contains n = false := congrArg Option.isSome hw
    rw [Option.filter_none, Option.none_or, Option.bind_none]
    split
    · rfl
    · next hn =>
      exact findIn_eq_none_iff.2 fun hkey => hn (List.mem_filter.2 ⟨hkey, by rw [hfree]; rfl⟩)
  | some w =>
    have hbound : env.contains n = true := congrArg Option.isSome hw
    have hn : n ∉ base.keys.filter fun n => !env.contains n := fun hm => by
      have hfree := (List.mem_filter.1 hm).2
      rw [hbound] at hfree
      exact Bool.false_ne_true hfree
    rw [if_neg hn, Option.filter_some, Option.bind_some]
    split
    · exact Option.some_or
    · exact Option.none_or

/-- A binding is left out of a difference when the base has a value of one kind that is the same. -/
theorem differs_eq_false_iff {base : Environment σ} {w : Value σ} : base.differs (n, w) = false ↔
    ∃ v, base.find? n = some v ∧ v.sameKind w = true ∧ v.same w = true := by
  rw [differs]
  cases base.find? n with
  | none => simp
  | some v => simp

theorem mem_diffFrom {env base : Environment σ} {w : Value σ} (hw : env.find? n = some w) :
    n ∈ (env.diffFrom base).map Prod.fst ↔ base.differs (n, w) = true := by
  rw [← decide_eq_true_iff (p := n ∈ (env.diffFrom base).map Prod.fst), ← findIn_isSome,
    findIn_diffFrom, hw, Option.filter_some]
  cases base.differs (n, w) <;> simp

/-- What a difference leaves out has the same bytes in the base exactly as far as kinds are kept. -/
theorem omitted_iff {base env : Environment σ} :
    (∀ n w, env.find? n = some w → n ∉ (env.diffFrom base).map Prod.fst →
      base.encoding n = some (Stream.value w)) ↔ base.KeepsKinds env := by
  constructor
  · intro h n v w hv hw hkind hsame
    have hn : n ∉ (env.diffFrom base).map Prod.fst := fun hm => by
      rw [mem_diffFrom hw, ← Bool.not_eq_false, differs_eq_false_iff] at hm
      exact hm ⟨v, hv, hkind, hsame⟩
    have hbytes := h n w hw hn
    rw [encoding, hv, Option.map_some] at hbytes
    exact (Value.stream_eq_iff_of_same hsame).1 (Option.some.inj hbytes)
  · intro h n w hw hn
    rw [mem_diffFrom hw, Bool.not_eq_true, differs_eq_false_iff] at hn
    obtain ⟨v, hv, hkind, hsame⟩ := hn
    rw [encoding, hv, Option.map_some,
      (Value.stream_eq_iff_of_same hsame).2 (h n v w hv hw hkind hsame)]

/-- A difference, written over the base, gives each name its bytes exactly as far as kinds are
kept. -/
theorem patched_iff {base env : Environment σ} :
    (∀ n, (env.patched base).encoding n = env.encoding n) ↔ base.KeepsKinds env := by
  refine (forall_congr' fun n => ?_).trans omitted_iff
  rw [encoding, encoding, find?_patched]
  cases hw : env.find? n with
  | none => simp
  | some w =>
    rw [Option.bind_some, Option.map_some]
    simp only [Option.some.injEq, forall_eq', mem_diffFrom hw]
    cases base.differs (n, w) <;> simp [encoding]

/-- **A difference misses no change exactly as far as kinds are kept.** Written over the base,
without the names that are not bound, it gives each name the bytes of its value, and it leaves out
no binding whose bytes have changed, exactly when values that are the same and of one kind are of
one kind at every depth. -/
theorem difference_restores_iff (env base : Environment σ) :
    ((∀ n, (env.patched base).encoding n = env.encoding n) ↔ base.KeepsKinds env) ∧
    ((∀ n w, env.find? n = some w → n ∉ (env.diffFrom base).map Prod.fst →
      base.encoding n = some (Stream.value w)) ↔ base.KeepsKinds env) :=
  ⟨patched_iff, omitted_iff⟩

/-- A double in the place of an integer is a change of a value, but none of an item of a list. -/
theorem difference_misses_item :
    let base := ofList [("x", .list [.int 1])]
    let env := ofList [("x", .list [.dbl 1.0])]
    (ofList [("x", .dbl 1.0)]).diffFrom (ofList [("x", .int 1)]) = [("x", .dbl 1.0)] ∧
      env.diffFrom base = [] ∧ base.encoding "x" ≠ env.encoding "x" ∧
      ¬ ∀ n, (env.patched base).encoding n = env.encoding n := by
  intro base env
  have hsame : (Value.list [.int 1] : Value).same (.list [.dbl 1.0]) = true := by decide +kernel
  have hbase : base.find? "x" = some (.list [.int 1]) := by rw [find?_one, if_pos rfl]
  have henv : env.find? "x" = some (.list [.dbl 1.0]) := by rw [find?_one, if_pos rfl]
  have hplain : ¬ (Value.list [.int 1] : Value).IsOpaque := by
    simp [Value.IsOpaque, Value.AnyOpaque]
  have hkinds : ¬ (Value.list [.int 1] : Value).OfAKind (.list [.dbl 1.0]) := fun h => by
    rw [Value.OfAKind, Value.AllOfAKind] at h
    exact Bool.false_ne_true h.1
  have hdiff : env.diffFrom base = [] := List.filter_eq_nil_iff.2 fun ⟨n, w⟩ hp => by
    have hw := mem_toList.1 hp
    rw [find?_one, Option.ite_none_right_eq_some] at hw
    obtain ⟨rfl, hw⟩ := hw
    obtain rfl := Option.some.inj hw
    exact Bool.not_eq_true _ ▸ differs_eq_false_iff.2 ⟨_, hbase, rfl, hsame⟩
  refine ⟨rfl, hdiff, fun heq => ?_, fun h => ?_⟩
  · rw [encoding, encoding, hbase, henv] at heq
    exact hkinds ((Value.stream_eq_iff_of_same hsame).1 (Option.some.inj heq) hplain)
  · exact hkinds ((difference_restores_iff env base).1.1 h "x" _ _ hbase henv rfl hsame hplain)

end Environment

end MemoFlow
