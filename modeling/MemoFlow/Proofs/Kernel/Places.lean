import MemoFlow.Proofs.Bounds.Loops
import MemoFlow.Proofs.Kernel.Literals
import MemoFlow.Proofs.Kernel.Reuse

/-!
# Places that generated code reads

Types and shapes of the operands decide whether a call runs generated code. What the code reads are
places of payloads, and nothing asks for their sizes: the loop is written once more with each place
checked, and goes through exactly when the payloads are as long as their shapes say.

* `KernelSignature.obstacle_none_of_common`, **`KernelCall.compilable_iff`**: the operands that
  code is generated for;
* `Code.Loop.operandsAt`, `Code.Loop.readSize`, **`Code.Function.guardedRun`**: the loop with
  checked places;
* `Code.Function.guardedRun_eq`, `Code.Function.readSize_le_of_ok`: when it stays inside;
* `Code.Function.Follows`: code with the loop that was written;
* **`Accelerator.inside_iff`**: which calls run code, what it reads, and how much it writes.
-/

namespace MemoFlow

/-! ## Operands for generated code -/

namespace KernelSignature

variable {α : Type}

/-- A shape that was found stays the common one. -/
theorem commonShape_some (i : Nat) (s : Shape) (ts : List (Tensor α)) :
    (commonShape i (some s) ts).2 = some s := by
  induction ts generalizing i with
  | nil => rfl
  | cons t ts ih =>
    simp only [commonShape]
    split
    · rfl
    · split
      · exact ih _
      · split
        · exact ih _
        · rfl

/-- Without an obstacle all operands are doubles and have the common shape, or none. -/
theorem common_of_obstacle_none {i : Nat} {shape : Option Shape} {ts : List (Tensor α)}
    (h : (commonShape i shape ts).1 = none) :
    (∀ t ∈ ts, t.dtype = .f64) ∧
      ∀ t ∈ ts, t.rank ≠ 0 → (commonShape i shape ts).2 = some t.shape := by
  induction ts generalizing i shape with
  | nil => simp
  | cons t ts ih =>
    simp only [commonShape, List.forall_mem_cons] at h ⊢
    by_cases hd : t.dtype = .f64
    · rw [if_neg (not_not.2 hd)] at h ⊢
      by_cases hr : t.rank = 0
      · rw [if_pos hr] at h ⊢
        exact ⟨⟨hd, (ih h).1⟩, fun hne => absurd hr hne, (ih h).2⟩
      · rw [if_neg hr] at h ⊢
        cases shape with
        | none => exact ⟨⟨hd, (ih h).1⟩, fun _ => commonShape_some _ _ ts, (ih h).2⟩
        | some s =>
          by_cases hs : s = t.shape
          · subst hs
            simp only [if_true] at h ⊢
            exact ⟨⟨hd, (ih h).1⟩, fun _ => commonShape_some _ _ ts, (ih h).2⟩
          · simp [hs] at h
    · simp [hd] at h

/-- There is no obstacle when all operands are doubles and those with a shape have the same. -/
theorem obstacle_none_of_common {i : Nat} {s : Shape} {shape : Option Shape} {ts : List (Tensor α)}
    (hd : ∀ t ∈ ts, t.dtype = .f64) (hs : ∀ t ∈ ts, t.rank ≠ 0 → t.shape = s)
    (hshape : ∀ o ∈ shape, o = s) : (commonShape i shape ts).1 = none := by
  induction ts generalizing i shape with
  | nil => rfl
  | cons t ts ih =>
    have hrest : ∀ {j : Nat} {o : Option Shape}, (∀ u ∈ o, u = s) → (commonShape j o ts).1 = none :=
      ih (fun u hu => hd u (List.mem_cons_of_mem _ hu)) fun u hu => hs u (List.mem_cons_of_mem _ hu)
    simp only [commonShape, if_neg (not_not.2 (hd t List.mem_cons_self))]
    by_cases hr : t.rank = 0
    · rw [if_pos hr]
      exact hrest hshape
    · have ht : t.shape = s := hs t List.mem_cons_self hr
      rw [if_neg hr]
      cases shape with
      | none => exact hrest fun u hu => by rw [← ht]; exact (Option.some.inj hu).symm
      | some u =>
        have hu : u = t.shape := (hshape u rfl).trans ht.symm
        simp only [if_pos hu]
        exact hrest hshape

end KernelSignature

namespace KernelCall

/-- **Operands for generated code**: one for each parameter, all of them doubles, and all of one
shape except for single numbers. -/
structure IsUniform (x : KernelCall) : Prop where
  length : x.args.length = x.kernel.params.length
  dtype : ∀ t ∈ x.args, t.dtype = .f64
  shape : ∃ s, ∀ t ∈ x.args, t.rank ≠ 0 → t.shape = s

variable {x : KernelCall}

theorem compilable_eq_true_iff : x.signature.compilable = true ↔
    (KernelSignature.commonShape 0 none x.args).1 = none ∧
      x.args.length = x.kernel.params.length := by
  rw [KernelSignature.compilable, Option.isNone_iff_eq_none]
  refine Option.or_eq_none_iff.trans (and_congr_right fun _ => ?_)
  rw [ite_eq_left_iff]
  simp

/-- Operands for which code can be generated have the shape of the result. -/
theorem shape_of_compilable (h : x.signature.compilable = true) :
    ∀ t ∈ x.args, t.rank ≠ 0 → t.shape = x.signature.shape := by
  intro t ht hr
  have hcommon := (KernelSignature.common_of_obstacle_none (compilable_eq_true_iff.1 h).1).2 t ht hr
  exact (congrArg (fun o => o.getD []) hcommon).symm

/-- **Code can be generated for uniform operands**, and for no others. -/
theorem compilable_iff : x.signature.compilable = true ↔ x.IsUniform := by
  refine ⟨fun h => ?_, fun h => ?_⟩
  · obtain ⟨hnone, hlength⟩ := compilable_eq_true_iff.1 h
    exact ⟨hlength, (KernelSignature.common_of_obstacle_none hnone).1, _, shape_of_compilable h⟩
  · obtain ⟨s, hs⟩ := h.shape
    exact compilable_eq_true_iff.2
      ⟨KernelSignature.obstacle_none_of_common h.dtype hs (by simp), h.length⟩

end KernelCall

/-! ## Steps of runs that check their places -/

namespace Guarded

variable {β ι : Type}

theorem lt_of_read {xs : Array β} {i : Nat} {x : β} (h : read xs i = .ok x) : i < xs.size := by
  by_contra hi
  rw [read, dif_neg hi] at h
  cases h

/-- A run through a list that goes through has a result for each member. -/
theorem exists_of_mapM {l : List ι} {f : ι → Guarded β} {ys : List β} (h : l.mapM f = .ok ys) :
    ∀ i ∈ l, ∃ y, f i = .ok y := by
  induction l generalizing ys with
  | nil => simp
  | cons j l ih =>
    rw [List.mapM_cons] at h
    cases hj : f j with
    | error e => rw [hj] at h; cases h
    | ok y =>
      cases hl : l.mapM f with
      | error e => rw [hj, hl] at h; cases h
      | ok zs => exact List.forall_mem_cons.2 ⟨⟨y, hj⟩, ih hl⟩

/-- A payload that is written place by place has something to write at each place. -/
theorem exists_of_revise {n : Nat} {f : Nat → Guarded (Option β)} {xs ys : Array β}
    (h : revise n f xs = .ok ys) : ∀ i < n, ∃ v, f i = .ok v := by
  induction n generalizing ys with
  | zero => exact fun i hi => absurd hi (Nat.not_lt_zero i)
  | succ n ih =>
    rw [revise, List.range_succ, List.foldlM_append] at h
    cases hfirst : (List.range n).foldlM (fun ys i => do put ys i (← f i)) xs with
    | error e => rw [hfirst] at h; cases h
    | ok zs =>
      intro i hi
      rcases Nat.lt_succ_iff_lt_or_eq.1 hi with hi | rfl
      · exact ih hfirst i hi
      · cases hv : f i with
        | ok v => exact ⟨v, rfl⟩
        | error e =>
          rw [hfirst, ok_bind, List.foldlM_cons, hv] at h
          cases h

end Guarded

/-! ## The loop with checked places -/

namespace Code.Loop

/-- The numbers of the operands at an element, each place checked. -/
def operandsAt (l : Loop) (args : List (Array Double)) (i : Nat) : Guarded (List Double) :=
  (l.operands.zip args).mapM fun p => Guarded.read p.2 (if p.1.2 then 0 else i)

/-- The value of a name at an element, by the numbers of the operands. -/
def localAt (l : Loop) (xs : List Double) (i : Nat) (w : Bytes) : Val :=
  match (l.operands.zip xs).find? fun p => p.1.1 = w with
  | some p => .real .double (Datum.ofBits p.2.bits)
  | none => .int .unsignedLong (if w = l.index then i else l.count)

/-- The numbers of an operand that a loop reads, if it has any element. -/
def readSize (l : Loop) (single : Bool) : Nat := if single then 1 else l.count

theorem localAt_eq (l : Loop) (args : List (Array Double)) (i : Nat) :
    l.localAt ((l.operands.zip args).map fun p => p.2.getD (if p.1.2 then 0 else i) 0) i =
      Function.valueAt l args i := by
  have hfind : ∀ (ps : List (Bytes × Bool)) (args : List (Array Double)) (w : Bytes),
      (ps.zip ((ps.zip args).map fun p => p.2.getD (if p.1.2 then 0 else i) 0)).find?
          (fun p => p.1.1 = w) =
        ((ps.zip args).find? fun p => p.1.1 = w).map
          fun p => (p.1, p.2.getD (if p.1.2 then 0 else i) 0) := by
    intro ps
    induction ps with
    | nil => simp
    | cons p ps ih =>
      intro args w
      cases args with
      | nil => simp
      | cons xs args =>
        simp only [List.zip_cons_cons, List.map_cons, List.find?_cons]
        cases decide (p.1 = w) with
        | true => rfl
        | false => exact ih args w
  funext w
  rw [localAt, Function.valueAt, hfind]
  cases (l.operands.zip args).find? fun p => p.1.1 = w <;> rfl

end Code.Loop

namespace Code.Function

/-- The result of an element, by the numbers of the operands. -/
def element (f : Function) (i : Nat) (xs : List Double) : Double :=
  (f.loop.body.eval
    { machine := f.machine
      scope := Reader.scope f.names f.loop.locals
      value := f.loop.localAt xs i
      kept := f.names.kept?
      position := f.loop.body.position f.loop.locals
      call := call f.machine f.names depth }).toDouble

/-- The result of an element, each place checked. -/
def guardedElement (f : Function) (args : List (Array Double)) (i : Nat) : Guarded Double := do
  let xs ← f.loop.operandsAt args i
  .ok (f.element i xs)

/-- **The loop with each place checked**: at each element all operands are read, and the result is
written to a payload. -/
def guardedRun (f : Function) (args : List (Array Double)) (out : Array Double) :
    Guarded (Array Double) :=
  Guarded.revise f.loop.count (fun i => do .ok (some (← f.guardedElement args i))) out

variable {f : Function} {args : List (Array Double)} {out : Array Double}

/-- A loop that stays inside its payloads gives the results of all elements. -/
theorem guardedRun_eq (hout : out.size = f.loop.count)
    (h : 0 < f.loop.count →
      ∀ p ∈ f.loop.operands.zip args, f.loop.readSize p.1.2 ≤ p.2.size) :
    f.guardedRun args out = .ok (f.run args) := by
  have helement : ∀ i < f.loop.count, f.guardedElement args i =
      .ok (f.element i ((f.loop.operands.zip args).map
        fun p => p.2.getD (if p.1.2 then 0 else i) 0)) := by
    intro i hi
    rw [guardedElement, Loop.operandsAt, Guarded.mapM_eq fun p hp => Guarded.read_eq ?_ 0]
    · rfl
    · refine Nat.lt_of_lt_of_le ?_ (h (Nat.zero_lt_of_lt hi) p hp)
      rw [Loop.readSize]
      split
      · exact Nat.zero_lt_one
      · exact hi
  have hrun := Guarded.fill_eq hout helement
  simp only [element, Loop.localAt_eq] at hrun
  exact hrun

/-- A loop with an element reads the last place of each operand. -/
theorem readSize_le_of_ok {ys : Array Double} (hrun : f.guardedRun args out = .ok ys)
    (h : 0 < f.loop.count) : ∀ p ∈ f.loop.operands.zip args, f.loop.readSize p.1.2 ≤ p.2.size := by
  intro p hp
  obtain ⟨v, hv⟩ := Guarded.exists_of_revise hrun (f.loop.count - 1) (by omega)
  obtain ⟨xs, hxs⟩ : ∃ xs, f.loop.operandsAt args (f.loop.count - 1) = .ok xs := by
    cases hread : f.loop.operandsAt args (f.loop.count - 1) with
    | ok xs => exact ⟨xs, rfl⟩
    | error e => rw [guardedElement, hread] at hv; cases hv
  obtain ⟨x, hx⟩ := Guarded.exists_of_mapM hxs p hp
  have hlt := Guarded.lt_of_read hx
  rw [Loop.readSize]
  split
  · next hsingle => rwa [if_pos hsingle] at hlt
  · next hsingle =>
    rw [if_neg hsingle] at hlt
    omega

/-- **Code with the loop that was written** for a kernel and a signature. -/
structure Follows (f : Function) (k : Kernel) (s : KernelSignature) : Prop where
  count : f.loop.count = (numel s.shape).toNat
  operands : f.loop.operands = k.params.zip s.single

end Code.Function

/-! ## Calls -/

namespace KernelCall

variable {x : KernelCall} {c : Code.Function}

/-- A uniform operand has one element, or as many as the result. -/
theorem count_of_compilable (h : x.signature.compilable = true) {t : Tensor Double}
    (ht : t ∈ x.args) : t.count = if t.rank = 0 then 1 else numel x.signature.shape := by
  split
  · next hr => rw [Tensor.count, List.length_eq_zero_iff.1 hr]; rfl
  · next hr => rw [Tensor.count, shape_of_compilable h t ht hr]

theorem forall_mem_zip_zip {β γ δ τ : Type} {f : τ → γ} {g : τ → δ} {ps : List β} {ts : List τ}
    (h : ts.length = ps.length) (P : γ → δ → Prop) :
    (∀ p ∈ (ps.zip (ts.map f)).zip (ts.map g), P p.1.2 p.2) ↔ ∀ t ∈ ts, P (f t) (g t) := by
  induction ps generalizing ts with
  | nil => simp [List.length_eq_zero_iff.1 h]
  | cons p ps ih =>
    cases ts with
    | nil => cases h
    | cons t ts =>
      simp only [List.map_cons, List.zip_cons_cons, List.forall_mem_cons, ih (Nat.succ.inj h)]

/-- What the written loop reads of the operands is as much as their shapes say. -/
theorem forall_readSize_iff (h : x.signature.compilable = true)
    (hf : c.Follows x.kernel x.signature) :
    (∀ p ∈ c.loop.operands.zip (x.args.map Tensor.data), c.loop.readSize p.1.2 ≤ p.2.size) ↔
      ∀ t ∈ x.args, t.count.toNat ≤ t.data.size := by
  have hsingle : x.signature.single = x.args.map fun t => decide (t.rank = 0) := rfl
  rw [hf.operands, hsingle, forall_mem_zip_zip (compilable_iff.1 h).length
    fun (single : Bool) (xs : Array Double) => c.loop.readSize single ≤ xs.size]
  refine forall₂_congr fun t ht => ?_
  rw [count_of_compilable h ht, Code.Loop.readSize, hf.count]
  by_cases hr : t.rank = 0 <;> simp [hr]

end KernelCall

namespace Accelerator

variable {a b : Accelerator} {x : KernelCall} {e : Option Code.Function} {c : Code.Function}

/-- A call does one thing only. -/
theorem Serves.serve_eq (h : a.Serves x e b) : a.serve x = (x.result e, b) := by
  cases h with
  | passed hw => exact serve_of_passed hw
  | reused hw hl => exact serve_of_reused hw hl
  | refused hw hl => exact serve_of_refused hw hl
  | compiled hw hl hb => exact serve_of_codeFor (codeFor_of_compiled hw hl hb)
  | failed hw hl hb => exact serve_of_codeFor (codeFor_of_failed hw hl hb)

/-- Code is run for operands that it can be generated for. -/
theorem Serves.compilable (h : a.Serves x (some c) b) : x.signature.compilable = true := by
  have hw : a.wants x = true := by cases h <;> assumption
  exact (Bool.and_eq_true_iff.1 hw).1

/-- **Generated code stays inside payloads that are as long as their shapes say**, and inside no
others. Operands that are not uniform are left to the function itself. For all others that are left
to code: each has one element or as many as the result, and there are as many results as the shape
says. The loop with each place checked gives them exactly when there is no element at all or no
payload is too short; the payloads are not asked for when code is chosen. -/
theorem inside_iff (a : Accelerator) (x : KernelCall) :
    (¬ x.IsUniform → a.serve x = (x.fn.fallback x.args, a.count fun st =>
        { st with calls := st.calls + 1, fallbacks := st.fallbacks + 1 })) ∧
      ∀ c b, a.Serves x (some c) b →
        x.IsUniform ∧
        (∀ t ∈ x.args, t.count = if t.rank = 0 then 1 else numel x.signature.shape) ∧
        ∃ u, (a.serve x).1 = .ok u ∧ u.dtype = .f64 ∧ u.shape = x.signature.shape ∧
          (c.Follows x.kernel x.signature →
            u.data.size = (numel u.shape).toNat ∧
            (c.guardedRun (x.args.map Tensor.data) (Tensor.zeros u.shape .f64).data = .ok u.data ↔
              numel u.shape = 0 ∨ ∀ t ∈ x.args, t.count.toNat ≤ t.data.size)) := by
  refine ⟨fun hu => ?_, fun c b hs => ?_⟩
  · have hw : a.wants x = false := by
      rw [wants, Bool.eq_false_iff.2 (fun h => hu (KernelCall.compilable_iff.1 h)), Bool.false_and]
    exact serve_of_passed hw
  · have hcomp := hs.compilable
    refine ⟨KernelCall.compilable_iff.1 hcomp, fun t ht => KernelCall.count_of_compilable hcomp ht,
      runCode c x.signature x.args, by rw [hs.serve_eq]; rfl, rfl, rfl, fun hf => ?_⟩
    have hsize : (Tensor.zeros x.signature.shape .f64 : Tensor Double).data.size =
        c.loop.count := by
      rw [hf.count]
      simp [Tensor.zeros, Tensor.stride]
    refine ⟨Array.size_ofFn.trans hf.count, fun hrun => ?_, fun h => ?_⟩
    · by_cases hzero : numel x.signature.shape = 0
      · exact .inl hzero
      · have hpos : 0 < c.loop.count := by
          rw [hf.count, Nat.pos_iff_ne_zero]
          exact fun h => hzero (UInt64.toNat_inj.1 h)
        exact .inr ((KernelCall.forall_readSize_iff hcomp hf).1
          (Code.Function.readSize_le_of_ok hrun hpos))
    · refine Code.Function.guardedRun_eq hsize fun hpos => ?_
      rcases h with hzero | h
      · rw [hf.count] at hpos
        change numel x.signature.shape = 0 at hzero
        rw [hzero] at hpos
        exact absurd hpos (Nat.lt_irrefl 0)
      · exact (KernelCall.forall_readSize_iff hcomp hf).2 h

/-- A tensor whose shape says two numbers, and that holds none. -/
def hollow : Tensor Double := ⟨.f64, [2], #[], .native⟩

/-- A compiler that takes every text for the loop that copies two numbers. -/
def copyCompiler : Compiler :=
  ⟨true, fun _ => ⟨.ok ⟨⟨2, [110], [105], [([97], false)], .name [97]⟩, { }, { }⟩, []⟩⟩

theorem outside_of_hollow :
    let a : Accelerator := { enabled := true, compiler := copyCompiler }
    let x : KernelCall := ⟨oneByte 97, [hollow]⟩
    (¬ (⟨oneByte 97, []⟩ : KernelCall).IsUniform ∧
        (a.serve ⟨oneByte 97, []⟩).1 = (oneByte 97).fallback []) ∧
      ∃ c b u, a.Serves x (some c) b ∧ c.Follows x.kernel x.signature ∧ (a.serve x).1 = .ok u ∧
        u.data.size = 2 ∧
        c.guardedRun (x.args.map Tensor.data) (Tensor.zeros u.shape .f64).data ≠ .ok u.data := by
  intro a x
  have hnone : ¬ (⟨oneByte 97, []⟩ : KernelCall).IsUniform := fun h => by
    simpa [oneByte, KernelCall.kernel] using h.length
  have hcheck : x.kernel.check = .ok () := Kernel.check_eq_ok (by decide +kernel)
  have hs : a.Serves x (some ⟨⟨2, [110], [105], [([97], false)], .name [97]⟩, { }, { }⟩) _ :=
    .compiled rfl rfl (by rw [build, hcheck]; rfl)
  have hf : Code.Function.Follows ⟨⟨2, [110], [105], [([97], false)], .name [97]⟩, { }, { }⟩
      x.kernel x.signature := ⟨rfl, rfl⟩
  obtain ⟨-, -, u, hu, -, hshape, hrun⟩ := (inside_iff a x).2 _ _ hs
  obtain ⟨hsize, hiff⟩ := hrun hf
  rw [hshape] at hsize hiff
  refine ⟨⟨hnone, by rw [(inside_iff a _).1 hnone]⟩, _, _, u, hs, hf, hu, hsize, fun h => ?_⟩
  rw [hshape] at h
  rcases hiff.1 h with h | h
  · exact absurd h (by decide)
  · exact absurd (h hollow List.mem_cons_self) (by decide)

end Accelerator

end MemoFlow
