import Mathlib.Analysis.SpecialFunctions.Trigonometric.Basic
import MemoFlow.Proofs.Cache.Recall
import MemoFlow.Proofs.Tensor.Exact
import MemoFlow.Proofs.Tensor.Faults

/-!
# Engines agree

On exact numbers the result of an operation does not show which engine served it, and neither which
engines failed before, nor whether it was computed at all or kept from an earlier call.

* **`Dispatcher.AtHand`**, `Dispatcher.atHand_afterAll`: the engines are those at hand, less the
  disabled ones, whatever is asked of a dispatcher;
* `Dispatcher.offers_of_search`: a search ends with what a routine of an engine makes;
* `Dispatcher.EachKept`, `Dispatcher.eachKept_serve`: a property of all results that are kept;
* `OpCall`, `OpCall.Makes`, `OpCall.eachKept_keptAfter`: calls one after the other, and what they
  keep;
* **`OpCall.content_eq`**: two calls on the same operands return the same;
* an instance of `Scalar` for the reals.
-/

namespace MemoFlow

variable {α : Type}

namespace Dispatcher

/-! ## The engines at hand -/

theorem routine?_new (config : TensorConfig) (found : PerEngine (Backend α)) (e : Engine) :
    ((new config found).value.backend e).routine? = (found.get e).routine? := by
  have hd : ∀ b : Backend α, (disable config.disabled e b).routine? = b.routine? := fun b => by
    unfold disable
    split <;> rfl
  cases e <;> exact hd _

section AtHand

variable [Arith α] [Scalar α]

/-- **The engines are those at hand**, less the ones that the settings disable. -/
def AtHand (d : Dispatcher α) : Prop :=
  ∃ library eigen, d.backends = (new d.config (Backend.atHand library eigen)).value.backends

/-- An engine at hand serves an operation through the library or by the plain loops. -/
theorem AtHand.routine {d : Dispatcher α} (h : d.AtHand) {e : Engine} {o : Op} {t : DType}
    {f : Routine α} (hf : (d.backend e).routine? o t = some f) :
    Blas.run? o t = some f ∨ f = Native.run o := by
  obtain ⟨library, eigen, hb⟩ := h
  rw [backend, hb] at hf
  change ((new d.config _).value.backend e).routine? o t = _ at hf
  rw [routine?_new] at hf
  match e, eigen, hf with
  | .blas, _, hf => exact .inl hf
  | .eigen, true, hf => exact .inr (Option.some.inj hf).symm
  | .native, _, hf => exact .inr (Option.some.inj hf).symm

end AtHand

/-! ## What an operation leaves as it is -/

/-- A step leaves the settings and the engines as they are. -/
structure Steady (d d' : Dispatcher α) : Prop where
  config : d'.config = d.config
  backends : d'.backends = d.backends

namespace Steady

variable {d d₁ d₂ : Dispatcher α}

theorem refl (d : Dispatcher α) : d.Steady d := ⟨rfl, rfl⟩

theorem trans (h : d.Steady d₁) (h' : d₁.Steady d₂) : d.Steady d₂ :=
  ⟨h'.config.trans h.config, h'.backends.trans h.backends⟩

end Steady

theorem steady_recordFault (d : Dispatcher α) (o : Op) (e : Engine) (reason : String) :
    d.Steady (d.recordFault o e reason).value := by
  unfold recordFault
  dsimp only
  split <;> exact ⟨rfl, rfl⟩

theorem steady_logFaults (d : Dispatcher α) (o : Op) (reason : String) (target : Option Engine)
    (failed : List Engine) : d.Steady (d.logFaults o reason target failed) := by
  induction failed generalizing d with
  | nil => exact .refl d
  | cons e rest ih =>
    have h : d.Steady (d.logFaults o reason target [e]) := ⟨rfl, rfl⟩
    exact h.trans (ih _)

theorem steady_recordServed (s : Search α) (o : Op) (e : Engine) :
    s.state.Steady (recordServed s o e) := by
  have h : s.state.Steady (s.state.count fun st =>
      { st with
        served := st.served.modify e (· + 1)
        fallbacks := if s.failed.isEmpty then st.fallbacks else st.fallbacks + 1 }) := ⟨rfl, rfl⟩
  exact h.trans (steady_logFaults _ o s.reason (some e) s.failed)

theorem steady_search (o : Op) (t : DType) (args : List (Tensor α)) (es : List Engine)
    (s : Search α) : s.state.Steady (search o t args es s).value.2.state := by
  induction es generalizing s with
  | nil => exact .refl _
  | cons e es ih =>
    rw [search]
    split
    · exact ih s
    · split
      · exact .refl _
      · exact .refl _
      · next reason _ =>
        exact (steady_recordFault s.state o e reason).trans
          (ih ⟨(s.state.recordFault o e reason).value, s.failed ++ [e], reason⟩)

section Calls

variable [Arith α] [Scalar α]

theorem steady_op (d : Dispatcher α) (key : Op → List (Tensor α) → Fingerprint)
    (cache : Option (Results α)) (now : Int64) (h : Handle) (name : String)
    (args : List (Tensor α)) : d.Steady (d.op key cache now h name args).value.2.1 := by
  unfold op
  split
  · exact .refl d
  · next o _ =>
    split
    · exact .refl d
    · split
      · unfold serve
        simp only [Told.value_bind]
        have hs := steady_search o ((args.head?.map Tensor.dtype).getD .f64) args h.engine.onward
          { state := d.count fun s => { s with ops := s.ops + 1 } }
        have hd : d.Steady (d.count fun s => { s with ops := s.ops + 1 }) := ⟨rfl, rfl⟩
        split
        · exact ⟨rfl, rfl⟩
        · simp only [Told.value_bind]
          split
          · exact (hd.trans hs).trans (steady_recordServed _ o _)
          · exact hd.trans hs
          · exact (hd.trans hs).trans (steady_logFaults _ o _ _ _)
      · exact .refl d

theorem Call.steady (c : Call α) (d : Dispatcher α) : d.Steady (c.run d).2 := by
  cases c with
  | op key cache now h name args => exact steady_op d key cache now h name args
  | select =>
    change d.Steady d.select.value.2
    unfold Dispatcher.select
    split
    · exact .refl d
    · split <;> exact ⟨rfl, rfl⟩
  | migrate h target =>
    change d.Steady (d.migrate h target).value.2
    unfold Dispatcher.migrate
    split
    · exact .refl d
    · split <;> exact ⟨rfl, rfl⟩

/-- **The engines stay at hand** whatever is asked of them. -/
theorem atHand_afterAll (config : TensorConfig) (library : String) (eigen : Bool)
    (cs : List (Call α)) :
    (afterAll cs (new config (Backend.atHand library eigen)).value).AtHand := by
  have hs : ∀ (cs : List (Call α)) (d : Dispatcher α), d.Steady (afterAll cs d) := fun cs => by
    induction cs with
    | nil => exact fun d => .refl d
    | cons c cs ih => exact fun d => (c.steady d).trans (ih (c.run d).2)
  obtain ⟨hc, hb⟩ := hs cs (new config (Backend.atHand library eigen)).value
  exact ⟨library, eigen, by rw [hb, hc]; rfl⟩

end Calls

/-! ## Searches -/

/-- A routine of an engine, and what it makes of operands. -/
def Offers (d : Dispatcher α) (o : Op) (t : DType) (args out : List (Tensor α)) : Prop :=
  ∃ e f, (d.backend e).routine? o t = some f ∧ f args = .ok out

/-- **A search that serves** an operation ends with what a routine of an engine makes of the
operands. -/
theorem offers_of_search {o : Op} {t : DType} {args : List (Tensor α)} {es : List Engine}
    {s : Search α} {e : Engine} {out : List (Tensor α)}
    (h : (search o t args es s).value.1 = .served e out) : s.state.Offers o t args out := by
  induction es generalizing s with
  | nil => cases h
  | cons k es ih =>
    rw [search] at h
    split at h
    · exact ih h
    · next f hf =>
      have hr : (s.state.backend k).routine? o t = some f := by
        unfold usable? at hf
        split at hf
        · exact hf
        · cases hf
      split at h
      · next out' hout =>
        obtain ⟨rfl, rfl⟩ : k = e ∧ out' = out := by simpa using h
        unfold attempt at hout
        split at hout
        · cases hout
        · exact ⟨k, f, hr, hout⟩
      · cases h
      · next reason _ =>
        obtain ⟨k', f', hf', hout⟩ := ih h
        rw [backend, (steady_recordFault s.state o k reason).backends] at hf'
        exact ⟨k', f', hf', hout⟩

/-! ## What is kept -/

/-- Every result in a cache has a property, which can speak of its key. -/
def EachKept (P : Fingerprint → List (Tensor α) → Prop) (cache : Option (Results α)) : Prop :=
  ∀ c ∈ cache, ∃ o g l, c.Holds o g l ∧ ∀ p ∈ l, P p.1 p.2.value

section EachKept

variable {P : Fingerprint → List (Tensor α) → Prop} {cache : Option (Results α)}

theorem eachKept_none : EachKept P (none : Option (Results α)) := nofun

theorem eachKept_new (o : CacheOptions) (g : List (Tensor α) → UInt64) :
    EachKept P (some (Cache.new o g)) := by
  rintro c ⟨⟩
  exact ⟨o, g, [], .new o g, nofun⟩

theorem EachKept.mono {Q : Fingerprint → List (Tensor α) → Prop} (h : EachKept P cache)
    (hPQ : ∀ k v, P k v → Q k v) : EachKept Q cache := fun c hc =>
  let ⟨o, g, l, hl, hp⟩ := h c hc
  ⟨o, g, l, hl, fun p hm => hPQ _ _ (hp p hm)⟩

/-- A look-up finds a result with the property, and brings nothing in. -/
theorem EachKept.kept? (h : EachKept P cache) (now : Int64) (key : Fingerprint) (wanted : Bool) :
    EachKept P (kept? cache now key wanted).value.2 ∧
      ∀ v, (kept? cache now key wanted).value.1 = some v → P key v := by
  cases cache with
  | none => exact ⟨eachKept_none, nofun⟩
  | some c =>
    cases wanted with
    | false => exact ⟨h, nofun⟩
    | true =>
      obtain ⟨o, g, l, hl, hp⟩ := h c rfl
      obtain ⟨l', hl', hsub, hget⟩ := hl.get now key
      refine ⟨?_, fun v hv => ?_⟩
      · rintro c' ⟨⟩
        exact ⟨o, g, l', hl', fun p hm => hp p (hsub p hm)⟩
      · obtain ⟨-, e, hm, rfl⟩ := hget v hv
        exact hp (key, e) hm

/-- A store keeps a result that has the property. -/
theorem EachKept.keep (h : EachKept P cache) (now : Int64) {key : Fingerprint} (wanted : Bool)
    {v : List (Tensor α)} (hv : P key v) : EachKept P (keep cache now key wanted v).value := by
  cases cache with
  | none => exact eachKept_none
  | some c =>
    cases wanted with
    | false => exact h
    | true =>
      obtain ⟨o, g, l, hl, hp⟩ := h c rfl
      obtain ⟨l', hl', hput⟩ := hl.put now key v none none
      rintro c' ⟨⟩
      refine ⟨o, g, l', hl', fun p hm => ?_⟩
      obtain hm | ⟨-, rfl, rfl⟩ := hput p hm
      · exact hp p hm
      · exact hv

end EachKept

/-- **An operation on checked operands** returns a kept result or what a routine of an engine makes
of the operands, and keeps nothing else. Its results are owned by the engine of the handle. -/
theorem eachKept_serve [Arith α] [Scalar α] (d : Dispatcher α)
    (key : Op → List (Tensor α) → Fingerprint) (now : Int64) (h : Handle)
    {P : Fingerprint → List (Tensor α) → Prop} {cache : Option (Results α)} {o : Op}
    {args : List (Tensor α)} (hP : EachKept P cache)
    (hput : ∀ out, d.Offers o ((args.head?.map Tensor.dtype).getD .f64) args out →
      P (key o args) (out.map fun t => t.onEngine h.engine)) :
    EachKept P (d.serve key cache now h o args).value.2.2 ∧
      ∀ out, (d.serve key cache now h o args).value.1 = .ok out →
        ∃ out', P (key o args) out' ∧ out = out'.map fun t => t.onEngine h.engine := by
  unfold serve
  simp only [Told.value_bind]
  obtain ⟨hk, hhit⟩ := hP.kept? now (key o args) (d.config.opCache && o.isCostly)
  split
  · next out hout =>
    refine ⟨hk, fun out' h => ⟨out, hhit out hout, ?_⟩⟩
    exact (Except.ok.inj h).symm
  · simp only [Told.value_bind]
    split
    · next e out hserved =>
      have hp := hput out (offers_of_search hserved)
      refine ⟨hk.keep now _ hp, fun out' h => ⟨_, hp, ?_⟩⟩
      obtain rfl := Except.ok.inj h
      rw [List.map_map]
      rfl
    · exact ⟨hk, nofun⟩
    · exact ⟨hk, nofun⟩

end Dispatcher

/-! ## Calls of one cache -/

/-- A call of an operation: the dispatcher it meets, the time, and what is asked for. -/
structure OpCall (α : Type) where
  /-- The dispatcher, with its settings and the engines that it leaves out. -/
  dispatcher : Dispatcher α
  /-- The time. -/
  now : Int64
  /-- The handle. -/
  handle : Handle
  /-- The name of the operation. -/
  name : String
  /-- The operands. -/
  args : List (Tensor α)

namespace OpCall

section Calls

variable [Arith α] [Scalar α] (key : Op → List (Tensor α) → Fingerprint)

/-- What a call returns, and the cache after it. -/
def run (c : OpCall α) (cache : Option (Dispatcher.Results α)) :
    Except DispatchError (List (Tensor α)) × Option (Dispatcher.Results α) :=
  let r := (c.dispatcher.op key cache c.now c.handle c.name c.args).value
  (r.1, r.2.2)

/-- The cache after calls, the first one first. -/
def keptAfter (cs : List (OpCall α)) (cache : Option (Dispatcher.Results α)) :
    Option (Dispatcher.Results α) :=
  cs.foldl (fun cache c => (c.run key cache).2) cache

/-- The operation that a call names, when the operands pass its checks. -/
def Asks (c : OpCall α) (o : Op) : Prop :=
  Op.ofName? c.name = some o ∧ o.check c.args c.handle.engine = .ok ()

/-- **A call makes a result under a key**: a routine of one of its engines computes it. -/
def Makes (c : OpCall α) (k : Fingerprint) (v : List (Tensor α)) : Prop :=
  ∃ o out, c.Asks o ∧ key o c.args = k ∧
    c.dispatcher.Offers o ((c.args.head?.map Tensor.dtype).getD .f64) c.args out ∧
    v = out.map fun t => t.onEngine c.handle.engine

variable {key}

/-- **A call** returns a result that was kept or that it makes, owned by the engine of its handle,
and keeps nothing else. -/
theorem eachKept_run {P : Fingerprint → List (Tensor α) → Prop} {c : OpCall α}
    {cache : Option (Dispatcher.Results α)} (hP : Dispatcher.EachKept P cache)
    (hput : ∀ k v, c.Makes key k v → P k v) :
    Dispatcher.EachKept P (c.run key cache).2 ∧ ∀ out, (c.run key cache).1 = .ok out →
      ∃ o out', c.Asks o ∧ P (key o c.args) out' ∧
        out = out'.map fun t => t.onEngine c.handle.engine := by
  unfold run Dispatcher.op
  cases ho : Op.ofName? c.name with
  | none => exact ⟨hP, nofun⟩
  | some o =>
    dsimp only
    split
    · exact ⟨hP, nofun⟩
    · next hcheck =>
      have hasks : c.Asks o := ⟨ho, hcheck⟩
      split
      · obtain ⟨hk, hout⟩ := Dispatcher.eachKept_serve c.dispatcher key c.now c.handle hP
          fun out hr => hput _ _ ⟨o, out, hasks, rfl, hr, rfl⟩
        refine ⟨hk, fun out h => ?_⟩
        obtain ⟨out', hp, rfl⟩ := hout out h
        exact ⟨o, out', hasks, hp, rfl⟩
      · exact ⟨hP, nofun⟩

/-- **Calls keep what they make.** -/
theorem eachKept_keptAfter {P : Fingerprint → List (Tensor α) → Prop} {cs : List (OpCall α)}
    {cache : Option (Dispatcher.Results α)} (hP : Dispatcher.EachKept P cache)
    (hput : ∀ c ∈ cs, ∀ k v, c.Makes key k v → P k v) :
    Dispatcher.EachKept P (keptAfter key cs cache) := by
  induction cs generalizing cache with
  | nil => exact hP
  | cons c cs ih =>
    have hc := (eachKept_run hP (hput c List.mem_cons_self)).1
    exact ih hc fun c' h => hput c' (List.mem_cons_of_mem c h)

end Calls

/-! ## Agreement -/

section Exact

variable [Field α] [Scalar α] {key : Op → List (Tensor α) → Fingerprint}

/-- What a call makes of operands that fit is what the plain loops make of them. -/
theorem Makes.eq_run {c : OpCall α} (hc : c.dispatcher.AtHand) {k : Fingerprint}
    {v : List (Tensor α)} (h : c.Makes key k v) :
    ∃ o, c.Asks o ∧ key o c.args = k ∧ ((∀ t ∈ c.args, t.Fits) →
      ∃ out, Native.run o c.args = .ok out ∧ v.map Tensor.content = out.map Tensor.content) := by
  obtain ⟨o, out, hasks, hk, ⟨e, f, hf, hout⟩, rfl⟩ := h
  refine ⟨o, hasks, hk, fun hfit => ⟨out, ?_, ?_⟩⟩
  · obtain hb | rfl := hc.routine hf
    · rw [← Blas.eq_run hb hasks.2 hfit, hout]
    · exact hout
  · rw [List.map_map]
    rfl

/-- **A call after others**: the engines are those at hand in each of them, and its key is that of
no other operation and no other operands. -/
structure Follows (key : Op → List (Tensor α) → Fingerprint) (before : List (OpCall α))
    (c : OpCall α) : Prop where
  atHand : ∀ c' ∈ c :: before, c'.dispatcher.AtHand
  keyed : ∀ c' ∈ before, ∀ o o', c.Asks o → c'.Asks o' → key o' c'.args = key o c.args →
    o' = o ∧ c'.args.map Tensor.content = c.args.map Tensor.content

/-- A call returns what the plain loops make of its operands, owned by the engine of its handle. -/
theorem Follows.run_ok {before : List (OpCall α)} {c : OpCall α} (h : c.Follows key before)
    (hfit : ∀ t ∈ c.args, t.Fits) {start : Option (Dispatcher.Results α)}
    (hstart : Dispatcher.EachKept (fun _ _ => False) start) {out : List (Tensor α)}
    (hout : (c.run key (keptAfter key before start)).1 = .ok out) :
    ∃ o r, Op.ofName? c.name = some o ∧ Native.run o c.args = .ok r ∧
      out.map Tensor.content = r.map Tensor.content ∧ ∀ t ∈ out, t.home = c.handle.engine := by
  have hkept : Dispatcher.EachKept (fun k v => ∃ c' ∈ c :: before, c'.Makes key k v)
      (keptAfter key before start) :=
    eachKept_keptAfter (hstart.mono nofun) fun c' hc' k v hm =>
      ⟨c', List.mem_cons_of_mem c hc', hm⟩
  obtain ⟨o, out', hasks, ⟨c', hc', hm⟩, rfl⟩ :=
    (eachKept_run hkept fun k v hm => ⟨c, List.mem_cons_self, hm⟩).2 out hout
  obtain ⟨o', hasks', hk, hr⟩ := hm.eq_run (h.atHand c' hc')
  -- The call that made the result is this one, or it asked for the same on the same operands.
  have hsame : o' = o ∧ c'.args.map Tensor.content = c.args.map Tensor.content := by
    obtain rfl | hb := List.mem_cons.1 hc'
    · exact ⟨Option.some.inj (hasks'.1.symm.trans hasks.1), rfl⟩
    · exact h.keyed c' hb o o' hasks hasks' hk
  obtain ⟨rfl, hargs⟩ := hsame
  obtain ⟨r, hrun, hv⟩ := hr (Tensor.forall_fits_of_content hargs hfit)
  refine ⟨o', r, hasks.1, (Native.run_congr o' hargs).symm.trans hrun, ?_, fun t ht => ?_⟩
  · rw [List.map_map]
    exact hv
  · obtain ⟨u, -, rfl⟩ := List.mem_map.1 ht
    rfl

/-- **Engines agree.** Two calls of one operation on operands that hold the same, through any two
handles of dispatchers with any settings, faults and engines left out, and with what any earlier
calls left in the caches: when both return, they return the same, each one owned by the engine of
its handle. -/
theorem content_eq {before before' : List (OpCall α)} {c c' : OpCall α}
    (hc : c.Follows key before) (hc' : c'.Follows key before')
    (start start' : Option (CacheOptions × (List (Tensor α) → UInt64)))
    (hname : c.name = c'.name)
    (hargs : c.args.map Tensor.content = c'.args.map Tensor.content)
    (hfit : ∀ t ∈ c.args, t.Fits) {out out' : List (Tensor α)}
    (hout : (c.run key (keptAfter key before (start.map fun s => Cache.new s.1 s.2))).1 = .ok out)
    (hout' :
      (c'.run key (keptAfter key before' (start'.map fun s => Cache.new s.1 s.2))).1 = .ok out') :
    out.map Tensor.content = out'.map Tensor.content ∧
      (∀ t ∈ out, t.home = c.handle.engine) ∧ ∀ t ∈ out', t.home = c'.handle.engine := by
  have hstart : ∀ s : Option (CacheOptions × (List (Tensor α) → UInt64)),
      Dispatcher.EachKept (fun _ _ => False) (s.map fun s => Cache.new s.1 s.2) := fun s => by
    cases s with
    | none => exact Dispatcher.eachKept_none
    | some s => exact Dispatcher.eachKept_new s.1 s.2
  obtain ⟨o, r, ho, hr, hcontent, hhome⟩ := hc.run_ok hfit (hstart start) hout
  have hfit' := Tensor.forall_fits_of_content hargs.symm hfit
  obtain ⟨o', r', ho', hr', hcontent', hhome'⟩ := hc'.run_ok hfit' (hstart start') hout'
  obtain rfl : o = o' := Option.some.inj (ho.symm.trans (hname ▸ ho'))
  obtain rfl : r = r' := Except.ok.inj (hr.symm.trans ((Native.run_congr o hargs).trans hr'))
  exact ⟨hcontent.trans hcontent'.symm, hhome, hhome'⟩

end Exact

/-! ## The reals -/

/-- **The reals**, where nothing is rounded. -/
noncomputable instance : Scalar ℝ where
  lt x y := decide (x < y)
  le x y := decide (x ≤ y)
  eq x y := decide (x = y)
  isNaN _ := false
  abs x := |x|
  sqrt := Real.sqrt
  single := id
  sum := List.sum
  pi := Real.pi
  cis x := (Real.cos x, Real.sin x)
  mulC z w := (z.1 * w.1 - z.2 * w.2, z.1 * w.2 + z.2 * w.1)
  divC z w := ((z.1 * w.1 + z.2 * w.2) / Cplx.normSq w, (z.2 * w.1 - z.1 * w.2) / Cplx.normSq w)
  epsilon := 1 / 2 ^ 52
  tolerance := 1 / 10 ^ 9

/-- The product of a row and a column through a handle of an engine, with faults to inject. -/
noncomputable def dot (e : Engine) (faults : List String) : OpCall ℝ where
  dispatcher := (Dispatcher.new { faults := faults } (Backend.atHand "cblas" true)).value
  now := 0
  handle := ⟨e, "", 1⟩
  name := "matmul"
  args := [⟨.f64, [1, 2], #[2, 3], e⟩, ⟨.f64, [2, 1], #[5, 7], e⟩]

theorem name_dot (e : Engine) (faults : List String) : (dot e faults).name = "matmul" := rfl

theorem content_dot (e : Engine) (faults : List String) : (dot e faults).args.map Tensor.content =
    [(.f64, [1, 2], #[2, 3]), (.f64, [2, 1], #[5, 7])] := rfl

/-- A key for each operation. -/
def keyOfName (o : Op) (_ : List (Tensor ℝ)) : Fingerprint := .ofStream (Stream.text o.name)

/-- A result of the library that was kept, and one of the plain loops after faults of the library
and of the templates. -/
theorem content_eq_of_dot :
    ∃ out out', ((dot .native []).run keyOfName (keptAfter keyOfName [dot .blas []]
        (some (Cache.new { } fun _ => 1)))).1 = .ok out ∧
      ((dot .blas ["blas", "eigen"]).run keyOfName (keptAfter keyOfName [] none)).1 = .ok out' ∧
      out.map Tensor.content = out'.map Tensor.content ∧
      (∀ t ∈ out, t.home = .native) ∧ ∀ t ∈ out', t.home = .blas := by
  have hok : ∀ {x : Except DispatchError (List (Tensor ℝ))}, x.isOk = true → ∃ out, x = .ok out :=
    fun {x} h => by
      cases x with
      | error e => exact nomatch h
      | ok out => exact ⟨out, rfl⟩
  obtain ⟨out, h⟩ : ∃ out, ((dot .native []).run keyOfName (keptAfter keyOfName [dot .blas []]
      (some (Cache.new { } fun _ => 1)))).1 = .ok out := hok (by decide +kernel)
  obtain ⟨out', h'⟩ : ∃ out', ((dot .blas ["blas", "eigen"]).run keyOfName
      (keptAfter keyOfName [] none)).1 = .ok out' := hok (by decide +kernel)
  have hhand : ∀ e faults, (dot e faults).dispatcher.AtHand := fun e faults => ⟨"cblas", true, rfl⟩
  have hfollows : (dot .native []).Follows keyOfName [dot .blas []] := by
    refine ⟨fun c' hc' => ?_, fun c' hc' o o' ho ho' _ => ?_⟩
    · simp only [List.mem_cons, List.not_mem_nil, or_false] at hc'
      obtain rfl | rfl := hc' <;> exact hhand _ _
    · obtain rfl := List.mem_singleton.1 hc'
      rw [Asks, name_dot] at ho ho'
      exact ⟨Option.some.inj (ho'.1.symm.trans ho.1), by rw [content_dot, content_dot]⟩
  have hfollows' : (dot .blas ["blas", "eigen"]).Follows keyOfName [] := by
    refine ⟨fun c' hc' => ?_, fun c' hc' => absurd hc' List.not_mem_nil⟩
    obtain rfl := List.mem_singleton.1 hc'
    exact hhand _ _
  have hfit : ∀ t ∈ (dot .native []).args, t.Fits := by
    intro t ht
    simp only [dot, List.mem_cons, List.not_mem_nil, or_false] at ht
    obtain rfl | rfl := ht <;> exact ⟨by decide, by simp, by decide⟩
  have hargs : (dot .native []).args.map Tensor.content =
      (dot .blas ["blas", "eigen"]).args.map Tensor.content := by rw [content_dot, content_dot]
  have hname : (dot .native []).name = (dot .blas ["blas", "eigen"]).name := by
    rw [name_dot, name_dot]
  exact ⟨out, out', h, h', content_eq hfollows hfollows' (some ({ }, fun _ => 1)) none hname hargs
    hfit h h'⟩

end OpCall

end MemoFlow
