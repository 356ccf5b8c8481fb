import MemoFlow.Proofs.Kernel.Identity

/-!
# Reuse of generated code

Calls of kernels one after the other, from an accelerator without code, with any compiler.

* `KernelCall`, `KernelCall.Distinct`: calls, and calls whose bytes are told apart by identities;
* `Accelerator.serve`, `Accelerator.run`, `Accelerator.attempts`: calls, and the keys for which code
  is made on the way;
* **`Accelerator.Serves`**, `Accelerator.exists_serves`: all that a call can do;
* **`Accelerator.Books`**, `Books.serve`, `Books.run`: what the counters and the kept code say
  about the calls so far;
* **`Accelerator.reuse_is_sound`**: kept code is the code that would be made, each key is tried
  once, and the counters agree with the calls.
-/

namespace MemoFlow

/-! ## Calls -/

/-- Identities tell byte strings apart. -/
def Fingerprint.TellsApart (bytes : List (List UInt8)) : Prop :=
  ∀ x ∈ bytes, ∀ y ∈ bytes, ofBytes x = ofBytes y → x = y

instance (bytes : List (List UInt8)) : Decidable (Fingerprint.TellsApart bytes) :=
  inferInstanceAs (Decidable (∀ x ∈ bytes, ∀ y ∈ bytes,
    Fingerprint.ofBytes x = Fingerprint.ofBytes y → x = y))

/-- **A call** of a function on operands. -/
structure KernelCall where
  /-- The function. -/
  fn : AcceleratedFunction
  /-- The operands. -/
  args : List (Tensor Double)

namespace KernelCall

variable (x y : KernelCall)

/-- The kernel of the function. -/
def kernel : Kernel := x.fn.kernel

/-- The signature of the operands. -/
def signature : KernelSignature := .ofArgs x.kernel.params.length x.args

/-- The key under which code for the call is kept. -/
def key : String := Accelerator.artifactKey x.kernel x.signature

/-- The code that is generated for the call. -/
def text : Bytes := x.kernel.sourceText x.signature

/-- The same call with another function behind the kernel. -/
def withFallback (g : TensorFunction) : KernelCall := { x with fn := { x.fn with fallback := g } }

/-- What the call gives with compiled code, or with none. -/
def result : Option Code.Function → Except Thrown (Tensor Double)
  | some f => .ok (Accelerator.runCode f x.signature x.args)
  | none => x.fn.fallback x.args

/-- The lengths in the call are words. -/
structure IsSized : Prop where
  kernel : x.kernel.IsSized
  args : KernelSignature.AreSized x.args

/-- **The bytes of calls are told apart by their identities.** -/
structure Distinct (calls : List KernelCall) : Prop where
  kernels : Fingerprint.TellsApart (calls.map fun x => x.kernel.bytes)
  args : Fingerprint.TellsApart (calls.map fun x => KernelSignature.bytes x.args)

variable {x y}

/-- Calls with one key have one kernel and one signature. -/
theorem eq_of_key {calls : List KernelCall} (hs : ∀ x ∈ calls, x.IsSized) (hd : Distinct calls)
    (hx : x ∈ calls) (hy : y ∈ calls) (h : x.key = y.key) :
    x.kernel = y.kernel ∧ x.signature = y.signature := by
  obtain ⟨hkernel, hargs⟩ := Accelerator.artifactKey_inj h
  have hkernels := hd.kernels _ (List.mem_map_of_mem hx) _ (List.mem_map_of_mem hy) hkernel
  have hbytes := hd.args _ (List.mem_map_of_mem hx) _ (List.mem_map_of_mem hy) hargs
  have hk : x.kernel = y.kernel := Kernel.bytes_inj (hs x hx).kernel (hs y hy).kernel hkernels
  refine ⟨hk, ?_⟩
  rw [signature, signature, hk]
  exact KernelSignature.ofArgs_of_bytes (hs x hx).args (hs y hy).args hbytes _

end KernelCall

/-! ## What a call does -/

namespace Accelerator

/-- The result of a call, and the accelerator after it. -/
def serve (a : Accelerator) (x : KernelCall) : Except Thrown (Tensor Double) × Accelerator :=
  (a.call x.fn x.args).value

/-- The accelerator after calls, the first one first. -/
def run (a : Accelerator) (calls : List KernelCall) : Accelerator :=
  calls.foldl (fun a x => (a.serve x).2) a

/-- Whether a call is to run compiled code. -/
def wants (a : Accelerator) (x : KernelCall) : Bool := x.signature.compilable && a.isAvailable

/-- Whether code is made for a call. -/
def tries (a : Accelerator) (x : KernelCall) : Bool :=
  a.wants x && (a.artifacts.lookup x.key).isNone

/-- The keys for which code is made in calls. -/
def attempts (a : Accelerator) : List KernelCall → List String
  | [] => []
  | x :: rest => (if a.tries x then [x.key] else []) ++ attempts (a.serve x).2 rest

/-- The code for a call when none is kept. -/
def code (a : Accelerator) (x : KernelCall) : Option Code.Function :=
  if a.wants x then (a.build x.kernel x.signature).value.toOption else none

/-- The same accelerator with another way to compile. -/
def withCompile (a : Accelerator) (compile : Bytes → Told (Except String Code.Function)) :
    Accelerator := { a with compiler := { a.compiler with compile := compile } }

variable {a b : Accelerator} {x : KernelCall} {e : Option Code.Function}

/-- **What a call does**: the code that it runs, if any, and the accelerator after it. -/
inductive Serves (a : Accelerator) (x : KernelCall) : Option Code.Function → Accelerator → Prop
  | passed (hw : a.wants x = false) :
    Serves a x none (a.count fun st =>
      { st with calls := st.calls + 1, fallbacks := st.fallbacks + 1 })
  | reused {f : Code.Function} (hw : a.wants x = true)
    (hl : a.artifacts.lookup x.key = some (some f)) :
    Serves a x (some f) (a.count fun st =>
      { st with calls := st.calls + 1, cacheHits := st.cacheHits + 1 })
  | refused (hw : a.wants x = true) (hl : a.artifacts.lookup x.key = some none) :
    Serves a x none (a.count fun st =>
      { st with calls := st.calls + 1, fallbacks := st.fallbacks + 1 })
  | compiled {f : Code.Function} (hw : a.wants x = true) (hl : a.artifacts.lookup x.key = none)
    (hb : (a.build x.kernel x.signature).value = .ok f) :
    Serves a x (some f)
      { a.count fun st => { st with calls := st.calls + 1, compiled := st.compiled + 1 } with
        artifacts := (x.key, some f) :: a.artifacts }
  | failed {reason : String} (hw : a.wants x = true) (hl : a.artifacts.lookup x.key = none)
    (hb : (a.build x.kernel x.signature).value = .error reason) :
    Serves a x none
      { a.count fun st =>
          { st with
            calls := st.calls + 1
            failures := st.failures + 1
            fallbacks := st.fallbacks + 1 } with
        artifacts := (x.key, none) :: a.artifacts }

theorem codeFor_of_passed (hw : a.wants x = false) :
    (a.codeFor x.kernel x.signature).value = (none, a) := by
  have hw' : (x.signature.compilable && a.isAvailable) = false := hw
  simp [codeFor, hw']

theorem codeFor_of_reused {f : Code.Function} (hw : a.wants x = true)
    (hl : a.artifacts.lookup x.key = some (some f)) :
    (a.codeFor x.kernel x.signature).value =
      (some f, a.count fun st => { st with cacheHits := st.cacheHits + 1 }) := by
  have hw' : (x.signature.compilable && a.isAvailable) = true := hw
  have hl' : a.artifacts.lookup (artifactKey x.kernel x.signature) = some (some f) := hl
  simp only [codeFor, hw', if_true, prepare, hl']

theorem codeFor_of_refused (hw : a.wants x = true)
    (hl : a.artifacts.lookup x.key = some none) :
    (a.codeFor x.kernel x.signature).value = (none, a) := by
  have hw' : (x.signature.compilable && a.isAvailable) = true := hw
  have hl' : a.artifacts.lookup (artifactKey x.kernel x.signature) = some none := hl
  simp only [codeFor, hw', if_true, prepare, hl']

theorem codeFor_of_compiled {f : Code.Function} (hw : a.wants x = true)
    (hl : a.artifacts.lookup x.key = none) (hb : (a.build x.kernel x.signature).value = .ok f) :
    (a.codeFor x.kernel x.signature).value = (some f, { a with
      artifacts := (x.key, some f) :: a.artifacts
      stats := { a.stats with compiled := a.stats.compiled + 1 } }) := by
  have hw' : (x.signature.compilable && a.isAvailable) = true := hw
  have hl' : a.artifacts.lookup (artifactKey x.kernel x.signature) = none := hl
  simp only [codeFor, hw', if_true, prepare, hl', hb]
  rfl

theorem codeFor_of_failed {reason : String} (hw : a.wants x = true)
    (hl : a.artifacts.lookup x.key = none)
    (hb : (a.build x.kernel x.signature).value = .error reason) :
    (a.codeFor x.kernel x.signature).value = (none, { a with
      artifacts := (x.key, none) :: a.artifacts
      stats := { a.stats with failures := a.stats.failures + 1 } }) := by
  have hw' : (x.signature.compilable && a.isAvailable) = true := hw
  have hl' : a.artifacts.lookup (artifactKey x.kernel x.signature) = none := hl
  simp only [codeFor, hw', if_true, prepare, hl', hb]
  rfl

/-- A call looks for code and falls back to the function when there is none. -/
theorem serve_of_codeFor
    (h : ((a.count fun st => { st with calls := st.calls + 1 }).codeFor x.kernel
      x.signature).value = (e, b)) :
    a.serve x = (x.result e, match e with
      | some _ => b
      | none => b.count fun st => { st with fallbacks := st.fallbacks + 1 }) := by
  have hc : ((a.count fun st => { st with calls := st.calls + 1 }).codeFor x.fn.kernel
      (KernelSignature.ofArgs x.fn.kernel.params.length x.args)).value = (e, b) := h
  rw [serve, call]
  simp only [Told.value_bind, hc]
  cases e <;> rfl

theorem serve_of_passed (hw : a.wants x = false) :
    a.serve x = (x.result none, a.count fun st =>
      { st with calls := st.calls + 1, fallbacks := st.fallbacks + 1 }) :=
  serve_of_codeFor (codeFor_of_passed hw)

theorem serve_of_reused {f : Code.Function} (hw : a.wants x = true)
    (hl : a.artifacts.lookup x.key = some (some f)) :
    a.serve x = (x.result (some f), a.count fun st =>
      { st with calls := st.calls + 1, cacheHits := st.cacheHits + 1 }) :=
  serve_of_codeFor (codeFor_of_reused hw hl)

theorem serve_of_refused (hw : a.wants x = true)
    (hl : a.artifacts.lookup x.key = some none) :
    a.serve x = (x.result none, a.count fun st =>
      { st with calls := st.calls + 1, fallbacks := st.fallbacks + 1 }) :=
  serve_of_codeFor (codeFor_of_refused hw hl)

/-- **A call is settled by what there is for its signature**, whatever the function itself does. -/
theorem exists_serves (a : Accelerator) (x : KernelCall) :
    ∃ e b, a.Serves x e b ∧ ∀ g, a.serve (x.withFallback g) = ((x.withFallback g).result e, b) := by
  cases hw : a.wants x with
  | false => exact ⟨none, _, .passed hw, fun g => serve_of_passed (x := x.withFallback g) hw⟩
  | true =>
    cases hl : a.artifacts.lookup x.key with
    | some e =>
      cases e with
      | some f =>
        exact ⟨some f, _, .reused hw hl, fun g => serve_of_reused (x := x.withFallback g) hw hl⟩
      | none =>
        exact ⟨none, _, .refused hw hl, fun g => serve_of_refused (x := x.withFallback g) hw hl⟩
    | none =>
      cases hb : (a.build x.kernel x.signature).value with
      | ok f =>
        exact ⟨some f, _, .compiled hw hl hb, fun g =>
          serve_of_codeFor (x := x.withFallback g) (codeFor_of_compiled hw hl hb)⟩
      | error reason =>
        exact ⟨none, _, .failed hw hl hb, fun g =>
          serve_of_codeFor (x := x.withFallback g) (codeFor_of_failed hw hl hb)⟩

theorem serve_eq (h : ∀ g, a.serve (x.withFallback g) = ((x.withFallback g).result e, b)) :
    a.serve x = (x.result e, b) := h x.fn.fallback

/-- **A call that makes no code does not use the compiler.** -/
theorem serve_withCompile (h : a.tries x = false)
    (compile : Bytes → Told (Except String Code.Function)) :
    (a.withCompile compile).serve x = ((a.serve x).1, (a.serve x).2.withCompile compile) := by
  cases hw : a.wants x with
  | false =>
    have hw' : (a.withCompile compile).wants x = false := hw
    rw [serve_of_passed hw, serve_of_passed hw']
    rfl
  | true =>
    have hw' : (a.withCompile compile).wants x = true := hw
    cases hl : a.artifacts.lookup x.key with
    | none => simp [tries, hw, hl] at h
    | some e =>
      have hl' : (a.withCompile compile).artifacts.lookup x.key = some e := hl
      cases e with
      | none =>
        rw [serve_of_refused hw hl, serve_of_refused hw' hl']
        rfl
      | some f =>
        rw [serve_of_reused hw hl, serve_of_reused hw' hl']
        rfl

theorem mem_of_lookup {l : List (String × Option Code.Function)} {k : String}
    {e : Option Code.Function} (h : l.lookup k = some e) : (k, e) ∈ l := by
  obtain ⟨l₁, l₂, rfl, -⟩ := List.lookup_eq_some_iff.1 h
  simp

/-- The keys of kept code are those for which code was made, and those that were there before. -/
theorem keys_run (a : Accelerator) (calls : List KernelCall) :
    (a.run calls).artifacts.map Prod.fst =
      (a.attempts calls).reverse ++ a.artifacts.map Prod.fst := by
  induction calls generalizing a with
  | nil => rfl
  | cons x rest ih =>
    obtain ⟨e, b, hs, hserve⟩ := exists_serves a x
    have hkeys : b.artifacts.map Prod.fst =
        (if a.tries x then [x.key] else []) ++ a.artifacts.map Prod.fst := by
      cases hs with
      | passed hw => simp [tries, hw, count]
      | reused hw hl => simp [tries, hw, hl, count]
      | refused hw hl => simp [tries, hw, hl, count]
      | compiled hw hl hb => simp [tries, hw, hl]
      | failed hw hl hb => simp [tries, hw, hl]
    have hb : (a.serve x).2 = b := by rw [serve_eq hserve]
    have hrun : a.run (x :: rest) = b.run rest := by rw [← hb]; rfl
    rw [hrun, ih, hkeys, attempts, hb, List.reverse_append, List.append_assoc]
    split <;> rfl

/-! ## The books -/

/-- **What counters and kept code say** about the calls so far, where `a` is the accelerator before
them. -/
structure Books (a : Accelerator) (done : List KernelCall) (b : Accelerator) : Prop where
  enabled : b.enabled = a.enabled
  compiler : b.compiler = a.compiler
  kept : ∀ p ∈ b.artifacts, ∃ y ∈ done, y.key = p.1 ∧ a.wants y = true ∧ p.2 = a.code y
  nodup : (b.artifacts.map Prod.fst).Nodup
  tried : ∀ y ∈ done, a.wants y = true → y.key ∈ b.artifacts.map Prod.fst
  calls : b.stats.calls = done.length
  total : b.stats.calls = b.stats.fallbacks + b.stats.compiled + b.stats.cacheHits
  failures : b.stats.failures ≤ b.stats.fallbacks
  made : b.stats.compiled + b.stats.failures = b.artifacts.length

namespace Books

variable {done : List KernelCall} {e : Option Code.Function} {c : Accelerator}

theorem new (enabled : Bool) (compiler : Compiler) :
    Books { enabled, compiler } [] { enabled, compiler } :=
  ⟨rfl, rfl, by simp, by simp, by simp, rfl, rfl, Nat.le_refl _, rfl⟩

theorem wants_eq (h : Books a done b) : b.wants x = a.wants x := by
  rw [wants, wants, isAvailable, isAvailable, h.enabled, h.compiler]

theorem build_eq (h : Books a done b) (k : Kernel) (s : KernelSignature) :
    b.build k s = a.build k s := by
  rw [build, build, h.compiler]

/-- A call that makes no code leaves the kept code as it is. -/
theorem stay (h : Books a done b) (henabled : c.enabled = b.enabled)
    (hcompiler : c.compiler = b.compiler) (hkept : c.artifacts = b.artifacts)
    (hx : a.wants x = true → x.key ∈ b.artifacts.map Prod.fst)
    (hcalls : c.stats.calls = b.stats.calls + 1)
    (htotal : c.stats.calls = c.stats.fallbacks + c.stats.compiled + c.stats.cacheHits)
    (hfailures : c.stats.failures ≤ c.stats.fallbacks)
    (hmade : c.stats.compiled + c.stats.failures = b.stats.compiled + b.stats.failures) :
    Books a (done ++ [x]) c where
  enabled := henabled.trans h.enabled
  compiler := hcompiler.trans h.compiler
  kept p hp := by
    obtain ⟨y, hy, hrest⟩ := h.kept p (hkept ▸ hp)
    exact ⟨y, List.mem_append_left _ hy, hrest⟩
  nodup := hkept ▸ h.nodup
  tried y hy hw := by
    rw [hkept]
    rcases List.mem_append.1 hy with hy | hy
    · exact h.tried y hy hw
    · rw [List.mem_singleton.1 hy] at hw ⊢
      exact hx hw
  calls := by rw [hcalls, h.calls, List.length_append]; rfl
  total := htotal
  failures := hfailures
  made := by rw [hmade, hkept, h.made]

/-- Code that is made for a call is kept under the key of the call. -/
theorem make (h : Books a done b) (henabled : c.enabled = b.enabled)
    (hcompiler : c.compiler = b.compiler) (hw : b.wants x = true)
    (hl : b.artifacts.lookup x.key = none)
    (hkept : c.artifacts = (x.key, (b.build x.kernel x.signature).value.toOption) :: b.artifacts)
    (hcalls : c.stats.calls = b.stats.calls + 1)
    (htotal : c.stats.calls = c.stats.fallbacks + c.stats.compiled + c.stats.cacheHits)
    (hfailures : c.stats.failures ≤ c.stats.fallbacks)
    (hmade : c.stats.compiled + c.stats.failures = b.stats.compiled + b.stats.failures + 1) :
    Books a (done ++ [x]) c where
  enabled := henabled.trans h.enabled
  compiler := hcompiler.trans h.compiler
  kept p hp := by
    rw [hkept] at hp
    rcases List.mem_cons.1 hp with rfl | hp
    · rw [h.wants_eq] at hw
      exact ⟨x, by simp, rfl, hw, by rw [code, if_pos hw, h.build_eq]⟩
    · obtain ⟨y, hy, hrest⟩ := h.kept p hp
      exact ⟨y, List.mem_append_left _ hy, hrest⟩
  nodup := by
    rw [hkept, List.map_cons, List.nodup_cons]
    refine ⟨fun hmem => ?_, h.nodup⟩
    obtain ⟨p, hp, hkey⟩ := List.mem_map.1 hmem
    have hne := List.lookup_eq_none_iff.1 hl p hp
    simp [hkey] at hne
  tried y hy hwy := by
    rw [hkept, List.map_cons, List.mem_cons]
    rcases List.mem_append.1 hy with hy | hy
    · exact .inr (h.tried y hy hwy)
    · exact .inl (congrArg KernelCall.key (List.mem_singleton.1 hy))
  calls := by rw [hcalls, h.calls, List.length_append]; rfl
  total := htotal
  failures := hfailures
  made := by rw [hmade, hkept, h.made, List.length_cons]

/-- **One call keeps the books.** -/
theorem serve (h : Books a done b) (x : KernelCall) : Books a (done ++ [x]) (b.serve x).2 := by
  obtain ⟨e, c, hs, hserve⟩ := exists_serves b x
  rw [serve_eq hserve]
  have ht := h.total
  have hf := h.failures
  cases hs with
  | passed hw =>
    have hx : a.wants x = true → x.key ∈ b.artifacts.map Prod.fst := fun hwx => by
      rw [h.wants_eq, hwx] at hw
      cases hw
    refine h.stay rfl rfl rfl hx rfl ?_ ?_ rfl <;> simp only [count] <;> omega
  | reused hw hl =>
    have hx := List.mem_map_of_mem (f := Prod.fst) (mem_of_lookup hl)
    refine h.stay rfl rfl rfl (fun _ => hx) rfl ?_ hf rfl
    simp only [count]
    omega
  | refused hw hl =>
    have hx := List.mem_map_of_mem (f := Prod.fst) (mem_of_lookup hl)
    refine h.stay rfl rfl rfl (fun _ => hx) rfl ?_ ?_ rfl <;> simp only [count] <;> omega
  | compiled hw hl hb =>
    refine h.make rfl rfl hw hl (by rw [hb]; rfl) rfl ?_ hf ?_ <;> simp only [count] <;> omega
  | failed hw hl hb =>
    refine h.make rfl rfl hw hl (by rw [hb]; rfl) rfl ?_ ?_ ?_ <;> simp only [count] <;> omega

/-- **Calls one after the other keep the books.** -/
theorem run (h : Books a done b) (calls : List KernelCall) :
    Books a (done ++ calls) (b.run calls) := by
  induction calls generalizing done b with
  | nil => rwa [List.append_nil]
  | cons x rest ih =>
    have hnext := ih (h.serve x)
    rwa [List.append_assoc] at hnext

/-- Kept code is the code that would be made now. -/
theorem kept_eq (h : Books a done b)
    (hk : ∀ y ∈ done, y.key = x.key → y.kernel = x.kernel ∧ y.signature = x.signature)
    (hl : b.artifacts.lookup x.key = some e) :
    e = (a.build x.kernel x.signature).value.toOption := by
  obtain ⟨y, hy, hkey, hw, rfl⟩ := h.kept _ (mem_of_lookup hl)
  obtain ⟨hkernel, hsignature⟩ := hk y hy hkey
  rw [code, if_pos hw, hkernel, hsignature]

/-- The code that a call runs is the one that it runs when none is kept. -/
theorem code_eq (h : Books a done b)
    (hk : ∀ y ∈ done, y.key = x.key → y.kernel = x.kernel ∧ y.signature = x.signature)
    (hs : b.Serves x e c) : e = a.code x := by
  cases hs with
  | passed hw => rw [code, ← h.wants_eq, hw]; rfl
  | reused hw hl | refused hw hl => rw [h.kept_eq hk hl, code, ← h.wants_eq, if_pos hw]
  | compiled hw hl hb | failed hw hl hb => rw [code, ← h.wants_eq, if_pos hw, ← h.build_eq, hb]; rfl

end Books

/-- A call counts as one of the function itself when it runs no code. -/
theorem Serves.fallbacks (h : a.Serves x e b) :
    b.stats.fallbacks = a.stats.fallbacks + 1 ∧ e = none ∨
      b.stats.fallbacks = a.stats.fallbacks ∧ ∃ f, e = some f := by
  cases h with
  | passed | refused | failed => exact .inl ⟨rfl, rfl⟩
  | reused | compiled => exact .inr ⟨rfl, _, rfl⟩

/-! ## All calls -/

/-- **A call is served as if it were the first one**, where calls have brought the accelerator from
`a` to `b`. -/
structure Faithful (a b : Accelerator) (x : KernelCall) : Prop where
  /-- Kept code is the code that would be made now. -/
  kept : ∀ e, b.artifacts.lookup x.key = some e → e = (b.build x.kernel x.signature).value.toOption
  /-- The result is that of a first call. -/
  result : (b.serve x).1 = (a.serve x).1
  /-- The compiler is not used when code is kept or when none is wanted. -/
  unused : b.tries x = false → ∀ compile,
    (b.withCompile compile).serve x = ((b.serve x).1, (b.serve x).2.withCompile compile)
  /-- The call is counted as one of the function itself, and gives what that gives, or it is not
  counted so and has a result of its own. -/
  fallback :
    (b.serve x).2.stats.fallbacks = b.stats.fallbacks + 1 ∧
        (∀ g, (b.serve (x.withFallback g)).1 = g x.args) ∨
      (b.serve x).2.stats.fallbacks = b.stats.fallbacks ∧
        ∃ t, ∀ g, (b.serve (x.withFallback g)).1 = .ok t

theorem Books.faithful {done : List KernelCall} (hnew : Books a [] a) (h : Books a done b)
    (hk : ∀ y ∈ done, y.key = x.key → y.kernel = x.kernel ∧ y.signature = x.signature) :
    Faithful a b x := by
  obtain ⟨e, c, hs, hserve⟩ := exists_serves b x
  obtain ⟨e', c', hs', hserve'⟩ := exists_serves a x
  refine ⟨fun e hl => ?_, ?_, serve_withCompile, ?_⟩
  · rw [h.build_eq]
    exact h.kept_eq hk hl
  · rw [serve_eq hserve, serve_eq hserve', h.code_eq hk hs, hnew.code_eq (by simp) hs']
  · rw [serve_eq hserve]
    rcases hs.fallbacks with ⟨hcount, rfl⟩ | ⟨hcount, f, rfl⟩
    · exact .inl ⟨hcount, fun g => by rw [hserve]; rfl⟩
    · exact .inr ⟨hcount, runCode f x.signature x.args, fun g => by rw [hserve]; rfl⟩

/-- **Reuse of generated code is sound, and each kernel is tried once.** In calls whose bytes are
told apart by their identities, through any compiler: calls with one key have one text; each call is
served as if it were the first one; code is made at most once for a key, and for all keys that are
asked for; and the counters add up. -/
theorem reuse_is_sound (enabled : Bool) (compiler : Compiler) {calls : List KernelCall}
    (hs : ∀ x ∈ calls, x.IsSized) (hd : KernelCall.Distinct calls) :
    let a : Accelerator := { enabled, compiler }
    let st := (a.run calls).stats
    (∀ x ∈ calls, ∀ y ∈ calls, x.key = y.key → x.text = y.text) ∧
      (∀ before x after, calls = before ++ x :: after → Faithful a (a.run before) x) ∧
      (a.attempts calls).Nodup ∧
      (∀ k, k ∈ a.attempts calls ↔ ∃ x ∈ calls, a.wants x = true ∧ x.key = k) ∧
      st.calls = calls.length ∧ st.calls = st.fallbacks + st.compiled + st.cacheHits ∧
      st.failures ≤ st.fallbacks ∧ st.compiled + st.failures = (a.attempts calls).length := by
  intro a st
  have hnew : Books a [] a := .new enabled compiler
  have hbooks : Books a calls (a.run calls) := hnew.run calls
  have hkeys : (a.run calls).artifacts.map Prod.fst = (a.attempts calls).reverse := by
    rw [keys_run, List.map_nil, List.append_nil]
  have heq : ∀ x ∈ calls, ∀ y ∈ calls, x.key = y.key →
      x.kernel = y.kernel ∧ x.signature = y.signature :=
    fun x hx y hy => KernelCall.eq_of_key hs hd hx hy
  refine ⟨fun x hx y hy h => ?_, fun before x after h => ?_, ?_, fun k => ⟨fun hk => ?_, ?_⟩,
    hbooks.calls, hbooks.total, hbooks.failures, ?_⟩
  · obtain ⟨hkernel, hsignature⟩ := heq x hx y hy h
    rw [KernelCall.text, KernelCall.text, hkernel, hsignature]
  · subst h
    have hbefore : Books a before (a.run before) := hnew.run before
    exact hnew.faithful hbefore fun y hy => heq y (by simp [hy]) x (by simp)
  · rw [← List.nodup_reverse, ← hkeys]
    exact hbooks.nodup
  · rw [← List.mem_reverse, ← hkeys] at hk
    obtain ⟨p, hp, rfl⟩ := List.mem_map.1 hk
    obtain ⟨y, hy, hkey, hw, -⟩ := hbooks.kept p hp
    exact ⟨y, hy, hw, hkey⟩
  · rintro ⟨x, hx, hw, rfl⟩
    rw [← List.mem_reverse, ← hkeys]
    exact hbooks.tried x hx hw
  · rw [← List.length_reverse, ← hkeys, List.length_map]
    exact hbooks.made

/-- A kernel of one operand `a` with an expression of one byte. -/
def oneByte (b : UInt8) : AcceleratedFunction :=
  ⟨⟨[107], [[97]], [b]⟩, fun _ => .error (.evaluation "no implementation")⟩

/-- Two calls of one kernel, the same on a single number, and a kernel with an unknown name. -/
def oneByteCalls : List KernelCall :=
  [⟨oneByte 97, [.zeros [2] .f64]⟩, ⟨oneByte 97, [.ones [2] .f64]⟩, ⟨oneByte 97, [.zeros [] .f64]⟩,
    ⟨oneByte 98, [.zeros [2] .f64]⟩]

/-- A compiler that takes every text for a loop over nothing. -/
def idleCompiler : Compiler := ⟨true, fun _ => ⟨.ok ⟨⟨0, [], [], [], .block⟩, { }, { }⟩, []⟩⟩

theorem reuse_of_one_byte :
    let a : Accelerator := { enabled := true, compiler := idleCompiler }
    let st := (a.run oneByteCalls).stats
    ((∀ x ∈ oneByteCalls, x.IsSized) ∧ KernelCall.Distinct oneByteCalls) ∧
      (a.attempts oneByteCalls).Nodup ∧ st.calls = 4 ∧
      st.compiled + st.failures = (a.attempts oneByteCalls).length := by
  intro a st
  have hs : ∀ x ∈ oneByteCalls, x.IsSized := by
    intro x hx
    simp only [oneByteCalls, List.mem_cons, List.not_mem_nil, or_false] at hx
    rcases hx with rfl | rfl | rfl | rfl <;>
      exact ⟨⟨by decide, by decide, by decide, by decide⟩, ⟨by decide, by decide⟩⟩
  have hd : KernelCall.Distinct oneByteCalls := by
    constructor
    · simp only [oneByteCalls, oneByte, List.map_cons, List.map_nil, KernelCall.kernel,
        Kernel.bytes, Stream.textBytes_eq]
      decide +kernel
    · simp only [oneByteCalls, List.map_cons, List.map_nil, KernelSignature.bytes,
        KernelSignature.operandBytes, Stream.textBytes_eq, List.flatMap_cons]
      decide +kernel
  obtain ⟨-, -, hnodup, -, hcalls, -, -, hmade⟩ := reuse_is_sound true idleCompiler hs hd
  exact ⟨⟨hs, hd⟩, hnodup, hcalls, hmade⟩

end Accelerator

end MemoFlow
