import MemoFlow.Fault
import MemoFlow.Fingerprint
import MemoFlow.Kernel.Basic
import MemoFlow.Kernel.Compiler
import MemoFlow.Tensor.Op

/-!
# Compiled kernels

A function that comes with a kernel is compiled for each signature of its operands, once. Where that
is not possible the function itself is called.

* `Fingerprint.ofKernel`: the identity of a kernel;
* **`KernelSignature`**, `KernelSignature.ofArgs`: types and shapes of operands, and whether a
  kernel can be compiled for them;
* **`Kernel.sourceText`**: the function of the generated code;
* `AcceleratedFunction`, `AccelStats`, **`Accelerator`**: functions, counters and compiled code;
* `Accelerator.prepare`, **`Accelerator.call`**: the code for a signature, and a call.
-/

/-! ## Kernels on operands -/

namespace MemoFlow

/-- The identity of a kernel. -/
def Fingerprint.ofKernel (k : Kernel) : Fingerprint :=
  .ofStream (k.params.foldl (fun s p => s ++ Stream.sized p)
      (Stream.text "kernel" ++ Stream.sized k.name ++
        Stream.word (UInt64.ofNat k.params.length)) ++
    Stream.sized k.expression)

/-- **What a kernel has to know of its operands.** -/
structure KernelSignature where
  /-- Why the kernel cannot be compiled for them. -/
  obstacle : Option String
  /-- The shape of the result: that of the first operand with dimensions. -/
  shape : Shape
  /-- For each operand whether it is a single number. -/
  single : List Bool
  /-- Types and shapes in text. -/
  text : String
  /-- Their identity. -/
  key : Fingerprint
deriving DecidableEq, Repr

namespace KernelSignature

variable {α : Type}

/-- Type and dimensions of an operand as part of an identity. -/
def operandStream (t : Tensor α) : Stream :=
  t.shape.foldl (fun s d => s ++ Stream.word d)
    (Stream.text t.dtype.name ++ Stream.word (UInt64.ofNat t.shape.length))

/-- The common shape of operands, from the `i`-th on; a type other than double and a second shape
are obstacles. Single numbers have no shape of their own. -/
def commonShape (i : Nat) (shape : Option Shape) : List (Tensor α) → Option String × Option Shape
  | [] => (none, shape)
  | t :: ts =>
    if t.dtype ≠ .f64 then (some ("argument " ++ toString i ++ " is " ++ t.dtype.name), shape)
    else if t.rank = 0 then commonShape (i + 1) shape ts
    else
      match shape with
      | none => commonShape (i + 1) (some t.shape) ts
      | some s =>
        if s = t.shape then commonShape (i + 1) shape ts
        else (some "operand shapes differ", shape)

/-- **The signature of operands** for a number of parameters. -/
def ofArgs (params : Nat) (args : List (Tensor α)) : KernelSignature :=
  let (obstacle, shape) := commonShape 0 none args
  { obstacle := obstacle.or
      (if args.length = params then none
      else some ("expected " ++ toString params ++ " arguments, got " ++ toString args.length))
    shape := shape.getD []
    single := args.map fun t => decide (t.rank = 0)
    text := String.intercalate "," (args.map Tensor.describe)
    key := .ofStream (args.foldl (fun s t => s ++ operandStream t)
      (Stream.text "kernel-signature" ++ Stream.word (UInt64.ofNat args.length))) }

/-- Whether the kernel can be compiled. -/
def compilable (s : KernelSignature) : Bool := s.obstacle.isNone

end KernelSignature

namespace Kernel

/-- The lines that read the operands of one element, from the `i`-th operand on. -/
def operandLines (i : Nat) : List Bytes → List Bool → Bytes
  | [], _ => []
  | p :: ps, single =>
    Bytes.ofString "    const double " ++ p ++
      Bytes.ofString (" = synapse_args[" ++ toString i ++ "][" ++
        (if single.headD false then "0" else "synapse_i") ++ "];\n    (void)") ++ p ++
      Bytes.ofString ";\n" ++ operandLines (i + 1) ps single.tail

/-- **The generated code**: a loop over the elements, behind a comment with name and signature. -/
def sourceText (k : Kernel) (s : KernelSignature) : Bytes :=
  Bytes.ofString "/* " ++ k.name ++ Bytes.ofString (" [" ++ s.text ++ "] */\n") ++
    Bytes.ofString ("#include <math.h>\n#include <stddef.h>\n\n" ++
      "void synapse_kernel(const double* const* synapse_args, double* synapse_out) \x7b\n" ++
      "  const size_t synapse_n = " ++ toString (numel s.shape).toNat ++ "u;\n" ++
      "  for (size_t synapse_i = 0; synapse_i < synapse_n; ++synapse_i) \x7b\n") ++
    operandLines 0 k.params s.single ++
    Bytes.ofString "    synapse_out[synapse_i] = (double)(" ++ constants k.expression ++
    Bytes.ofString ");\n  \x7d\n\x7d\n"

end Kernel

end MemoFlow

/-! ## Compiled kernels -/

namespace MemoFlow

/-! ## Functions -/

/-- A function of tensors. -/
abbrev TensorFunction : Type := List (Tensor Double) → Except Thrown (Tensor Double)

/-- **A function with its kernel.** -/
structure AcceleratedFunction where
  /-- The kernel. -/
  kernel : Kernel
  /-- The function itself. -/
  fallback : TensorFunction

/-- The function of a kernel; one without an implementation of its own is refused. -/
def AcceleratedFunction.new (k : Kernel) (fallback : Option TensorFunction) :
    Except Thrown AcceleratedFunction :=
  match fallback with
  | some f => .ok ⟨k, f⟩
  | none =>
    .error (.evaluation ("kernel '" ++ k.name.toText ++ "' has no fallback implementation"))

/-- Counters of calls. -/
structure AccelStats where
  /-- Calls. -/
  calls : Nat := 0
  /-- Kernels that were compiled. -/
  compiled : Nat := 0
  /-- Calls of kernels that had been compiled before. -/
  cacheHits : Nat := 0
  /-- Kernels that could not be compiled. -/
  failures : Nat := 0
  /-- Calls of the function itself. -/
  fallbacks : Nat := 0
deriving DecidableEq, Repr

/-- **Compiled code and counters.** -/
structure Accelerator where
  /-- Whether kernels are compiled. -/
  enabled : Bool
  /-- The compiler. -/
  compiler : Compiler
  /-- The code for each kernel and signature, none where there was a failure. -/
  artifacts : List (String × Option Code.Function) := []
  /-- The counters. -/
  stats : AccelStats := { }

namespace Accelerator

/-- An accelerator without code. -/
def new (c : AccelConfig) (compiler : Compiler) : Accelerator :=
  { enabled := c.enabled, compiler := compiler }

/-- Whether kernels can be compiled at all. -/
def isAvailable (a : Accelerator) : Bool := a.enabled && a.compiler.isPresent

/-- The name under which code is kept. -/
def artifactKey (k : Kernel) (s : KernelSignature) : String :=
  (Fingerprint.ofKernel k).hex ++ ":" ++ s.key.hex

/-- Change the counters. -/
def count (a : Accelerator) (f : AccelStats → AccelStats) : Accelerator :=
  { a with stats := f a.stats }

/-- The code of a kernel that has not been compiled yet, or why there is none. -/
def build (a : Accelerator) (k : Kernel) (s : KernelSignature) :
    Told (Except String Code.Function) :=
  match k.check with
  | .error e => ⟨.error e.message.toText, []⟩
  | .ok () => a.compiler.compile (k.sourceText s)

/-- **The code for a signature**, compiled when it is asked for the first time. -/
def prepare (a : Accelerator) (k : Kernel) (s : KernelSignature) :
    Told (Option Code.Function × Accelerator) :=
  match a.artifacts.lookup (artifactKey k s) with
  | some (some f) => ⟨(some f, a.count fun st => { st with cacheHits := st.cacheHits + 1 }), []⟩
  | some none => ⟨(none, a), []⟩
  | none =>
    let ⟨result, notes⟩ := a.build k s
    match result with
    | .ok f =>
      ⟨(some f, { a with
          artifacts := (artifactKey k s, some f) :: a.artifacts
          stats := { a.stats with compiled := a.stats.compiled + 1 } }), notes⟩
    | .error reason =>
      ⟨(none, { a with
          artifacts := (artifactKey k s, none) :: a.artifacts
          stats := { a.stats with failures := a.stats.failures + 1 } }),
        notes ++ [.warn "accel" (untilNul k.name.toText ++ " [" ++ s.text ++ "] not compiled: " ++
          untilNul reason)]⟩

/-- The engine that owns a result: that of the last operand with dimensions, or else of the
first. -/
def owner (args : List (Tensor Double)) : Engine :=
  match args.reverse.find? fun t => t.rank ≠ 0 with
  | some t => t.home
  | none => (args.head?.map Tensor.home).getD .native

/-- The result of compiled code. -/
def runCode (f : Code.Function) (s : KernelSignature) (args : List (Tensor Double)) :
    Tensor Double :=
  ⟨.f64, s.shape, f.run (args.map Tensor.data), owner args⟩

/-- The code for a call, if kernels can be compiled for its operands. -/
def codeFor (a : Accelerator) (k : Kernel) (s : KernelSignature) :
    Told (Option Code.Function × Accelerator) :=
  if s.compilable && a.isAvailable then a.prepare k s else ⟨(none, a), []⟩

/-- **A call**, through compiled code or else of the function itself. -/
def call (a : Accelerator) (f : AcceleratedFunction) (args : List (Tensor Double)) :
    Told (Except Thrown (Tensor Double) × Accelerator) := do
  let s := KernelSignature.ofArgs f.kernel.params.length args
  let (code, a) ← (a.count fun st => { st with calls := st.calls + 1 }).codeFor f.kernel s
  match code with
  | some c => return (.ok (runCode c s args), a)
  | none =>
    return (f.fallback args, a.count fun st => { st with fallbacks := st.fallbacks + 1 })

/-- Whether there is compiled code for a call. -/
def hasCode (a : Accelerator) (f : AcceleratedFunction) (args : List (Tensor Double)) : Bool :=
  let s := KernelSignature.ofArgs f.kernel.params.length args
  match a.artifacts.lookup (artifactKey f.kernel s) with
  | some (some _) => true
  | _ => false

end Accelerator

end MemoFlow
