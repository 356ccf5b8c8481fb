import MemoFlow.Tensor.Basic
import MemoFlow.Trace

/-!
# Configuration

Settings come from named variables whose values are text.

* `Settings.flag`, `Settings.size`, `Settings.text`, `Settings.items`: the readings of a value;
* **`Settings.readSize?`**: the number at the start of a text, in 64 bits;
* `Variables`: the named values;
* `CacheConfig`, `ParallelConfig`, `PipelineConfig`, `TensorConfig`, `AccelConfig`: the settings of
  the parts, with their defaults;
* **`Config.ofVariables`**: the configuration that the variables ask for, with the warnings that
  reading them gives;
* `Cpu`, **`Cpu.ofVariables`**: architecture and features, as set or as detected;
* `Cpu.variant`: the name of the loops that suit a processor;
* `Cpu.parallelism`: the number of processors to count on.
-/

/-! ## Reading settings -/

namespace MemoFlow

/-- The variables that are set. -/
abbrev Variables : Type := String → Option String

namespace Settings

/-- The words that switch something off. -/
def offWords : List String := ["0", "false", "False", "off", "OFF", "no", "NO"]

/-- A switch: off for one of the words, on for any other text. -/
def flag (raw : Option String) (fallback : Bool) : Bool :=
  match raw with
  | none | some "" => fallback
  | some s => !offWords.contains s

/-- Blanks in front of a number. -/
def isBlank (c : Char) : Bool :=
  c = ' ' || c = '\t' || c = '\n' || c = '\x0b' || c = '\x0c' || c = '\r'

/-- The number of a run of digits. -/
def digitsValue (ds : List Char) : Nat :=
  ds.foldl (fun n c => 10 * n + (c.toNat - '0'.toNat)) 0

/-- The sign in front of a number, and the rest. -/
def splitSign : List Char → Bool × List Char
  | '-' :: r => (true, r)
  | '+' :: r => (false, r)
  | r => (false, r)

/-- **The number at the start of a text**, after blanks and a sign. A number that is too large
becomes the largest word, a negative one wraps. None without digits, and none when the text itself
begins with a minus. -/
def readSize? (cs : List Char) : Option UInt64 :=
  if cs.head? = some '-' then none
  else
    let (neg, r) := splitSign (cs.dropWhile isBlank)
    let ds := r.takeWhile Char.isDigit
    if ds.isEmpty then none
    else
      let n := digitsValue ds
      some (if Nat.pow 2 64 ≤ n then UInt64.ofNat (Nat.pow 2 64 - 1)
        else if neg then 0 - UInt64.ofNat n else UInt64.ofNat n)

/-- A size, with a fallback for what is unset, empty or no number. -/
def size (raw : Option String) (fallback : UInt64) : UInt64 :=
  match raw with
  | none => fallback
  | some s => (readSize? s.toList).getD fallback

/-- A text, with a fallback for what is unset or empty. -/
def text (raw : Option String) (fallback : String) : String :=
  match raw with
  | none | some "" => fallback
  | some s => s

/-- What parts the items of a list. -/
def isSeparator (c : Char) : Bool :=
  c = ',' || c = ';' || c = ' ' || c = '\t' || c = '\n'

/-- The items of a list, without empty ones. -/
def items (s : String) : List String :=
  ((s.toList.splitOnP isSeparator).filter fun t => !t.isEmpty).map String.ofList

end Settings

end MemoFlow

/-! ## Configuration -/

namespace MemoFlow

/-- Sizes and life times of the caches. -/
structure CacheConfig where
  /-- Whether anything is kept. -/
  enabled : Bool := true
  /-- Entries for parsed units. -/
  astEntries : UInt64 := 256
  /-- Entries for results of expressions. -/
  exprEntries : UInt64 := 2048
  /-- Life time of these results in milliseconds, without end when not positive. -/
  exprTtl : Int64 := 300000
  /-- Entries for results of branches. -/
  branchEntries : UInt64 := 4096
  /-- Bytes for results of tensor operations. -/
  tensorBytes : UInt64 := 536870912
  /-- Milliseconds between two sweeps, no sweeps when not positive. -/
  sweepInterval : Int64 := 1000
deriving DecidableEq, Repr

/-- What happens to a block when one of its branches fails. -/
inductive FailurePolicy where
  /-- The other branches run. -/
  | soft
  /-- Branches that have not started are cancelled. -/
  | fast
deriving DecidableEq, Repr, Inhabited

/-- The name of a policy. -/
def FailurePolicy.name : FailurePolicy → String
  | .soft => "soft"
  | .fast => "fast"

/-- Workers for branches. -/
structure ParallelConfig where
  /-- The number of processors, detected when zero. -/
  cpuCount : UInt64 := 0
  /-- The most workers that are chosen without being asked for. -/
  hardCap : UInt64 := 8
  /-- The most threads of the pool. -/
  maxPoolThreads : UInt64 := 64
  /-- What a failure does. -/
  policy : FailurePolicy := .soft
deriving DecidableEq, Repr

/-- Pipelines. -/
structure PipelineConfig where
  /-- Whether results of stages are kept and reused. -/
  memoize : Bool := true
deriving DecidableEq, Repr

/-- Tensor engines. -/
structure TensorConfig where
  /-- The only engine to select. -/
  forced : Option Engine := none
  /-- Engines that are not used. -/
  disabled : List Engine := []
  /-- Faults to inject: an engine, or an engine and an operation. -/
  faults : List String := []
  /-- Faults after which an engine is left out. -/
  maxFaults : UInt64 := 3
  /-- Whether results of operations are kept. -/
  opCache : Bool := true
  /-- The library to load. -/
  blasLibrary : String := ""
deriving DecidableEq, Repr

/-- Compiled kernels. -/
structure AccelConfig where
  /-- Whether kernels are compiled. -/
  enabled : Bool := true
  /-- The compiler. -/
  compiler : String := "cc"
  /-- More arguments for the compiler. -/
  extraFlags : List String := []
deriving DecidableEq, Repr

/-- The configuration of the whole library. -/
structure Config where
  /-- Caches. -/
  cache : CacheConfig := { }
  /-- Workers. -/
  parallel : ParallelConfig := { }
  /-- Pipelines. -/
  pipeline : PipelineConfig := { }
  /-- Tensor engines. -/
  tensor : TensorConfig := { }
  /-- Compiled kernels. -/
  accel : AccelConfig := { }
deriving DecidableEq, Repr

open Settings

/-- The caches that the variables ask for. Megabytes are shifted to bytes within 64 bits. -/
def CacheConfig.ofVariables (v : Variables) : CacheConfig :=
  let d : CacheConfig := { }
  { enabled := flag (v "SYNAPSE_CACHE_ENABLED") d.enabled
    astEntries := size (v "SYNAPSE_AST_CACHE_SIZE") d.astEntries
    exprEntries := size (v "SYNAPSE_EXPR_CACHE_SIZE") d.exprEntries
    exprTtl := (size (v "SYNAPSE_EXPR_CACHE_TTL_MS") d.exprTtl.toUInt64).toInt64
    branchEntries := size (v "SYNAPSE_BRANCH_CACHE_SIZE") d.branchEntries
    tensorBytes := size (v "SYNAPSE_TENSOR_CACHE_MB") (d.tensorBytes >>> 20) <<< 20
    sweepInterval := (size (v "SYNAPSE_CACHE_SWEEP_MS") d.sweepInterval.toUInt64).toInt64 }

/-- The policy of a name, with a warning for an unknown one. -/
def FailurePolicy.ofName (s : String) : FailurePolicy × List Note :=
  if ["fast", "fail-fast", "fail_fast"].contains s then (.fast, [])
  else if ["soft", "fail-soft", "fail_soft"].contains s then (.soft, [])
  else (.soft, [.warn "parallel"
    ("unknown SYNAPSE_BRANCH_POLICY '" ++ s ++ "', using fail-soft")])

/-- The workers that the variables ask for; the pool has room for one thread at least. -/
def ParallelConfig.ofVariables (v : Variables) : ParallelConfig × List Note :=
  let d : ParallelConfig := { }
  let most := size (v "SYNAPSE_POOL_MAX_THREADS") d.maxPoolThreads
  let (policy, notes) := FailurePolicy.ofName (text (v "SYNAPSE_BRANCH_POLICY") "soft")
  ({ cpuCount := size (v "SYNAPSE_CPU_COUNT") d.cpuCount
     hardCap := d.hardCap
     maxPoolThreads := if most = 0 then 1 else most
     policy := policy }, notes)

/-- The engine to force, with a warning for an unknown one. -/
def TensorConfig.forcedOf (s : String) : Option Engine × List Note :=
  if s = "auto" then (none, [])
  else
    match Engine.ofName? s with
    | some e => (some e, [])
    | none => (none, [.warn "tensor" ("unknown SYNAPSE_TENSOR_BACKEND '" ++ s ++ "', using auto")])

/-- The engines of a list of names, with a warning for each unknown one. -/
def TensorConfig.disabledOf (names : List String) : List Engine × List Note :=
  (names.filterMap Engine.ofName?,
    (names.filter fun n => (Engine.ofName? n).isNone).map fun n =>
      .warn "tensor" ("ignoring unknown backend '" ++ n ++ "' in SYNAPSE_TENSOR_DISABLE"))

/-- The engines that the variables ask for. -/
def TensorConfig.ofVariables (v : Variables) : TensorConfig × List Note :=
  let d : TensorConfig := { }
  let (forced, notes) := forcedOf (text (v "SYNAPSE_TENSOR_BACKEND") "auto")
  let (disabled, more) := disabledOf (items (text (v "SYNAPSE_TENSOR_DISABLE") ""))
  ({ forced := forced
     disabled := disabled
     faults := items (text (v "SYNAPSE_TENSOR_FAULT") "")
     maxFaults := size (v "SYNAPSE_TENSOR_MAX_FAULTS") d.maxFaults
     opCache := flag (v "SYNAPSE_TENSOR_OP_CACHE") d.opCache
     blasLibrary := text (v "SYNAPSE_BLAS_LIB") d.blasLibrary }, notes ++ more)

/-- The kernels that the variables ask for. -/
def AccelConfig.ofVariables (v : Variables) : AccelConfig :=
  let d : AccelConfig := { }
  { enabled := flag (v "SYNAPSE_JIT") d.enabled
    compiler := text (v "SYNAPSE_CC") d.compiler
    extraFlags := items (text (v "SYNAPSE_JIT_CFLAGS") "") }

/-- **The configuration that the variables ask for**, with the warnings. -/
def Config.ofVariables (v : Variables) : Config × List Note :=
  let (parallel, notes) := ParallelConfig.ofVariables v
  let (tensor, more) := TensorConfig.ofVariables v
  ({ cache := .ofVariables v
     parallel := parallel
     pipeline := { memoize := flag (v "SYNAPSE_PIPELINE_MEMO") true }
     tensor := tensor
     accel := .ofVariables v }, notes ++ more)

/-! ## Processor features -/

/-- An architecture and its features. -/
structure Cpu where
  /-- The architecture. -/
  arch : String
  /-- The features. -/
  features : List String
deriving DecidableEq, Repr

namespace Cpu

/-- **The processor of a run**: set by variables, or else the detected one. -/
def ofVariables (v : Variables) (detected : Cpu) : Cpu :=
  let arch := Settings.text (v "SYNAPSE_CPU_ARCH") ""
  let features := Settings.items (Settings.text (v "SYNAPSE_CPU_FEATURES") "")
  if arch = "" ∧ features = [] then detected
  else ⟨if arch = "" then "unknown" else arch, features⟩

/-- The loops that suit a processor. -/
def variant (c : Cpu) : String :=
  let has (f : String) : Bool := c.features.contains f
  if c.arch = "x86_64" ∨ c.arch = "x86" then
    if has "avx512f" then "x86_avx512" else if has "avx2" then "x86_avx2" else "x86_baseline"
  else if c.arch = "aarch64" then
    if has "sve" then "arm_sve" else if has "neon" then "arm_neon" else "scalar"
  else if c.arch.startsWith "riscv" then
    if has "rvv" then "riscv_rvv" else "riscv_baseline"
  else "scalar"

/-- The number of processors: as configured, or as detected but at least one. -/
def parallelism (configured detected : UInt64) : UInt64 :=
  if 0 < configured then configured else if detected = 0 then 1 else detected

end Cpu

end MemoFlow
