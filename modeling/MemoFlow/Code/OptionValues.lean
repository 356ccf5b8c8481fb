import MemoFlow.Code.Predefined

/-!
# Values of options and passes of the compiler

* `OptionValues.isNumber`, `OptionValues.size?`: numbers and sizes;
* `OptionValues.takes`, `OptionValues.isForeign`: whether an option takes a value, and whether it
  is one of another language;
* `OptionValues.isLimit`: whether a limit of the compiler can be set to a number;
* `OptionValues.isCharset`: sets of characters;
* `Passes.families`: the passes, by the form of the code that they work on;
* **`Passes.isShown`**, `Passes.isSwitched`: whether the compiler can show what a pass does, and
  whether a pass can be left out;
* `Passes.isTold`: whether the compiler can tell what it improved.
-/

namespace MemoFlow.Code.OptionValues

/-! ## Numbers -/

/-- Whether a text is a number. -/
def isNumber (s : String) : Bool := !s.isEmpty && s.toList.all Char.isDigit

/-- Whether a text is a number between two others. -/
def isBetween (low high : Nat) (s : String) : Bool :=
  isNumber s && (s.toNat?.map fun k => decide (low ≤ k ∧ k ≤ high)).getD false

/-- Whether a text is a number up to `n`. -/
def isUpTo (n : Nat) (s : String) : Bool := isBetween 0 n s

/-- The greatest number that most options take. -/
def most : Nat := 2147483647

/-- Units of sizes. -/
def units : List (String × Nat) :=
  ("", 1) :: (["k", "M", "G", "T", "P", "E"].zipIdx 1).flatMap fun (c, n) =>
    [(c ++ "B", Nat.pow 1000 n), (c.toUpper ++ "B", Nat.pow 1000 n),
      (c.toUpper ++ "iB", Nat.pow 1024 n)]

/-- A number of bytes. -/
def size? (s : String) : Option Nat :=
  let digits := String.ofList (s.toList.takeWhile Char.isDigit)
  match digits.toNat?, units.lookup (s.drop digits.length).toString with
  | some n, some u => some (n * u)
  | _, _ => none

/-- Whether a text holds one number to four, between colons. -/
def isAlignment (s : String) : Bool :=
  let ns := s.splitOn ":"
  ns.length ≤ 4 && ns.all (isUpTo 65536)

/-- Ways to copy bytes. -/
def strategies : List String :=
  ["byte_loop", "libcall", "loop", "rep_4byte", "rep_8byte", "rep_byte", "unrolled_loop",
    "vector_loop"]

/-- Whether a text tells how to copy bytes, by their number; the last way is for any number. -/
def isStrategy (s : String) : Bool :=
  let ways := (s.splitOn ",").map fun w => w.splitOn ":"
  let holds (size : String → Bool) : List String → Bool
    | [name, n, how] =>
      strategies.contains name && size n && ["align", "noalign"].contains how
    | _ => false
  ways.dropLast.all (holds isNumber) && ways.getLast?.any (holds (· = "-1"))

/-- Whether a text holds a number up to 65535, and maybe one that is not greater. -/
def isEntry (s : String) : Bool :=
  match s.splitOn "," with
  | [n] => isUpTo 65535 n
  | [n, k] => isUpTo 65535 n && (n.toNat?.map fun n => isUpTo n k).getD false
  | _ => false

/-- The part of a text behind its beginning. -/
def behind? (start s : String) : Option String :=
  if s.startsWith start then some (s.drop start.length).toString else none

/-- The parts of a text around its first equality sign. -/
def parts? (s : String) : Option (String × String) :=
  let name := s.toList.takeWhile fun c => c ≠ '='
  let rest := s.toList.drop name.length
  if rest.isEmpty then none else some (String.ofList name, String.ofList (rest.drop 1))

/-! ## Limits of the compiler -/

/-- Limits that may have any value. -/
def freeLimits : List String :=
  wordsOf
   ["align-loop-iterations analyzer-bb-explosion-factor analyzer-max-constraints",
    "analyzer-max-enodes-for-full-dump analyzer-max-enodes-per-program-point",
    "analyzer-max-infeasible-edges analyzer-max-recursion-depth analyzer-max-svalue-depth",
    "analyzer-min-snodes-for-call-summary asan-instrumentation-with-call-threshold",
    "case-values-threshold comdat-sharing-probability constructive-interference-size",
    "cxx-max-namespaces-for-diagnostic-help destructive-interference-size",
    "dse-max-alias-queries-per-store dse-max-object-size early-inlining-insns",
    "evrp-sparse-threshold evrp-switch-limit gcse-after-reload-critical-fraction",
    "gcse-after-reload-partial-fraction gcse-cost-distance-ratio gcse-unrestricted-cost",
    "ggc-min-expand ggc-min-heapsize gimple-fe-computed-hot-bb-threshold",
    "graphite-max-arrays-per-scop graphite-max-nb-scop-params hash-table-verification-limit",
    "hot-bb-count-fraction hot-bb-frequency-fraction inline-unit-growth ipa-cp-eval-threshold",
    "ipa-cp-large-unit-insns ipa-cp-loop-hint-bonus ipa-cp-max-recursive-depth",
    "ipa-cp-min-recursive-probability ipa-cp-recursive-freq-factor ipa-cp-unit-growth",
    "ipa-cp-value-list-size ipa-jump-function-lookups ipa-max-aa-steps ipa-max-agg-items",
    "ipa-max-loop-predicates ipa-max-param-expr-ops ipa-max-switch-predicate-bounds",
    "ipa-sra-ptr-growth-factor ira-loop-reserved-regs ira-max-conflict-table-size",
    "ira-max-loops-num ira-simple-lra-insn-threshold iv-always-prune-cand-set-bound",
    "iv-consider-all-candidates-bound iv-max-considered-uses l1-cache-line-size l1-cache-size",
    "l2-cache-size large-function-growth large-function-insns large-stack-frame",
    "large-stack-frame-growth large-unit-insns lazy-modules lim-expensive loop-block-tile-size",
    "loop-interchange-max-num-stmts loop-interchange-stride-ratio loop-invariant-max-bbs-in-loop",
    "loop-max-datarefs-for-datadeps loop-versioning-max-inner-insns",
    "loop-versioning-max-outer-insns lra-max-considered-reload-pseudos lto-max-partition",
    "lto-min-partition max-average-unrolled-insns max-completely-peel-loop-nest-depth",
    "max-completely-peel-times max-completely-peeled-insns max-crossjump-edges max-cse-insns",
    "max-cselib-memory-locations max-debug-marker-count max-delay-slot-insn-search",
    "max-delay-slot-live-search max-dse-active-local-stores max-early-inliner-iterations",
    "max-fields-for-field-sensitive max-find-base-term-values max-gcse-insertion-ratio",
    "max-gcse-memory max-goto-duplication-insns max-grow-copy-bb-insns max-hoist-depth",
    "max-inline-functions-called-once-insns max-inline-functions-called-once-loop-depth",
    "max-inline-insns-auto max-inline-insns-recursive max-inline-insns-recursive-auto",
    "max-inline-insns-single max-inline-insns-size max-inline-insns-small",
    "max-inline-recursive-depth max-inline-recursive-depth-auto max-isl-operations",
    "max-iterations-computation-cost max-iterations-to-track max-jump-thread-duplication-stmts",
    "max-last-value-rtl max-loop-header-insns max-modulo-backtrack-attempts",
    "max-partial-antic-length max-peel-branches max-peel-times max-peeled-insns",
    "max-pending-list-length max-pipeline-region-blocks max-pipeline-region-insns",
    "max-reload-search-insns max-sched-extend-regions-iters max-sched-region-blocks",
    "max-sched-region-insns max-speculative-devirt-maydefs max-stores-to-sink",
    "max-tail-merge-comparisons max-tail-merge-iterations max-tracked-strlens max-unroll-times",
    "max-unrolled-insns max-unswitch-insns max-variable-expansions-in-unroller",
    "max-vartrack-expr-depth max-vartrack-reverse-op-size max-vartrack-size",
    "min-inline-recursive-probability min-insn-to-prefetch-ratio min-nondebug-insn-uid",
    "min-pagesize min-size-for-stack-sharing min-spec-prob min-vect-loop-bound",
    "modref-max-accesses modref-max-bases modref-max-escape-points modref-max-refs",
    "modref-max-tests parloops-chunk-size prefetch-latency prefetch-min-insn-to-mem-ratio",
    "prefetch-minimum-stride sccvn-max-alias-queries-per-access scev-max-expr-complexity",
    "scev-max-expr-size sched-autopref-queue-depth sched-mem-true-dep-cost",
    "selsched-insns-to-rename selsched-max-lookahead simultaneous-prefetches",
    "sms-loop-average-count-threshold sra-max-propagations sra-max-scalarization-size-Osize",
    "sra-max-scalarization-size-Ospeed ssa-name-def-chain-limit tm-max-aggregate-size",
    "tracer-max-code-growth tree-reassoc-width unlikely-bb-count-fraction unroll-jam-max-unroll",
    "use-after-scope-direct-emission-threshold vect-max-layout-candidates",
    "vect-max-version-for-alias-checks vect-max-version-for-alignment-checks",
    "x86-stlf-window-ninsns"]

/-- Limits with the least value and the greatest one. -/
def limits : List (Nat × Nat × List String) :=
  [(0, 1,
    wordsOf ["asan-globals asan-instrument-allocas asan-instrument-reads asan-instrument-writes",
             "asan-kernel-mem-intrinsic-prefix asan-memintrin asan-stack asan-use-after-return",
             "graphite-allow-codegen-errors hwasan-instrument-allocas",
             "hwasan-instrument-mem-intrinsics hwasan-instrument-reads hwasan-instrument-stack",
             "hwasan-instrument-writes hwasan-random-frame-tag ira-consider-dup-in-all-alts",
             "logical-op-non-short-circuit prefetch-dynamic-strides profile-func-internal-id",
             "store-merging-allow-unaligned tsan-distinguish-volatile",
             "tsan-instrument-func-entry-exit use-canonical-types vect-epilogues-nomask",
             "vect-induction-float"]),
   (0, 2,
    wordsOf ["vect-partial-vector-usage"]),
   (0, 16,
    wordsOf ["ipa-sra-max-replacements sms-dfa-history"]),
   (0, 50,
    wordsOf ["predictable-branch-outcome"]),
   (0, 64,
    wordsOf ["vect-max-peeling-for-alignment"]),
   (0, 99,
    wordsOf ["max-rtl-if-conversion-insns"]),
   (0, 100,
    wordsOf ["builtin-expect-probability builtin-string-cmp-inline-length inline-min-speedup",
             "ipa-cp-profile-count-base ipa-cp-recursion-penalty ipa-cp-single-call-penalty",
             "ipa-sra-deref-prob-threshold lra-inheritance-ebb-probability-cutoff",
             "min-loop-cond-split-prob partial-inlining-entry-probability sched-spec-prob-cutoff",
             "sched-state-edge-prob-cutoff sink-frequency-threshold tracer-dynamic-coverage",
             "tracer-dynamic-coverage-feedback tracer-min-branch-probability",
             "tracer-min-branch-probability-feedback tracer-min-branch-ratio",
             "unroll-jam-min-percent"]),
   (0, 200,
    wordsOf ["max-rtl-if-conversion-predictable-cost max-rtl-if-conversion-unpredictable-cost"]),
   (0, 254,
    wordsOf ["modref-max-adjustments"]),
   (0, 512,
    wordsOf ["avoid-fma-max-bits"]),
   (0, 1000,
    wordsOf ["hot-bb-count-ws-permille"]),
   (0, 9999,
    wordsOf ["relation-block-limit"]),
   (0, 10000,
    wordsOf ["jump-table-max-growth-ratio-for-size jump-table-max-growth-ratio-for-speed"]),
   (0, 65536,
    wordsOf ["max-predicted-iterations"]),
   (0, 1000000,
    wordsOf ["uninlined-function-insns uninlined-function-time uninlined-thunk-insns",
             "uninlined-thunk-time"]),
   (1, 2,
    wordsOf ["sched-pressure-algorithm sms-min-sc"]),
   (1, 8,
    wordsOf ["ipa-sra-ptrwrap-growth-factor"]),
   (1, 10,
    wordsOf ["fsm-scale-path-stmts max-sched-insn-conflict-delay max-ssa-name-query-depth"]),
   (1, 16,
    wordsOf ["sms-max-ii-factor"]),
   (1, 32,
    wordsOf ["max-pow-sqrt-depth"]),
   (1, 50,
    wordsOf ["max-unswitch-depth"]),
   (1, 100,
    wordsOf ["ranger-recompute-depth"]),
   (1, 128,
    wordsOf ["uninit-max-chain-len uninit-max-num-chains"]),
   (1, 999,
    wordsOf ["ranger-logical-depth"]),
   (1, 10000,
    wordsOf ["vect-inner-loop-cost-factor"]),
   (1, 65536,
    wordsOf ["align-threshold avg-loop-niter lto-max-streaming-parallelism lto-partitions",
             "max-cse-path-length max-jump-thread-paths max-sched-ready-insns",
             "max-store-chains-to-track min-crossjump-insns modref-max-depth",
             "selsched-max-sched-times ssp-buffer-size store-merging-max-size",
             "switch-conversion-max-branch-ratio uninit-control-dep-attempts"]),
   (1, 999999,
    wordsOf ["max-fsm-thread-path-insns max-slsr-cand-scan"]),
   (1, 1000000,
    wordsOf ["x86-stv-max-visits"]),
   (2, 4,
    wordsOf ["max-combine-insns"]),
   (2, 65536,
    wordsOf ["integer-share-limit max-stores-to-merge max-tree-if-conversion-phi-args",
             "parloops-min-per-thread rpo-vn-max-loop-depth"]),
   (2, 1048576,
    wordsOf ["max-stores-to-track"]),
   (10, 16,
    wordsOf ["stack-clash-protection-probe-interval"]),
   (12, 30,
    wordsOf ["stack-clash-protection-guard-size"]),
   (100, 1000000,
    wordsOf ["inline-heuristics-hint-percent"])]

/-- Limits that are chosen by name. -/
def namedLimits : List (String × List String) :=
  [("openacc-kernels", ["decompose", "parloops"]), ("openacc-privatization", ["quiet", "noisy"]),
    ("parloops-schedule", ["static", "dynamic", "guided", "auto", "runtime"]),
    ("ranger-debug", ["none", "trace", "gori", "cache", "tracegori", "all"]),
    ("threader-debug", ["none", "all"])]

/-- Whether a limit can have a value. -/
def isLimit (name value : String) : Bool :=
  (freeLimits.contains name && isUpTo most value) ||
    (limits.any fun l => l.2.2.contains name && isBetween l.1 l.2.1 value) ||
    ((namedLimits.lookup name).map fun vs => vs.contains value).getD false

/-! ## Checks -/

/-- Checks that can be made while code runs. -/
def checks : List String :=
  wordsOf ["undefined bounds shift float-cast-overflow null vptr signed-integer-overflow",
    "float-divide-by-zero integer-divide-by-zero unreachable vla-bound return alignment",
    "object-size enum bool nonnull-attribute returns-nonnull-attribute pointer-overflow builtin",
    "bounds-strict shift-base shift-exponent"]

/-- Checks that need a library of their own. -/
def heavyChecks : List String :=
  ["address", "thread", "leak", "kernel-address", "hwaddress", "kernel-hwaddress"]

/-- Whether checks, between commas, are known and fulfil `p`. -/
def areChecks (p : String → Bool) (s : String) : Bool := (s.splitOn ",").all p

/-- Whether code can go on after a check. -/
def isSoft (s : String) : Bool :=
  s = "all" || (checks.contains s && s ≠ "unreachable" && s ≠ "return") ||
    ["address", "kernel-address", "hwaddress", "kernel-hwaddress"].contains s

/-! ## Sets of characters -/

/-- Sets of characters whose first half are the usual ones. -/
def charsets : List String :=
  wordsOf
      ["UTF-8 UTF8 ISO8859-9E KOI8-R KOI8-U KOI8-RU KOI8-T KOI8 EUC-JP EUCJP EUC-KR EUCKR EUC-CN",
        "EUCCN EUC-TW EUCTW GBK GB2312 GB18030 BIG5 BIG5-HKSCS SJIS-OPEN UHC MACINTOSH MAC TIS-620",
        "VISCII TCVN ARMSCII-8 PT154 RK1048 HP-ROMAN8 R8 ISO-2022-JP ISO-2022-KR ISO-2022-CN",
        "CYRILLIC GREEK HEBREW ARABIC L1 L2 L3 L4 L5 L6 L7 L8 L10 WINDOWS-31J MS932 CP819",
        "IBM819"] ++
    (["1", "2", "3", "4", "5", "6", "7", "8", "9", "10", "11", "13", "14", "15", "16"].flatMap
      fun n => ["ISO-8859-" ++ n, "ISO8859-" ++ n, "ISO_8859-" ++ n, "ISO8859" ++ n]) ++
    (["1", "2", "3", "4", "5", "6", "7", "8", "9", "10"].map fun n => "LATIN" ++ n) ++
    (["0", "1", "2", "3", "4", "5", "6", "7", "8"].flatMap fun n =>
      ["CP125" ++ n, "WINDOWS-125" ++ n]) ++
    (["437", "850", "852", "855", "857", "858", "860", "861", "862", "863", "864", "865", "866",
      "869", "874", "932", "936", "949"].map fun n => "CP" ++ n) ++
    (["437", "850", "852", "855", "857", "860", "861", "862", "863", "865", "866", "869"].map
      fun n => "IBM" ++ n)

/-- Sets of the usual characters alone. -/
def plainCharsets : List String :=
  ["ASCII", "US-ASCII", "ANSI_X3.4-1968", "ANSI_X3.4-1986", "ANSI_X3.4", "ISO646-US", "US",
    "ISO-IR-6", "CP367", "IBM367", "CSASCII"]

/-- Other sets of characters. -/
def otherCharsets : List String :=
  wordsOf ["UTF-16 UTF-16LE UTF-16BE UTF16 UTF-32 UTF-32LE UTF-32BE UTF32 UTF-7 UCS-2 UCS-4 UCS2",
    "UCS4 UNICODE WCHAR_T EBCDIC-US EBCDIC-UK EBCDIC-INT IBM037 IBM1047 IBM500 CP037 CP500 CP1047",
    "SHIFT_JIS SJIS SHIFT-JIS JOHAB T.61 LATIN-GREEK ISO-10646 UCS-2LE UCS-2BE UCS-4LE UCS-4BE"]

/-- Whether a name stands for a set of characters; large and small letters count alike. -/
def isCharset (sets : List String) (s : String) : Bool := sets.contains s.toUpper

/-! ## Values -/

/-- Processors. -/
def processors : List String :=
  wordsOf ["nocona core2 nehalem sandybridge bonnell silvermont goldmont goldmont-plus tremont",
    "lujiazui k8 amdfam10 bdver1 btver1 btver2"]

/-- Processors that compute a product and a sum in one step. -/
def fastProcessors : List String :=
  wordsOf ["haswell sierraforest grandridge knl knm skylake skylake-avx512 cannonlake",
    "icelake-client icelake-server cascadelake tigerlake cooperlake sapphirerapids alderlake",
    "rocketlake graniterapids graniterapids-d bdver2 bdver3 bdver4 znver1 znver2 znver3 znver4",
    "native"]

/-- Other names for processors. -/
def tuned : List String :=
  wordsOf ["x86-64 corei7 westmere corei7-avx ivybridge core-avx-i atom slm eden-x2 nano nano-1000",
    "nano-2000 nano-3000 nano-x2 eden-x4 nano-x4 k8-sse3 opteron opteron-sse3 athlon64",
    "athlon64-sse3 athlon-fx barcelona"]

/-- The same for processors that compute a product and a sum in one step. -/
def fastTuned : List String :=
  wordsOf ["core-avx2 broadwell emeraldrapids raptorlake meteorlake gracemont"]

/-- Whether code for a processor computes a product and a sum in one step. -/
def hasStep (s : String) : Bool :=
  (fastProcessors ++ fastTuned ++ ["x86-64-v3", "x86-64-v4"]).contains s

/-- Options with the values that they take by name. -/
def named : List (String × List String) :=
  let switches := ["on", "off"]
  let widths := ["none", "128", "256", "512"]
  let costs := ["unlimited", "dynamic", "cheap", "very-cheap"]
  [("Wbidi-chars", ["none", "any", "unpaired", "ucn", "ucn,any", "ucn,unpaired", "any,ucn",
      "unpaired,ucn", "none,ucn", "ucn,none"]),
    ("Wnormalized", ["none", "id", "nfc", "nfkc"]),
    ("Wshadow", ["global", "local", "compatible-local"]),
    ("Waligned-new", ["all", "none", "global"]),
    ("fcf-protection", ["none", "full", "branch", "return", "check"]),
    ("fbounds-check", ["on", "off", "safeonly"]), ("fcheckaction", ["context", "halt", "throw"]),
    ("fcoarray", ["none", "lib", "single"]),
    ("fconvert", ["native", "big-endian", "little-endian", "swap", "r16_ibm", "r16_ieee"]),
    ("fcontract-mode", switches), ("fcontract-strict-declarations", switches),
    ("fdiagnostics-color", ["auto", "always", "never"]),
    ("fdiagnostics-column-unit", ["byte", "display"]),
    ("fdiagnostics-escape-format", ["bytes", "unicode"]),
    ("fdiagnostics-format",
      ["text", "json", "json-stderr", "json-file", "sarif-stderr", "sarif-file"]),
    ("fdiagnostics-path-format", ["none", "separate-events", "inline-events"]),
    ("fdiagnostics-show-location", ["once", "every-line"]),
    ("fdiagnostics-urls", ["auto", "always", "never"]),
    ("femit-struct-debug-detailed", ["none", "any", "base", "sys"]),
    ("fexcess-precision", ["fast", "standard", "16"]), ("ffp-contract", ["on", "off", "fast"]),
    ("finit-real", ["zero", "snan", "nan", "inf", "-inf"]),
    ("fgnat-encodings", ["all", "gdb", "minimal"]), ("flto", ["auto", "none", "jobserver"]),
    ("flto-partition", ["none", "one", "balanced", "1to1", "max"]),
    ("flive-patching", ["inline-only-static", "inline-clone"]),
    ("fopenmp-target-simd-clone", ["none", "host", "nohost", "any"]),
    ("fpermitted-flt-eval-methods", ["c11", "ts-18661-3"]),
    ("fprofile-reproducible", ["serial", "parallel-runs", "multithreaded"]),
    ("fprofile-update", ["single", "atomic", "prefer-atomic"]),
    ("freorder-blocks-algorithm", ["simple", "stc"]), ("fsimd-cost-model", costs),
    ("fsso-struct", ["big-endian", "little-endian", "native"]),
    ("fstack-reuse", ["none", "all", "named_vars"]),
    ("fstrong-eval-order", ["all", "none", "some"]),
    ("ftls-model", ["global-dynamic", "local-dynamic", "initial-exec", "local-exec"]),
    ("ftrivial-auto-var-init", ["zero", "pattern", "uninitialized"]),
    ("fuse-ld", ["bfd", "gold", "lld"]),
    ("fvect-cost-model", costs), ("fvisibility", ["default", "protected"]),
    ("fvtable-verify", ["none"]),
    ("fzero-call-used-regs", ["skip", "used", "all", "used-gpr", "used-arg", "used-gpr-arg",
      "all-gpr", "all-arg", "all-gpr-arg"]),
    ("fira-region", ["one", "all", "mixed"]), ("fira-algorithm", ["CB", "priority"]),
    ("fpack-struct", ["1", "2", "4", "8", "16"]), ("ftrack-macro-expansion", [""]),
    ("march", "x86-64-v2" :: "x86-64-v3" :: "x86-64-v4" :: tuned ++ fastTuned ++ processors ++
      fastProcessors),
    ("mtune", "generic" :: "intel" :: tuned ++ fastTuned ++ processors ++ fastProcessors),
    ("mcpu", "generic" :: "intel" :: tuned ++ fastTuned ++ processors ++ fastProcessors),
    ("mfpmath", ["sse", "387", "both", "sse,387", "387,sse", "sse+387", "387+sse"]),
    ("masm", ["intel", "att"]), ("mabi", ["sysv", "ms"]), ("maddress-mode", ["long"]),
    ("malign-data", ["abi", "cacheline", "compat"]), ("mcmodel", ["small", "medium", "large"]),
    ("mfunction-return", ["keep", "thunk-extern"]),
    ("mindirect-branch", ["keep", "thunk-extern"]),
    ("mharden-sls", ["all", "none", "indirect-jmp", "return"]),
    ("minstrument-return", ["none", "call", "nop5"]), ("mlam", ["none", "u48", "u57"]),
    ("mprefer-vector-width", widths), ("mmove-max", widths), ("mstore-max", widths),
    ("mrecip", ["none", "default", "all", "div", "sqrt", "vec-div", "vec-sqrt", "!div", "!sqrt",
      "!vec-div", "!vec-sqrt"]),
    ("mstack-protector-guard", ["global", "tls"]), ("mstack-protector-guard-reg", ["fs", "gs"]),
    ("mstringop-strategy", strategies),
    ("mtls-dialect", ["gnu", "gnu2"]), ("mveclibabi", ["svml", "acml"])]

/-- Options that take a number, with the greatest one. -/
def counts : List (String × Nat) :=
  ((wordsOf ["fblas-matmul-limit faligned-new fconcepts-diagnostics-depth fconstexpr-cache-depth",
      "fconstexpr-depth fconstexpr-loop-limit fconstexpr-ops-limit fabi-compat-version",
      "fdiagnostics-column-origin finit-character finline-limit finline-matmul-limit",
      "fmax-array-constructor fmax-identifier-length fmax-stack-var-size fmax-subrecord-length",
      "fmessage-length fobjc-abi-version fsched-stalled-insns fsched-stalled-insns-dep ftabstop",
      "ftemplate-backtrace-limit ftemplate-depth ftrack-macro-expansion",
      "flto"]).map fun n => (n, most + 1)) ++
    ((wordsOf ["fdiagnostics-minimum-margin-width fira-verbose fmax-errors fsched-verbose",
      "fchecking ftree-parallelize-loops mlarge-data-threshold fanalyzer-verbosity",
      "mstack-protector-guard-offset"]).map fun n => (n, most)) ++
    [("flifetime-dse", 2), ("ftail-call-workaround", 2),
      ("fstrict-flex-arrays", 3), ("mbranch-cost", 5), ("mregparm", 5),
      ("flto-compression-level", 19), ("malign-functions", 16), ("malign-jumps", 16),
      ("malign-loops", 16)]

/-- Options that take a number between two others. -/
def bounded : List (String × Nat × Nat) :=
  [("fabi-version", 2, most), ("fabi-version", 0, 0), ("fmax-include-depth", 7, most + 1),
    ("mpreferred-stack-boundary", 3, 12), ("mincoming-stack-boundary", 3, 12)]

/-- Options that take any text. -/
def texts : List String :=
  wordsOf ["fprofile-dir fprofile-use fprofile-generate frandom-seed fstack-limit-symbol",
    "fprofile-exclude-files fprofile-filter-files fprofile-info-section fprofile-note",
    "fprofile-prefix-path fsanitize-sections fstack-check fopenacc-dim mfentry-name",
    "mfentry-section mstack-protector-guard-symbol fanalyzer-checker fada-spec-parent",
    "finstrument-functions-exclude-file-list finstrument-functions-exclude-function-list"]

/-- Options of other languages that take any text. -/
def foreignTexts : List String :=
  wordsOf ["fRTS fcontract-assumption-mode fcontract-build-level fcontract-continuation-mode",
    "fcontract-role fcontract-semantic fdebug fdef fdoc-dir fdoc-file fdoc-inc fgen-module-list",
    "finit-integer finit-logical fintrinsic-modules-path flang-info-include-translate",
    "flang-info-module-cmi flibs flocation fltrans-output-list fm2-pathname fm2-prefix fmod",
    "fmodule-file fmodule-header fmodule-mapper fonly fpre-include fresolution fruntime-modules",
    "fsave-mixins fuse-list fversion fcheck ffpe-summary ffpe-trap Wuninit-variable-checking"]

/-- Other options of other languages. -/
def foreign : List String :=
  wordsOf ["Waligned-new Wcatch-value Woverloaded-virtual Wplacement-new fabi-compat-version",
    "faligned-new fblas-matmul-limit fbounds-check fcheckaction fcoarray",
    "fconcepts-diagnostics-depth fconstexpr-cache-depth fconstexpr-depth fconstexpr-loop-limit",
    "fconstexpr-ops-limit fcontract-mode fcontract-strict-declarations fconvert finit-character",
    "finit-real finline-matmul-limit fmax-array-constructor fmax-identifier-length",
    "fmax-stack-var-size fmax-subrecord-length fobjc-abi-version ftail-call-workaround",
    "ftemplate-backtrace-limit ftemplate-depth"]

/-- Options that take two texts. -/
def maps : List String :=
  ["ffile-prefix-map", "fdebug-prefix-map", "fmacro-prefix-map", "fprofile-prefix-map"]

/-- Options that take a size to which code is aligned. -/
def alignments : List String :=
  ["falign-functions", "falign-jumps", "falign-labels", "falign-loops"]

/-- Options that are made with a remark, whatever their value is. -/
def remarked : List String :=
  wordsOf ["fstack-check malign-functions malign-jumps malign-loops mregparm fprofile-use"]

/-- Whether an option is one of another language. -/
def isForeign (name : String) : Bool := foreign.contains name || foreignTexts.contains name

/-- **Whether an option takes a value.** -/
def takes (name value : String) : Bool :=
  ((named.lookup name).map fun vs => vs.contains value).getD false ||
    ((counts.lookup name).map fun n => isUpTo n value).getD false ||
    (bounded.any fun p => p.1 = name && isBetween p.2.1 p.2.2 value) ||
    ((texts ++ foreignTexts).contains name && !value.isEmpty) ||
    (maps.contains name && (parts? value).isSome) ||
    (alignments.contains name && isAlignment value) ||
    (name = "fsanitize-recover" && areChecks isSoft value) ||
    (name = "fsanitize-trap" &&
      areChecks (fun c => c = "all" || (checks.contains c && c ≠ "vptr")) value) ||
    (name = "fno-sanitize" &&
      areChecks (fun c => ("all" :: checks ++ heavyChecks).contains c) value) ||
    (name = "fcallgraph-info" && areChecks ["su", "da"].contains value) ||
    (name = "fcompare-debug" && (value.isEmpty || value.startsWith "-")) ||
    (name = "fpatchable-function-entry" && isEntry value) ||
    (["mmemcpy-strategy", "mmemset-strategy"].contains name && isStrategy value) ||
    name = "ftree-vectorizer-verbose" || (name = "fstack-limit-register" && isUpTo 75 value) ||
    (["fexec-charset", "fwide-exec-charset"].contains name &&
      isCharset (charsets ++ plainCharsets ++ otherCharsets) value)

/-! ## Warnings -/

/-- Warnings that take a level, with the highest one. -/
def levels : List (String × Nat) :=
  [("array-bounds", 2), ("array-parameter", 2), ("attribute-alias", 2), ("dangling-pointer", 2),
    ("format", 2), ("format-overflow", 2), ("format-truncation", 2), ("implicit-fallthrough", 5),
    ("shift-overflow", 2), ("strict-aliasing", 3), ("strict-overflow", 5),
    ("stringop-overflow", 4), ("unused-const-variable", 2), ("use-after-free", 3),
    ("catch-value", 3), ("placement-new", 2), ("overloaded-virtual", 2)]

/-- Warnings that take a size. -/
def sizes : List String :=
  ["alloc-size-larger-than", "alloca-larger-than", "frame-larger-than", "larger-than",
    "stack-usage", "vla-larger-than", "abi"]

end MemoFlow.Code.OptionValues

/-! ## Passes of the compiler -/

namespace MemoFlow.Code.Passes

open OptionValues

/-! ### Names -/

/-- Passes on trees. -/
def onTrees : List String :=
  wordsOf ["adjust_alignment alias aprefetch asan assumptions backprop bswap ccp cdce cddce cfg ch",
    "ch_vect copyprop coro-early-expand-ifns coro-lower-builtins cplxlower crited cselim",
    "cunroll cunrolli dce dom dse ealias early_objsz early_optimizations early_uninit eh",
    "ehcleanup ehdisp ehopt einline esra ethread evrp fab feedback_fnsplit fix_loops fixup_cfg",
    "fnsplit forwprop fre gimple graphite hardcbr hardcmp ifcombine ifcvt iftoswitch isel",
    "isolate-paths ivcanon ivopts laddress ldist lim linterchange local-fnsummary local-pure-const",
    "loop loopdone loopinit lower lower_vaarg lsplit lversion mergephi modref nested",
    "no_loop nothrow nrv oacc_kernels oaccdevlow oaccloops objsz omp_oacc_kernels_decompose",
    "omp_oacc_neuter_broadcast ompdevlow ompexp ompexpssa omplower omptargetlink optimized",
    "original parloops pcom phiopt phiprop post_ipa_warn powcabs pre profile_estimate reassoc",
    "recip release_ssa resx retslot sancov sancov_O sanopt sccp simduid sincos sink slp slsr",
    "split-paths sra ssa stdarg store-merging strlen switchconv switchlower switchlower_O tailc",
    "tailr thread threadfull tmedge tmlower tmmark tmmemopt tracer tsan ubsan uncprop uninit",
    "unrolljam unswitch veclower vect vrp vtable-verify waccess walloca warn-printf",
    "widening_mul wrestrict"]

/-- Passes on steps of the machine. -/
def onSteps : List String :=
  wordsOf ["alignments asmcons auto_inc_dec barriers bbpart bbro ce cmpelim combine compgotos",
    "cprop cprop_hardreg csa cse cse_local dbr dfinish dfinit dse dwarf early_remat eh_ranges",
    "endbr_and_patchable_area expand final fwprop gcse hoist init-regs into_cfglayout ira jump",
    "jump_after_combine loop loop2_doloop loop2_done loop2_init loop2_invariant loop2_unroll",
    "lr_shrinkage mach mode_sw nothrow outof_cfglayout peephole postreload pre pro_and_epilogue",
    "ree reginfo reload rnreg rpad rtl_dce sched sched_fusion shorten sms split stack",
    "store_motion stv subreg ud_dce vartrack vregs vzeroupper web zero_call_used_regs"]

/-- Passes on all functions. -/
def onAll : List String :=
  wordsOf ["afdo analyzer build_ssa_passes cdtor cgraph clones comdats cp devirt emutls fnsummary",
    "free-fnsummary icf increase_alignment inline ipa_oacc ipa_oacc_kernels modref odr",
    "opt_local_passes profile profile_estimate pta pure-const remove_symbols simdclone single-use",
    "sra static-var targetclone tmipa visibility whole-program"]

/-- Passes with the form of the code that they work on. -/
def families : List (String × List String) :=
  [("tree-", onTrees), ("rtl-", onSteps), ("ipa-", onAll)]

/-- A name without the digit at its end. -/
def bare (s : String) : String :=
  if (s.toList.getLast?.map Char.isDigit).getD false then (s.dropEnd 1).toString else s

/-- Whether a text is the name of a pass, maybe with a number up to nine. -/
def isPass (names : List String) (s : String) : Bool := names.contains s || names.contains (bare s)

/-- A text up to its first hyphen that ends the name of a pass, and whether there is one. -/
def startsWithPass (names : List String) (s : String) : Bool :=
  let parts := s.splitOn "-"
  (List.range parts.length).any fun n => isPass names ("-".intercalate (parts.take (n + 1)))

/-! ### Options -/

/-- **Whether the compiler can show what a pass does.** What it shows of it stands behind the
name. -/
def isShown (s : String) : Bool :=
  ["final-insns", "passes", "statistics", "debug", "earlydebug", "noaddr", "unnumbered", "lang-all",
      "unnumbered-links", "analyzer", "analyzer-callgraph", "analyzer-exploded-graph",
      "analyzer-exploded-nodes", "analyzer-exploded-nodes-2", "analyzer-exploded-nodes-3",
      "analyzer-exploded-paths", "analyzer-feasibility", "analyzer-json", "analyzer-state-purge",
      "analyzer-stderr", "analyzer-supergraph", "analyzer-untracked", "go-spec", "ada-spec",
      "ada-spec-slim"].contains s ||
    families.any fun p => ((behind? p.1 s).map (startsWithPass ("all" :: p.2))).getD false

/-- Whether a pass can be left out, or not be left out. -/
def isSwitched (s : String) : Bool :=
  families.any fun p => ((behind? p.1 s).map (isPass p.2)).getD false

/-- What the compiler can tell about. -/
def topics : List String :=
  wordsOf ["optimized missed note all ipa loop inline omp vec internals"]

/-- Whether the compiler can tell what it improved. -/
def isTold (s : String) : Bool := (s.splitOn "-").all topics.contains

end MemoFlow.Code.Passes
