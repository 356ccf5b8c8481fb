import MemoFlow.Code.Predefined

/-!
# Names of options

* `OptionNames.warnings`, `OptionNames.foreignWarnings`: warnings, and those of other languages;
* `OptionNames.code`, `OptionNames.machine`: how code is made, and for which machine.

Names that can be turned on and off stand apart from those that can only be turned one way.
-/

namespace MemoFlow.Code.OptionNames

/-- Warnings. -/
def warnings : List String :=
  wordsOf
   ["NSObject-attribute absolute-value address address-of-packed-member aggregate-return",
    "aggressive-loop-optimizations alloc-zero alloca analyzer-allocation-size",
    "analyzer-deref-before-check analyzer-double-fclose analyzer-double-free",
    "analyzer-exposure-through-output-file analyzer-exposure-through-uninit-copy",
    "analyzer-fd-access-mode-mismatch analyzer-fd-double-close analyzer-fd-leak",
    "analyzer-fd-phase-mismatch analyzer-fd-type-mismatch analyzer-fd-use-after-close",
    "analyzer-fd-use-without-check analyzer-file-leak analyzer-free-of-non-heap",
    "analyzer-imprecise-fp-arithmetic analyzer-infinite-recursion analyzer-jump-through-null",
    "analyzer-malloc-leak analyzer-mismatching-deallocation analyzer-null-argument",
    "analyzer-null-dereference analyzer-out-of-bounds analyzer-possible-null-argument",
    "analyzer-possible-null-dereference analyzer-putenv-of-auto-var",
    "analyzer-shift-count-negative analyzer-shift-count-overflow analyzer-stale-setjmp-buffer",
    "analyzer-tainted-allocation-size analyzer-tainted-array-index analyzer-tainted-assertion",
    "analyzer-tainted-divisor analyzer-tainted-offset analyzer-tainted-size",
    "analyzer-too-complex analyzer-unsafe-call-within-signal-handler analyzer-use-after-free",
    "analyzer-use-of-pointer-in-stale-stack-frame analyzer-use-of-uninitialized-value",
    "analyzer-va-arg-type-mismatch analyzer-va-list-exhausted analyzer-va-list-leak",
    "analyzer-va-list-use-after-va-end analyzer-write-to-const",
    "analyzer-write-to-string-literal arith-conversion array-bounds array-compare",
    "array-parameter attribute-alias attribute-warning attributes bad-function-cast",
    "bidi-chars bool-compare bool-operation builtin-declaration-mismatch",
    "builtin-macro-redefined c++-compat c11-c2x-compat c90-c99-compat c99-c11-compat",
    "cannot-profile cast-align cast-function-type cast-qual char-subscripts chkp clobbered",
    "comment comments complain-wrong-lang conversion coverage-invalid-line-number",
    "coverage-mismatch cpp dangling-else dangling-pointer date-time",
    "declaration-after-statement deprecated deprecated-declarations designated-init",
    "disabled-optimization discarded-array-qualifiers discarded-qualifiers div-by-zero",
    "double-promotion duplicate-decl-specifier duplicated-branches duplicated-cond empty-body",
    "endif-labels enum-compare enum-conversion enum-int-mismatch expansion-to-defined",
    "float-conversion float-equal format format-contains-nul format-diag format-extra-args",
    "format-nonliteral format-security format-signedness format-truncation format-y2k",
    "format-zero-length frame-address free-nonheap-object hsa if-not-aligned",
    "ignored-attributes ignored-qualifiers implicit implicit-fallthrough",
    "implicit-function-declaration implicit-int import incompatible-pointer-types",
    "infinite-recursion init-self inline int-conversion int-in-bool-context",
    "int-to-pointer-cast invalid-memory-model invalid-pch invalid-utf8 jump-misses-init",
    "logical-not-parentheses logical-op long-long lto-type-mismatch main maybe-uninitialized",
    "memset-elt-size memset-transposed-args misleading-indentation mismatched-dealloc",
    "missing-attributes missing-braces missing-declarations missing-field-initializers",
    "missing-format-attribute missing-include-dirs missing-noreturn missing-parameter-type",
    "missing-profile missing-prototypes mudflap multichar multistatement-macros narrowing",
    "nested-externs nonnull nonnull-compare normalized null-dereference odr",
    "old-style-declaration old-style-definition openacc-parallelism openmp-simd overflow",
    "overlength-strings override-init override-init-side-effects packed",
    "packed-bitfield-compat packed-not-aligned padded parentheses pointer-arith",
    "pointer-compare pointer-sign pointer-to-int-cast pragmas prio-ctor-dtor psabi",
    "redundant-decls restrict return-local-addr return-type scalar-storage-order",
    "sequence-point shadow shadow-compatible-local shadow-local shift-count-negative",
    "shift-count-overflow shift-negative-value shift-overflow sign-compare sign-conversion",
    "sizeof-array-argument sizeof-array-div sizeof-pointer-div sizeof-pointer-memaccess",
    "stack-protector strict-aliasing strict-overflow strict-prototypes string-compare",
    "stringop-overflow stringop-overread stringop-truncation suggest-final-methods",
    "suggest-final-types switch switch-bool switch-default switch-enum switch-outside-range",
    "switch-unreachable sync-nand system-headers tautological-compare traditional",
    "traditional-conversion trampolines trigraphs trivial-auto-var-init tsan type-limits",
    "undef unicode uninitialized unknown-pragmas unreachable-code unsafe-loop-optimizations",
    "unsuffixed-float-constants unused unused-but-set-parameter unused-but-set-variable",
    "unused-const-variable unused-function unused-label unused-local-typedefs unused-macros",
    "unused-parameter unused-result unused-value unused-variable use-after-free varargs",
    "variadic-macros vector-operation-performance vla vla-parameter volatile-register-var",
    "write-strings xor-used-as-pow zero-length-bounds"]

/-- Warnings of other languages. -/
def foreignWarnings : List String :=
  wordsOf
   ["abi abi-tag aliasing align-commons ampersand array-temporaries assign-intercept",
    "c++0x-compat c++11-compat c++11-extensions c++14-compat c++14-extensions c++17-compat",
    "c++17-extensions c++1z-compat c++20-compat c++20-extensions c++23-extensions",
    "c++2a-compat c-binding-type cast-result catch-value changes-meaning character-truncation",
    "class-conversion class-memaccess comma-subscript compare-reals conditionally-supported",
    "conversion-extra conversion-null ctad-maybe-unsupported ctor-dtor-privacy",
    "dangling-reference delete-incomplete delete-non-virtual-dtor deprecated-copy",
    "deprecated-copy-dtor deprecated-enum-enum-conversion deprecated-enum-float-conversion",
    "do-subscript effc++ exceptions extra-semi function-elimination implicit-interface",
    "implicit-procedure inaccessible-base inherited-variadic-ctor init-list-lifetime",
    "integer-division interference-size intrinsic-shadow intrinsics-std invalid-constexpr",
    "invalid-imported-macros invalid-offsetof line-truncation literal-suffix",
    "mismatched-new-delete mismatched-special-enum mismatched-tags missing-requires",
    "missing-template-keyword multiple-inheritance namespaces noexcept noexcept-type",
    "non-template-friend non-virtual-dtor objc-root-class old-style-cast overloaded-virtual",
    "overwrite-recursive pessimizing-move placement-new pmf-conversions",
    "property-assign-default protocol range-loop-construct real-q-constant realloc-lhs",
    "realloc-lhs-all redundant-move redundant-tags register reorder selector self-move",
    "shadow-ivar sign-promo sized-deallocation strict-flex-arrays strict-null-sentinel",
    "strict-selector-match subobject-linkage suggest-override surprising synth tabs",
    "target-lifetime templates terminate undeclared-selector undefined-do-loop underflow",
    "unused-dummy-argument use-without-only useless-cast vexing-parse virtual-inheritance",
    "virtual-move-assign volatile zero-as-null-pointer-constant zerotrip"]

/-- How code is made. -/
def code : List String :=
  wordsOf
   ["PIC PIE aggressive-loop-optimizations align-functions align-jumps align-labels",
    "align-loops allocation-dce allow-parameterless-variadic-functions allow-store-data-races",
    "analyzer analyzer-call-summaries analyzer-feasibility analyzer-fine-grained",
    "analyzer-show-duplicate-count analyzer-state-merge analyzer-state-purge",
    "analyzer-suppress-followups analyzer-transitivity analyzer-undo-inlining",
    "analyzer-verbose-edges analyzer-verbose-state-changes argument-alias argument-noalias",
    "argument-noalias-anything argument-noalias-global asm asynchronous-unwind-tables",
    "auto-inc-dec bit-tests branch-count-reg branch-target-load-optimize",
    "branch-target-load-optimize2 btr-bb-exclusive building-libgcc builtin caller-saves",
    "canon-prefix-map canonical-system-headers check-data-deps check-new check-pointer-bounds",
    "checking chkp-check-incomplete-type chkp-check-read chkp-check-write",
    "chkp-flexible-struct-trailing-arrays chkp-instrument-calls chkp-instrument-marked-only",
    "chkp-narrow-bounds chkp-optimize chkp-store-bounds",
    "chkp-treat-zero-dynamic-size-as-infinite chkp-use-fast-string-functions",
    "chkp-use-nochk-string-functions chkp-use-static-bounds chkp-use-static-const-bounds",
    "chkp-use-wrappers chkp-zero-input-bounds-for-main cilkplus code-hoisting",
    "combine-stack-adjustments common compare-elim cond-mismatch conserve-stack",
    "cprop-registers crossjumping cse-follow-jumps cse-skip-blocks cx-fortran-rules",
    "cx-limited-range data-sections dbg-cnt-list dce debug-cpp debug-types-section defer-pop",
    "delete-dead-exceptions delete-null-pointer-checks devirtualize devirtualize-at-ltrans",
    "devirtualize-speculatively diagnostics-color diagnostics-generate-patch",
    "diagnostics-parseable-fixits diagnostics-show-caret diagnostics-show-cwe",
    "diagnostics-show-labels diagnostics-show-line-numbers diagnostics-show-option",
    "diagnostics-show-path-depths diagnostics-show-rules directives-only",
    "dollars-in-identifiers dse dump-internal-locations dump-noaddr dump-passes",
    "dump-unnumbered dump-unnumbered-links dwarf2-cfi-asm early-inlining",
    "eliminate-dwarf2-dups eliminate-unused-debug-symbols eliminate-unused-debug-types",
    "emit-class-debug-always emit-struct-debug-baseonly emit-struct-debug-reduced exceptions",
    "expensive-optimizations extended-identifiers fast-math fat-lto-objects finite-loops",
    "finite-math-only float-store force-addr forward-propagate fp-int-builtin-inexact",
    "freestanding function-cse function-sections gcse gcse-after-reload gcse-las gcse-lm",
    "gcse-sm gimple gnu-tm gnu-unique gnu89-inline graphite graphite-identity",
    "guess-branch-probability handle-exceptions harden-compares harden-conditional-branches",
    "hoist-adjacent-loads hosted ident if-conversion if-conversion2 indirect-inlining",
    "inhibit-size-directive inline inline-atomics inline-functions",
    "inline-functions-called-once inline-small-functions instrument-functions",
    "instrument-functions-once ipa-bit-cp ipa-cp ipa-cp-alignment ipa-cp-clone ipa-icf",
    "ipa-icf-functions ipa-icf-variables ipa-matrix-reorg ipa-modref ipa-profile ipa-pta",
    "ipa-pure-const ipa-ra ipa-reference ipa-reference-addressable ipa-sra",
    "ipa-stack-alignment ipa-strict-aliasing ipa-struct-reorg ipa-vrp ira-hoist-pressure",
    "ira-loop-pressure ira-share-save-slots ira-share-spill-slots",
    "isolate-erroneous-paths-attribute isolate-erroneous-paths-dereference ivopts jump-tables",
    "keep-gc-roots-live keep-inline-functions keep-static-consts keep-static-functions",
    "large-source-files lax-vector-conversions lifetime-dse limit-function-alignment",
    "live-range-shrinkage loop-block loop-flatten loop-interchange loop-nest-optimize",
    "loop-optimize loop-parallelize-all loop-strip-mine loop-unroll-and-jam lra-remat lto",
    "lto-odr-type-merging lto-report lto-report-wpa math-errno mem-report mem-report-wpa",
    "merge-all-constants merge-constants merge-debug-strings modulo-sched",
    "modulo-sched-allow-regmoves move-loop-invariants move-loop-stores ms-extensions mudflap",
    "mudflapir mudflapth name-mangling-version- non-call-exceptions omit-frame-pointer",
    "openacc openmp openmp-simd openmp-target-simd-clone opt-info optimize-register-move",
    "optimize-sibling-calls optimize-strlen pack-struct partial-inlining pcc-struct-return",
    "pch-deps pch-preprocess peel-loops peephole peephole2 pic pie plan9-extensions plt",
    "post-ipa-mem-report pre-ipa-mem-report predictive-commoning prefetch-loop-arrays",
    "printf-return-value profile profile-abs-path profile-arcs profile-correction",
    "profile-generate profile-partial-training profile-reorder-functions profile-report",
    "profile-values reciprocal-math record-gcc-switches ree reg-struct-return regmove",
    "rename-registers reorder-blocks reorder-blocks-and-partition reorder-functions",
    "report-bug rerun-cse-after-loop rerun-loop-opt reschedule-modulo-scheduled-loops",
    "rounding-math sanitize-address-use-after-scope sanitize-recover sanitize-trap",
    "sanitize-undefined-trap-on-error save-optimization-record sched-critical-path-heuristic",
    "sched-dep-count-heuristic sched-group-heuristic sched-interblock",
    "sched-last-insn-heuristic sched-pressure sched-rank-heuristic sched-spec",
    "sched-spec-insn-heuristic sched-spec-load sched-spec-load-dangerous sched-stalled-insns",
    "sched-stalled-insns-dep sched2-use-superblocks sched2-use-traces schedule-fusion",
    "schedule-insns schedule-insns2 see sel-sched-pipelining sel-sched-pipelining-outer-loops",
    "sel-sched-reschedule-pipelined selective-scheduling selective-scheduling2",
    "semantic-interposition short-enums short-wchar show-column shrink-wrap",
    "shrink-wrap-separate signaling-nans signed-bitfields signed-char signed-zeros",
    "split-ivs-in-unroller split-loops split-paths split-stack split-wide-types",
    "split-wide-types-early ssa-backprop ssa-phiopt stack-clash-protection stack-protector",
    "stdarg-opt store-merging strength-reduce strict-aliasing strict-flex-arrays",
    "strict-overflow strict-volatile-bitfields sync-libcalls test-coverage thread-jumps",
    "time-report time-report-details toplevel-reorder tracer trampolines trapping-math trapv",
    "tree-bit-ccp tree-builtin-call-dce tree-ccp tree-ch tree-coalesce-vars tree-copy-prop",
    "tree-copyrename tree-cselim tree-dce tree-dominator-opts tree-dse tree-forwprop tree-fre",
    "tree-loop-distribute-patterns tree-loop-distribution tree-loop-if-convert",
    "tree-loop-if-convert-stores tree-loop-im tree-loop-ivcanon tree-loop-linear",
    "tree-loop-optimize tree-loop-vectorize tree-lrs tree-partial-pre tree-phiprop tree-pre",
    "tree-pta tree-reassoc tree-salias tree-scev-cprop tree-sink tree-slp-vectorize tree-slsr",
    "tree-sra tree-store-ccp tree-store-copy-prop tree-switch-conversion tree-tail-merge",
    "tree-ter tree-vect-loop-version tree-vectorize tree-vrp unconstrained-commons",
    "unit-at-a-time unreachable-traps unroll-all-loops unroll-loops unsafe-loop-optimizations",
    "unsafe-math-optimizations unsigned-bitfields unsigned-char unswitch-loops unwind-tables",
    "use-linker-plugin var-tracking-assignments var-tracking-assignments-toggle",
    "variable-expansion-in-unroller vect-cost-model verbose-asm version-loops-for-strides vpt",
    "vtv-counts vtv-debug web working-directory wrapv wrapv-pointer zee",
    "zero-initialized-in-bss"]

/-- The same, to be turned on only. -/
def codeOn : List String :=
  wordsOf
   ["callgraph-info cf-protection chkp-first-field-has-own-bounds",
    "chkp-narrow-to-innermost-array compare-debug-second diagnostics-plain-output",
    "dump-ada-spec dump-ada-spec-slim dump-analyzer dump-analyzer-callgraph",
    "dump-analyzer-exploded-graph dump-analyzer-exploded-nodes dump-analyzer-exploded-nodes-2",
    "dump-analyzer-exploded-nodes-3 dump-analyzer-exploded-paths dump-analyzer-feasibility",
    "dump-analyzer-json dump-analyzer-state-purge dump-analyzer-stderr",
    "dump-analyzer-supergraph dump-analyzer-untracked live-patching multiflags",
    "profile-info-section stack-protector-all stack-protector-explicit stack-protector-strong",
    "stack-usage track-macro-expansion tree-coalesce-inlined-vars"]

/-- The same, to be turned off only. -/
def codeOff : List String :=
  wordsOf
   ["auto-profile builtin-printf leading-underscore preprocessed random-seed",
    "single-precision-constant stack-limit syntax-only whole-program"]

/-- How code is made in other languages. -/
def foreignCode : List String :=
  wordsOf
   ["allow-leading-underscore associative-math branch-probabilities building-libgfortran",
    "building-libphobos-tests delayed-branch fold-simple-inlines nothrow-opt profile-use",
    "require-return-statement rtti section-anchors stack-check strict-enums",
    "threadsafe-statics unroll-completely-grow-size var-tracking var-tracking-uninit"]

/-- The machine. -/
def machine : List String :=
  wordsOf
   ["abm accumulate-outgoing-args adx aes align-double align-stringops amx-bf16 amx-complex",
    "amx-fp16 amx-int8 amx-tile avx avx2 avx256-split-unaligned-load",
    "avx256-split-unaligned-store avx5124fmaps avx5124vnniw avx512bf16 avx512bitalg avx512bw",
    "avx512cd avx512dq avx512er avx512f avx512fp16 avx512ifma avx512pf avx512vbmi avx512vbmi2",
    "avx512vl avx512vnni avx512vp2intersect avx512vpopcntdq avxifma avxneconvert avxvnni",
    "avxvnniint8 bmi bmi2 call-ms2sysv-xlogues cet-switch cld cldemote clflushopt clwb clzero",
    "cmpccxadd crc32 cx16 daz-ftz direct-extern-access enqcmd f16c fancy-math-387 fentry fma",
    "fma4 force-drap force-indirect-call fp-ret-in-387 fsgsbase fused-madd fxsr gather gfni",
    "hle hreset ieee-fp indirect-branch-cs-prefix indirect-branch-register",
    "inline-all-stringops inline-stringops-dynamically intel-syntax kl lwp lzcnt manual-endbr",
    "mitigate-rop mmx movbe movdir64b movdiri mpx ms-bitfields mwait mwaitx needed",
    "omit-leaf-frame-pointer pclmul pcommit pconfig pku popcnt prefer-avx128 prefetchi",
    "prefetchwt1 prfchw ptwrite push-args raoint rdpid rdrnd rdseed recip record-mcount",
    "record-return red-zone relax-cmpxchg-loop rtd rtm sahf scatter serialize sgx sha shstk",
    "skip-rax-setup soft-float sse sse2 sse2avx sse3 sse4 sse4.1 sse4.2 sse4a sse5 ssse3",
    "stack-arg-probe stackrealign stv tbm tls-direct-seg-refs tsxldtrk uintr",
    "unroll-only-small-loops vaes vect8-ret-in-mem vpclmulqdq vzeroupper waitpkg wbnoinvd",
    "widekl xop xsave xsavec xsaveopt xsaves"]

/-- The same, to be turned on only. -/
def machineOn : List String :=
  wordsOf
   ["bionic dispatch-scheduler dump-tune-features glibc hard-float long-double-128",
    "long-double-64 long-double-80 musl pc32 pc64 pc80 sseregparm uclibc"]

/-- The same, to be turned off only. -/
def machineOff : List String :=
  wordsOf
   ["android default iamcu nop-mcount"]

end MemoFlow.Code.OptionNames
