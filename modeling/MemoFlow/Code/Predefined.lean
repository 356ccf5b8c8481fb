import MemoFlow.Code.Macro

/-!
# Words with a meaning of their own

* **`Dialect`**: a version of the language;
* `Dialect.reserved`: words that can name nothing;
* **`Dialect.predefined`**: the macros that are defined before a text is read.

Most of these macros are only known by name here: what they stand for is a number that no other text
asks for.
-/

namespace MemoFlow.Code

/-- **A version of the language.** -/
structure Dialect where
  /-- The year of the standard. -/
  year : Nat := 1999
  /-- Whether the names of the standard are the only ones. -/
  isStrict : Bool := true
deriving DecidableEq, Repr

/-- The words of some lines. -/
def wordsOf (lines : List String) : List String :=
  lines.flatMap fun l => l.splitOn " "

/-- Words with two parts between underscores, for all first and second parts. -/
def compounds (firsts seconds : List String) : List String :=
  firsts.flatMap fun a => seconds.map fun b => "__" ++ a ++ "_" ++ b ++ "__"

/-! ## Reserved words -/

/-- The words of the language in its strict form. -/
def strictWords : List String :=
  wordsOf ["auto break case char const continue default do double else enum extern float for",
    "goto if inline int long register restrict return short signed sizeof static struct",
    "switch typedef union unsigned void volatile while _Alignas _Alignof _Atomic _Bool",
    "_Complex _Decimal128 _Decimal32 _Decimal64 _Float128 _Float128x _Float16 _Float32",
    "_Float32x _Float64 _Float64x _Generic _Imaginary _Noreturn _Pragma _Static_assert",
    "_Thread_local __BASE_FILE__ __COUNTER__ __DATE__ __FILE_NAME__ __FILE__ __FUNCTION__",
    "__GIMPLE __INCLUDE_LEVEL__ __LINE__ __PHI __PRETTY_FUNCTION__ __RTL __TIMESTAMP__",
    "__TIME__ __alignof __alignof__ __asm __asm__ __attribute __attribute__ __auto_type",
    "__builtin_assoc_barrier __builtin_call_with_static_chain __builtin_choose_expr",
    "__builtin_complex __builtin_convertvector __builtin_has_attribute __builtin_offsetof",
    "__builtin_shuffle __builtin_shufflevector __builtin_tgmath",
    "__builtin_types_compatible_p __builtin_va_arg __complex __complex__ __const",
    "__const__ __extension__ __func__ __has_attribute __has_builtin __has_c_attribute",
    "__has_cpp_attribute __has_include __has_include_next __imag __imag__ __inline",
    "__inline__ __int128 __label__ __null __real __real__ __restrict __restrict__",
    "__signed __signed__ __thread __transaction_atomic __transaction_cancel",
    "__transaction_relaxed __typeof __typeof__ __volatile __volatile__"]

/-- Words of the extended language. -/
def extendedWords : List String :=
  wordsOf ["_Accum _Fract _Sat __seg_fs __seg_gs asm typeof"]

/-- Words of its last version. -/
def lateWords : List String :=
  wordsOf ["alignas alignof bool constexpr false nullptr static_assert thread_local true typeof",
    "typeof_unqual"]

/-- **Words that can name nothing.** -/
def Dialect.reserved (d : Dialect) : List String :=
  strictWords ++ (if d.isStrict then [] else extendedWords) ++
    if d.year < 2023 then [] else lateWords

/-! ## Predefined macros -/

/-- Properties of floating formats. -/
def formatWords : List String :=
  compounds
      (wordsOf ["BFLT16 DBL FLT128 FLT16 FLT32X FLT32 FLT64X FLT64 FLT LDBL"])
      (wordsOf ["DECIMAL_DIG DENORM_MIN DIG EPSILON HAS_DENORM HAS_INFINITY HAS_QUIET_NAN",
          "IS_IEC_60559 MANT_DIG MAX_10_EXP MAX_EXP MAX MIN_10_EXP MIN_EXP MIN NORM_MAX"]) ++
    compounds ["DEC32", "DEC64", "DEC128"]
      (wordsOf ["EPSILON MANT_DIG MAX_EXP MAX MIN_EXP MIN SUBNORMAL_MIN"])

/-- Properties of integer types. -/
def integerWords : List String :=
  let sizes := ["8", "16", "32", "64"]
  let fast := (sizes.map ("INT_FAST" ++ ·)) ++ sizes.map ("INT_LEAST" ++ ·)
  compounds fast ["MAX", "TYPE", "WIDTH"] ++
    compounds (fast.map ("U" ++ ·)) ["MAX", "TYPE"] ++
    compounds ((sizes.map ("INT" ++ ·)) ++ (sizes.map ("UINT" ++ ·)) ++
        wordsOf ["INTMAX UINTMAX INTPTR UINTPTR SIZE PTRDIFF SIG_ATOMIC WCHAR WINT"])
      ["MAX", "TYPE"]

/-- The other properties of the compiler and its target. -/
def targetWords : List String :=
  wordsOf
   ["_FORTIFY_SOURCE _LP64 _STDC_PREDEF_H __ATOMIC_ACQUIRE __ATOMIC_ACQ_REL",
    "__ATOMIC_CONSUME __ATOMIC_HLE_ACQUIRE __ATOMIC_HLE_RELEASE __ATOMIC_RELAXED",
    "__ATOMIC_RELEASE __ATOMIC_SEQ_CST __BIGGEST_ALIGNMENT__ __BYTE_ORDER__ __CET__",
    "__CHAR16_TYPE__ __CHAR32_TYPE__ __CHAR_BIT__ __DECIMAL_BID_FORMAT__ __DECIMAL_DIG__",
    "__DEC_EVAL_METHOD__ __ELF__ __FINITE_MATH_ONLY__ __FLOAT_WORD_ORDER__",
    "__FLT_EVAL_METHOD_TS_18661_3__ __FLT_EVAL_METHOD__ __FLT_RADIX__ __FXSR__",
    "__GCC_ASM_FLAG_OUTPUTS__ __GCC_ATOMIC_BOOL_LOCK_FREE __GCC_ATOMIC_CHAR16_T_LOCK_FREE",
    "__GCC_ATOMIC_CHAR32_T_LOCK_FREE __GCC_ATOMIC_CHAR_LOCK_FREE",
    "__GCC_ATOMIC_INT_LOCK_FREE __GCC_ATOMIC_LLONG_LOCK_FREE __GCC_ATOMIC_LONG_LOCK_FREE",
    "__GCC_ATOMIC_POINTER_LOCK_FREE __GCC_ATOMIC_SHORT_LOCK_FREE",
    "__GCC_ATOMIC_TEST_AND_SET_TRUEVAL __GCC_ATOMIC_WCHAR_T_LOCK_FREE",
    "__GCC_CONSTRUCTIVE_SIZE __GCC_DESTRUCTIVE_SIZE __GCC_HAVE_DWARF2_CFI_ASM",
    "__GCC_HAVE_SYNC_COMPARE_AND_SWAP_1 __GCC_HAVE_SYNC_COMPARE_AND_SWAP_2",
    "__GCC_HAVE_SYNC_COMPARE_AND_SWAP_4 __GCC_HAVE_SYNC_COMPARE_AND_SWAP_8 __GCC_IEC_559",
    "__GCC_IEC_559_COMPLEX __GNUC_EXECUTION_CHARSET_NAME __GNUC_PATCHLEVEL__",
    "__GNUC_STDC_INLINE__ __GNUC_WIDE_EXECUTION_CHARSET_NAME __GXX_ABI_VERSION",
    "__HAVE_SPECULATION_SAFE_VALUE __INTMAX_WIDTH__ __INTPTR_WIDTH__ __INT_MAX__",
    "__INT_WIDTH__ __LONG_LONG_MAX__ __LONG_LONG_WIDTH__ __LONG_MAX__ __LONG_WIDTH__",
    "__LP64__ __MMX_WITH_SSE__ __MMX__ __OPTIMIZE__ __ORDER_BIG_ENDIAN__",
    "__ORDER_LITTLE_ENDIAN__ __ORDER_PDP_ENDIAN__ __PIC__ __PRAGMA_REDEFINE_EXTNAME",
    "__PTRDIFF_WIDTH__ __REGISTER_PREFIX__ __SCHAR_MAX__ __SCHAR_WIDTH__ __SEG_FS",
    "__SEG_GS __SHRT_MAX__ __SHRT_WIDTH__ __SIG_ATOMIC_MIN__ __SIG_ATOMIC_WIDTH__",
    "__SIZEOF_DOUBLE__ __SIZEOF_FLOAT128__ __SIZEOF_FLOAT80__ __SIZEOF_FLOAT__",
    "__SIZEOF_INT128__ __SIZEOF_INT__ __SIZEOF_LONG_DOUBLE__ __SIZEOF_LONG_LONG__",
    "__SIZEOF_LONG__ __SIZEOF_POINTER__ __SIZEOF_PTRDIFF_T__ __SIZEOF_SHORT__",
    "__SIZEOF_SIZE_T__ __SIZEOF_WCHAR_T__ __SIZEOF_WINT_T__ __SIZE_WIDTH__ __SSE2_MATH__",
    "__SSE2__ __SSE_MATH__ __SSE__ __SSP_STRONG__ __STDC_IEC_559_COMPLEX__",
    "__STDC_IEC_559__ __STDC_IEC_60559_BFP__ __STDC_IEC_60559_COMPLEX__",
    "__STDC_ISO_10646__ __USER_LABEL_PREFIX__ __VERSION__ __WCHAR_MIN__ __WCHAR_WIDTH__",
    "__WINT_MIN__ __WINT_WIDTH__ __amd64 __amd64__ __code_model_small__ __gnu_linux__",
    "__k8 __k8__ __linux __linux__ __pic__ __unix __unix__ __x86_64 __x86_64__"]

/-- Words of the extended language that name the target. -/
def hostWords : List String := ["linux", "unix"]

/-- Macros with what they stand for. -/
def targetDefinitions : List String :=
  ["__LINE__ 1", "__COUNTER__ 0", "__INCLUDE_LEVEL__ 0", "__FILE__ \"\"", "__BASE_FILE__ \"\"",
    "__FILE_NAME__ \"\"", "__DATE__ \"\"", "__TIME__ \"\"", "__TIMESTAMP__ \"\"",
    "__STDC__ 1", "__STDC_HOSTED__ 1", "__GNUC__ 13", "__GNUC_MINOR__ 3",
    "__INT16_C(c) c",
    "__INT32_C(c) c",
    "__INT64_C(c) c ## L",
    "__INT8_C(c) c",
    "__INTMAX_C(c) c ## L",
    "__UINT16_C(c) c",
    "__UINT32_C(c) c ## U",
    "__UINT64_C(c) c ## UL",
    "__UINT8_C(c) c",
    "__UINTMAX_C(c) c ## UL"]

/-- Properties of types with their values. -/
def valueDefinitions : List String :=
  ["__BIGGEST_ALIGNMENT__ 16", "__BYTE_ORDER__ __ORDER_LITTLE_ENDIAN__", "__CHAR_BIT__ 8",
    "__DBL_DECIMAL_DIG__ 17",
    "__DBL_DENORM_MIN__ ((double)4.94065645841246544176568792868221372e-324L)", "__DBL_DIG__ 15",
    "__DBL_EPSILON__ ((double)2.22044604925031308084726333618164062e-16L)", "__DBL_MANT_DIG__ 53",
    "__DBL_MAX_10_EXP__ 308", "__DBL_MAX_EXP__ 1024",
    "__DBL_MAX__ ((double)1.79769313486231570814527423731704357e+308L)",
    "__DBL_MIN_10_EXP__ (-307)", "__DBL_MIN_EXP__ (-1021)",
    "__DBL_MIN__ ((double)2.22507385850720138309023271733240406e-308L)",
    "__DBL_NORM_MAX__ ((double)1.79769313486231570814527423731704357e+308L)",
    "__DECIMAL_DIG__ 21", "__FINITE_MATH_ONLY__ 0", "__FLT_DECIMAL_DIG__ 9",
    "__FLT_DENORM_MIN__ 1.40129846432481707092372958328991613e-45F", "__FLT_DIG__ 6",
    "__FLT_EPSILON__ 1.19209289550781250000000000000000000e-7F",
    "__FLT_EVAL_METHOD_TS_18661_3__ 0", "__FLT_EVAL_METHOD__ 0", "__FLT_MANT_DIG__ 24",
    "__FLT_MAX_10_EXP__ 38", "__FLT_MAX_EXP__ 128",
    "__FLT_MAX__ 3.40282346638528859811704183484516925e+38F", "__FLT_MIN_10_EXP__ (-37)",
    "__FLT_MIN_EXP__ (-125)", "__FLT_MIN__ 1.17549435082228750796873653722224568e-38F",
    "__FLT_NORM_MAX__ 3.40282346638528859811704183484516925e+38F", "__FLT_RADIX__ 2",
    "__GNUC_PATCHLEVEL__ 0", "__GXX_ABI_VERSION 1018", "__INTMAX_MAX__ 0x7fffffffffffffffL",
    "__INTMAX_WIDTH__ 64", "__INT_MAX__ 0x7fffffff", "__INT_WIDTH__ 32",
    "__LDBL_DECIMAL_DIG__ 21", "__LDBL_DENORM_MIN__ 3.64519953188247460252840593361941982e-4951L",
    "__LDBL_DIG__ 18", "__LDBL_EPSILON__ 1.08420217248550443400745280086994171e-19L",
    "__LDBL_MANT_DIG__ 64", "__LDBL_MAX_10_EXP__ 4932", "__LDBL_MAX_EXP__ 16384",
    "__LDBL_MAX__ 1.18973149535723176502126385303097021e+4932L", "__LDBL_MIN_10_EXP__ (-4931)",
    "__LDBL_MIN_EXP__ (-16381)", "__LDBL_MIN__ 3.36210314311209350626267781732175260e-4932L",
    "__LDBL_NORM_MAX__ 1.18973149535723176502126385303097021e+4932L",
    "__LONG_LONG_MAX__ 0x7fffffffffffffffLL", "__LONG_LONG_WIDTH__ 64",
    "__LONG_MAX__ 0x7fffffffffffffffL", "__LONG_WIDTH__ 64", "__ORDER_BIG_ENDIAN__ 4321",
    "__ORDER_LITTLE_ENDIAN__ 1234", "__PIC__ 2", "__PTRDIFF_MAX__ 0x7fffffffffffffffL",
    "__PTRDIFF_WIDTH__ 64", "__SCHAR_MAX__ 0x7f", "__SCHAR_WIDTH__ 8", "__SHRT_MAX__ 0x7fff",
    "__SHRT_WIDTH__ 16", "__SIG_ATOMIC_MAX__ 0x7fffffff",
    "__SIG_ATOMIC_MIN__ (-__SIG_ATOMIC_MAX__ - 1)", "__SIG_ATOMIC_WIDTH__ 32",
    "__SIZEOF_DOUBLE__ 8", "__SIZEOF_FLOAT128__ 16", "__SIZEOF_FLOAT80__ 16",
    "__SIZEOF_FLOAT__ 4", "__SIZEOF_INT128__ 16", "__SIZEOF_INT__ 4", "__SIZEOF_LONG_DOUBLE__ 16",
    "__SIZEOF_LONG_LONG__ 8", "__SIZEOF_LONG__ 8", "__SIZEOF_POINTER__ 8",
    "__SIZEOF_PTRDIFF_T__ 8", "__SIZEOF_SHORT__ 2", "__SIZEOF_SIZE_T__ 8", "__SIZEOF_WCHAR_T__ 4",
    "__SIZEOF_WINT_T__ 4", "__SIZE_MAX__ 0xffffffffffffffffUL", "__SIZE_WIDTH__ 64",
    "__UINTMAX_MAX__ 0xffffffffffffffffUL", "__WCHAR_MAX__ 0x7fffffff",
    "__WCHAR_MIN__ (-__WCHAR_MAX__ - 1)", "__WCHAR_WIDTH__ 32", "__WINT_MAX__ 0xffffffffU",
    "__WINT_MIN__ 0U", "__WINT_WIDTH__ 32", "__pic__ 2"]

namespace Macros

/-- The macro of a definition that is given as a text. -/
def define (ms : Macros) (text : Bytes) : Macros :=
  match ((lexemes? true text).bind Macro.ofDefinition?) with
  | some (w, m) => ms.insert w m
  | none => ms

/-- Words that are defined. -/
def defineWords (ms : Macros) (ws : List String) : Macros :=
  let one : Macro := { body := [⟨.number (Bytes.ofString "1"), true⟩] }
  ws.foldl (fun ms w => ms.insert (Bytes.ofString w) one) ms

/-- Definitions. -/
def defineAll (ms : Macros) (ds : List String) : Macros :=
  ds.foldl (fun ms d => ms.define (Bytes.ofString d)) ms

end Macros

/-- The value of the macro that tells the version of the language. -/
def Dialect.version (d : Dialect) : String :=
  if d.year < 2011 then "199901L"
  else if d.year < 2017 then "201112L"
  else if d.year < 2023 then "201710L"
  else "202000L"

/-- **The macros that are defined before a text is read.** -/
def Dialect.predefined (d : Dialect) : Macros :=
  let ms : Macros := Std.HashMap.emptyWithCapacity 2048
  let ms := ms.defineWords (formatWords ++ integerWords ++ targetWords)
  let ms := ms.defineAll
    (("__STDC_VERSION__ " ++ d.version) :: targetDefinitions ++ valueDefinitions)
  let ms := if d.isStrict then ms.defineWords ["__STRICT_ANSI__"] else ms.defineWords hostWords
  let ms := if !d.isStrict || 2011 ≤ d.year then
      ms.defineWords ["__STDC_UTF_16__", "__STDC_UTF_32__"] else ms
  if 2023 ≤ d.year then
    ms.defineWords ["__CHAR8_TYPE__", "__GCC_ATOMIC_CHAR8_T_LOCK_FREE"] else ms

end MemoFlow.Code
