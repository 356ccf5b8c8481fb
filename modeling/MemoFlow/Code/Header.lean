import MemoFlow.Code.SmallHeader

/-!
# Headers

* **`Header`**: what a header defines and declares;
* `Header.math`, `Header.sizes`: the headers that generated code asks for;
* **`Header.find?`**: a header by its name.
-/

namespace MemoFlow.Code

/-- **A header.** -/
structure Header where
  /-- The macro that shows that it has been read. -/
  guard : String := ""
  /-- Words that it defines. -/
  words : List String := []
  /-- Macros that it defines. -/
  definitions : List String := []
  /-- What it declares. -/
  declarations : String := ""

namespace Header

/-! ## Mathematics -/

/-- Functions with names for vectors of arguments. -/
def vectorFunctions : List String :=
  wordsOf ["acos acosh asin asinh atan atan2 atanh cbrt cos cosh erf erf erfc exp exp10 exp2",
    "expm1 hypot log log10 log1p log2 pow sin sincos sinh tan tanh"]

/-- Marks in front of their declarations, which stand for nothing. -/
def vectorMarks : List String :=
  vectorFunctions.flatMap fun f =>
    ["", "f", "l", "f16", "f32", "f64", "f128", "f32x", "f64x", "f128x"].map fun t =>
      "__DECL_SIMD_" ++ f ++ t

/-- The words of the header of mathematics. -/
def mathWords : List String :=
  wordsOf
   ["_BITS_FLOATN_COMMON_H _BITS_FLOATN_H _BITS_LIBM_SIMD_DECL_STUBS_H _BITS_TIME64_H",
    "_BITS_TYPESIZES_H _BITS_TYPES_H _FEATURES_H _MATH_H _SYS_CDEFS_H __BEGIN_DECLS",
    "__BLKCNT64_T_TYPE __BLKCNT_T_TYPE __BLKSIZE_T_TYPE __CFLOAT128 __CFLOAT32",
    "__CFLOAT32X __CFLOAT64 __CFLOAT64X __CLOCKID_T_TYPE __CLOCK_T_TYPE __COLD",
    "__CPU_MASK_TYPE __DADDR_T_TYPE __DEV_T_TYPE __END_DECLS __FD_SETSIZE",
    "__FP_LOGB0_IS_MIN __FP_LOGBNAN_IS_MIN __FSBLKCNT64_T_TYPE __FSBLKCNT_T_TYPE",
    "__FSFILCNT64_T_TYPE __FSFILCNT_T_TYPE __FSID_T_TYPE __FSWORD_T_TYPE __GID_T_TYPE",
    "__GLIBC_FLT_EVAL_METHOD __GLIBC_MINOR__ __GLIBC_USE_C2X_STRTOL",
    "__GLIBC_USE_DEPRECATED_GETS __GLIBC_USE_DEPRECATED_SCANF",
    "__GLIBC_USE_IEC_60559_BFP_EXT __GLIBC_USE_IEC_60559_BFP_EXT_C2X",
    "__GLIBC_USE_IEC_60559_EXT __GLIBC_USE_IEC_60559_FUNCS_EXT",
    "__GLIBC_USE_IEC_60559_FUNCS_EXT_C2X __GLIBC_USE_IEC_60559_TYPES_EXT",
    "__GLIBC_USE_ISOC2X __GLIBC_USE_LIB_EXT2 __GLIBC__ __GNU_LIBRARY__",
    "__HAVE_DISTINCT_FLOAT128 __HAVE_DISTINCT_FLOAT128X __HAVE_DISTINCT_FLOAT16",
    "__HAVE_DISTINCT_FLOAT32 __HAVE_DISTINCT_FLOAT32X __HAVE_DISTINCT_FLOAT64",
    "__HAVE_DISTINCT_FLOAT64X __HAVE_FLOAT128 __HAVE_FLOAT128X",
    "__HAVE_FLOAT128_UNLIKE_LDBL __HAVE_FLOAT16 __HAVE_FLOAT32 __HAVE_FLOAT32X",
    "__HAVE_FLOAT64 __HAVE_FLOAT64X __HAVE_FLOAT64X_LONG_DOUBLE __HAVE_FLOATN_NOT_TYPEDEF",
    "__HAVE_GENERIC_SELECTION __ID_T_TYPE __INO64_T_TYPE __INO_T_MATCHES_INO64_T",
    "__INO_T_TYPE __KERNEL_OLD_TIMEVAL_MATCHES_TIMEVAL64 __KERNEL_STRICT_NAMES",
    "__KEY_T_TYPE __LDOUBLE_REDIRECTS_TO_FLOAT128_ABI __LEAF __LEAF_ATTR",
    "__MATH_DECLARE_LDOUBLE __MODE_T_TYPE __NLINK_T_TYPE __OFF64_T_TYPE",
    "__OFF_T_MATCHES_OFF64_T __OFF_T_TYPE __PID_T_TYPE __RLIM64_T_TYPE",
    "__RLIM_T_MATCHES_RLIM64_T __RLIM_T_TYPE __S16_TYPE __S32_TYPE __S64_TYPE",
    "__SLONG32_TYPE __SLONGWORD_TYPE __SQUAD_TYPE __SSIZE_T_TYPE",
    "__STATFS_MATCHES_STATFS64 __SUSECONDS64_T_TYPE __SUSECONDS_T_TYPE __SWORD_TYPE",
    "__SYSCALL_SLONG_TYPE __SYSCALL_ULONG_TYPE __SYSCALL_WORDSIZE __THROW __THROWNL",
    "__TIME64_T_TYPE __TIMER_T_TYPE __TIMESIZE __TIME_T_TYPE __U16_TYPE __U32_TYPE",
    "__U64_TYPE __UID_T_TYPE __ULONG32_TYPE __ULONGWORD_TYPE __UQUAD_TYPE",
    "__USECONDS_T_TYPE __USE_EXTERN_INLINES __USE_FORTIFY_LEVEL __USE_ISOC95 __USE_ISOC99",
    "__UWORD_TYPE __WORDSIZE __WORDSIZE_TIME64_COMPAT32 __always_inline",
    "__attr_dealloc_free __attribute_artificial__ __attribute_const__",
    "__attribute_deprecated__ __attribute_malloc__ __attribute_maybe_unused__",
    "__attribute_noinline__ __attribute_nonstring__ __attribute_pure__",
    "__attribute_returns_twice__ __attribute_used__ __attribute_warn_unused_result__",
    "__extern_always_inline __extern_inline __flexarr __fortify_function",
    "__glibc_c99_flexarr_available __ptr_t __restrict_arr __returns_nonnull",
    "__stub___compat_bdflush __stub_chflags __stub_fchflags __stub_gtty __stub_revoke",
    "__stub_setlogin __stub_sigreturn __stub_stty __wur"]

/-- Macros with arguments that stand for no expression. -/
def mathFormsWithoutValue : List String :=
  (wordsOf ["__ASMNAME __ASMNAME2 __GLIBC_USE __LDBL_REDIR1_NTH __LDBL_REDIR_NTH __MATHCALLX",
    "__MATHCALL_VEC __MATHDECLX __MATHDECL_VEC __MATHREDIR __MATH_TG __MATH_TG_F32",
    "__MATH_TG_F64X __NTH __NTHNL __REDIRECT __REDIRECT_LDBL __REDIRECT_NTH",
    "__REDIRECT_NTHNL __REDIRECT_NTH_LDBL __attr_access __attr_access_none __attr_dealloc",
    "__attribute_alloc_align__ __attribute_alloc_size__ __attribute_copy__",
    "__attribute_deprecated_msg__ __attribute_format_arg__ __attribute_format_strfmon__",
    "__attribute_nonnull__ __bos __bos0 __errordecl __fortified_attr_access",
    "__glibc_fortify __glibc_fortify_n __glibc_has_attribute __glibc_has_builtin",
    "__glibc_macro_warning __glibc_macro_warning1 __glibc_objsize __glibc_objsize0",
    "__glibc_safe_or_unknown_len __glibc_unsafe_len __glibc_unsigned_or_positive",
    "__nonnull __va_arg_pack __va_arg_pack_len __warnattr"]).map fun w => w ++ "(...) @"

/-- The macros of the header of mathematics. -/
def mathDefinitions : List String :=
  ["__SIMD_DECL(function) __CONCAT (__DECL_SIMD_, function)", "__CONCAT(x,y) x ## y",
    "__LDBL_REDIR(name,proto) name proto", "__LDBL_REDIR1(name,proto,alias) name proto",
    "__LDBL_REDIR2_DECL(name) ", "__LDBL_REDIR_DECL(name) ", "__P(args) args", "__PMT(args) args",
    "__STRING(x) #x", "__f128(x) x ##f128", "__f32(x) x ##f32", "__f32x(x) x ##f32x",
    "__f64(x) x ##f64", "__f64x(x) x ##f64x", "__glibc_clang_prereq(maj,min) 0",
    "__glibc_has_extension(ext) 0",
    "__glibc_safe_len_cond(__l,__s,__osz) ((__l) <= (__osz) / (__s))",
    "fpclassify(x) __builtin_fpclassify (FP_NAN, FP_INFINITE, FP_NORMAL, FP_SUBNORMAL, FP_ZERO, x)",
    "isfinite(x) __builtin_isfinite (x)", "isgreater(x,y) __builtin_isgreater(x, y)",
    "isgreaterequal(x,y) __builtin_isgreaterequal(x, y)", "isinf(x) __builtin_isinf_sign (x)",
    "isless(x,y) __builtin_isless(x, y)", "islessequal(x,y) __builtin_islessequal(x, y)",
    "islessgreater(x,y) __builtin_islessgreater(x, y)", "isnan(x) __builtin_isnan (x)",
    "isnormal(x) __builtin_isnormal (x)", "isunordered(x,y) __builtin_isunordered(x, y)",
    "signbit(x) __builtin_signbit (x)",
    "__GLIBC_PREREQ(maj,min) ((2 << 16) + 39 >= ((maj) << 16) + (min))",
    "__GNUC_PREREQ(maj,min) ((13 << 16) + 3 >= ((maj) << 16) + (min))",
    "__glibc_likely(cond) ((long)(cond))", "__glibc_unlikely(cond) ((long)(cond))", "FP_NAN 0",
    "FP_INFINITE 1", "FP_ZERO 2", "FP_SUBNORMAL 3", "FP_NORMAL 4", "FP_ILOGB0 (-2147483647 - 1)",
    "FP_ILOGBNAN (-2147483647 - 1)", "HUGE_VAL (1.0 / 0.0)", "HUGE_VALF (1.0f / 0.0f)",
    "HUGE_VALL (1.0l / 0.0l)", "INFINITY (1.0f / 0.0f)", "NAN (0.0f / 0.0f)", "MATH_ERRNO 1",
    "MATH_ERREXCEPT 2", "math_errhandling (MATH_ERRNO | MATH_ERREXCEPT)",
    "__REDIRECT_FORTIFY __REDIRECT", "__REDIRECT_FORTIFY_NTH __REDIRECT_NTH"] ++
    mathFormsWithoutValue ++ vectorMarks

/-- Words of the header in the extended language. -/
def extendedMathWords : List String :=
  wordsOf ["M_1_PI M_2_PI M_2_SQRTPI M_E M_LN10 M_LN2 M_LOG10E M_LOG2E M_PI M_PI_2 M_PI_4",
    "M_SQRT1_2 M_SQRT2 _ATFILE_SOURCE _DEFAULT_SOURCE _POSIX_C_SOURCE _POSIX_SOURCE",
    "__USE_ATFILE __USE_MISC __USE_POSIX __USE_POSIX199309 __USE_POSIX199506 __USE_POSIX2",
    "__USE_POSIX_IMPLICITLY __USE_XOPEN2K __USE_XOPEN2K8"]

/-- Words of the header in the last version of the language. -/
def lateMathWords : List String :=
  wordsOf ["FP_INT_DOWNWARD FP_INT_TONEAREST FP_INT_TONEARESTFROMZERO FP_INT_TOWARDZERO",
    "FP_INT_UPWARD FP_LLOGB0 FP_LLOGBNAN __FP_LONG_MAX"]

/-- Functions of one number. -/
def ofOne : List String :=
  wordsOf ["acos asin atan cos sin tan cosh sinh tanh acosh asinh atanh exp log log10 expm1",
    "log1p logb exp2 log2 sqrt cbrt ceil fabs floor rint nearbyint round trunc erf erfc",
    "lgamma tgamma"]

/-- Functions of two numbers. -/
def ofTwo : List String :=
  wordsOf ["atan2 pow hypot fmod copysign nextafter remainder fdim fmax fmin"]

/-- The declaration of a function of `n` numbers of a type, behind its mark. -/
def declaration (type letter : String) (n : Nat) (f : String) : String :=
  (if letter.isEmpty && vectorFunctions.contains f then "__SIMD_DECL (" ++ f ++ ") " else "") ++
    "extern " ++ type ++ " " ++ f ++ letter ++ " (" ++
    ", ".intercalate ((["__x", "__y", "__z"].take n).map fun x => type ++ " " ++ x) ++ "); "

/-- Functions of the library beside those on numbers of one type. -/
def otherFunctions : List String :=
  wordsOf ["frexp ldexp modf nan nexttoward ilogb scalbn scalbln remquo lrint llrint lround",
    "llround abs labs atof atoi rand abort exit printf puts putchar strlen"]

/-- The declarations of the header of mathematics. -/
def mathDeclarations : String :=
  "typedef unsigned char __u_char; " ++
    String.join (["double", "float", "long double"].zip ["", "f", "l"] |>.map fun (t, l) =>
    String.join (ofOne.map (declaration t l 1)) ++ String.join (ofTwo.map (declaration t l 2)) ++
      declaration t l 3 "fma") ++
    "extern double frexp (double __x, int *__p); extern double ldexp (double __x, int __n); " ++
    "extern double modf (double __x, double *__p); extern double nan (const char *__t); " ++
    "extern double nexttoward (double __x, long double __y); extern int ilogb (double __x); " ++
    "extern double scalbn (double __x, int __n); extern double scalbln (double __x, long __n); " ++
    "extern double remquo (double __x, double __y, int *__p); extern long lrint (double __x); " ++
    "extern long llrint (double __x); extern long lround (double __x); " ++
    "extern long llround (double __x); typedef float float_t; typedef double double_t; "

/-- **The header of mathematics.** -/
def math (d : Dialect) : Header where
  guard := "_MATH_H"
  words := mathWords ++ (if d.isStrict then [] else extendedMathWords) ++
    (if 2011 ≤ d.year then ["__USE_ISOC11"] else []) ++
    if 2023 ≤ d.year then lateMathWords else []
  definitions := mathDefinitions ++ if 2023 ≤ d.year then
    ["iscanonical(x) 1", "iseqsig(x,y) @", "issignaling(x) @",
      "issubnormal(x) (fpclassify (x) == FP_SUBNORMAL)", "iszero(x) ((x) == 0)",
      "__iscanonical(x) 1", "__iscanonicalf(x) 1", "__iscanonicalf128(x) 1",
      "__MATH_EVAL_FMT2(x,y) ((x) + (y))"] else []
  declarations := mathDeclarations

/-! ## Sizes -/

/-- The words of the header of sizes. -/
def sizeWords : List String :=
  wordsOf ["_ANSI_STDDEF_H _BSD_PTRDIFF_T_ _BSD_SIZE_T_ _BSD_SIZE_T_DEFINED_ _GCC_PTRDIFF_T",
    "_GCC_SIZE_T _GCC_WCHAR_T _PTRDIFF_T _PTRDIFF_T_ _PTRDIFF_T_DECLARED _SIZET_ _SIZE_T",
    "_SIZE_T_ _SIZE_T_DECLARED _SIZE_T_DEFINED _SIZE_T_DEFINED_ _STDDEF_H _STDDEF_H_",
    "_SYS_SIZE_T_H _T_PTRDIFF _T_PTRDIFF_ _T_SIZE _T_SIZE_ _T_WCHAR _T_WCHAR_ _WCHAR_T",
    "_WCHAR_T_ _WCHAR_T_DECLARED _WCHAR_T_DEFINED _WCHAR_T_DEFINED_ _WCHAR_T_H",
    "__DEFINED_ptrdiff_t __DEFINED_size_t __DEFINED_wchar_t __INT_WCHAR_T_H __PTRDIFF_T",
    "__SIZE_T __SIZE_T__ __WCHAR_T __WCHAR_T__ ___int_ptrdiff_t_h ___int_size_t_h",
    "___int_wchar_t_h __size_t __size_t__ __wchar_t__"]

/-- **The header of sizes.** -/
def sizes (d : Dialect) : Header where
  guard := "_STDDEF_H"
  words := sizeWords ++ (if 2011 ≤ d.year then ["_GCC_MAX_ALIGN_T"] else []) ++
    if 2023 ≤ d.year then ["_GCC_NULLPTR_T", "__STDC_VERSION_STDDEF_H__"] else []
  definitions := ["NULL ((void *)0)", "offsetof(TYPE,MEMBER) @"] ++
    if 2023 ≤ d.year then ["unreachable() @"] else []
  declarations := "typedef long int ptrdiff_t; typedef long unsigned int size_t; " ++
    "typedef int wchar_t; "

/-! ## Other headers -/

/-- Headers beside those of mathematics and sizes. -/
def others : List String :=
  wordsOf ["assert.h ctype.h errno.h fenv.h float.h inttypes.h iso646.h limits.h locale.h",
    "setjmp.h signal.h stdalign.h stdarg.h stdatomic.h stdint.h stdio.h stdlib.h",
    "stdnoreturn.h string.h threads.h time.h uchar.h unistd.h wchar.h wctype.h",
    "sys/types.h sys/stat.h sys/time.h fcntl.h pthread.h strings.h dlfcn.h features.h",
    "alloca.h immintrin.h x86intrin.h malloc.h values.h"]

/-- **A header by its name.** -/
def find? (d : Dialect) (name : String) : Option Header :=
  if name = "math.h" then some (math d)
  else if name = "stddef.h" then some (sizes d)
  else if name = "complex.h" then
    some { guard := "_COMPLEX_H",
            definitions := ["complex _Complex", "I 1.0fi", "_Complex_I 1.0fi"] }
  else if name = "stdbool.h" then
    some { guard := "_STDBOOL_H", definitions := if 2023 ≤ d.year then [] else
      ["bool _Bool", "true 1", "false 0"] }
  else if name = "tgmath.h" then
    some { math d with definitions :=
            (math d).definitions ++ ["complex _Complex", "I 1.0fi", "_Complex_I 1.0fi"] }
  else if others.contains name then
    some { words := SmallHeader.words name
           definitions := SmallHeader.definitions name
           declarations := SmallHeader.declarations name }
  else none

end Header

end MemoFlow.Code
