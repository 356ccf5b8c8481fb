import MemoFlow.Code.Predefined

/-!
# Small headers

Headers that define numbers and types but no functions that generated code calls.

* **`SmallHeader.definitions`**: the macros of a header, by its name;
* `SmallHeader.words`: macros whose meaning no text asks for;
* `SmallHeader.declarations`: the types and functions of a header.
-/

namespace MemoFlow.Code.SmallHeader

/-- The limits of integers. -/
def limits : List String :=
  ["CHAR_BIT __CHAR_BIT__", "CHAR_MAX SCHAR_MAX", "CHAR_MIN SCHAR_MIN", "INT_MAX __INT_MAX__",
   "INT_MIN (-INT_MAX - 1)", "LLONG_MAX __LONG_LONG_MAX__", "LLONG_MIN (-LLONG_MAX - 1LL)",
   "LONG_MAX __LONG_MAX__", "LONG_MIN (-LONG_MAX - 1L)", "MB_LEN_MAX 16",
   "SCHAR_MAX __SCHAR_MAX__", "SCHAR_MIN (-SCHAR_MAX - 1)", "SHRT_MAX __SHRT_MAX__",
   "SHRT_MIN (-SHRT_MAX - 1)", "UCHAR_MAX (SCHAR_MAX * 2 + 1)", "UINT_MAX (INT_MAX * 2U + 1U)",
   "ULLONG_MAX (LLONG_MAX * 2ULL + 1ULL)", "ULONG_MAX (LONG_MAX * 2UL + 1UL)",
   "USHRT_MAX (SHRT_MAX * 2 + 1)"]

/-- The limits of fractions. -/
def fractions : List String :=
  ["DBL_DIG __DBL_DIG__", "DBL_EPSILON __DBL_EPSILON__", "DBL_MANT_DIG __DBL_MANT_DIG__",
   "DBL_MAX __DBL_MAX__", "DBL_MAX_10_EXP __DBL_MAX_10_EXP__", "DBL_MAX_EXP __DBL_MAX_EXP__",
   "DBL_MIN __DBL_MIN__", "DBL_MIN_10_EXP __DBL_MIN_10_EXP__", "DBL_MIN_EXP __DBL_MIN_EXP__",
   "DECIMAL_DIG __DECIMAL_DIG__", "FLT_DIG __FLT_DIG__", "FLT_EPSILON __FLT_EPSILON__",
   "FLT_EVAL_METHOD __FLT_EVAL_METHOD__", "FLT_MANT_DIG __FLT_MANT_DIG__", "FLT_MAX __FLT_MAX__",
   "FLT_MAX_10_EXP __FLT_MAX_10_EXP__", "FLT_MAX_EXP __FLT_MAX_EXP__", "FLT_MIN __FLT_MIN__",
   "FLT_MIN_10_EXP __FLT_MIN_10_EXP__", "FLT_MIN_EXP __FLT_MIN_EXP__", "FLT_RADIX __FLT_RADIX__",
   "FLT_ROUNDS 1", "LDBL_DIG __LDBL_DIG__", "LDBL_EPSILON __LDBL_EPSILON__",
   "LDBL_MANT_DIG __LDBL_MANT_DIG__", "LDBL_MAX __LDBL_MAX__",
   "LDBL_MAX_10_EXP __LDBL_MAX_10_EXP__", "LDBL_MAX_EXP __LDBL_MAX_EXP__",
   "LDBL_MIN __LDBL_MIN__", "LDBL_MIN_10_EXP __LDBL_MIN_10_EXP__",
   "LDBL_MIN_EXP __LDBL_MIN_EXP__"]

/-- The limits of integers of a given width. -/
def integers : List String :=
  ["INT16_C(c) c", "INT16_MAX (32767)", "INT16_MIN (-32767-1)", "INT32_C(c) c",
   "INT32_MAX (2147483647)", "INT32_MIN (-2147483647-1)", "INT64_C(c) c ## L",
   "INT64_MAX (__INT64_C(9223372036854775807))", "INT64_MIN (-__INT64_C(9223372036854775807)-1)",
   "INT8_C(c) c", "INT8_MAX (127)", "INT8_MIN (-128)", "INTMAX_C(c) c ## L",
   "INTMAX_MAX (__INT64_C(9223372036854775807))",
   "INTMAX_MIN (-__INT64_C(9223372036854775807)-1)", "INTPTR_MAX (9223372036854775807L)",
   "INTPTR_MIN (-9223372036854775807L-1)", "INT_FAST16_MAX (9223372036854775807L)",
   "INT_FAST16_MIN (-9223372036854775807L-1)", "INT_FAST32_MAX (9223372036854775807L)",
   "INT_FAST32_MIN (-9223372036854775807L-1)", "INT_FAST64_MAX (__INT64_C(9223372036854775807))",
   "INT_FAST64_MIN (-__INT64_C(9223372036854775807)-1)", "INT_FAST8_MAX (127)",
   "INT_FAST8_MIN (-128)", "INT_LEAST16_MAX (32767)", "INT_LEAST16_MIN (-32767-1)",
   "INT_LEAST32_MAX (2147483647)", "INT_LEAST32_MIN (-2147483647-1)",
   "INT_LEAST64_MAX (__INT64_C(9223372036854775807))",
   "INT_LEAST64_MIN (-__INT64_C(9223372036854775807)-1)", "INT_LEAST8_MAX (127)",
   "INT_LEAST8_MIN (-128)", "PTRDIFF_MAX (9223372036854775807L)",
   "PTRDIFF_MIN (-9223372036854775807L-1)", "SIG_ATOMIC_MAX (2147483647)",
   "SIG_ATOMIC_MIN (-2147483647-1)", "SIZE_MAX (18446744073709551615UL)", "UINT16_C(c) c",
   "UINT16_MAX (65535)", "UINT32_C(c) c ## U", "UINT32_MAX (4294967295U)", "UINT64_C(c) c ## UL",
   "UINT64_MAX (__UINT64_C(18446744073709551615))", "UINT8_C(c) c", "UINT8_MAX (255)",
   "UINTMAX_C(c) c ## UL", "UINTMAX_MAX (__UINT64_C(18446744073709551615))",
   "UINTPTR_MAX (18446744073709551615UL)", "UINT_FAST16_MAX (18446744073709551615UL)",
   "UINT_FAST32_MAX (18446744073709551615UL)",
   "UINT_FAST64_MAX (__UINT64_C(18446744073709551615))", "UINT_FAST8_MAX (255)",
   "UINT_LEAST16_MAX (65535)", "UINT_LEAST32_MAX (4294967295U)",
   "UINT_LEAST64_MAX (__UINT64_C(18446744073709551615))", "UINT_LEAST8_MAX (255)",
   "WCHAR_MAX __WCHAR_MAX", "WCHAR_MIN __WCHAR_MIN", "WINT_MAX (4294967295u)", "WINT_MIN (0u)"]

/-- General definitions. -/
def general : List String :=
  ["EXIT_FAILURE 1", "EXIT_SUCCESS 0", "MB_CUR_MAX (__ctype_get_mb_cur_max ())",
   "RAND_MAX 2147483647"]

/-- Streams. -/
def streams : List String :=
  ["BUFSIZ 8192", "EOF (-1)", "FILENAME_MAX 4096", "FOPEN_MAX 16", "L_tmpnam 20", "SEEK_CUR 1",
   "SEEK_END 2", "SEEK_SET 0", "TMP_MAX 238328", "stderr stderr", "stdin stdin", "stdout stdout"]

/-- Files. -/
def files : List String :=
  ["F_OK 0", "R_OK 4", "SEEK_CUR 1", "SEEK_END 2", "SEEK_SET 0", "STDERR_FILENO 2",
   "STDIN_FILENO 0", "STDOUT_FILENO 1", "W_OK 2", "X_OK 1"]

/-- The environment of fractions. -/
def environment : List String :=
  ["FE_ALL_EXCEPT (FE_INEXACT | FE_DIVBYZERO | FE_UNDERFLOW | FE_OVERFLOW | FE_INVALID)",
   "FE_DFL_ENV ((const fenv_t *) -1)", "FE_DIVBYZERO 0x04", "FE_DOWNWARD 0x400",
   "FE_INEXACT 0x20", "FE_INVALID 0x01", "FE_OVERFLOW 0x08", "FE_TONEAREST 0",
   "FE_TOWARDZERO 0xc00", "FE_UNDERFLOW 0x10", "FE_UPWARD 0x800"]

/-- Spellings of operators. -/
def spellings : List String :=
  ["and &&", "and_eq &=", "bitand &", "bitor |", "compl ~", "not !", "not_eq !=", "or ||",
   "or_eq |=", "xor ^", "xor_eq ^="]

/-- Causes of failures. -/
def causes : List String :=
  ["EPERM 1", "ENOENT 2", "ESRCH 3", "EINTR 4", "EIO 5", "ENXIO 6", "E2BIG 7", "ENOEXEC 8",
   "EBADF 9", "ECHILD 10", "EAGAIN 11", "ENOMEM 12", "EACCES 13", "EFAULT 14", "ENOTBLK 15",
   "EBUSY 16", "EEXIST 17", "EXDEV 18", "ENODEV 19", "ENOTDIR 20", "EISDIR 21", "EINVAL 22",
   "ENFILE 23", "EMFILE 24", "ENOTTY 25", "ETXTBSY 26", "EFBIG 27", "ENOSPC 28", "ESPIPE 29",
   "EROFS 30", "EMLINK 31", "EPIPE 32", "EDOM 33", "ERANGE 34", "EDEADLK 35", "ENAMETOOLONG 36",
   "ENOLCK 37", "ENOSYS 38", "ENOTEMPTY 39", "ELOOP 40", "ENOMSG 42", "EIDRM 43", "ECHRNG 44",
   "EL2NSYNC 45", "EL3HLT 46", "EL3RST 47", "ELNRNG 48", "EUNATCH 49", "ENOCSI 50", "EL2HLT 51",
   "EBADE 52", "EBADR 53", "EXFULL 54", "ENOANO 55", "EBADRQC 56", "EBADSLT 57", "EBFONT 59",
   "ENOSTR 60", "ENODATA 61", "ETIME 62", "ENOSR 63", "ENONET 64", "ENOPKG 65", "EREMOTE 66",
   "ENOLINK 67", "EADV 68", "ESRMNT 69", "ECOMM 70", "EPROTO 71", "EMULTIHOP 72", "EDOTDOT 73",
   "EBADMSG 74", "EOVERFLOW 75", "ENOTUNIQ 76", "EBADFD 77", "EREMCHG 78", "ELIBACC 79",
   "ELIBBAD 80", "ELIBSCN 81", "ELIBMAX 82", "ELIBEXEC 83", "EILSEQ 84", "ERESTART 85",
   "ESTRPIPE 86", "EUSERS 87", "ENOTSOCK 88", "EDESTADDRREQ 89", "EMSGSIZE 90", "EPROTOTYPE 91",
   "ENOPROTOOPT 92", "EPROTONOSUPPORT 93", "ESOCKTNOSUPPORT 94", "EOPNOTSUPP 95",
   "EPFNOSUPPORT 96", "EAFNOSUPPORT 97", "EADDRINUSE 98", "EADDRNOTAVAIL 99", "ENETDOWN 100",
   "ENETUNREACH 101", "ENETRESET 102", "ECONNABORTED 103", "ECONNRESET 104", "ENOBUFS 105",
   "EISCONN 106", "ENOTCONN 107", "ESHUTDOWN 108", "ETOOMANYREFS 109", "ETIMEDOUT 110",
   "ECONNREFUSED 111", "EHOSTDOWN 112", "EHOSTUNREACH 113", "EALREADY 114", "EINPROGRESS 115",
   "ESTALE 116", "EUCLEAN 117", "ENOTNAM 118", "ENAVAIL 119", "EISNAM 120", "EREMOTEIO 121",
   "EDQUOT 122", "ENOMEDIUM 123", "EMEDIUMTYPE 124", "ECANCELED 125", "ENOKEY 126",
   "EKEYEXPIRED 127", "EKEYREVOKED 128", "EKEYREJECTED 129", "EOWNERDEAD 130",
   "ENOTRECOVERABLE 131", "ERFKILL 132", "EHWPOISON 133", "EDEADLOCK EDEADLK",
   "EWOULDBLOCK EAGAIN", "ENOTSUP EOPNOTSUPP", "errno (*__errno_location ())"]

/-- Macros whose meaning no text asks for, by the header. -/
def words : String → List String
  | "wchar.h" =>
    wordsOf ["WCHAR_MAX WCHAR_MIN WEOF"]
  | "wctype.h" =>
    wordsOf ["WEOF"]
  | "inttypes.h" =>
    wordsOf ["PRIX16 PRIX32 PRIX64 PRIX8 PRIXFAST16 PRIXFAST32 PRIXFAST64 PRIXFAST8 PRIXLEAST16",
      "PRIXLEAST32 PRIXLEAST64 PRIXLEAST8 PRIXMAX PRIXPTR PRId16 PRId32 PRId64 PRId8",
      "PRIdFAST16 PRIdFAST32 PRIdFAST64 PRIdFAST8 PRIdLEAST16 PRIdLEAST32 PRIdLEAST64",
      "PRIdLEAST8 PRIdMAX PRIdPTR PRIi16 PRIi32 PRIi64 PRIi8 PRIiFAST16 PRIiFAST32 PRIiFAST64",
      "PRIiFAST8 PRIiLEAST16 PRIiLEAST32 PRIiLEAST64 PRIiLEAST8 PRIiMAX PRIiPTR PRIo16 PRIo32",
      "PRIo64 PRIo8 PRIoFAST16 PRIoFAST32 PRIoFAST64 PRIoFAST8 PRIoLEAST16 PRIoLEAST32",
      "PRIoLEAST64 PRIoLEAST8 PRIoMAX PRIoPTR PRIu16 PRIu32 PRIu64 PRIu8 PRIuFAST16",
      "PRIuFAST32 PRIuFAST64 PRIuFAST8 PRIuLEAST16 PRIuLEAST32 PRIuLEAST64 PRIuLEAST8 PRIuMAX",
      "PRIuPTR PRIx16 PRIx32 PRIx64 PRIx8 PRIxFAST16 PRIxFAST32 PRIxFAST64 PRIxFAST8",
      "PRIxLEAST16 PRIxLEAST32 PRIxLEAST64 PRIxLEAST8 PRIxMAX PRIxPTR SCNd16 SCNd32 SCNd64",
      "SCNd8 SCNdFAST16 SCNdFAST32 SCNdFAST64 SCNdFAST8 SCNdLEAST16 SCNdLEAST32 SCNdLEAST64",
      "SCNdLEAST8 SCNdMAX SCNdPTR SCNi16 SCNi32 SCNi64 SCNi8 SCNiFAST16 SCNiFAST32 SCNiFAST64",
      "SCNiFAST8 SCNiLEAST16 SCNiLEAST32 SCNiLEAST64 SCNiLEAST8 SCNiMAX SCNiPTR SCNo16 SCNo32",
      "SCNo64 SCNo8 SCNoFAST16 SCNoFAST32 SCNoFAST64 SCNoFAST8 SCNoLEAST16 SCNoLEAST32",
      "SCNoLEAST64 SCNoLEAST8 SCNoMAX SCNoPTR SCNu16 SCNu32 SCNu64 SCNu8 SCNuFAST16",
      "SCNuFAST32 SCNuFAST64 SCNuFAST8 SCNuLEAST16 SCNuLEAST32 SCNuLEAST64 SCNuLEAST8 SCNuMAX",
      "SCNuPTR SCNx16 SCNx32 SCNx64 SCNx8 SCNxFAST16 SCNxFAST32 SCNxFAST64 SCNxFAST8",
      "SCNxLEAST16 SCNxLEAST32 SCNxLEAST64 SCNxLEAST8 SCNxMAX SCNxPTR"]
  | "locale.h" =>
    wordsOf ["LC_ADDRESS LC_ALL LC_COLLATE LC_CTYPE LC_IDENTIFICATION LC_MEASUREMENT LC_MESSAGES",
      "LC_MONETARY LC_NAME LC_NUMERIC LC_PAPER LC_TELEPHONE LC_TIME"]
  | "signal.h" =>
    wordsOf ["SIGABRT SIGALRM SIGBUS SIGCHLD SIGCLD SIGCONT SIGFPE SIGHUP SIGILL SIGINT SIGIO",
      "SIGIOT SIGKILL SIGPIPE SIGPOLL SIGPROF SIGPWR SIGQUIT SIGRTMAX SIGRTMIN SIGSEGV SIGSTKFLT",
      "SIGSTOP SIGSYS SIGTERM SIGTRAP SIGTSTP SIGTTIN SIGTTOU SIGURG SIGUSR1 SIGUSR2",
      "SIGVTALRM SIGWINCH SIGXCPU SIGXFSZ SIG_DFL SIG_ERR SIG_IGN"]
  | "stdatomic.h" =>
    wordsOf ["ATOMIC_BOOL_LOCK_FREE ATOMIC_CHAR16_T_LOCK_FREE ATOMIC_CHAR32_T_LOCK_FREE",
      "ATOMIC_CHAR_LOCK_FREE ATOMIC_FLAG_INIT ATOMIC_INT_LOCK_FREE ATOMIC_LLONG_LOCK_FREE",
      "ATOMIC_LONG_LOCK_FREE ATOMIC_POINTER_LOCK_FREE ATOMIC_SHORT_LOCK_FREE",
      "ATOMIC_WCHAR_T_LOCK_FREE"]
  | "threads.h" =>
    wordsOf ["CLOCKS_PER_SEC ONCE_FLAG_INIT TSS_DTOR_ITERATIONS thread_local"]
  | "malloc.h" =>
    wordsOf ["M_ARENA_MAX M_ARENA_TEST M_CHECK_ACTION M_GRAIN M_KEEP M_MMAP_MAX M_MMAP_THRESHOLD",
      "M_MXFAST M_NLBLKS M_PERTURB M_TOP_PAD M_TRIM_THRESHOLD"]
  | "values.h" =>
    wordsOf ["CHARBITS DMAXEXP DMINEXP DOUBLEBITS FLOATBITS FMAXEXP FMINEXP HIBITL HIBITS INTBITS",
      "LONGBITS MAXDOUBLE MAXFLOAT MAXINT MAXLONG MAXSHORT MINDOUBLE MINFLOAT MININT MINLONG",
      "MINSHORT PTRBITS SHORTBITS"]
  | "fcntl.h" =>
    wordsOf ["FD_CLOEXEC F_DUPFD F_EXLCK F_GETFD F_GETFL F_GETLK F_GETLK64 F_RDLCK F_SETFD F_SETFL",
      "F_SETLK F_SETLK64 F_SETLKW F_SETLKW64 F_SHLCK F_UNLCK F_WRLCK O_ACCMODE O_APPEND",
      "O_ASYNC O_CREAT O_EXCL O_FSYNC O_NDELAY O_NOCTTY O_NONBLOCK O_RDONLY O_RDWR O_SYNC",
      "O_TRUNC O_WRONLY"]
  | "pthread.h" =>
    wordsOf ["CLOCKS_PER_SEC PTHREAD_CANCELED PTHREAD_COND_INITIALIZER PTHREAD_MUTEX_INITIALIZER",
      "PTHREAD_ONCE_INIT SCHED_FIFO SCHED_OTHER SCHED_RR"]
  | "dlfcn.h" =>
    wordsOf ["RTLD_BINDING_MASK RTLD_DEEPBIND RTLD_DEFAULT RTLD_GLOBAL RTLD_LAZY RTLD_LOCAL",
      "RTLD_NEXT RTLD_NODELETE RTLD_NOLOAD RTLD_NOW"]
  | "sys/stat.h" =>
    wordsOf ["S_IRGRP S_IROTH S_IRUSR S_IRWXG S_IRWXO S_IRWXU S_ISGID S_ISUID S_IWGRP S_IWOTH",
      "S_IWUSR S_IXGRP S_IXOTH S_IXUSR"]
  | "sys/time.h" =>
    wordsOf ["FD_SETSIZE"]
  | _ => []

/-- The address of nothing. -/
def nothing : String := "NULL ((void *)0)"

/-- **The macros of a header.** -/
def definitions : String → List String
  | "limits.h" => limits
  | "float.h" => fractions
  | "values.h" => limits ++ fractions
  | "stdint.h" | "inttypes.h" => integers
  | "stdlib.h" => nothing :: general
  | "stdio.h" => nothing :: streams
  | "malloc.h" => nothing :: streams
  | "unistd.h" => nothing :: files
  | "fenv.h" => environment
  | "iso646.h" => spellings
  | "errno.h" => causes
  | "stdalign.h" => ["alignas _Alignas", "alignof _Alignof"]
  | "stdnoreturn.h" => ["noreturn _Noreturn"]
  | "threads.h" => [nothing, "thread_local _Thread_local"]
  | "time.h" => [nothing, "CLOCKS_PER_SEC ((long) 1000000)"]
  | "string.h" | "locale.h" | "wchar.h" => [nothing]
  | "assert.h" => ["assert(expr) ((void) (expr))"]
  | _ => []

/-- The types of integers of a given width. -/
def integerTypes : String :=
  String.join ([("8", "signed char", "unsigned char"), ("16", "short", "unsigned short"),
      ("32", "int", "unsigned int"), ("64", "long", "unsigned long")].map fun (n, s, u) =>
    "typedef " ++ s ++ " int" ++ n ++ "_t; typedef " ++ u ++ " uint" ++ n ++ "_t; " ++
      "typedef " ++ s ++ " int_least" ++ n ++ "_t; typedef " ++ u ++ " uint_least" ++ n ++ "_t; " ++
      "typedef " ++ (if n = "8" then s else "long") ++ " int_fast" ++ n ++ "_t; " ++
      "typedef " ++ (if n = "8" then u else "unsigned long") ++ " uint_fast" ++ n ++ "_t; ") ++
    "typedef long intmax_t; typedef unsigned long uintmax_t; typedef long intptr_t; " ++
    "typedef unsigned long uintptr_t; "

/-- **The types and functions of a header.** -/
def declarations : String → String
  | "stdint.h" | "inttypes.h" => integerTypes
  | "stdlib.h" => "typedef long unsigned int size_t; extern int abs (int __x); " ++
    "extern long labs (long __x); extern double atof (const char *__s); extern int rand (void); " ++
    "extern void abort (void); extern void exit (int __s); extern int atoi (const char *__s); "
  | "stdio.h" => "typedef long unsigned int size_t; extern int printf (const char *__f, ...); " ++
    "extern int puts (const char *__s); extern int putchar (int __c); "
  | "string.h" => "typedef long unsigned int size_t; " ++
    "extern size_t strlen (const char *__s); "
  | "time.h" => "typedef long time_t; typedef long clock_t; "
  | _ => ""

end MemoFlow.Code.SmallHeader
