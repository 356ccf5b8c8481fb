import MemoFlow.Code.OptionValues

/-!
# Arguments of the linker

* `Fate`: what becomes of a library;
* **`Linking`**: what a list of arguments asks of the linker;
* `Linking.one?`, **`Linking.ofList?`**: an argument, and a list of them; none when the linker
  refuses it.
-/

namespace MemoFlow.Code

open OptionValues

/-- **What becomes of a library.** -/
inductive Fate where
  /-- It offers its functions. -/
  | offered
  /-- It offers none. -/
  | nameless
  /-- It cannot be loaded. -/
  | broken
  /-- It is not written. -/
  | absent
deriving DecidableEq, Repr, Inhabited

/-- **What a list of arguments asks of the linker.** -/
structure Linking where
  /-- What becomes of the library. -/
  fate : Fate := .offered
  /-- Functions whose calls go to functions of other names. -/
  wrapped : List String := []
  /-- Whether every function that is called has to be there. -/
  isStrict : Bool := false
  /-- Whether the libraries that follow belong together. -/
  isGrouped : Bool := false
  /-- How many settings are kept to come back to. -/
  depth : Nat := 0
deriving Inhabited

namespace Linking

/-! ## Names -/

/-- Arguments by letter that take no value. -/
def letters : List String :=
  wordsOf ["E EB EL M S V X d dc dp dy g q s t v w x Qy Bdynamic Bgroup Bshareable",
    "Bsymbolic Bsymbolic-functions Bno-symbolic call_shared flto nostdlib qmagic shared G"]

/-- Arguments by letter that take any value. -/
def textLetters : List String := ["A", "I", "L", "O", "P", "R", "Y", "e", "f", "h", "u", "y"]

/-- Arguments by name that take no value. -/
def plain : List String :=
  wordsOf ["accept-unknown-input-arch allow-multiple-definition allow-shlib-undefined as-needed",
    "build-id check-sections copy-dt-needed-entries cref ctf-variables default-imported-symver",
    "default-symver demangle disable-linker-version disable-multiple-abs-defs disable-new-dtags",
    "discard-all discard-locals discard-none dll dynamic-list-cpp-new dynamic-list-cpp-typeinfo",
    "dynamic-list-data eh-frame-hdr embedded-relocs emit-relocs enable-linker-version",
    "enable-new-dtags enable-non-contiguous-regions enable-non-contiguous-regions-warnings",
    "error-execstack error-rwx-segments error-unresolved-symbols export-dynamic",
    "fatal-warnings force-exe-suffix force-group-allocation gc-keep-exported gc-sections",
    "ld-generated-unwind-info map-whole-files no-accept-unknown-input-arch",
    "no-allow-shlib-undefined no-as-needed no-build-id no-check-sections",
    "no-copy-dt-needed-entries no-ctf-variables no-define-common no-demangle no-dynamic-linker",
    "no-eh-frame-hdr no-error-execstack no-error-rwx-segments no-export-dynamic",
    "no-fatal-warnings no-gc-sections no-keep-memory no-ld-generated-unwind-info",
    "no-map-whole-files no-omagic no-print-gc-sections no-print-map-discarded",
    "no-print-map-locals no-relax no-strip-discarded no-undefined no-undefined-version",
    "no-warn-execstack no-warn-mismatch no-warn-rwx-segments no-warn-search-mismatch no-warnings",
    "no-whole-archive noinhibit-exec package-metadata print-gc-sections print-map",
    "print-map-discarded print-map-locals print-memory-usage print-output-format",
    "reduce-memory-overheads relax shared sort-common split-by-reloc stats strip-all",
    "strip-debug strip-discarded trace traditional-format undefined-version unique verbose",
    "warn-alternate-em warn-common warn-constructors warn-execstack warn-execstack-objects",
    "warn-multiple-gp warn-once warn-rwx-segments warn-section-align warn-textrel",
    "warn-unresolved-symbols"]

/-- Arguments by name that take any value. -/
def texts : List String :=
  wordsOf ["architecture audit auxiliary depaudit dependency-file dynamic-linker entry",
    "error-handling-script exclude-libs export-dynamic-symbol ignore-unresolved-symbol",
    "just-symbols library-path out-implib rpath sort-section spare-dynamic-tags sysroot",
    "trace-symbol undefined wrap Map fini fuse-ld init plugin-opt rpath-link soname"]

/-- Arguments by name that take a number. -/
def counts : List String :=
  wordsOf ["gpsize hash-size max-cache-size Tbss Tdata Tldata-segment Trodata-segment",
    "Ttext-segment"]

/-- Arguments by name that take a name with a number. -/
def pairs : List String := ["defsym", "section-start", "remap-inputs"]

/-- Arguments that may have any value with an equality sign. -/
def opens : List String :=
  ["build-id", "package-metadata", "unique", "map-whole-files", "no-map-whole-files"]

/-- Arguments that take values by name. -/
def named : List (String × List String) :=
  [("compress-debug-sections", ["none", "zlib"]), ("ctf-share-types", ["share-unconflicted"]),
    ("format", ["elf64-x86-64"]), ("b", ["elf64-x86-64"]), ("oformat", ["elf64-x86-64"]),
    ("hash-style", ["gnu", "sysv", "both"]), ("m", ["elf_x86_64"]),
    ("orphan-handling", ["place", "warn"]), ("require-defined", ["synapse_kernel"]),
    ("unresolved-symbols",
      ["ignore-all", "report-all", "ignore-in-shared-libs", "ignore-in-object-files"])]

/-- Values that an argument may have, but need not. -/
def choices : List (String × List String) :=
  [("demangle", ["none", "auto", "gnu-v3", "java", "gnat", "dlang", "rust"]),
    ("sort-common", ["ascending", "descending"])]

/-! ## Values -/

/-- Whether a text is a number of ten digits or sixteen. -/
def isCount (s : String) : Bool :=
  match behind? "0x" s with
  | some r => !r.isEmpty && r.toList.all fun c => c.isDigit || "abcdefABCDEF".toList.contains c
  | none => isNumber s

/-- Whether a name is followed by a number. -/
def isPair (s : String) : Bool :=
  match parts? s with
  | some (n, v) => !n.isEmpty && isCount v
  | none => false

/-- A keyword. -/
def keyword? (l : Linking) (s : String) : Option Linking :=
  match parts? s with
  | some (n, v) =>
    if ["max-page-size", "common-page-size", "stack-size"].contains n then
      if v.isEmpty || isCount v then
        some (if n = "max-page-size" && v = "1" then { l with fate := .broken } else l)
      else none
    else if n = "call-nop" then if v.endsWith "-nop" then some l else none
    else if n = "cet-report" then if ["none", "warning", "error"].contains v then some l else none
    else if ["lam-report", "lam-u48-report", "lam-u57-report"].contains n then
      if ["none", "warning"].contains v then some l else none
    else if n = "start-stop-visibility" then
      if ["default", "internal", "hidden", "protected"].contains v then some l else none
    else some l
  | none =>
    match s with
    | "defs" => some { l with isStrict := true }
    | "undefs" => some { l with isStrict := false }
    | "nodlopen" => some { l with fate := .broken }
    | "x86-64-baseline" => none
    | _ => some l

/-- Libraries. -/
def libraries : List String :=
  wordsOf ["m c pthread dl rt util crypt resolv anl BrokenLocale mvec thread_db g gcc gcc_s gcc_eh",
    "gcov gomp itm atomic asan lsan tsan ubsan hwasan quadmath ssp_nonshared stdc++ stdc++fs",
    "stdc++exp supc++ c_nonshared pthread_nonshared m-2.39 nss_compat nss_hesiod",
    "c_malloc_debug memusage pcprofile"]

/-- Files of libraries. -/
def libraryFiles : List String :=
  wordsOf ["libm.so.6 libm.so libm.a libc.so.6 libc.so libc.a libpthread.so.0 libpthread.a",
    "libdl.so.2 libdl.a librt.so.1 librt.a libutil.so.1 libutil.a libgcc_s.so.1 libgcc_s.so",
    "libgcc.a libgcc_eh.a libstdc++.so.6 libstdc++.so libstdc++.a libmvec.so.1 libmvec.so",
    "libmvec.a libcrypt.so.1 libcrypt.so libcrypt.a libresolv.so.2 libresolv.so libresolv.a",
    "ld-linux-x86-64.so.2 libquadmath.so.0 libquadmath.so libquadmath.a libgomp.so.1 libgomp.so",
    "libgomp.a libatomic.so.1 libatomic.so libatomic.a libnsl.so.1 libanl.so.1 libanl.so",
    "libanl.a libBrokenLocale.so.1 libBrokenLocale.so libBrokenLocale.a libthread_db.so.1",
    "libthread_db.so libg.a libc_nonshared.a libsupc++.a"]

/-- Whether there is a library. -/
def isLibrary (s : String) : Bool :=
  match behind? ":" s with
  | some f => libraryFiles.contains f
  | none => libraries.contains s

/-! ## Arguments -/

/-- Whether an argument has a long name. -/
def isLong (name : String) : Bool :=
  (plain ++ texts ++ counts ++ pairs ++ named.map Prod.fst).contains name ||
    ["filter", "version", "help", "start-group", "end-group", "push-state", "pop-state",
      "target-help", "print-sysroot", "pie", "no-pie", "version-exports-section"].contains name

/-- The name of an argument with the value in it. -/
def split (a : String) : String × Option String :=
  match behind? "--" a with
  | some r =>
    match parts? r with
    | some (n, v) => (n, some v)
    | none => (r, none)
  | none =>
    let r := (a.drop 1).toString
    let n := ((parts? r).map Prod.fst).getD r
    if letters.contains r then (r, none)
    else if n.length ≠ 1 && !n.startsWith "o" && isLong n then
      (n, (parts? r).map Prod.snd)
    else ((r.take 1).toString, if r.length ≤ 1 then none else some (r.drop 1).toString)

/-- Whether an argument needs a value. -/
def needsValue (name : String) : Bool :=
  (texts ++ textLetters ++ counts ++ pairs ++ named.map Prod.fst).contains name ||
    ["z", "l", "F", "filter", "o", "output", "version-exports-section", "c", "T"].contains name

/-- An argument with a value. -/
def valued? (l : Linking) (name value : String) : Option Linking :=
  match name with
  | "z" => l.keyword? value
  | "l" => if isLibrary value then some l else none
  | "wrap" => some { l with wrapped := value :: l.wrapped }
  | "F" | "filter" =>
    some (if libraryFiles.contains value then l else { l with fate := .broken })
  | "o" | "output" => some { l with fate := .absent }
  | "version-exports-section" => some { l with fate := .nameless }
  | "unresolved-symbols" =>
    if ((named.lookup name).getD []).contains value then
      some { l with isStrict := value = "report-all" }
    else none
  | "G" => if isCount value then some l else none
  | "verbose" | "split-by-reloc" => if isCount value then some l else none
  | _ =>
    if (texts ++ textLetters).contains name || opens.contains name then some l
    else if counts.contains name then if isCount value then some l else none
    else if pairs.contains name then if isPair value then some l else none
    else if (((named ++ choices).lookup name).getD []).contains value then some l
    else if name = "f" && value.startsWith "lto" then some l
    else none

/-- **An argument** that takes no value. -/
def one? (l : Linking) (name : String) : Option Linking :=
  match name with
  | "(" | "start-group" => if l.isGrouped then none else some { l with isGrouped := true }
  | ")" | "end-group" => if l.isGrouped then some { l with isGrouped := false } else none
  | "push-state" => some { l with depth := l.depth + 1 }
  | "pop-state" => if l.depth = 0 then none else some { l with depth := l.depth - 1 }
  | "no-undefined" => some { l with isStrict := true }
  | "pie" | "no-pie" | "pic-executable" => some { l with fate := .broken }
  | "help" | "version" | "target-help" | "print-sysroot" => some { l with fate := .absent }
  | _ => if (plain ++ letters).contains name then some l else none

/-- What a list of arguments asks for, beside what `l` asks for. An argument at the end may take the
name of the code for its value. -/
def read? (l : Linking) : List String → Option Linking
  | [] => some l
  | a :: r =>
    if !a.startsWith "-" then none
    else
      match split a with
      | (name, some value) => (l.valued? name value).bind fun l => l.read? r
      | (name, none) =>
        if needsValue name then
          match r with
          | [] =>
            if ["o", "output"].contains name then some { l with fate := .absent }
            else if ["F", "filter"].contains name then some { l with fate := .broken }
            else if (texts ++ textLetters ++ ["z", "version-exports-section"]).contains name then
              some { l with fate := .nameless }
            else none
          | v :: r => (l.valued? name v).bind fun l => l.read? r
        else (l.one? name).bind fun l => l.read? r

/-- **What a list of arguments asks for**; none when the linker refuses it. -/
def ofList? (args : List String) : Option Linking := read? { } args

end Linking

end MemoFlow.Code
