import MemoFlow.Code.Constant
import MemoFlow.Code.Linker
import MemoFlow.Code.Kind
import MemoFlow.Code.OptionNames
import MemoFlow.Code.OptionValues
import MemoFlow.Code.Remark

/-!
# Options of the compiler

* `Stage`: how far the compiler goes;
* **`Options`**: what a list of options asks for;
* `Options.one?`, **`Options.ofList?`**: an option, and a list of them; none when the compiler
  refuses it;
* **`Options.isRefused`**: whether a remark makes the compiler refuse a text.
-/

namespace MemoFlow.Code

open Ascii OptionValues

/-- **How far the compiler goes.** -/
inductive Stage where
  /-- It only tells about itself. -/
  | report
  /-- It follows the directives. -/
  | prepare
  /-- It makes code that stands alone. -/
  | compile
  /-- It makes a library. -/
  | link
deriving DecidableEq, Repr, Inhabited

/-- **What a list of options asks for.** -/
structure Options where
  /-- The version of the language. -/
  dialect : Dialect := { }
  /-- Whether groups of three characters stand for one in any version. -/
  trigraphs : Bool := false
  /-- Whether there are headers. -/
  hasHeaders : Bool := true
  /-- The types of constants. -/
  suffixes : Suffixes := { }
  /-- Whether the text holds the usual characters alone. -/
  isPlain : Bool := false
  /-- Whether operations have extended precision. -/
  isWide : Bool := false
  /-- Whether operations keep that precision as the language demands; none when it is left open. -/
  isExact : Option Bool := none
  /-- Whether the machine has a step for a product and a sum. -/
  hasStep : Bool := false
  /-- Whether such steps are wanted. -/
  wantsSteps : Bool := false
  /-- Whether they are looked for. -/
  seeksSteps : Bool := true
  /-- Whether all numbers are taken to be finite. -/
  finite : Bool := false
  /-- Macros that are defined, or removed, before the text is read, the last one first. -/
  macros : List (Bool × Bytes) := []
  /-- Headers that are read before the text, the last one first. -/
  headers : List String := []
  /-- Whether functions cannot be called from outside. -/
  isHidden : Bool := false
  /-- How far the compiler goes. -/
  stage : Stage := .link
  /-- Whether a text is compiled at all. -/
  hasText : Bool := true
  /-- Whether the text is read in the language of the code. -/
  isNative : Bool := true
  /-- Whether there are no remarks. -/
  isSilent : Bool := false
  /-- Whether the text must keep to the language. -/
  isPedantic : Bool := false
  /-- Remarks that are turned on and off, the last one first. -/
  switches : List (String × Bool) := []
  /-- Remarks that make the compiler refuse a text, or do not, the last one first; without a name
  all of them. -/
  refusals : List (String × Bool) := []
  /-- Sizes that remarks allow, the last one first. -/
  limits : List (String × Nat) := []
  /-- Arguments of the linker. -/
  linker : List String := []
  /-- What they ask for. -/
  linking : Linking := { }
  /-- Remarks on the options themselves. -/
  remarks : List Remark := []
deriving Inhabited

namespace Options

/-- How fractions are computed. -/
def machine (o : Options) : Machine where
  excess :=
    if !o.isWide then .none else if o.isExact.getD o.dialect.isStrict then .standard else .fast
  isFused := o.hasStep && o.wantsSteps && o.seeksSteps

/-! ## Versions -/

/-- Versions of the language with their names. -/
def versions : List (String × Dialect) :=
  (["c99", "c9x", "iso9899:1999", "iso9899:199x"].map fun s => (s, ⟨1999, true⟩)) ++
    (["c11", "c1x", "iso9899:2011"].map fun s => (s, ⟨2011, true⟩)) ++
    (["c17", "c18", "iso9899:2017", "iso9899:2018"].map fun s => (s, ⟨2017, true⟩)) ++
    [("c2x", ⟨2023, true⟩), ("gnu99", ⟨1999, false⟩), ("gnu9x", ⟨1999, false⟩),
      ("gnu11", ⟨2011, false⟩), ("gnu1x", ⟨2011, false⟩), ("gnu17", ⟨2017, false⟩),
      ("gnu18", ⟨2017, false⟩), ("gnu2x", ⟨2023, false⟩)] ++
    -- these are too old for the code
    (["c89", "c90", "gnu89", "gnu90", "iso9899:1990", "iso9899:199409"].map fun s =>
      (s, ⟨1990, true⟩))

/-- Versions of other languages. -/
def foreignVersions : List String :=
  (["98", "03", "0x", "11", "1y", "14", "1z", "17", "2a", "20", "2b", "23"].flatMap fun y =>
      ["c++" ++ y, "gnu++" ++ y]) ++
    ["f95", "f2003", "f2008", "f2018", "gnu", "legacy"]

/-! ## Families of options -/

/-- A remark on an option of another language. -/
def foreign (o : Options) : Options := { o with remarks := .usual "" :: o.remarks }

/-- Whether a name is one of a warning. -/
def isWarning (s : String) : Bool :=
  OptionNames.warnings.contains s || OptionNames.foreignWarnings.contains s ||
    ["all", "extra", "pedantic", "error", "fatal-errors"].contains s || sizes.contains s

/-- Turn remarks on or off. -/
def switch (o : Options) (name : String) (b : Bool) : Options :=
  let o := if OptionNames.foreignWarnings.contains name then o.foreign else o
  { o with switches := (name, b) :: o.switches }

/-- Let remarks refuse a text or not. -/
def refuse (o : Options) (name : String) (b : Bool) : Options :=
  { o with refusals := (name, b) :: o.refusals }

/-- A warning with a value. -/
def warningWith? (o : Options) (name value : String) : Option Options :=
  let full := "W" ++ name
  if sizes.contains name then
    (size? value).map fun n => { o.switch name true with limits := (name, n) :: o.limits }
  else if ((levels.lookup name).map fun n => isUpTo n value).getD false then
    some (o.switch name (value ≠ "0"))
  else if takes full value then
    some (if isForeign full then o.foreign else o.switch name true)
  else none

/-- A warning that makes the compiler refuse a text. -/
def error? (o : Options) (s : String) : Option Options :=
  match parts? s with
  | some (name, value) => (o.warningWith? name value).map fun o => o.refuse name true
  | none =>
    if sizes.contains s then (o.warningWith? s "0").map fun o => o.refuse s true
    else if isWarning s then some ((o.switch s true).refuse s true)
    else none

/-- An option about warnings, behind its letter. -/
def warning? (o : Options) (s : String) : Option Options :=
  match s with
  | "" => some (o.switch "extra" true)
  | "error" => some (o.refuse "" true)
  | "no-error" => some (o.refuse "" false)
  | "fatal-errors" | "no-fatal-errors" | "error=all" | "no-error=all" => some o
  | s =>
    match ((behind? "larger-than-" s).map fun v => ("larger-than", v)).or (parts? s) with
    | some ("error", name) => o.error? name
    | some ("no-error", name) => if isWarning name then some (o.refuse name false) else none
    | some (name, value) =>
      if name.startsWith "no-" && name ≠ "no-attributes" then
        if sizes.any fun n => "no-" ++ n = name then none else some o
      else o.warningWith? name value
    | none =>
      match behind? "no-" s with
      | some name => if name.isEmpty then none else some (o.switch name false)
      | none =>
        if isWarning s && !sizes.contains s || s = "abi" then some (o.switch s true) else none

/-- Whether a name can be turned on or off. -/
def isCode (name : String) (b : Bool) : Bool :=
  OptionNames.code.contains name || OptionNames.foreignCode.contains name ||
    (if b then OptionNames.codeOn.contains name else OptionNames.codeOff.contains name)

/-- What it means that a name is turned on or off. -/
def code (o : Options) (name : String) (b : Bool) : Options :=
  match name with
  | "fast-math" => { o with finite := b, isExact := if b then some false else none }
  | "finite-math-only" => { o with finite := b }
  | "single-precision-constant" =>
    { o with suffixes := { o.suffixes with bare := if b then .single else .double } }
  | "whole-program" | "leading-underscore" => { o with isHidden := b }
  | "syntax-only" => if b then { o with stage := .compile } else o
  | "expensive-optimizations" => { o with seeksSteps := b }
  | "help" | "target-help" | "version" => { o with stage := .report }
  | name =>
    if name = "permissive" || OptionNames.foreignCode.contains name then o.foreign else o

/-- Whether a name begins with a family, and something of it follows. -/
def isIn (family s : String) : Bool := ((behind? family s).map fun r => !r.isEmpty).getD false

/-- Names that can be turned on, beside those that stand in the tables. -/
def onlyOn : List String :=
  ["single-precision-constant", "whole-program", "leading-underscore", "syntax-only", "permissive",
    "help", "target-help", "version", "opt-info", "callgraph-info", "compare-debug",
    "sanitize-recover", "sanitize-trap", "dbg-cnt-list"]

/-- An option about a pass, without the value that it may have. -/
def isPassOption (s : String) : Bool :=
  ((behind? "dump-" s).map Passes.isShown).getD false ||
    ((behind? "disable-" s).map Passes.isSwitched).getD false ||
    ((behind? "enable-" s).map Passes.isSwitched).getD false ||
    ((behind? "opt-info-" s).map Passes.isTold).getD false ||
    ["fixed-", "call-used-", "call-saved-"].any fun p => isIn p s

/-- An option about code with a value. -/
def codeWith? (o : Options) (name value : String) : Option Options :=
  let full := "f" ++ name
  match name with
  | "visibility" =>
    if ["hidden", "internal"].contains value then some { o with isHidden := true }
    else if takes full value then some { o with isHidden := false }
    else none
  | "sanitize" =>
    if areChecks (fun c => (checks ++ heavyChecks).contains c) value then
      some (if areChecks checks.contains value then o else { o with stage := .compile })
    else none
  | "sanitize-coverage" =>
    if areChecks ["trace-pc", "trace-cmp"].contains value then some { o with stage := .compile }
    else none
  | "input-charset" =>
    if isCharset charsets value then some { o with isPlain := false }
    else if isCharset plainCharsets value then some { o with isPlain := true }
    else none
  | "excess-precision" =>
    if takes full value then some { o with isExact := some (value = "standard") } else none
  | "fp-contract" =>
    if takes full value then some { o with wantsSteps := value = "fast" } else none
  | "help" => if value.isEmpty then none else some { o with stage := .report }
  | "dbg-cnt" => if value.isEmpty then none else some o
  | _ =>
    if takes full value then
      let o := if remarked.contains full then { o with remarks := .usual "" :: o.remarks } else o
      some (if isForeign full then o.foreign else o)
    else if isPassOption name then some o
    else none

/-- An option about code, behind its letter. -/
def code? (o : Options) (s : String) : Option Options :=
  match parts? s with
  | some (name, value) => o.codeWith? name value
  | none =>
    if isPassOption s || isIn "no-builtin-" s then some o
    else
      match behind? "no-" s with
      | some name => if isCode name false then some (o.code name false) else none
      | none => if isCode s true || onlyOn.contains s then some (o.code s true) else none

/-- An option about the machine, behind its letter. -/
def machine? (o : Options) (s : String) : Option Options :=
  match parts? s with
  | some (name, value) =>
    let full := "m" ++ name
    if takes full value then
      match name with
      | "fpmath" => some { o with isWide := value = "387" }
      | "arch" => some { o with hasStep := OptionValues.hasStep value }
      | _ =>
        some (if remarked.contains full then { o with remarks := .usual "" :: o.remarks } else o)
    else none
  | none =>
    match s with
    | "long-double-64" => some { o with suffixes := { o.suffixes with long := .double } }
    | "long-double-80" => some { o with suffixes := { o.suffixes with long := .extended } }
    | "long-double-128" => some { o with suffixes := { o.suffixes with long := .quad } }
    | "fma" => some { o with hasStep := true }
    | "no-fma" => some { o with hasStep := false }
    | _ =>
      let holds : Bool := match behind? "no-" s with
        | some name => (OptionNames.machine ++ OptionNames.machineOff).contains name
        | none => (OptionNames.machine ++ OptionNames.machineOn).contains s || s = "64"
      if holds then some o else none

/-- A version of the language. -/
def version? (o : Options) (s : String) : Option Options :=
  match versions.lookup s with
  | some d => some { o with dialect := d }
  | none => if foreignVersions.contains s then some o.foreign else none

/-- An option about the tables for debuggers, behind its letter. -/
def debug? (o : Options) (s : String) : Option Options :=
  let names := wordsOf ["toggle split-dwarf pubnames gnu-pubnames column-info strict-dwarf",
    "record-gcc-switches describe-dies variable-location-views as-loc-support as-locview-support",
    "statement-frontiers inline-points internal-reset-location-views"]
  let ok := wordsOf ["0 1 2 3 gdb gdb0 gdb1 gdb2 gdb3 dwarf dwarf-2 dwarf-3 dwarf-4 dwarf-5",
    "dwarf32 dwarf64 btf ctf ctf0 ctf1 ctf2 stabs stabs+ stabs0 stabs1 stabs2 stabs3 coff coff0",
    "coff1 coff2 coff3 xcoff xcoff+ xcoff0 xcoff1 xcoff2 xcoff3 z z=none z=zlib z=zstd z=zlib-gnu",
    "variable-location-views=incompat5"]
  if ("" :: ok ++ names).contains s || (((behind? "no-" s).map names.contains).getD false) then
    some o
  else none

/-- How much the code is improved. -/
def level? (o : Options) (s : String) : Option Options :=
  if s = "fast" then some { o with finite := true, isExact := some false, seeksSteps := true }
  else if ["s", "z"].contains s then some { o with seeksSteps := true }
  else if s.isEmpty || s = "g" || s = "0" || s = "1" then some { o with seeksSteps := false }
  else if Linking.isCount s then some { o with seeksSteps := true }
  else none

/-- The language of the text. -/
def language? (o : Options) (s : String) : Option Options :=
  if ["c", "none"].contains s then some { o with isNative := true }
  else if ["c++", "c-header", "c++-header"].contains s then some { o with isNative := false }
  else none

/-- Arguments of the assembler. -/
def assemblerArguments : List String :=
  wordsOf ["--64 --alternate --compress-debug-sections --compress-debug-sections=zlib --divide",
    "--elf-stt-common=yes --elf-stt-common=no --execstack --noexecstack --fatal-warnings",
    "--gdwarf-2 --gdwarf-3 --gdwarf-4 --gdwarf-5 --gdwarf-sections --gen-debug --gstabs --gstabs+",
    "--generate-missing-build-notes=yes --generate-missing-build-notes=no --keep-locals --warn",
    "--multibyte-handling=allow --multibyte-handling=warn --no-pad-sections --no-warn",
    "--nocompress-debug-sections --reduce-memory-overheads --scfi=experimental --sectname-subst",
    "--size-check=error --size-check=warning --statistics --strip-local-absolute",
    "--traditional-format -D -J -L -O -O0 -O1 -O2 -R -V -W -X -Z -g -k -n -q -s -v -w -nocpp",
    "-madd-bnd-prefix -mamd64 -mintel64 -mavxscalar=128 -mavxscalar=256 -mmnemonic=att",
    "-mmnemonic=intel -msyntax=att -mrelax-relocations=yes -mrelax-relocations=no -mshared",
    "-msse2avx -mtune=generic64 -mx86-used-note=yes -mx86-used-note=no -mvexwig=0 -mvexwig=1",
    "-muse-unaligned-vector-move"]

/-- Whether the assembler takes an argument. -/
def assembles (s : String) : Bool :=
  s.isEmpty || assemblerArguments.contains s ||
    ["--defsym=", "--debug-prefix-map="].any (fun p => ((behind? p s).bind parts?).isSome) ||
    ["--hash-size=", "--listing-lhs-width="].any
      (fun p => ((behind? p s).map isNumber).getD false) ||
    ["--MD=", "-I", "-march=+", "-malign-branch"].any (fun p => isIn p s) ||
    ((behind? "-a" s).map fun r => r.toList.all Char.isAlpha).getD false

/-- Options without an argument that change nothing in the code. -/
def plain : List String :=
  wordsOf ["-v -s -p -pg -t -P -Q -C -CC -H -pipe -pthread -rdynamic -shared -shared-libgcc",
    "-static-libgcc -static-libstdc++ -static-libasan -static-libtsan -static-liblsan",
    "-static-libubsan -nostdlib -nodefaultlibs -nostartfiles -nolibc -nostdinc++ -nostdlib++",
    "-dA -dD -dI -dM -dN -dU -dP -da -dp -no-canonical-prefixes -pass-exit-codes -remap -MD -MMD",
    "-no-integrated-cpp -I- -ftest-coverage -fprofile-arcs -coverage --coverage --verbose --shared",
    "--trace --optimize --debug --profile -time -save-temps -save-temps=obj -save-temps=cwd",
    "--save-temps --sysroot=/ -no-cpp-precomp -symbolic"]

/-- Options that make the compiler tell about itself. -/
def reports : List String :=
  ["--version", "--help", "-###", "-dumpmachine", "-dumpversion", "-dumpfullversion", "-dumpspecs",
    "-print-libgcc-file-name", "-print-multi-lib", "-print-search-dirs", "-print-sysroot",
    "--target-help", "-print-multiarch", "-print-multi-directory", "-print-multi-os-directory",
    "--print-libgcc-file-name", "--print-multi-lib", "--print-search-dirs", "--print-sysroot",
    "--print-multiarch", "--print-multi-directory", "--print-multi-os-directory"]

/-- Options that stand for others. -/
def synonyms : List (String × String) :=
  [("--pedantic", "-pedantic"), ("--pedantic-errors", "-pedantic-errors"),
    ("--all-warnings", "-Wall"), ("--extra-warnings", "-Wextra"), ("--no-warnings", "-w"),
    ("--ansi", "-ansi"), ("-ansi", "-std=c90"), ("--compile", "-c"), ("--assemble", "-S"),
    ("--preprocess", "-E"), ("--dependencies", "-M"), ("--user-dependencies", "-MM"),
    ("--write-dependencies", "-MD"), ("--write-user-dependencies", "-MMD"),
    ("--trace-includes", "-H"), ("--comments", "-C"), ("--comments-in-macros", "-CC"),
    ("--no-line-commands", "-P"), ("--trigraphs", "-trigraphs"), ("--pipe", "-pipe"),
    ("--pass-exit-codes", "-pass-exit-codes"), ("--no-standard-includes", "-nostdinc"),
    ("--no-standard-libraries", "-nostdlib"), ("--no-integrated-cpp", "-no-integrated-cpp"),
    ("--include", "-include"), ("--imacros", "-imacros"), ("--define-macro", "-D"),
    ("--undefine-macro", "-U"), ("--include-directory", "-I"), ("--library-directory", "-L"),
    ("--include-directory-after", "-idirafter"), ("--language", "-x"), ("--entry", "-e"),
    ("--force-link", "-u"), ("--for-linker", "-Xlinker"), ("--for-assembler", "-Xassembler"),
    ("--prefix", "-B"), ("--output", "-o"), ("--assert", "-A"),
    ("--std", "--std"), ("--static", "-static")]

/-- Beginnings of options that stand for others. -/
def longForms : List (String × String) :=
  [("--std=", "-std="), ("--include-directory-after=", "-idirafter"), ("--imacros=", "-imacros"),
    ("--include-directory=", "-I"), ("--include=", "-include"), ("--library-directory=", "-L"),
    ("--language=", "-x"), ("--define-macro=", "-D"), ("--undefine-macro=", "-U"),
    ("--debug=", "-g"), ("--optimize=", "-O"), ("--for-assembler=", "-Wa,"),
    ("--for-linker=", "-Wl,"), ("--entry=", "-e"), ("--force-link=", "-u"), ("--machine=", "-m"),
    ("--machine-", "-m"), ("--output=", "-o"), ("--dump=", "-d"), ("--prefix=", "-B"),
    ("--assert=", "-A"), ("--warn-", "-W"), ("--print-file-name=", "-print-file-name="),
    ("--print-prog-name=", "-print-prog-name="), ("--sysroot=", "-Lsysroot="),
    ("--param=", "--param=")]

/-- The short form of an option; one that is not known is about code. -/
def short (s : String) : String :=
  if (plain ++ reports).contains s then s
  else
    match synonyms.lookup s with
    | some t => (synonyms.lookup t).getD t
    | none =>
      match longForms.findSome? fun p => (behind? p.1 s).map fun r => p.2 ++ r with
      | some t => t
      | none => if isIn "--" s && !s.startsWith "--param" then "-f" ++ (s.drop 2).toString else s

/-- An option by its letter. -/
def lettered? (o : Options) (b : Bytes) (s : String) : Option Options :=
  let r := (s.drop 2).toString
  match (s.take 2).toString with
  | "-D" => some { o with macros := (true, b.drop 2) :: o.macros }
  | "-U" => some { o with macros := (false, b.drop 2) :: o.macros }
  | "-W" =>
    match s.splitOn "," with
    | "-Wl" :: args => some { o with linker := o.linker ++ args }
    | "-Wa" :: args => if args.all assembles then some o else none
    | _ => o.warning? r
  | "-f" => o.code? r
  | "-m" => o.machine? r
  | "-g" => o.debug? r
  | "-O" => o.level? r
  | "-x" => o.language? r
  | "-l" => some { o with linker := o.linker ++ [s] }
  | "-z" => some { o with linker := o.linker ++ ["-z", r] }
  | "-u" | "-e" => some { o with linker := o.linker ++ [s] }
  | "-T" =>
    if ["data=", "bss="].any fun p => ((behind? p r).map isNumber).getD false then some o else none
  | "-A" => if (parts? r).isSome || isIn "-" r then some o else none
  | "-d" => if r.toList.contains 'x' then some { o with hasText := false } else some o
  | "-I" | "-L" | "-B" | "-F" | "-J" | "-o" => some o
  | _ => none

/-- Options for the directives, between commas. -/
def directives? (o : Options) (args : List String) : Option Options :=
  args.foldlM (fun o s =>
    if plain.contains s then some o
    else if s = "-w" then some { o with isSilent := true }
    else o.lettered? (Bytes.ofString s) s) o

/-- **An option** that takes no argument behind it, none when the compiler refuses it. -/
def one? (o : Options) (b : Bytes) : Option Options :=
  let s := short b.toText
  let b := if s = b.toText then b else Bytes.ofString s
  if !s.startsWith "-" then if s = "/dev/null" then some o else none
  else if plain.contains s then some o
  else if s.startsWith "-Wp," then o.directives? ((s.splitOn ",").drop 1)
  else if reports.contains s || s.startsWith "-print-file-name=" ||
      s.startsWith "-print-prog-name=" then some { o with stage := .report }
  else
    match s with
    | "-w" => some { o with isSilent := true }
    | "-pedantic" => some (o.switch "pedantic" true)
    | "-pedantic-errors" => some { o.switch "pedantic" true with isPedantic := true }
    | "-trigraphs" => some { o with trigraphs := true }
    | "-undef" => none
    | "-nostdinc" => some { o with hasHeaders := false }
    | "-E" | "-M" | "-MM" => some { o with stage := .prepare }
    | "-S" | "-c" => some { o with stage := .compile }
    | s =>
      match behind? "-std=" s, (behind? "-include" s).or (behind? "-imacros" s) with
      | some v, _ => o.version? v
      | none, some h => some { o with headers := h :: o.headers }
      | none, none =>
        if ["-isystem", "-iquote", "-idirafter", "-iprefix", "-iwithprefix", "-time="].any fun p =>
          s.startsWith p then some o
        else
          match (behind? "--param=" s).map parts? with
          | some (some (n, v)) => if isLimit n v then some o else none
          | some none => none
          | none => if s.startsWith "--" then none else o.lettered? b s

/-- Options that take what stands behind them. -/
def separate : List String :=
  wordsOf ["-D -U -I -L -A -B -F -J -o -u -z -e -x -l -include -imacros -isystem -iquote",
    "-idirafter -iprefix -iwithprefix -iwithprefixbefore -imultilib -MF -MT -MQ -dumpbase",
    "-dumpdir -dumpbase-ext -aux-info -Xlinker -Xpreprocessor -Xassembler -T --param -wrapper",
    "-specs -isysroot --sysroot --std"]

/-- An option with what stands behind it. -/
def two? (o : Options) (s : String) (b : Bytes) : Option Options :=
  match s with
  | "-include" | "-imacros" => some { o with headers := b.toText :: o.headers }
  | "-Xlinker" => some { o with linker := o.linker ++ [b.toText] }
  | "-Xpreprocessor" => o.one? b
  | "--std" => o.version? b.toText
  | "-Xassembler" => o.lettered? b ("-Wa," ++ b.toText)
  | "-T" | "-wrapper" | "-specs" | "-isysroot" => none
  | "--param" => o.one? (Bytes.ofString "--param=" ++ b)
  | s => if s.length = 2 then o.lettered? (Bytes.ofString s ++ b) (s ++ b.toText) else some o

/-- What a list of options asks for, beside what `o` asks for. An option at the end may take the
name of the text for its argument. -/
def read? (o : Options) : List Bytes → Option Options
  | [] => some o
  | [b] =>
    let s := short b.toText
    if separate.contains s then
      if ["-T", "-wrapper", "-specs", "-l", "-Xlinker", "--param", "--std"].contains s then none
      else some { o with hasText := false }
    else o.one? b
  | b :: c :: r =>
    let s := short b.toText
    if separate.contains s then (o.two? s c).bind fun o => o.read? r
    else (o.one? b).bind fun o => o.read? (c :: r)

/-- **What a list of options asks for**; none when the compiler refuses it. -/
def ofList? (bs : List Bytes) : Option Options :=
  (read? { } bs).bind fun o => (Linking.ofList? o.linker).map fun l => { o with linking := l }

/-! ## Remarks -/

/-- Remarks that come with others. -/
def groups : List (String × List String) :=
  [("all", wordsOf ["address bool-operation comment int-in-bool-context logical-not-parentheses",
      "parentheses tautological-compare trigraphs unknown-pragmas unused-function unused-value",
      "unused-variable"]),
    ("unused", ["unused-function", "unused-value", "unused-variable"]),
    ("pedantic", ["pointer-arith", "pedantic"])]

/-- Whether a group of remarks is turned on. -/
def hasGroup (o : Options) (name : String) : Bool := (o.switches.lookup name).getD false

/-- Whether a remark that has to be turned on is. -/
def isOn (o : Options) (name : String) (usual : Bool) : Bool :=
  match o.switches.lookup name with
  | some b => b
  | none =>
    usual || (groups.any fun g => g.2.contains name && o.hasGroup g.1) ||
      (name = "unused-parameter" && o.hasGroup "extra" && (o.hasGroup "all" || o.hasGroup "unused"))

/-- Whether the remark is made. -/
def isMade (o : Options) : Remark → Bool
  | .usual n | .required n => n.isEmpty || o.isOn n true
  | .chosen n | .extension n => o.isOn n false
  | .measured n size =>
    o.isOn n false && ((o.limits.lookup n).map fun k => decide (k < size)).getD false

/-- **Whether a remark makes the compiler refuse a text.** -/
def isRefused (o : Options) (r : Remark) : Bool :=
  let broken : Bool := match r with
    | .required _ | .extension _ => o.isPedantic
    | _ => false
  let refused : Bool := match o.refusals.lookup r.option, o.refusals.lookup "" with
    | some b, some all => if r.option.isEmpty then all else b
    | some b, none => b
    | none, some all => all
    | none, none => false
  o.isMade r && (broken || (refused && !o.isSilent))

end Options

end MemoFlow.Code
