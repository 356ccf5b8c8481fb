import MemoFlow.Code.Build
import MemoFlow.Settings.Config
import MemoFlow.Shell.Run
import MemoFlow.Text.Ascii
import MemoFlow.Trace

/-!
# Compilers

A compiler is a program of the system. It is called through a command line, so its name is a word of
a shell: it can be a compiler, another program, or a word that only the shell knows.

* **`Shell.escape`**: a byte string as one word of a command line;
* `Shell.exitCode`: the exit code of a wait status;
* `Shell.letters`, `Shell.bytes`: byte strings as strings with one character a byte, and back. The
  shell works on such strings: it knows nothing of characters of several bytes;
* `Compiler.commandLine`: the command line of a compilation;
* `Compiler.Library`, `Compiler.tools`: what compilers leave behind, and compilers as programs;
* **`Compiler`**, `Compiler.ofConfig`: compilers by themselves, and the one that the settings name.
-/

/-! ## Words for a shell -/

namespace MemoFlow.Shell

open Ascii

/-- Bytes that need no quotes. -/
def isPlain (b : UInt8) : Bool :=
  isLetter b || isDigit b || (Bytes.ofString "_/.-+:=").contains b

/-- A byte inside single quotes; a quote itself stands between double quotes. -/
def escapeByte (b : UInt8) : Bytes := if b = byte '\'' then Bytes.ofString "'\"'\"'" else [b]

/-- **A byte string as one word**: as it is, or in single quotes. -/
def escape (w : Bytes) : Bytes :=
  if w.isEmpty then Bytes.ofString "''"
  else if w.all isPlain then w
  else Bytes.ofString "'" ++ w.flatMap escapeByte ++ Bytes.ofString "'"

/-- The exit code of a wait status: the second byte when the command ended by itself, and one for
a signal or when there is no status. -/
def exitCode (status : Int32) : Nat :=
  let n := status.toUInt32.toNat
  if status = -1 then 1
  else if n % 128 = 0 then n / 256 % 256
  else 1

/-! ## One character a byte -/

/-- A byte string with one character a byte. -/
def letters (bs : Bytes) : String := String.ofList (bs.map fun b => Char.ofNat b.toNat)

/-- The bytes of a string with one character a byte. -/
def bytes (s : String) : Bytes := s.toList.map fun c => UInt8.ofNat c.toNat

end MemoFlow.Shell

/-! ## Compilers -/

namespace MemoFlow

/-- **A compiler.** -/
structure Compiler where
  /-- Whether there is one. -/
  isPresent : Bool
  /-- Compile a text, or say why not. What other programs say on the way is noted. -/
  compile : Bytes → Told (Except String Code.Function)

namespace Compiler

open Shell

/-- The file with the text of a kernel. -/
def sourcePath : String := "/tmp/synapse_accel.c"

/-- The file for the compiled kernel. -/
def libraryPath : String := "/tmp/synapse_accel.so"

/-- The options of every compilation. -/
def fixedOptions : List String :=
  ["-std=c99", "-O2", "-shared", "-fPIC", "-ffp-contract=off"]

/-- The arguments of a compilation. -/
def arguments (flags : List Bytes) : List Bytes :=
  fixedOptions.map Bytes.ofString ++ flags ++
    [sourcePath, "-o", libraryPath, "-lm"].map Bytes.ofString

/-- The words of a command line, each of them escaped. -/
def escapedWords (words : List Bytes) : Bytes :=
  (Bytes.ofString " ").intercalate (words.map escape)

/-- **The command line of a compilation**, up to its first NUL. -/
def commandLine (c : AccelConfig) : Bytes :=
  (escapedWords (Bytes.ofString c.compiler :: arguments (c.extraFlags.map Bytes.ofString)) ++
    Bytes.ofString " >/dev/null 2>&1").takeWhile (· ≠ 0)

/-- The command line that asks for a compiler. -/
def question (c : AccelConfig) : Bytes :=
  (Bytes.ofString "command -v " ++ escape (Bytes.ofString c.compiler) ++
    Bytes.ofString " >/dev/null 2>&1").takeWhile (· ≠ 0)

/-! ## Compilers as programs -/

/-- Kinds of what a compiler leaves behind. -/
inductive Library where
  /-- A library of functions under their own names. -/
  | plain
  /-- A library of functions under other names. -/
  | renamed
  /-- A text that is no library. -/
  | text
deriving DecidableEq, Repr

/-- The contents of a file of some kind. -/
def Library.contents : Library → String
  | .plain => "functions\n"
  | .renamed => "renamed functions\n"
  | .text => "text\n"

/-- The kind of a file with some contents. -/
def Library.ofContents? (s : String) : Option Library :=
  [Library.plain, .renamed, .text].find? fun k => k.contents = s

/-- What a compiler leaves behind, by its name. -/
def libraryOf? (name : String) : Option Library :=
  let short := shortName name
  if compilers.contains short then some .plain
  else if relatives.contains short then some .renamed
  else if preprocessors.contains short then some .text
  else none

/-- A compiler that is called without a kernel. -/
def idly (name : String) (args : List String) : Reply :=
  if args.any fun a => a.startsWith "--" || a.startsWith "-v" || a.startsWith "-dump" then { }
  else if args.all fun a => a.startsWith "-" then
    { status := 1
      err := name ++ ": fatal error: no input files\ncompilation terminated.\n" }
  else { status := 1 }

/-- Why a text could not be compiled, in words. -/
def describe : Code.Failure → String
  | .refused => "kernel compile failed (exit 1)"
  | .unloadable reason => "dlopen failed: " ++ reason
  | .nameless => "missing symbol synapse_kernel"

/-- The flags among the arguments of a compilation. -/
def flagsOf (args : List String) : List Bytes :=
  ((args.drop fixedOptions.length).dropLast.dropLast.dropLast.dropLast).map bytes

/-- What comes of a text under some flags. -/
def build (flags : List Bytes) (text : Bytes) : Except Code.Failure Code.Function :=
  match Code.Options.ofList? flags with
  | some o => Code.build o text
  | none => .error .refused

/-- **Compilers as programs**, where `built` is what comes of a text under some flags. -/
def tools (built : List Bytes → Except Code.Failure Code.Function) : Tools :=
  fun name args =>
    (libraryOf? name).map fun k =>
      if args.take fixedOptions.length = fixedOptions then
        match k, built (flagsOf args) with
        | .plain, .error .refused => { status := 1 }
        | k, _ => { files := [(libraryPath, k.contents)] }
      else idly name args

/-- Compilers as programs when there is no kernel. -/
def noKernel : Tools := tools fun _ => .error .refused

/-! ## The compiler of the settings -/

/-- Run a command line, given as bytes. -/
def runLine (t : Tools) (line : Bytes) : Finish × State := Shell.run t (letters line)

/-- Load what a compilation has left behind, where `built` is what comes of the text. -/
def load (s : State) (built : Except Code.Failure Code.Function) :
    Except String Code.Function :=
  match (s.world.made.files.lookup libraryPath).bind fun n =>
      Library.ofContents? (s.world.stream n) with
  | some .plain => built.mapError describe
  | some .renamed => .error (describe .nameless)
  | some .text => .error (describe (.unloadable (libraryPath ++ ": invalid ELF header")))
  | none => .error (describe (.unloadable (libraryPath ++
      ": cannot open shared object file: No such file or directory")))

/-- Compile a text by a command line. -/
def compileBy (c : AccelConfig) (text : Bytes) : Told (Except String Code.Function) :=
  let built := build (c.extraFlags.map Bytes.ofString) text
  let (f, s) := runLine (tools fun _ => built) (commandLine c)
  let notes : List Note :=
    if s.errors.isEmpty then [] else [.raw (bytes s.errors).toText]
  match exitCode (waitStatus f) with
  | 0 => ⟨load s built, notes⟩
  | n => ⟨.error ("kernel compile failed (exit " ++ toString n ++ ")"), notes⟩

/-- **The compiler that the settings name.** -/
def ofConfig (c : AccelConfig) : Compiler where
  isPresent := exitCode (waitStatus (runLine noKernel (question c)).1) = 0
  compile := compileBy c

/-- The exit code of a command line, and what it says where errors go. -/
def codeOf (line : Bytes) : Told Nat :=
  let (f, s) := runLine noKernel (line.takeWhile (· ≠ 0))
  ⟨exitCode (waitStatus f), if s.errors.isEmpty then [] else [.raw (bytes s.errors).toText]⟩

end Compiler

end MemoFlow
