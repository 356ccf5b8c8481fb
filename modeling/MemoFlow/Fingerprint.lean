import MemoFlow.Environment

/-!
# Fingerprints

A request is identified by 128 bits mixed from a stream of bytes. A value that cannot be compared
by content makes the request uncacheable instead.

* `Stream`: the bytes of a request, or `none` when it cannot be cached;
* `Stream.value`, `Stream.environment`, …: what is fed to the mixer;
* `Mixer`: two lanes of multiply-and-xor;
* **`Fingerprint`**, `Fingerprint.ofStream`: the identity of a stream;
* `Fingerprint.ofRequest`, `Fingerprint.ofSynthesis`: the identities of the requests.
-/

namespace MemoFlow

/-! ## Streams of bytes -/

/-- The bytes fed to the mixer, none when something cannot be cached. -/
abbrev Stream : Type := Option (List UInt8)

namespace Stream

variable {σ : Type} [IsText σ]

/-- The stream without bytes. -/
def nothing : Stream := some []

/-- One stream after the other. -/
def append (a b : Stream) : Stream :=
  match a, b with
  | some x, some y => some (x ++ y)
  | _, _ => none

instance : Append Stream := ⟨append⟩

/-- Bytes as they are. -/
def bytes (bs : List UInt8) : Stream := some bs

/-- The bytes of a word, the lowest first. -/
def wordBytes (w : UInt64) : List UInt8 :=
  (List.range 8).map fun i => (w >>> (8 * UInt64.ofNat i)).toUInt8

/-- A word. -/
def word (w : UInt64) : Stream := some (wordBytes w)

/-- The bit pattern of a double, with one zero and one value that is not a number. -/
def doubleBits (x : Float) : UInt64 :=
  if x == 0.0 then 0 else if x.isNaN then 0x7ff8000000000000 else x.toBits

/-- A double. -/
def double (x : Float) : Stream := word (doubleBits x)

/-- The bytes of a text. -/
def textBytes (s : σ) : List UInt8 := IsText.bytes s

/-- Bytes behind their number. -/
def sized (bs : List UInt8) : Stream := some (wordBytes (UInt64.ofNat bs.length) ++ bs)

/-- A text behind its length. -/
def text (s : σ) : Stream := sized (textBytes s)

/-- The byte of an element type. -/
def dtypeByte : DType → UInt8
  | .f32 => 0
  | .f64 => 1
  | .c128 => 2

/-- A tensor: type, dimensions and payload; the owner of the storage does not count. -/
def tensor (t : Tensor Double) : Stream :=
  some ([0x07, dtypeByte t.dtype] ++ wordBytes (UInt64.ofNat t.shape.length) ++
    t.shape.flatMap wordBytes ++ wordBytes (UInt64.ofNat t.data.size) ++
    t.data.toList.flatMap fun x => wordBytes (doubleBits x.toFloat))

mutual

/-- A value behind the byte of its kind. -/
def value : Value σ → Stream
  | .nil => bytes [0x01]
  | .int n => some (0x02 :: wordBytes n.toUInt64)
  | .dbl x => some (0x03 :: wordBytes (doubleBits x))
  | .bool b => bytes [0x04, if b then 1 else 0]
  | .str s => bytes [0x05] ++ text s
  | .list vs => some (0x06 :: wordBytes (UInt64.ofNat vs.length)) ++ values vs
  | .tensor (some t) => tensor t
  | .tensor none => none
  | .handle _ _ => none

/-- Values one after the other. -/
def values : List (Value σ) → Stream
  | [] => nothing
  | v :: vs => value v ++ values vs

end

/-- All bindings of an environment. -/
def bindings (env : Environment σ) : Stream :=
  env.toList.foldl (fun s p => s ++ (bytes [0x09] ++ text p.1 ++ value p.2))
    (word (UInt64.ofNat env.size))

/-- The value of one name, or the mark that it has none. -/
def declared (env : Environment σ) (n : σ) : Stream :=
  text n ++ match env.find? n with
    | some v => value v
    | none => bytes [0x08]

/-- Names in ascending order, each once. -/
def nameSet (ns : List σ) : List σ :=
  (NameMap.ofList (ns.map fun n => (n, ()))).keys

/-- The values of some names. -/
def inputs (env : Environment σ) (names : List σ) : Stream :=
  let ns := nameSet names
  ns.foldl (fun s n => s ++ declared env n) (word (UInt64.ofNat ns.length))

/-- The values of the declared names, or all bindings when none is declared. -/
def environment (env : Environment σ) (names : List σ) : Stream :=
  if names.isEmpty then bindings env else inputs env names

end Stream

/-! ## The mixer -/

/-- The two lanes of the mixer. -/
structure Mixer where
  /-- The first lane. -/
  a : UInt64
  /-- The second lane, which sees every byte changed. -/
  b : UInt64
deriving DecidableEq, Repr

namespace Mixer

/-- The lanes before any byte. -/
def start : Mixer := ⟨0xcbf29ce484222325, 0x84222325cbf29ce4⟩

/-- Mix one byte into both lanes. -/
def mix (m : Mixer) (x : UInt8) : Mixer :=
  ⟨(m.a ^^^ x.toUInt64) * 0x100000001b3, (m.b ^^^ (x ^^^ 0x5a).toUInt64) * 0x100000001b3⟩

/-- Spread every bit of a word over the whole word. -/
def avalanche (w : UInt64) : UInt64 :=
  let w := (w ^^^ (w >>> 33)) * 0xff51afd7ed558ccd
  let w := (w ^^^ (w >>> 33)) * 0xc4ceb9fe1a85ec53
  w ^^^ (w >>> 33)

end Mixer

/-! ## Fingerprints -/

/-- **The identity of a request.** -/
structure Fingerprint where
  /-- The upper half. -/
  high : UInt64
  /-- The lower half. -/
  low : UInt64
  /-- Whether the request can be cached at all. -/
  cacheable : Bool
deriving DecidableEq, Repr, Inhabited

namespace Fingerprint

/-- The mark of what cannot be cached. -/
def uncacheable : Fingerprint := ⟨0, 0, false⟩

/-- A word in sixteen hexadecimal digits. -/
def hexWord (w : UInt64) : String :=
  let ds := Nat.toDigits 16 w.toNat
  String.ofList (List.replicate (16 - ds.length) '0' ++ ds)

/-- The text of a fingerprint. -/
def hex (f : Fingerprint) : String :=
  if f.cacheable then hexWord f.high ++ hexWord f.low else "uncacheable"

/-- A word for hash tables. -/
def hash (f : Fingerprint) : UInt64 := f.high ^^^ (f.low * 0x9e3779b97f4a7c15)

/-- A finished fingerprint as part of another stream. -/
def stream (f : Fingerprint) : Stream :=
  if f.cacheable then Stream.word f.high ++ Stream.word f.low else none

/-- The fingerprint of bytes. -/
def ofBytes (bs : List UInt8) : Fingerprint :=
  let m := bs.foldl Mixer.mix Mixer.start
  ⟨Mixer.avalanche (m.a ^^^ (m.b >>> 7)),
    Mixer.avalanche (m.b + 0x9e3779b97f4a7c15 * m.a), true⟩

/-- **The fingerprint of a stream.** -/
def ofStream : Stream → Fingerprint
  | some bs => ofBytes bs
  | none => uncacheable

/-- The fingerprint of a text. -/
def ofText {σ : Type} [IsText σ] (s : σ) : Fingerprint := ofStream (Stream.text s)

/-- The fingerprint of a value. -/
def ofValue {σ : Type} [IsText σ] (v : Value σ) : Fingerprint := ofStream (Stream.value v)

/-- The fingerprint of two fingerprints. -/
def combine (a b : Fingerprint) : Fingerprint := ofStream (a.stream ++ b.stream)

/-- The fingerprint of the declared part of an environment. -/
def ofEnvironment {σ : Type} [IsText σ] (env : Environment σ) (names : List σ) : Fingerprint :=
  ofStream (Stream.environment env names)

/-- **The fingerprint of a source text with its inputs**; a request without source has none. -/
def ofRequest {σ : Type} [IsText σ] (source : String) (env : Environment σ) (names : List σ) :
    Fingerprint :=
  if source = "" then uncacheable else combine (ofText source) (ofEnvironment env names)

/-- **The fingerprint of a set of branch names**, in whatever order they come. -/
def ofSynthesis (ids : List String) : Fingerprint :=
  let sorted := ids.mergeSort fun a b => decide (a ≤ b)
  ofStream (sorted.foldl (fun s i => s ++ Stream.text i)
    (Stream.text "synthesis" ++ Stream.word (UInt64.ofNat sorted.length)))

end Fingerprint

end MemoFlow
