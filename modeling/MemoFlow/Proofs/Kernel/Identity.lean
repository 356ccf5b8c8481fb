import MemoFlow.Kernel.Accelerator
import MemoFlow.Proofs.Fingerprint.Encoding

/-!
# What a key of generated code tells

The key under which code is kept is made of the identity of a kernel and of the identity of its
operands. Both are mixed from bytes that can be read back, so that a key tells everything that the
generated code is made from.

* `Fingerprint.hex_append_inj`: identities can be read back from their hexadecimal digits;
* `Kernel.bytes`, `Kernel.IsSized`, **`Kernel.bytes_inj`**: the bytes of a kernel tell the kernel;
* `Tensor.SameForm`, `KernelSignature.bytes`, **`KernelSignature.ofArgs_of_bytes`**: the bytes of
  operands tell their types and dimensions, and these tell the signature;
* **`Accelerator.artifactKey_inj`**: a key tells the kernel and the signature.
-/

namespace MemoFlow

/-! ## Hexadecimal digits -/

namespace Fingerprint

/-- The number that a hexadecimal digit stands for. -/
def digitValue (c : Char) : Nat := if c.isDigit then c.toNat - 48 else c.toNat - 87

/-- The number that hexadecimal digits stand for. -/
def readHex (cs : List Char) : Nat := cs.foldl (fun n c => 16 * n + digitValue c) 0

theorem digitValue_digitChar : ∀ d < 16, digitValue d.digitChar = d := by decide

theorem readHex_concat (cs : List Char) (c : Char) :
    readHex (cs ++ [c]) = 16 * readHex cs + digitValue c := by
  rw [readHex, List.foldl_append]
  rfl

theorem readHex_toDigits (n : Nat) : readHex (Nat.toDigits 16 n) = n := by
  induction n using Nat.strongRecOn with
  | ind n ih =>
    rw [Nat.toDigits_eq_if (by decide)]
    split
    · next h =>
      rw [← List.nil_append [n.digitChar], readHex_concat, digitValue_digitChar n h]
      exact Nat.zero_add n
    · next h =>
      rw [readHex_concat, ih (n / 16) (by omega), digitValue_digitChar (n % 16) (by omega)]
      omega

theorem readHex_padded (k : Nat) (cs : List Char) :
    readHex (List.replicate k '0' ++ cs) = readHex cs := by
  have hzeros : (List.replicate k '0').foldl (fun n c => 16 * n + digitValue c) 0 = 0 := by
    induction k with
    | zero => rfl
    | succ k ih => rw [List.replicate_succ', List.foldl_append, ih]; rfl
  rw [readHex, List.foldl_append, hzeros]
  rfl

theorem length_hexWord (w : UInt64) : (hexWord w).toList.length = 16 := by
  have hw : (Nat.toDigits 16 w.toNat).length ≤ 16 :=
    (Nat.length_toDigits_le_iff (by decide) (by decide)).2 w.toNat_lt
  rw [hexWord, String.toList_ofList, List.length_append, List.length_replicate]
  omega

theorem hexWord_inj {v w : UInt64} (h : (hexWord v).toList = (hexWord w).toList) : v = w := by
  have hr := congrArg readHex h
  simp only [hexWord, String.toList_ofList, readHex_padded, readHex_toDigits] at hr
  exact UInt64.toNat_inj.1 hr

/-- The text of an identity behind which anything stands. -/
theorem hex_append_inj {f g : Fingerprint} {s t : List Char} (hf : f.cacheable = true)
    (hg : g.cacheable = true) (h : f.hex.toList ++ s = g.hex.toList ++ t) : f = g ∧ s = t := by
  obtain ⟨a, b, c⟩ := f
  obtain ⟨a', b', c'⟩ := g
  obtain rfl : c = true := hf
  obtain rfl : c' = true := hg
  simp only [hex, if_true, String.toList_append, List.append_assoc] at h
  obtain ⟨hhigh, h⟩ := List.append_inj h (by rw [length_hexWord, length_hexWord])
  obtain ⟨hlow, hrest⟩ := List.append_inj h (by rw [length_hexWord, length_hexWord])
  rw [hexWord_inj hhigh, hexWord_inj hlow]
  exact ⟨rfl, hrest⟩

end Fingerprint

/-! ## Bytes of kernels -/

namespace Stream

/-- Bytes behind their number, as bytes. -/
def sizedBytes (bs : List UInt8) : List UInt8 := wordBytes (UInt64.ofNat bs.length) ++ bs

/-- Streams that have bytes, one after the other. -/
theorem foldl_append_some {α : Type} {f : α → Stream} {g : α → List UInt8}
    (h : ∀ x, f x = some (g x)) (bs : List UInt8) (xs : List α) :
    xs.foldl (fun s x => s ++ f x) (some bs) = some (bs ++ xs.flatMap g) := by
  induction xs generalizing bs with
  | nil => simp
  | cons x xs ih =>
    have hx : (some bs ++ f x : Stream) = some (bs ++ g x) := by rw [h x]; rfl
    rw [List.foldl_cons, hx, ih, List.flatMap_cons, List.append_assoc]

variable {r s : List UInt8}

theorem sizedBytes_append_inj {a b : List UInt8} (ha : a.length < 2 ^ 64) (hb : b.length < 2 ^ 64)
    (h : sizedBytes a ++ r = sizedBytes b ++ s) : a = b ∧ r = s := sized_append_inj ha hb h

/-- Byte strings behind their numbers can be read back when it is known how many they are. -/
theorem sizedBytes_flatMap_inj {xs ys : List (List UInt8)} (hl : xs.length = ys.length)
    (hx : ∀ x ∈ xs, x.length < 2 ^ 64) (hy : ∀ y ∈ ys, y.length < 2 ^ 64)
    (h : xs.flatMap sizedBytes ++ r = ys.flatMap sizedBytes ++ s) : xs = ys ∧ r = s := by
  induction xs generalizing ys with
  | nil =>
    obtain rfl := List.eq_nil_of_length_eq_zero hl.symm
    exact ⟨rfl, h⟩
  | cons x xs ih =>
    cases ys with
    | nil => exact absurd hl (Nat.succ_ne_zero _)
    | cons y ys =>
      rw [List.flatMap_cons, List.flatMap_cons, List.append_assoc, List.append_assoc] at h
      obtain ⟨hxy, h⟩ := sizedBytes_append_inj (hx x List.mem_cons_self) (hy y List.mem_cons_self) h
      obtain ⟨hall, hr⟩ := ih (Nat.succ.inj hl) (fun z hz => hx z (List.mem_cons_of_mem _ hz))
        (fun z hz => hy z (List.mem_cons_of_mem _ hz)) h
      exact ⟨hxy ▸ hall ▸ rfl, hr⟩

end Stream

namespace Kernel

open MemoFlow.Stream

/-- The bytes of which the identity of a kernel is mixed. -/
def bytes (k : Kernel) : List UInt8 :=
  sizedBytes (textBytes "kernel") ++ sizedBytes k.name ++
    wordBytes (UInt64.ofNat k.params.length) ++ k.params.flatMap sizedBytes ++
    sizedBytes k.expression

theorem ofKernel_eq (k : Kernel) : Fingerprint.ofKernel k = .ofBytes k.bytes := by
  have hfold := foldl_append_some (f := sized) (g := sizedBytes) (fun _ => rfl)
    (sizedBytes (textBytes "kernel") ++ sizedBytes k.name ++
      wordBytes (UInt64.ofNat k.params.length)) k.params
  exact congrArg (fun s => Fingerprint.ofStream (s ++ sized k.expression)) hfold

/-- The lengths in a kernel are words. -/
structure IsSized (k : Kernel) : Prop where
  name : k.name.length < 2 ^ 64
  params : k.params.length < 2 ^ 64
  param : ∀ p ∈ k.params, p.length < 2 ^ 64
  expression : k.expression.length < 2 ^ 64

/-- **The bytes of a kernel tell the kernel.** -/
theorem bytes_inj {k l : Kernel} (hk : k.IsSized) (hl : l.IsSized) (h : k.bytes = l.bytes) :
    k = l := by
  simp only [bytes, List.append_assoc, List.append_cancel_left_eq] at h
  obtain ⟨hname, h⟩ := sizedBytes_append_inj hk.name hl.name h
  obtain ⟨hlength, h⟩ := length_append_inj hk.params hl.params h
  obtain ⟨hparams, h⟩ := sizedBytes_flatMap_inj hlength hk.param hl.param h
  rw [← List.append_nil (sizedBytes k.expression), ← List.append_nil (sizedBytes l.expression)] at h
  obtain ⟨hexpression, -⟩ := sizedBytes_append_inj hk.expression hl.expression h
  obtain ⟨name, params, expression⟩ := k
  obtain rfl : name = l.name := hname
  obtain rfl : params = l.params := hparams
  obtain rfl : expression = l.expression := hexpression
  rfl

end Kernel

/-! ## Bytes of operands -/

/-- Tensors of one type with the same dimensions. -/
def Tensor.SameForm {α : Type} (t u : Tensor α) : Prop := t.dtype = u.dtype ∧ t.shape = u.shape

namespace KernelSignature

open MemoFlow.Stream

variable {α : Type}

/-- The bytes of an operand. -/
def operandBytes (t : Tensor α) : List UInt8 :=
  sizedBytes (textBytes t.dtype.name) ++ wordBytes (UInt64.ofNat t.shape.length) ++
    t.shape.flatMap wordBytes

/-- The bytes of which the identity of operands is mixed. -/
def bytes (args : List (Tensor α)) : List UInt8 :=
  sizedBytes (textBytes "kernel-signature") ++ wordBytes (UInt64.ofNat args.length) ++
    args.flatMap operandBytes

theorem operandStream_eq (t : Tensor α) : operandStream t = some (operandBytes t) :=
  foldl_append_some (fun _ => rfl) _ t.shape

theorem key_ofArgs (n : Nat) (args : List (Tensor α)) :
    (ofArgs n args).key = .ofBytes (bytes args) :=
  congrArg Fingerprint.ofStream (foldl_append_some operandStream_eq _ args)

/-- The number of operands and their numbers of dimensions are words. -/
structure AreSized (args : List (Tensor α)) : Prop where
  count : args.length < 2 ^ 64
  rank : ∀ t ∈ args, t.shape.length < 2 ^ 64

theorem DType.name_inj {d e : DType} (h : d.name = e.name) : d = e := by
  revert h
  cases d <;> cases e <;> decide

theorem DType.length_name (d : DType) : (textBytes d.name).length < 2 ^ 64 := by
  rw [textBytes_eq]
  cases d <;> decide +kernel

variable {r s : List UInt8}

/-- The bytes of an operand with anything behind them tell its type and dimensions. -/
theorem operandBytes_append {t u : Tensor α} (ht : t.shape.length < 2 ^ 64)
    (hu : u.shape.length < 2 ^ 64) (h : operandBytes t ++ r = operandBytes u ++ s) :
    t.SameForm u ∧ r = s := by
  simp only [operandBytes, List.append_assoc] at h
  obtain ⟨hname, h⟩ := sizedBytes_append_inj (DType.length_name _) (DType.length_name _) h
  obtain ⟨hrank, h⟩ := length_append_inj ht hu h
  obtain ⟨hshape, hr⟩ := words_append_inj (f := id) hrank h
  change List.Forall₂ (fun d e : UInt64 => d = e) t.shape u.shape at hshape
  rw [List.forall₂_eq_eq_eq] at hshape
  exact ⟨⟨DType.name_inj (IsText.bytes_inj hname), hshape⟩, hr⟩

theorem operandsBytes_append {xs ys : List (Tensor α)} (hl : xs.length = ys.length)
    (hx : ∀ t ∈ xs, t.shape.length < 2 ^ 64) (hy : ∀ t ∈ ys, t.shape.length < 2 ^ 64)
    (h : xs.flatMap operandBytes ++ r = ys.flatMap operandBytes ++ s) :
    List.Forall₂ Tensor.SameForm xs ys ∧ r = s := by
  induction xs generalizing ys with
  | nil =>
    obtain rfl := List.eq_nil_of_length_eq_zero hl.symm
    exact ⟨.nil, h⟩
  | cons x xs ih =>
    cases ys with
    | nil => exact absurd hl (Nat.succ_ne_zero _)
    | cons y ys =>
      rw [List.flatMap_cons, List.flatMap_cons, List.append_assoc, List.append_assoc] at h
      obtain ⟨hxy, h⟩ := operandBytes_append (hx x List.mem_cons_self) (hy y List.mem_cons_self) h
      obtain ⟨hall, hr⟩ := ih (Nat.succ.inj hl) (fun z hz => hx z (List.mem_cons_of_mem _ hz))
        (fun z hz => hy z (List.mem_cons_of_mem _ hz)) h
      exact ⟨.cons hxy hall, hr⟩

theorem commonShape_congr {xs ys : List (Tensor α)} (h : List.Forall₂ Tensor.SameForm xs ys)
    (i : Nat) (shape : Option Shape) : commonShape i shape xs = commonShape i shape ys := by
  induction h generalizing i shape with
  | nil => rfl
  | @cons x y xs ys hxy _ ih =>
    obtain ⟨d, s, _, _⟩ := x
    obtain rfl : d = y.dtype := hxy.1
    obtain rfl : s = y.shape := hxy.2
    simp only [commonShape, ih]
    rfl

/-- Types and dimensions of the operands tell the whole signature. -/
theorem ofArgs_congr {xs ys : List (Tensor α)} (h : List.Forall₂ Tensor.SameForm xs ys) (n : Nat) :
    ofArgs n xs = ofArgs n ys := by
  have hmap : ∀ {β : Type} {f : Tensor α → β}, (∀ t u, t.SameForm u → f t = f u) →
      xs.map f = ys.map f := fun hf => by
    induction h with
    | nil => rfl
    | cons hxy _ ih => rw [List.map_cons, List.map_cons, hf _ _ hxy, ih]
  have hsingle : xs.map (fun t => decide (t.rank = 0)) = ys.map fun t => decide (t.rank = 0) :=
    hmap fun t u htu => by rw [Tensor.rank, Tensor.rank, htu.2]
  have htext : xs.map Tensor.describe = ys.map Tensor.describe :=
    hmap fun t u htu => by rw [Tensor.describe, Tensor.describe, htu.1, htu.2]
  have hbytes : xs.map operandBytes = ys.map operandBytes :=
    hmap fun t u htu => by rw [operandBytes, operandBytes, htu.1, htu.2]
  have hkey : (ofArgs n xs).key = (ofArgs n ys).key := by
    rw [key_ofArgs, key_ofArgs, bytes, bytes, h.length_eq, List.flatMap_def, List.flatMap_def,
      hbytes]
  have hrest : { ofArgs n xs with key := (ofArgs n ys).key } = ofArgs n ys := by
    simp only [ofArgs, commonShape_congr h, h.length_eq, hsingle, htext]
  rw [← hrest, ← hkey]

/-- **The bytes of operands tell the signature.** -/
theorem ofArgs_of_bytes {xs ys : List (Tensor α)} (hx : AreSized xs) (hy : AreSized ys)
    (h : bytes xs = bytes ys) (n : Nat) : ofArgs n xs = ofArgs n ys := by
  simp only [bytes, List.append_assoc, List.append_cancel_left_eq] at h
  obtain ⟨hlength, h⟩ := length_append_inj hx.count hy.count h
  rw [← List.append_nil (xs.flatMap operandBytes), ← List.append_nil (ys.flatMap operandBytes)] at h
  exact ofArgs_congr (operandsBytes_append hlength hx.rank hy.rank h).1 n

end KernelSignature

/-! ## Keys -/

namespace Accelerator

/-- **A key tells the identities of kernel and operands.** -/
theorem artifactKey_inj {k l : Kernel} {m n : Nat} {xs ys : List (Tensor Double)}
    (h : artifactKey k (.ofArgs m xs) = artifactKey l (.ofArgs n ys)) :
    Fingerprint.ofBytes k.bytes = .ofBytes l.bytes ∧
      Fingerprint.ofBytes (KernelSignature.bytes xs) = .ofBytes (KernelSignature.bytes ys) := by
  have hl := congrArg String.toList h
  simp only [artifactKey, Kernel.ofKernel_eq, KernelSignature.key_ofArgs, String.toList_append,
    List.append_assoc] at hl
  obtain ⟨hkernel, hl⟩ := Fingerprint.hex_append_inj rfl rfl hl
  have hl := List.append_cancel_left hl
  rw [← List.append_nil (Fingerprint.hex _).toList,
    ← List.append_nil (Fingerprint.hex (.ofBytes (KernelSignature.bytes ys))).toList] at hl
  exact ⟨hkernel, (Fingerprint.hex_append_inj rfl rfl hl).1⟩

end Accelerator

end MemoFlow
