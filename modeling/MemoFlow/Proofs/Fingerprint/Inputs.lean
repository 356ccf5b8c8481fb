import Mathlib.Data.List.Forall2
import MemoFlow.Proofs.Bindings
import MemoFlow.Proofs.Fingerprint.Encoding

/-!
# What the bytes of bindings tell

The bytes that are mixed for bindings are names and values one after the other, behind their number.
They can be read back from the front, piece by piece: a piece that is read tells where the next one
begins, and how many of them there are.

* `Stream.concat`: streams one after the other;
* **`Stream.Tells`**, `Tells.append`, `Tells.concat`: what two streams tell of what they were made
  of;
* `Environment.encoding`, `Environment.encodings`, `Environment.IsSized`: the bytes of the values
  that names are bound to, and bindings whose lengths are words;
* `Stream.bindings_tell`, `Stream.inputs_tell`: all bindings, or the declared ones, are told;
* **`Stream.depends_on_declared`**: what the bytes depend on.
-/

namespace MemoFlow

namespace Stream

variable {σ : Type} [IsText σ] {s t s' t' : Stream} {P Q : Prop}

/-! ## Streams one after the other -/

theorem append_nothing (s : Stream) : s ++ nothing = s := by
  cases s with
  | none => rfl
  | some a => exact congrArg some (List.append_nil a)

theorem append_assoc (a b c : Stream) : a ++ b ++ c = a ++ (b ++ c) := by
  cases a with
  | none => rfl
  | some x =>
    cases b with
    | none => rfl
    | some y =>
      cases c with
      | none => rfl
      | some z => exact congrArg some (List.append_assoc x y z)

/-- Streams one after the other. -/
def concat : List Stream → Stream
  | [] => nothing
  | s :: l => s ++ concat l

theorem foldl_append {α : Type} (f : α → Stream) (l : List α) (s : Stream) :
    l.foldl (fun s x => s ++ f x) s = s ++ concat (l.map f) := by
  induction l generalizing s with
  | nil => exact (append_nothing s).symm
  | cons x l ih => rw [List.foldl_cons, ih, List.map_cons, concat, append_assoc]

theorem concat_eq_none_iff {l : List Stream} : concat l = none ↔ none ∈ l := by
  induction l with
  | nil => exact iff_of_false nofun List.not_mem_nil
  | cons s l ih => rw [concat, append_eq_none_iff, ih, List.mem_cons, eq_comm]

/-! ## Reading streams back -/

/-- **Two streams tell** a fact about what they were made of: with anything behind them, they are
the same bytes only when it holds, and then what is behind them is the same, too. -/
def Tells (s t : Stream) (P : Prop) : Prop :=
  ∀ a b r u : List UInt8, s = some a → t = some b → a ++ r = b ++ u → P ∧ r = u

namespace Tells

theorem refl (s : Stream) : Tells s s True := fun _ _ _ _ ha hb h => by
  obtain rfl := Option.some.inj (ha.symm.trans hb)
  exact ⟨trivial, List.append_cancel_left h⟩

theorem imp (h : Tells s t P) (hPQ : P → Q) : Tells s t Q :=
  fun a b r u ha hb hab => (h a b r u ha hb hab).imp_left hPQ

/-- What comes first is read first, and may tell how to read the rest. -/
theorem append (h : Tells s t P) (h' : P → Tells s' t' Q) : Tells (s ++ s') (t ++ t') (P ∧ Q) := by
  intro a b r u ha hb hab
  obtain ⟨x, x', hx, hx', rfl⟩ := append_eq_some ha
  obtain ⟨y, y', hy, hy', rfl⟩ := append_eq_some hb
  rw [List.append_assoc, List.append_assoc] at hab
  obtain ⟨hP, hab⟩ := h x y _ _ hx hy hab
  obtain ⟨hQ, hru⟩ := h' hP x' y' _ _ hx' hy' hab
  exact ⟨⟨hP, hQ⟩, hru⟩

theorem of_eq (h : Tells s t P) {a : List UInt8} (hs : s = some a) (ht : t = some a) : P :=
  (h a a [] [] hs ht rfl).1

/-- A number that is a word. -/
theorem length {m n : Nat} (hm : m < 2 ^ 64) (hn : n < 2 ^ 64) :
    Tells (word (UInt64.ofNat m)) (word (UInt64.ofNat n)) (m = n) := fun _ _ _ _ ha hb h => by
  obtain rfl := Option.some.inj ha
  obtain rfl := Option.some.inj hb
  exact length_append_inj hm hn h

theorem text {m n : σ} (hm : (textBytes m).length < 2 ^ 64)
    (hn : (textBytes n).length < 2 ^ 64) :
    Tells (Stream.text m) (Stream.text n) (m = n) := fun _ _ _ _ ha hb h => by
  obtain rfl := Option.some.inj ha
  obtain rfl := Option.some.inj hb
  exact (sized_append_inj hm hn h).imp_left IsText.bytes_inj

theorem value {v w : Value σ} (hv : v.IsSized) (hw : w.IsSized) :
    Tells (Stream.value v) (Stream.value w) (Stream.value v = Stream.value w) :=
  fun _ _ _ _ ha hb h =>
    (v.alike_of_append w _ _ _ _ ha hb hv hw h).imp_left Value.Alike.stream_eq

/-- As many streams, one after the other. -/
theorem concat {α β γ : Type} {f : α → Stream} {g : β → Stream} {φ : α → γ} {ψ : β → γ}
    {xs : List α} {ys : List β}
    (h : List.Forall₂ (fun x y => Tells (f x) (g y) (φ x = ψ y)) xs ys) :
    Tells (Stream.concat (xs.map f)) (Stream.concat (ys.map g)) (xs.map φ = ys.map ψ) := by
  induction h with
  | nil => exact (refl nothing).imp fun _ => rfl
  | cons h _ ih =>
    refine (h.append fun _ => ih).imp fun ⟨hxy, hl⟩ => ?_
    rw [List.map_cons, List.map_cons, hxy, hl]

end Tells

/-! ## What names are bound to -/

/-- The bytes of what a name is bound to, or the mark that it is not bound. -/
def content : Option (Value σ) → Stream
  | some v => value v
  | none => bytes [0x08]

theorem declared_eq (env : Environment σ) (n : σ) :
    declared env n = text n ++ content (env.find? n) := by
  rw [declared]
  cases env.find? n <;> rfl

/-- The mark of a name that is not bound is no value. -/
theorem content_ne {v : Value σ} {a r u : List UInt8} (ha : value v = some a) :
    a ++ r ≠ [0x08] ++ u := fun h => by
  obtain ⟨b, rfl⟩ := Value.stream_eq_cons ha
  have hkind : v.kindByte = 0x08 := (List.cons.inj h).1
  cases v <;> simp [Value.kindByte] at hkind

theorem Tells.content {o p : Option (Value σ)} (ho : ∀ v, o = some v → v.IsSized)
    (hp : ∀ v, p = some v → v.IsSized) :
    Tells (content o) (content p) (o.map Stream.value = p.map Stream.value) := by
  cases o with
  | none =>
    cases p with
    | none => exact (Tells.refl _).imp fun _ => rfl
    | some w => exact fun _ _ _ _ ha hb h => absurd h.symm (Option.some.inj ha ▸ content_ne hb)
  | some v =>
    cases p with
    | none => exact fun _ _ _ _ ha hb h => absurd h (Option.some.inj hb ▸ content_ne ha)
    | some w => exact (Tells.value (ho v rfl) (hp w rfl)).imp (congrArg some)

theorem content_congr {o p : Option (Value σ)} (h : o.map value = p.map value) :
    content o = content p := by
  cases o with
  | none =>
    cases p with
    | none => rfl
    | some w => exact nomatch h
  | some v =>
    cases p with
    | none => exact nomatch h
    | some w => exact Option.some.inj h

end Stream

/-! ## Bindings -/

namespace Environment

open NameMap

variable {σ : Type} [IsText σ] {a b : Environment σ}

/-- The bytes of the value of a name, if it is bound. -/
def encoding (env : Environment σ) (n : σ) : Option Stream := (env.find? n).map Stream.value

/-- The bound names with the bytes of their values, in ascending order. -/
def encodings (env : Environment σ) : List (σ × Stream) :=
  env.toList.map fun p => (p.1, Stream.value p.2)

/-- The lengths in bindings are words. -/
structure IsSized (env : Environment σ) : Prop where
  /-- The number of bindings. -/
  size : env.size < 2 ^ 64
  /-- The length of each name. -/
  names : ∀ n v, env.find? n = some v → (Stream.textBytes n).length < 2 ^ 64
  /-- The lengths in each value. -/
  values : ∀ n v, env.find? n = some v → v.IsSized

theorem find?_one (n k : σ) (v : Value σ) :
    (ofList [(n, v)]).find? k = if n = k then some v else none := NameMap.find?_insert ∅ n k v

/-- One binding. -/
theorem IsSized.one {n : σ} {v : Value σ} (hn : (Stream.textBytes n).length < 2 ^ 64)
    (hv : v.IsSized) : (ofList [(n, v)]).IsSized := by
  refine ⟨by change 1 < 2 ^ 64; decide, fun k w hw => ?_, fun k w hw => ?_⟩ <;>
    rw [find?_one, Option.ite_none_right_eq_some] at hw
  · exact hw.1 ▸ hn
  · exact Option.some.inj hw.2 ▸ hv

theorem mem_toList {env : Environment σ} {p : σ × Value σ} :
    p ∈ env.toList ↔ env.find? p.1 = some p.2 :=
  (findIn_eq_some_iff env.bindings.sorted).symm

theorem sorted_encodings (env : Environment σ) :
    env.encodings.Pairwise fun p q => p.1 < q.1 := List.pairwise_map.2 env.bindings.sorted

theorem IsSized.length_encodings {env : Environment σ} (h : env.IsSized) :
    env.encodings.length < 2 ^ 64 := by
  rw [encodings, List.length_map]
  exact h.size

theorem encoding_eq (env : Environment σ) (n : σ) : env.encoding n = findIn n env.encodings :=
  (findIn_map Stream.value env.toList).symm

theorem encodings_eq_iff : a.encodings = b.encodings ↔ ∀ n, a.encoding n = b.encoding n := by
  refine ⟨fun h n => by rw [encoding_eq, encoding_eq, h], fun h => ?_⟩
  refine eq_of_findIn a.sorted_encodings b.sorted_encodings fun n => ?_
  rw [← encoding_eq, ← encoding_eq, h]

end Environment

namespace Stream

variable {σ : Type} [IsText σ] {a b : Environment σ} {names names' : List σ} {n : σ}

/-! ### All bindings -/

/-- A binding: its name and the bytes of its value, behind the byte of bindings. -/
def binding (p : σ × Stream) : Stream := bytes [0x09] ++ text p.1 ++ p.2

theorem bindings_eq (env : Environment σ) :
    bindings env = word (UInt64.ofNat env.encodings.length) ++
      concat (env.encodings.map binding) := by
  have hfold := foldl_append (fun p => bytes [0x09] ++ text p.1 ++ value p.2) env.toList
    (word (UInt64.ofNat env.size))
  rw [Environment.encodings, List.length_map, List.map_map]
  exact hfold

theorem binding_tells (ha : a.IsSized) (hb : b.IsSized) {p q : σ × Stream}
    (hp : p ∈ a.encodings) (hq : q ∈ b.encodings) : Tells (binding p) (binding q) (p = q) := by
  obtain ⟨p, hbound, rfl⟩ := List.mem_map.1 hp
  obtain ⟨q, hbound', rfl⟩ := List.mem_map.1 hq
  have hp := Environment.mem_toList.1 hbound
  have hq := Environment.mem_toList.1 hbound'
  have hname := (Tells.refl (bytes [0x09])).append fun _ =>
    Tells.text (ha.names _ _ hp) (hb.names _ _ hq)
  exact (hname.append fun _ => .value (ha.values _ _ hp) (hb.values _ _ hq)).imp
    fun h => Prod.ext h.1.2 h.2

theorem bindings_tell (ha : a.IsSized) (hb : b.IsSized) :
    Tells (bindings a) (bindings b) (a.encodings = b.encodings) := by
  rw [bindings_eq, bindings_eq]
  have hitems : a.encodings.length = b.encodings.length →
      Tells (concat (a.encodings.map binding)) (concat (b.encodings.map binding))
        (a.encodings.map id = b.encodings.map id) := fun hl =>
    .concat (List.forall₂_iff_zip.2 ⟨hl, fun hpq =>
      binding_tells ha hb (List.of_mem_zip hpq).1 (List.of_mem_zip hpq).2⟩)
  exact ((Tells.length ha.length_encodings hb.length_encodings).append hitems).imp
    fun h => by simpa using h.2

theorem bindings_congr (h : a.encodings = b.encodings) : bindings a = bindings b := by
  rw [bindings_eq, bindings_eq, h]

theorem exists_bindings {env : Environment σ} (h : ∀ n v, env.find? n = some v → ¬ v.IsOpaque) :
    ∃ x, bindings env = some x := by
  refine Option.ne_none_iff_exists'.1 fun hnone => ?_
  rw [bindings_eq, append_eq_none_iff, concat_eq_none_iff] at hnone
  obtain hnone := hnone.resolve_left nofun
  obtain ⟨_, hp, hnone⟩ := List.mem_map.1 hnone
  obtain ⟨p, hp', rfl⟩ := List.mem_map.1 hp
  have hvalue := (append_eq_none_iff.1 hnone).resolve_left nofun
  exact h p.1 p.2 (Environment.mem_toList.1 hp') ((Value.stream_eq_none_iff p.2).1 hvalue)

/-! ### Declared names -/

theorem inputs_eq (env : Environment σ) (names : List σ) :
    inputs env names = word (UInt64.ofNat (nameSet names).length) ++
      concat ((nameSet names).map (declared env)) :=
  foldl_append (declared env) (nameSet names) _

theorem mem_nameSet : n ∈ nameSet names ↔ n ∈ names := by
  rw [nameSet, NameMap.mem_keys_ofList, List.map_map]
  exact (List.map_id names).symm ▸ Iff.rfl

/-- The set of some names is known by its members. -/
theorem nameSet_eq_iff : nameSet names = nameSet names' ↔ ∀ n, n ∈ names ↔ n ∈ names' := by
  refine ⟨fun h n => by rw [← mem_nameSet, h, mem_nameSet], fun h => ?_⟩
  refine congrArg NameMap.keys (NameMap.ext_find? fun n => ?_)
  have hbound : ∀ l : List σ, ((NameMap.ofList (l.map fun n => (n, ()))).find? n).isSome =
      decide (n ∈ l) := fun l => NameMap.findIn_isSome.trans (decide_eq_decide.2 mem_nameSet)
  have hsome := (hbound names).trans ((decide_eq_decide.2 (h n)).trans (hbound names').symm)
  cases hm : (NameMap.ofList (names.map fun n => (n, ()))).find? n <;>
    cases hm' : (NameMap.ofList (names'.map fun n => (n, ()))).find? n <;>
    simp_all

theorem declared_tells (ha : a.IsSized) (hb : b.IsSized) {m n : σ} {P : Prop}
    (h : Tells (text m) (text n) P) :
    Tells (declared a m) (declared b n) (P ∧ a.encoding m = b.encoding n) := by
  rw [declared_eq, declared_eq]
  exact h.append fun _ => .content (ha.values m) (hb.values n)

theorem inputs_tell (ha : a.IsSized) (hb : b.IsSized) (names : List σ) :
    Tells (inputs a names) (inputs b names) (∀ n ∈ names, a.encoding n = b.encoding n) := by
  rw [inputs_eq, inputs_eq]
  refine ((Tells.refl _).append fun _ => Tells.concat (φ := a.encoding) (ψ := b.encoding)
    (List.forall₂_same.2 fun n _ => (declared_tells ha hb (.refl _)).imp And.right)).imp ?_
  exact fun h n hn => List.map_inj_left.1 h.2 n (mem_nameSet.2 hn)

theorem inputs_congr (h : ∀ n ∈ names, a.encoding n = b.encoding n) :
    inputs a names = inputs b names := by
  rw [inputs_eq, inputs_eq]
  refine congrArg (word _ ++ concat ·) (List.map_congr_left fun n hn => ?_)
  rw [declared_eq, declared_eq, content_congr (h n (mem_nameSet.1 hn))]

theorem exists_inputs {env : Environment σ}
    (h : ∀ n ∈ names, ∀ v, env.find? n = some v → ¬ v.IsOpaque) :
    ∃ x, inputs env names = some x := by
  refine Option.ne_none_iff_exists'.1 fun hnone => ?_
  rw [inputs_eq, append_eq_none_iff, concat_eq_none_iff] at hnone
  obtain ⟨n, hn, hnone⟩ := List.mem_map.1 (hnone.resolve_left nofun)
  rw [declared_eq] at hnone
  have hcontent := (append_eq_none_iff.1 hnone).resolve_left nofun
  cases hv : env.find? n with
  | none =>
    rw [hv] at hcontent
    exact nomatch hcontent
  | some v =>
    rw [hv] at hcontent
    exact h n (mem_nameSet.1 hn) v hv ((Value.stream_eq_none_iff v).1 hcontent)

/-! ## What the bytes depend on -/

theorem environment_nil (env : Environment σ) : environment env [] = bindings env := rfl

theorem environment_of_ne_nil (h : names ≠ []) (env : Environment σ) :
    environment env names = inputs env names := if_neg (by simpa using h)

/-- **The bytes of bindings depend on just the declared ones.** Two environments in which every
declared value can be compared by content have bytes, and these are the same exactly when each
declared name is bound in none of them or in both, with the same bytes of its values. The order of
the declared names, repetitions and other bindings do not count. When no name is declared, the bytes
are the same exactly when the same names are bound, with the same bytes of their values. -/
theorem depends_on_declared {σ : Type} [IsText σ] :
    (∀ (names : List σ) (a b : Environment σ), names ≠ [] → a.IsSized → b.IsSized →
      (∀ n ∈ names, ∀ v, a.find? n = some v ∨ b.find? n = some v → ¬ v.IsOpaque) →
      ∃ x y, environment a names = some x ∧ environment b names = some y ∧
        (x = y ↔ ∀ n ∈ names, a.encoding n = b.encoding n)) ∧
    (∀ (names names' : List σ) (a b : Environment σ), names ≠ [] →
      (∀ n, n ∈ names ↔ n ∈ names') → (∀ n ∈ names, a.find? n = b.find? n) →
      environment a names = environment b names') ∧
    (∀ a b : Environment σ, a.IsSized → b.IsSized →
      (∀ n v, a.find? n = some v ∨ b.find? n = some v → ¬ v.IsOpaque) →
      ∃ x y, environment a [] = some x ∧ environment b [] = some y ∧
        (x = y ↔ ∀ n, a.encoding n = b.encoding n)) := by
  refine ⟨fun names a b hne ha hb h => ?_, fun names names' a b hne hmem h => ?_,
    fun a b ha hb h => ?_⟩
  · obtain ⟨x, hx⟩ := exists_inputs fun n hn v hv => h n hn v (.inl hv)
    obtain ⟨y, hy⟩ := exists_inputs fun n hn v hv => h n hn v (.inr hv)
    rw [environment_of_ne_nil hne, environment_of_ne_nil hne]
    refine ⟨x, y, hx, hy, fun hxy => (inputs_tell ha hb names).of_eq hx (hxy ▸ hy), fun heq => ?_⟩
    exact Option.some.inj (hx.symm.trans ((inputs_congr heq).trans hy))
  · have hne' : names' ≠ [] := fun hnil => by
      obtain ⟨n, hn⟩ := List.exists_mem_of_ne_nil names hne
      exact List.not_mem_nil (hnil ▸ (hmem n).1 hn)
    rw [environment_of_ne_nil hne, environment_of_ne_nil hne',
      inputs_congr fun n hn => congrArg (Option.map value) (h n hn), inputs, inputs,
      nameSet_eq_iff.2 hmem]
  · obtain ⟨x, hx⟩ := exists_bindings fun n v hv => h n v (.inl hv)
    obtain ⟨y, hy⟩ := exists_bindings fun n v hv => h n v (.inr hv)
    rw [environment_nil, environment_nil]
    refine ⟨x, y, hx, hy, fun hxy => ?_, fun heq => ?_⟩
    · exact Environment.encodings_eq_iff.1 ((bindings_tell ha hb).of_eq hx (hxy ▸ hy))
    · rw [← Environment.encodings_eq_iff] at heq
      exact Option.some.inj (hx.symm.trans ((bindings_congr heq).trans hy))

/-- The zeros of both signs have the same bytes; other bindings, the order of names and repetitions
do not count. -/
theorem depends_on_declared_of_zeros :
    let a := Environment.ofList [("a", .dbl 0.0)]
    let b := Environment.ofList [("a", .dbl (-0.0))]
    (a.IsSized ∧ b.IsSized ∧ ∀ n v, a.find? n = some v ∨ b.find? n = some v → ¬ v.IsOpaque) ∧
      environment a ["b", "a", "b"] = environment b ["b", "a", "b"] ∧
      environment a ["b", "a", "b"] =
        environment (a.define "f" (.handle "closure" none)) ["a", "b"] ∧
      environment a [] = environment b [] := by
  intro a b
  have hname : (textBytes "a").length < 2 ^ 64 := by
    rw [textBytes_eq]
    decide +kernel
  have ha : a.IsSized := .one hname trivial
  have hb : b.IsSized := .one hname trivial
  have hzero : ∀ n, a.encoding n = b.encoding n := fun n => by
    rw [Environment.encoding, Environment.encoding, Environment.find?_one, Environment.find?_one]
    split
    · decide +kernel
    · rfl
  have hplain : ∀ n v, a.find? n = some v ∨ b.find? n = some v → ¬ v.IsOpaque := fun n v hv => by
    rw [Environment.find?_one, Environment.find?_one, Option.ite_none_right_eq_some,
      Option.ite_none_right_eq_some] at hv
    obtain ⟨-, hv⟩ | ⟨-, hv⟩ := hv <;> exact Option.some.inj hv ▸ id
  refine ⟨⟨ha, hb, hplain⟩, ?_, ?_, ?_⟩
  · obtain ⟨x, y, hx, hy, hiff⟩ := depends_on_declared.1 ["b", "a", "b"] a b (List.cons_ne_nil _ _)
      ha hb fun n _ => hplain n
    rw [hx, hy, hiff.2 fun n _ => hzero n]
  · refine depends_on_declared.2.1 _ _ a (a.define "f" (.handle "closure" none))
      (List.cons_ne_nil _ _) (fun n => ?_) fun n hn => ?_
    · simp only [List.mem_cons, List.not_mem_nil, or_false]
      tauto
    · rw [Environment.find?_define, if_neg]
      rintro rfl
      exact absurd hn (by decide)
  · obtain ⟨x, y, hx, hy, hiff⟩ := depends_on_declared.2.2 a b ha hb hplain
    rw [hx, hy, hiff.2 hzero]

end Stream

end MemoFlow
