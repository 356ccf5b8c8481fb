import MemoFlow.Proofs.Fingerprint.Inputs

/-!
# All bindings and declared names

All bindings are fed with a byte before each name, declared names without it. So the length of the
first name stands one byte further on in the one case, and the bytes of both can be the same: when
the length of the first declared name, read with that byte, makes up for it.

* `Stream.shifted_length_iff`: a length behind the byte of bindings, read as a length;
* `Stream.AreSizedNames`, **`Stream.Crosses`**: names whose lengths are words, and bindings whose
  bytes are those of declared names;
* `Stream.crosses_iff`, `Crosses.head`: crossing is just that, and takes a name that is made for it;
* **`Stream.declarations_tell_iff`**: the bytes tell which names were declared, but for a crossing.
-/

namespace MemoFlow

namespace Stream

variable {σ : Type} [IsText σ] {a b : Environment σ} {names names' : List σ}

/-! ## Lengths that are moved -/

/-- A word, byte by byte. -/
theorem wordBytes_ofNat (k : Nat) :
    wordBytes (UInt64.ofNat k) = (List.range 8).map fun i => UInt8.ofNat (k / 2 ^ (8 * i)) := by
  refine List.map_congr_left fun i hi => UInt8.toNat_inj.1 ?_
  have hi : i < 8 := List.mem_range.1 hi
  rw [UInt64.toNat_toUInt8, UInt64.toNat_shiftRight, UInt64.toNat_mul, UInt64.toNat_ofNat',
    UInt64.toNat_ofNat', UInt8.toNat_ofNat', Nat.shiftRight_eq_div_pow]
  interval_cases i <;> simp <;> omega

/-- A length behind the byte of bindings reads as a longer one, whose bytes are moved by one: the
last byte of the length is left over. -/
theorem shifted_length_iff {l m : Nat} (hl : l < 2 ^ 64) {r u : List UInt8} :
    [0x09] ++ wordBytes (UInt64.ofNat m) ++ r = wordBytes (UInt64.ofNat l) ++ u ↔
      l = 9 + 256 * (m % 2 ^ 56) ∧ UInt8.ofNat (m / 2 ^ 56) :: r = u := by
  have h8 : List.range 8 = [0, 1, 2, 3, 4, 5, 6, 7] := rfl
  rw [wordBytes_ofNat, wordBytes_ofNat, h8]
  have h9 : (9 : UInt8).toNat = 9 := rfl
  simp only [List.map_cons, List.map_nil, List.cons_append, List.nil_append, List.cons.injEq,
    ← UInt8.toNat_inj, UInt8.toNat_ofNat', h9, Nat.reduceMul, Nat.reducePow, Nat.div_one]
  constructor
  · rintro ⟨h0, h1, h2, h3, h4, h5, h6, h7, rfl⟩
    exact ⟨by omega, rfl⟩
  · rintro ⟨rfl, rfl⟩
    refine ⟨?_, ?_, ?_, ?_, ?_, ?_, ?_, ?_, rfl⟩ <;> omega

/-! ## Crossing -/

/-- The lengths of some names are words, and so is their number. -/
structure AreSizedNames (names : List σ) : Prop where
  /-- How many different names there are. -/
  count : (nameSet names).length < 2 ^ 64
  /-- The length of each name. -/
  each : ∀ n ∈ names, (textBytes n).length < 2 ^ 64

theorem AreSizedNames.one {n : σ} (hn : (textBytes n).length < 2 ^ 64) : AreSizedNames [n] :=
  ⟨by change 1 < 2 ^ 64; decide, fun k hk => List.mem_singleton.1 hk ▸ hn⟩

/-- **All bindings of `a` cross declared names in `b`**: there are as many of both, the least
declared name `n` has the bytes that the length of the least bound name `m` stands for when it is
moved by one byte, and from the last byte of that length on the bytes are the same. -/
inductive Crosses (a b : Environment σ) (names : List σ) : Prop where
  | intro {m n : σ} {e : Stream} {ps : List (σ × Stream)} {ns : List σ}
      {x y : List UInt8} (bound : a.encodings = (m, e) :: ps) (least : nameSet names = n :: ns)
      (count : ps.length = ns.length)
      (length : (textBytes n).length = 9 + 256 * ((textBytes m).length % 2 ^ 56))
      (left : e ++ concat (ps.map binding) = some x)
      (right : content (b.find? n) ++ concat (ns.map (declared b)) = some y)
      (bytes : UInt8.ofNat ((textBytes m).length / 2 ^ 56) :: (textBytes m ++ x) =
        textBytes n ++ y)

theorem some_append_eq_some_iff {a z : List UInt8} {s : Stream} :
    (some a : Stream) ++ s = some z ↔ ∃ x, s = some x ∧ a ++ x = z := by
  cases s with
  | none => exact iff_of_false nofun nofun
  | some x =>
    refine ⟨fun h => ⟨x, rfl, Option.some.inj h⟩, fun ⟨y, hy, hz⟩ => ?_⟩
    obtain rfl := Option.some.inj hy
    exact congrArg some hz

theorem counts_iff {k l : Nat} (hk : k < 2 ^ 64) (hl : l < 2 ^ 64) {s t : Stream} :
    (∃ z, word (UInt64.ofNat k) ++ s = some z ∧ word (UInt64.ofNat l) ++ t = some z) ↔
      k = l ∧ ∃ z, s = some z ∧ t = some z := by
  simp only [word, some_append_eq_some_iff]
  constructor
  · rintro ⟨z, ⟨x, hx, rfl⟩, y, hy, hz⟩
    obtain ⟨rfl, rfl⟩ := length_append_inj hl hk hz
    exact ⟨rfl, _, hx, hy⟩
  · rintro ⟨rfl, z, hs, ht⟩
    exact ⟨_, ⟨z, hs, rfl⟩, z, ht, rfl⟩

/-- A binding and a declared name that begin the same bytes. -/
theorem heads_iff {m n : σ} {e s t : Stream} (hn : (textBytes n).length < 2 ^ 64) :
    (∃ z, binding (m, e) ++ s = some z ∧ declared b n ++ t = some z) ↔
      (textBytes n).length = 9 + 256 * ((textBytes m).length % 2 ^ 56) ∧
        ∃ x y, e ++ s = some x ∧ content (b.find? n) ++ t = some y ∧
          UInt8.ofNat ((textBytes m).length / 2 ^ 56) :: (textBytes m ++ x) =
            textBytes n ++ y := by
  have hmark : bytes [0x09] ++ text m =
      some ([0x09] ++ wordBytes (UInt64.ofNat (textBytes m).length) ++ textBytes m) := by
    rw [List.append_assoc]
    rfl
  have hbinding : binding (m, e) ++ s = bytes [0x09] ++ text m ++ (e ++ s) := append_assoc _ _ _
  have htext : text n =
      some (wordBytes (UInt64.ofNat (textBytes n).length) ++ textBytes n) := rfl
  rw [hbinding, hmark, declared_eq, append_assoc, htext]
  simp only [some_append_eq_some_iff]
  constructor
  · rintro ⟨z, ⟨x, hx, rfl⟩, y, hy, hz⟩
    rw [List.append_assoc, List.append_assoc] at hz
    obtain ⟨hlength, hbytes⟩ := (shifted_length_iff hn).1 hz.symm
    exact ⟨hlength, x, y, hx, hy, hbytes⟩
  · rintro ⟨hlength, x, y, hx, hy, hbytes⟩
    refine ⟨_, ⟨x, hx, rfl⟩, y, hy, ?_⟩
    rw [List.append_assoc, List.append_assoc]
    exact ((shifted_length_iff hn).2 ⟨hlength, hbytes⟩).symm

/-- **All bindings have the bytes of declared names** exactly when they cross. -/
theorem crosses_iff (ha : a.IsSized) (hs : AreSizedNames names) (hne : names ≠ []) :
    (∃ z, bindings a = some z ∧ inputs b names = some z) ↔ Crosses a b names := by
  obtain ⟨n, ns, hns⟩ : ∃ n ns, nameSet names = n :: ns := by
    obtain ⟨n, hn⟩ := List.exists_mem_of_ne_nil names hne
    exact List.exists_cons_of_ne_nil (List.ne_nil_of_mem (mem_nameSet.2 hn))
  have hn : n ∈ names := mem_nameSet.1 (hns ▸ List.mem_cons_self)
  rw [bindings_eq, inputs_eq, counts_iff ha.length_encodings hs.count, hns]
  constructor
  · rintro ⟨hlength, h⟩
    cases hbound : a.encodings with
    | nil =>
      rw [hbound] at hlength
      exact absurd hlength (Nat.succ_ne_zero _).symm
    | cons p ps =>
      rw [hbound] at hlength h
      obtain ⟨hlen, x, y, hx, hy, hbytes⟩ := (heads_iff (hs.each n hn)).1 h
      exact .intro hbound hns (Nat.succ.inj hlength) hlen hx hy hbytes
  · rintro ⟨hbound, hleast, hcount, hlength, hx, hy, hbytes⟩
    obtain ⟨rfl, rfl⟩ := List.cons.inj (hns.symm.trans hleast)
    rw [hbound]
    exact ⟨congrArg (· + 1) hcount,
      (heads_iff (hs.each n hn)).2 ⟨hlength, _, _, hx, hy, hbytes⟩⟩

/-- A crossing takes a declared name whose length and first byte are made for it. -/
theorem Crosses.head (h : Crosses a b names) :
    ∃ n ∈ names, ∃ m, a.contains m = true ∧
      (textBytes n).length = 9 + 256 * ((textBytes m).length % 2 ^ 56) ∧
        ∃ r, textBytes n = UInt8.ofNat ((textBytes m).length / 2 ^ 56) :: r := by
  obtain @⟨m, n, e, ps, ns, x, y, hbound, hleast, -, hlength, -, -, hbytes⟩ := h
  refine ⟨n, mem_nameSet.1 (hleast ▸ List.mem_cons_self), m, ?_, hlength, ?_⟩
  · have hm : a.encoding m = some e := by
      rw [Environment.encoding_eq, hbound, NameMap.findIn, if_pos rfl]
    rw [Environment.encoding, Option.map_eq_some_iff] at hm
    obtain ⟨v, hv, -⟩ := hm
    exact Option.isSome_iff_exists.2 ⟨v, hv⟩
  · cases ht : textBytes n with
    | nil =>
      rw [ht, List.length_nil] at hlength
      omega
    | cons c r =>
      rw [ht] at hbytes
      exact ⟨r, by rw [(List.cons.inj hbytes).1]⟩

theorem Crosses.ne_nil (h : Crosses a b names) : names ≠ [] := fun hnil => by
  obtain ⟨n, hn, -⟩ := h.head
  exact List.not_mem_nil (hnil ▸ hn)

/-! ## What the bytes tell of declared names -/

/-- Declared names with the same bytes are the same set. -/
theorem members_of_inputs (ha : a.IsSized) (hb : b.IsSized) (hs : AreSizedNames names)
    (hs' : AreSizedNames names') {x : List UInt8} (h : inputs a names = some x)
    (h' : inputs b names' = some x) : ∀ n, n ∈ names ↔ n ∈ names' := by
  refine nameSet_eq_iff.1 ?_
  have htell : Tells (inputs a names) (inputs b names')
      ((nameSet names).map id = (nameSet names').map id) := by
    rw [inputs_eq, inputs_eq]
    refine ((Tells.length hs.count hs'.count).append fun hl => Tells.concat
      (List.forall₂_iff_zip.2 ⟨hl, fun {m n} hmn => ?_⟩)).imp And.right
    obtain ⟨hm, hn⟩ := List.of_mem_zip hmn
    exact (declared_tells ha hb (.text (hs.each m (mem_nameSet.1 hm))
      (hs'.each n (mem_nameSet.1 hn)))).imp And.left
  simpa using htell.of_eq h h'

/-- **The bytes of bindings tell which names were declared** unless all bindings of the one
environment cross the declared names in the other. -/
theorem declarations_tell_iff (ha : a.IsSized) (hb : b.IsSized) (hs : AreSizedNames names)
    (hs' : AreSizedNames names') {x y : List UInt8} (hx : environment a names = some x)
    (hy : environment b names' = some y) :
    ((x = y → ∀ n, n ∈ names ↔ n ∈ names') ↔
      ¬ (names = [] ∧ Crosses a b names') ∧ ¬ (names' = [] ∧ Crosses b a names)) ∧
    (x = y → (∀ n, n ∈ names ↔ n ∈ names') ∨
      ∃ n ∈ names ++ names', ∃ m, (a.contains m = true ∨ b.contains m = true) ∧
        (textBytes n).length = 9 + 256 * ((textBytes m).length % 2 ^ 56) ∧
          ∃ r, textBytes n = UInt8.ofNat ((textBytes m).length / 2 ^ 56) :: r) := by
  have hsame : x = y → (∀ n, n ∈ names ↔ n ∈ names') ∨
      names = [] ∧ Crosses a b names' ∨ names' = [] ∧ Crosses b a names := by
    rintro rfl
    by_cases hnil : names = [] <;> by_cases hnil' : names' = []
    · exact .inl fun n => by rw [hnil, hnil']
    · rw [environment_of_ne_nil hnil'] at hy
      subst hnil
      exact .inr (.inl ⟨rfl, (crosses_iff ha hs' hnil').1 ⟨x, hx, hy⟩⟩)
    · rw [environment_of_ne_nil hnil] at hx
      subst hnil'
      exact .inr (.inr ⟨rfl, (crosses_iff hb hs hnil).1 ⟨x, hy, hx⟩⟩)
    · rw [environment_of_ne_nil hnil] at hx
      rw [environment_of_ne_nil hnil'] at hy
      exact .inl (members_of_inputs ha hb hs hs' hx hy)
  have hcross : ∀ {a b : Environment σ} {names : List σ} {x y : List UInt8}, a.IsSized →
      AreSizedNames names → Crosses a b names → bindings a = some x →
      environment b names = some y → x = y ∧ ∃ n, n ∈ names := fun ha hs h hx hy => by
    rw [environment_of_ne_nil h.ne_nil] at hy
    obtain ⟨z, hz, hz'⟩ := (crosses_iff ha hs h.ne_nil).2 h
    rw [hx] at hz
    rw [hy] at hz'
    exact ⟨(Option.some.inj hz).trans (Option.some.inj hz').symm,
      List.exists_mem_of_ne_nil _ h.ne_nil⟩
  refine ⟨⟨fun h => ⟨?_, ?_⟩, fun ⟨h, h'⟩ hxy => ?_⟩, fun hxy => ?_⟩
  · rintro ⟨rfl, hc⟩
    obtain ⟨hxy, n, hn⟩ := hcross ha hs' hc hx hy
    exact List.not_mem_nil ((h hxy n).2 hn)
  · rintro ⟨rfl, hc⟩
    obtain ⟨hxy, n, hn⟩ := hcross hb hs hc hy hx
    exact List.not_mem_nil ((h hxy.symm n).1 hn)
  · exact (hsame hxy).resolve_right (not_or.2 ⟨h, h'⟩)
  · refine (hsame hxy).imp_right ?_
    rintro (⟨-, hc⟩ | ⟨-, hc⟩)
    · obtain ⟨n, hn, m, hm, hhead⟩ := hc.head
      exact ⟨n, List.mem_append_right _ hn, m, .inl hm, hhead⟩
    · obtain ⟨n, hn, m, hm, hhead⟩ := hc.head
      exact ⟨n, List.mem_append_left _ hn, m, .inr hm, hhead⟩

/-- All of an environment and one declared name with the same bytes: a stage that reads all bindings
and a stage that declares the name share their identities, whatever their source text is. -/
theorem declarations_cross :
    let a := Environment.ofList [("", .int 0x0161616161616161)]
    let b := Environment.ofList [("\x00\x02aaaaaaa", .nil)]
    let names := ["\x00\x02aaaaaaa"]
    (a.IsSized ∧ b.IsSized ∧ AreSizedNames ([] : List String) ∧ AreSizedNames names) ∧
      (∃ x, environment a [] = some x ∧ environment b names = some x) ∧
      ¬ (∀ n, n ∈ [] ↔ n ∈ names) ∧ Crosses a b names ∧
      ∀ source, Fingerprint.ofRequest source a [] = Fingerprint.ofRequest source b names := by
  intro a b names
  have hname : textBytes "\x00\x02aaaaaaa" = [0, 2, 97, 97, 97, 97, 97, 97, 97] := by
    rw [textBytes_eq]
    decide +kernel
  have hempty : textBytes "" = [] := by
    rw [textBytes_eq]
    decide +kernel
  have ha : a.IsSized := .one (by rw [hempty]; decide) trivial
  have hb : b.IsSized := .one (by rw [hname]; decide) trivial
  have hs : AreSizedNames ([] : List String) := ⟨by decide, fun n hn => absurd hn List.not_mem_nil⟩
  have hs' : AreSizedNames names := .one (by rw [hname]; decide)
  have hleft : bindings a = word 1 ++
      concat [bytes [0x09] ++ text "" ++ value (.int 0x0161616161616161 : Value)] := bindings_eq a
  have hright : inputs b names = word 1 ++
      concat [text "\x00\x02aaaaaaa" ++ bytes [0x01]] := by
    rw [inputs_eq]
    exact congrArg (word 1 ++ concat [·])
      ((declared_eq b _).trans (by rw [Environment.find?_one, if_pos rfl]; rfl))
  obtain ⟨x, hx⟩ : ∃ x, bindings a = some x := ⟨_, by rw [hleft, text, hempty]; rfl⟩
  have hy : environment b names = some x := by
    rw [environment_of_ne_nil (List.cons_ne_nil _ _), ← hx, hleft, hright, text, text, hname,
      hempty]
    decide +kernel
  have hdiffer : ¬ ∀ n, n ∈ [] ↔ n ∈ names := fun h =>
    List.not_mem_nil ((h "\x00\x02aaaaaaa").2 List.mem_cons_self)
  have hcross : Crosses a b names := Classical.byContradiction fun hc => hdiffer
    ((declarations_tell_iff ha hb hs hs' hx hy).1.2
      ⟨fun h => hc h.2, fun h => List.cons_ne_nil _ _ h.1⟩ rfl)
  refine ⟨⟨ha, hb, hs, hs'⟩, ⟨x, hx, hy⟩, hdiffer, hcross, fun source => ?_⟩
  rw [Fingerprint.ofRequest, Fingerprint.ofRequest, Fingerprint.ofEnvironment,
    Fingerprint.ofEnvironment, environment_nil, hx, hy]

end Stream

end MemoFlow
