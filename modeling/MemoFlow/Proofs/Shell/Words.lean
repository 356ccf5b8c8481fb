import MemoFlow.Proofs.Kernel.Comment
import MemoFlow.Kernel.Compiler
import Mathlib.Tactic.SplitIfs

/-!
# The words of a command line

A command line is cut into words and operators one byte at a time, by the rules that all shells
share: blanks and operators part words unless they are quoted, quotes are removed, and the longest
operators are taken. A line in which something is left to expand has no words.

* `CommandLine.Lexeme`, `CommandLine.Scan`: words and operators, and a line on its way;
* **`Scan.step`**, `Scan.run`: one more byte, and a whole line;
* `Scan.run_behind`: what has been read before does not matter;
* **`CommandLine.lexemes?`**, `CommandLine.words?`: the lexemes of a line, and its words when it has
  no others;
* **`Scan.run_escape`**: an escaped word is read as the word;
* **`CommandLine.lexemes?_escapedWords`**: escaped words in front of a line leave it as it is;
* `CommandLine.Whole`: words without NUL, which reach the system in full;
* **`CommandLine.lexemes?_silentLine`**: silenced commands, of which a compilation is one;
* **`CommandLine.words_of_escaped`**: escaped words come back, and a compilation is one command with
  just the words that it is given.
-/

namespace MemoFlow.CommandLine

open Ascii

/-! ## Cutting lines -/

/-- A part of a command line. -/
inductive Lexeme where
  /-- A word, without its quotes. -/
  | word (w : Bytes)
  /-- The number of a descriptor in front of a redirection. -/
  | number (ds : Bytes)
  /-- An operator. -/
  | operator (o : Bytes)
deriving DecidableEq, Repr

/-- How the next byte is quoted. -/
inductive Quotes where
  /-- Not at all. -/
  | bare
  /-- By a backslash. -/
  | escaped
  /-- By single quotes. -/
  | single
  /-- By double quotes. -/
  | double
  /-- By a backslash between double quotes. -/
  | doubleEscaped
deriving DecidableEq, Repr

/-- What has been begun. -/
inductive Begun where
  /-- A word, and whether a part of it is quoted. -/
  | word (w : Bytes) (quoted : Bool)
  /-- An operator. -/
  | operator (o : Bytes)
  /-- A comment. -/
  | comment
deriving DecidableEq, Repr

/-- **A line on its way.** -/
structure Scan where
  /-- How the next byte is quoted. -/
  quotes : Quotes := .bare
  /-- What has been begun. -/
  begun : Option Begun := none
  /-- What has been read. -/
  done : List Lexeme := []
deriving DecidableEq, Repr

/-- The operators. -/
def operators : List Bytes :=
  [['&'], ['&', '&'], [';'], [';', ';'], ['|'], ['|', '|'], ['('], [')'], ['\n'], ['<'], ['<', '<'],
    ['<', '<', '-'], ['<', '&'], ['<', '>'], ['>'], ['>', '>'], ['>', '&'], ['>', '|']].map
      (List.map byte)

/-- Bytes that ask for an expansion or make a pattern when they are not quoted. -/
def active : Bytes := ['$', '`', '~', '*', '?', '['].map byte

namespace Scan

/-- One more byte of a word. -/
def put (quoted : Bool) (b : UInt8) (s : Scan) : Scan :=
  match s.begun with
  | some (.word w q) => { s with begun := some (.word (w ++ [b]) (q || quoted)) }
  | _ => { s with begun := some (.word [b] quoted) }

/-- Quotes are opened: they make a word, even if nothing stands between them. -/
def enter (q : Quotes) (s : Scan) : Scan :=
  match s.begun with
  | some (.word w _) => { s with quotes := q, begun := some (.word w true) }
  | _ => { s with quotes := q, begun := some (.word [] true) }

/-- What has been begun is done. Digits in front of a redirection are a number. -/
def close (next : Option UInt8) (s : Scan) : Scan :=
  match s.begun with
  | some (.word w q) =>
    let isNumber := !q && w.all isDigit && (next = some (byte '<') || next = some (byte '>'))
    { s with begun := none, done := s.done ++ [if isNumber then .number w else .word w] }
  | some (.operator o) => { s with begun := none, done := s.done ++ [.operator o] }
  | _ => { s with begun := none }

/-- Only a word goes on. -/
def leave (s : Scan) : Scan :=
  match s.begun with
  | some (.word ..) => s
  | _ => s.close none

/-- A byte that is not quoted and goes on with no operator. -/
def plainStep (s : Scan) (b : UInt8) : Option Scan :=
  if b = byte '\'' then some (s.enter .single)
  else if b = byte '"' then some (s.enter .double)
  else if b = byte '\\' then some { s with quotes := .escaped }
  else if active.contains b then none
  else if operators.contains [b] then
    some { s.close (some b) with begun := some (.operator [b]) }
  else if b = byte ' ' || b = byte '\t' then some (s.close none)
  else if b = byte '#' && s.begun.isNone then some { s with begun := some .comment }
  else some (s.put false b)

/-- A byte that is not quoted. An operator is as long as it can be, also over the ends of lines that
are joined by a backslash. -/
def bareStep (s : Scan) (b : UInt8) : Option Scan :=
  match s.begun with
  | some .comment => if b = byte '\n' then s.leave.plainStep b else some s
  | some (.operator o) =>
    if operators.contains (o ++ [b]) then some { s with begun := some (.operator (o ++ [b])) }
    else if b = byte '\\' then some { s with quotes := .escaped }
    else s.leave.plainStep b
  | _ => s.plainStep b

/-- **One more byte**; none where something is left to expand. -/
def step (s : Scan) (b : UInt8) : Option Scan :=
  match s.quotes with
  | .bare => s.bareStep b
  | .escaped =>
    if b = byte '\n' then some { s with quotes := .bare }
    else some { s.leave.put true b with quotes := .bare }
  | .single => some (if b = byte '\'' then { s with quotes := .bare } else s.put true b)
  | .double =>
    if b = byte '"' then some { s with quotes := .bare }
    else if b = byte '\\' then some { s with quotes := .doubleEscaped }
    else if b = byte '$' || b = byte '`' then none
    else some (s.put true b)
  | .doubleEscaped =>
    if b = byte '\n' then some { s with quotes := .double }
    else if (['$', '`', '"', '\\'].map byte).contains b then
      some { s.put true b with quotes := .double }
    else some { (s.put true (byte '\\')).put true b with quotes := .double }

/-- **A whole text.** -/
def run (s : Scan) (t : Bytes) : Option Scan := t.foldlM step s

/-- What has been read at the end; none between quotes and behind a backslash. -/
def finish (s : Scan) : Option (List Lexeme) :=
  if s.quotes = .bare then some (s.close none).done else none

end Scan

/-- **The lexemes of a command line.** -/
def lexemes? (t : Bytes) : Option (List Lexeme) := (Scan.run { } t).bind Scan.finish

/-- A lexeme as a word. -/
def Lexeme.word? : Lexeme → Option Bytes
  | .word w => some w
  | _ => none

/-- **The words of a command line** that has nothing but words. -/
def words? (t : Bytes) : Option (List Bytes) := (lexemes? t).bind fun ls => ls.mapM Lexeme.word?

/-! ## What has been read before -/

namespace Scan

variable {s s' : Scan} {b : UInt8} {t u : Bytes} {d : List Lexeme}

/-- A line on its way behind some lexemes. -/
def behind (d : List Lexeme) (s : Scan) : Scan := { s with done := d ++ s.done }

@[simp] theorem quotes_behind (d : List Lexeme) (s : Scan) : (s.behind d).quotes = s.quotes := rfl

@[simp] theorem begun_behind (d : List Lexeme) (s : Scan) : (s.behind d).begun = s.begun := rfl

theorem put_behind (d : List Lexeme) (q : Bool) (b : UInt8) (s : Scan) :
    (s.behind d).put q b = (s.put q b).behind d := by
  unfold put
  rw [begun_behind]
  split <;> rfl

theorem enter_behind (d : List Lexeme) (q : Quotes) (s : Scan) :
    (s.behind d).enter q = (s.enter q).behind d := by
  unfold enter
  rw [begun_behind]
  split <;> rfl

theorem close_behind (d : List Lexeme) (next : Option UInt8) (s : Scan) :
    (s.behind d).close next = (s.close next).behind d := by
  unfold close
  rw [begun_behind]
  split <;> simp [behind]

theorem leave_behind (d : List Lexeme) (s : Scan) : (s.behind d).leave = s.leave.behind d := by
  unfold leave
  rw [begun_behind, close_behind]
  split <;> rfl

theorem plainStep_behind (d : List Lexeme) (s : Scan) (b : UInt8) :
    (s.behind d).plainStep b = (s.plainStep b).map (behind d) := by
  unfold plainStep
  rw [begun_behind, enter_behind, enter_behind, close_behind, close_behind, put_behind]
  split_ifs <;> rfl

theorem bareStep_behind (d : List Lexeme) (s : Scan) (b : UInt8) :
    (s.behind d).bareStep b = (s.bareStep b).map (behind d) := by
  unfold bareStep
  rw [begun_behind, leave_behind, plainStep_behind, plainStep_behind]
  split
  · split_ifs <;> rfl
  · split_ifs <;> rfl
  · rfl

/-- What has been read before does not matter for one more byte. -/
theorem step_behind (d : List Lexeme) (s : Scan) (b : UInt8) :
    (s.behind d).step b = (s.step b).map (behind d) := by
  unfold step
  rw [quotes_behind, bareStep_behind, leave_behind, put_behind, put_behind, put_behind, put_behind]
  cases s.quotes with
  | bare => rfl
  | single => exact congrArg some (by split_ifs <;> rfl)
  | escaped | double | doubleEscaped => dsimp only; split_ifs <;> rfl

@[simp] theorem run_nil (s : Scan) : s.run [] = some s := rfl

theorem run_cons (s : Scan) (b : UInt8) (t : Bytes) :
    s.run (b :: t) = (s.step b).bind fun s' => s'.run t := rfl

theorem run_append (s : Scan) (t u : Bytes) :
    s.run (t ++ u) = (s.run t).bind fun s' => s'.run u := List.foldlM_append

/-- **What has been read before does not matter.** -/
theorem run_behind (d : List Lexeme) (s : Scan) (t : Bytes) :
    (s.behind d).run t = (s.run t).map (behind d) := by
  induction t generalizing s with
  | nil => rfl
  | cons b t ih =>
    rw [run_cons, run_cons, step_behind]
    cases s.step b with
    | none => rfl
    | some s' => exact ih s'

theorem finish_behind (d : List Lexeme) (s : Scan) :
    (s.behind d).finish = s.finish.map (d ++ ·) := by
  unfold finish
  rw [quotes_behind, close_behind]
  split_ifs <;> rfl

end Scan

/-! ## Escaped words -/

open Shell

/-- The bytes besides letters and digits that need no quotes. -/
theorem ofString_marks :
    Bytes.ofString "_/.-+:=" = ['_', '/', '.', '-', '+', ':', '='].map byte := by
  rw [Bytes.ofString_eq]
  rfl

/-- Quotes, blanks, and what could be expanded need quotes. -/
theorem isPlain_of_mem :
    ∀ c ∈ ['\'', '"', '\\', ' ', '\t', '#'].map byte ++ active, isPlain c = false := by
  have hall : (['\'', '"', '\\', ' ', '\t', '#'].map byte ++ active).all (!isPlain ·) := by
    simp only [isPlain, ofString_marks]
    rfl
  simpa using hall

/-- What begins an operator needs quotes. -/
theorem isPlain_of_operator : ∀ o ∈ operators, ∀ c ∈ o.take 1, isPlain c = false := by
  have hall : operators.all fun o => (o.take 1).all (!isPlain ·) := by
    simp only [isPlain, ofString_marks]
    rfl
  simpa using hall

theorem escapeByte_quote : escapeByte (byte '\'') = ['\'', '"', '\'', '"', '\''].map byte := by
  rw [escapeByte, if_pos rfl, Bytes.ofString_eq]
  rfl

theorem escape_of_isPlain {w : Bytes} (hne : w ≠ []) (h : ∀ b ∈ w, isPlain b) : escape w = w := by
  rw [escape, if_neg (by simpa using hne), if_pos (List.all_eq_true.2 h)]

/-- A word is escaped as it is or stands between single quotes. -/
theorem escape_cases (w : Bytes) :
    (w ≠ [] ∧ (∀ b ∈ w, isPlain b) ∧ escape w = w) ∨
      escape w = byte '\'' :: (w.flatMap escapeByte ++ [byte '\'']) := by
  have hquote : Bytes.ofString "'" = [byte '\''] := by rw [Bytes.ofString_eq]; rfl
  cases w with
  | nil =>
    have hnil : escape [] = Bytes.ofString "''" := rfl
    refine .inr ?_
    rw [hnil, Bytes.ofString_eq]
    rfl
  | cons b v =>
    by_cases h : ∀ c ∈ b :: v, isPlain c
    · exact .inl ⟨List.cons_ne_nil b v, h, escape_of_isPlain (List.cons_ne_nil b v) h⟩
    · refine .inr ?_
      rw [escape, if_neg (by simp), if_neg (by rwa [List.all_eq_true]), hquote]
      rfl

namespace Scan

variable {v w : Bytes} {q : Bool} {b : UInt8}

/-- A byte that needs no quotes goes on with a word. -/
theorem plainStep_of_isPlain (s : Scan) (h : isPlain b) : s.plainStep b = some (s.put false b) := by
  have hne : ∀ c ∈ ['\'', '"', '\\', ' ', '\t', '#'].map byte ++ active, b ≠ c := by
    rintro c hc rfl
    exact absurd (isPlain_of_mem b hc) (by simp [h])
  have hactive : ¬ active.contains b := fun hb =>
    hne b (List.mem_append_right _ (List.contains_iff_mem.1 hb)) rfl
  have hoperator : ¬ operators.contains [b] := fun hb =>
    absurd (isPlain_of_operator [b] (List.contains_iff_mem.1 hb) b (by simp)) (by simp [h])
  simp only [List.map_cons, List.cons_append, List.forall_mem_cons] at hne
  obtain ⟨hsingle, hdouble, hslash, hspace, htab, hhash, -⟩ := hne
  rw [plainStep, if_neg hsingle, if_neg hdouble, if_neg hslash, if_neg hactive, if_neg hoperator,
    if_neg (by simp [hspace, htab]), if_neg (by simp [hhash])]

theorem run_plain (h : ∀ b ∈ v, isPlain b) :
    run { begun := some (.word w q) } v = some { begun := some (.word (w ++ v) q) } := by
  induction v generalizing w q with
  | nil => rw [List.append_nil, run_nil]
  | cons b v ih =>
    rw [List.forall_mem_cons] at h
    have hstep : step { begun := some (.word w q) } b =
        some { begun := some (.word (w ++ [b]) q) } := by
      refine (plainStep_of_isPlain _ h.1).trans ?_
      simp [put]
    rw [run_cons, hstep, Option.bind_some, ih h.2, List.append_assoc, List.singleton_append]

/-- Between single quotes all bytes stand for themselves, but for a quote, which leaves them. -/
theorem run_quoted (w v : Bytes) :
    run { quotes := .single, begun := some (.word w true) } (v.flatMap escapeByte) =
      some { quotes := .single, begun := some (.word (w ++ v) true) } := by
  induction v generalizing w with
  | nil => rw [List.append_nil]; rfl
  | cons b v ih =>
    have hstep : run { quotes := .single, begun := some (.word w true) } (escapeByte b) =
        some { quotes := .single, begun := some (.word (w ++ [b]) true) } := by
      by_cases hb : b = byte '\''
      · rw [hb, escapeByte_quote]
        rfl
      · rw [escapeByte, if_neg hb, run_cons, step]
        simp [hb, put]
    rw [List.flatMap_cons, run_append, hstep, Option.bind_some, ih, List.append_assoc,
      List.singleton_append]

/-- **An escaped word is read as the word.** -/
theorem run_escape (w : Bytes) : ∃ q, run { } (escape w) = some { begun := some (.word w q) } := by
  obtain ⟨hne, hplain, heq⟩ | heq := escape_cases w
  · obtain ⟨b, v, rfl⟩ := List.exists_cons_of_ne_nil hne
    rw [List.forall_mem_cons] at hplain
    have hstep : step { } b = some { begun := some (.word [b] false) } :=
      plainStep_of_isPlain { } hplain.1
    refine ⟨false, ?_⟩
    rw [heq, run_cons, hstep]
    exact run_plain hplain.2
  · have hopen : step { } (byte '\'') =
        some { quotes := .single, begun := some (.word [] true) } := rfl
    refine ⟨true, ?_⟩
    rw [heq, run_cons, hopen, Option.bind_some, run_append, run_quoted]
    rfl

end Scan

/-! ## Words one after the other -/

theorem lexemes?_nil : lexemes? [] = some [] := rfl

/-- An escaped word in front of a line that is at its end or goes on with a blank. -/
theorem lexemes?_escape (w : Bytes) {r : Bytes} (hr : r.head?.all (· = byte ' ')) :
    lexemes? (escape w ++ r) = (lexemes? r).map (.word w :: ·) := by
  obtain ⟨q, h⟩ := Scan.run_escape w
  unfold lexemes?
  rw [Scan.run_append, h, Option.bind_some]
  cases r with
  | nil => simp [Scan.finish, Scan.close]
  | cons b r =>
    obtain rfl : b = byte ' ' := by simpa using hr
    have hblank : Scan.step { } (byte ' ') = some { } := rfl
    have hword : Scan.step { begun := some (.word w q) } (byte ' ') =
        some (Scan.behind [.word w] { }) := by
      refine congrArg some ?_
      simp [Scan.close, Scan.behind]
    rw [Scan.run_cons, Scan.run_cons, hblank, hword, Option.bind_some, Option.bind_some,
      Scan.run_behind, Option.bind_map, Option.map_bind]
    exact congrArg _ (funext fun s => Scan.finish_behind [.word w] s)

/-- Escaped words with a blank in front of each but the first. -/
theorem escapedWords_cons (w : Bytes) (ws : List Bytes) :
    Compiler.escapedWords (w :: ws) = escape w ++ ws.flatMap fun v => byte ' ' :: escape v := by
  have hspace : Bytes.ofString " " = [byte ' '] := by rw [Bytes.ofString_eq]; rfl
  unfold Compiler.escapedWords
  rw [hspace]
  induction ws generalizing w with
  | nil => rw [List.map_singleton, List.intercalate_singleton, List.flatMap_nil, List.append_nil]
  | cons v ws ih =>
    rw [List.map_cons, List.map_cons, List.intercalate_cons_cons, ← List.map_cons (f := escape), ih,
      List.append_assoc, List.flatMap_cons]
    rfl

theorem lexemes?_flatMap (ws : List Bytes) {r : Bytes} (hr : r.head?.all (· = byte ' ')) :
    lexemes? (ws.flatMap (fun v => byte ' ' :: escape v) ++ r) =
      (lexemes? r).map (ws.map .word ++ ·) := by
  induction ws with
  | nil => simp
  | cons w ws ih =>
    have hblank (t : Bytes) : lexemes? (byte ' ' :: t) = lexemes? t := rfl
    have hnext : (ws.flatMap (fun v => byte ' ' :: escape v) ++ r).head?.all (· = byte ' ') := by
      cases ws with
      | nil => exact hr
      | cons v ws => rfl
    rw [List.flatMap_cons, List.append_assoc, List.cons_append, hblank, lexemes?_escape w hnext, ih,
      Option.map_map]
    rfl

/-- **Escaped words in front of a line** that is at its end or goes on with a blank. -/
theorem lexemes?_escapedWords (ws : List Bytes) {r : Bytes} (hr : r.head?.all (· = byte ' ')) :
    lexemes? (Compiler.escapedWords ws ++ r) = (lexemes? r).map (ws.map .word ++ ·) := by
  cases ws with
  | nil => simp [Compiler.escapedWords]
  | cons w ws =>
    -- A blank more in front changes nothing, and with it all words look alike.
    rw [← lexemes?_flatMap (w :: ws) hr, escapedWords_cons]
    rfl

/-! ## Words without NUL -/

/-- A word that no end of a text can cut. -/
def Whole (w : Bytes) : Prop := 0 ∉ w

variable {v w : Bytes} {ws : List Bytes}

theorem Whole.append (hv : Whole v) (hw : Whole w) : Whole (v ++ w) := by
  rw [Whole, List.mem_append, not_or]
  exact ⟨hv, hw⟩

theorem Whole.takeWhile (h : Whole w) : w.takeWhile (· ≠ 0) = w := by
  rw [List.takeWhile_eq_self_iff]
  rintro b hb
  exact decide_eq_true fun h0 : b = 0 => h (h0 ▸ hb)

theorem zero_notMem_utf8EncodeChar {c : Char} (h : c ≠ '\x00') : 0 ∉ String.utf8EncodeChar c := by
  have hpos : c.val.toNat ≠ 0 := fun h0 => h (Char.toNat_inj.1 h0)
  have hzero (n : Nat) : (0 : UInt8) = UInt8.ofNat n ↔ n % 256 = 0 := by
    rw [← UInt8.toNat_inj, UInt8.toNat_ofNat', eq_comm]
    rfl
  dsimp only [String.utf8EncodeChar]
  split_ifs <;> simp only [List.mem_cons, List.not_mem_nil, or_false, hzero] <;> omega

theorem whole_ofString {s : String} (h : '\x00' ∉ s.toList) : Whole (Bytes.ofString s) := by
  rw [Whole, Bytes.ofString_eq, List.mem_flatMap]
  rintro ⟨c, hc, h0⟩
  exact zero_notMem_utf8EncodeChar (ne_of_mem_of_not_mem hc h) h0

theorem whole_escape (h : Whole w) : Whole (escape w) := by
  have hquote : Whole (Bytes.ofString "'") := whole_ofString (by decide)
  rw [escape]
  split_ifs
  · exact whole_ofString (by decide)
  · exact h
  · refine (hquote.append fun h0 => ?_).append hquote
    obtain ⟨b, hb, h0⟩ := List.mem_flatMap.1 h0
    rw [escapeByte] at h0
    split_ifs at h0
    · exact whole_ofString (by decide) h0
    · exact h (List.mem_singleton.1 h0 ▸ hb)

theorem whole_escapedWords (h : ∀ w ∈ ws, Whole w) : Whole (Compiler.escapedWords ws) := by
  cases ws with
  | nil => exact List.not_mem_nil
  | cons w ws =>
    rw [List.forall_mem_cons] at h
    rw [escapedWords_cons]
    refine (whole_escape h.1).append fun h0 => ?_
    obtain ⟨v, hv, h0⟩ := List.mem_flatMap.1 h0
    obtain h0 | h0 := List.mem_cons.1 h0
    · exact absurd h0 (by decide)
    · exact whole_escape (h.2 v hv) h0

theorem whole_of_mem_map {ts : List String} (h : ∀ t ∈ ts, '\x00' ∉ t.toList) :
    ∀ w ∈ ts.map Bytes.ofString, Whole w := by
  rw [List.forall_mem_map]
  exact fun t ht => whole_ofString (h t ht)

/-! ## Command lines -/

/-- The line of a silenced command, as the system gets it. -/
def silentLine (ws : List Bytes) : Bytes :=
  (Compiler.escapedWords ws ++ Bytes.ofString " >/dev/null 2>&1").takeWhile (· ≠ 0)

/-- The words of a compilation. -/
def calling (c : AccelConfig) : List Bytes :=
  Bytes.ofString c.compiler :: Compiler.arguments (c.extraFlags.map Bytes.ofString)

theorem whole_of_mem_calling {c : AccelConfig} (hcompiler : '\x00' ∉ c.compiler.toList)
    (hflags : ∀ f ∈ c.extraFlags, '\x00' ∉ f.toList) : ∀ w ∈ calling c, Whole w := by
  have hfixed : ∀ t ∈ Compiler.fixedOptions ++
      [Compiler.sourcePath, "-o", Compiler.libraryPath, "-lm"], '\x00' ∉ t.toList := by decide
  have hwords : calling c = (c.compiler :: (Compiler.fixedOptions ++ c.extraFlags ++
      [Compiler.sourcePath, "-o", Compiler.libraryPath, "-lm"])).map Bytes.ofString := by
    simp [calling, Compiler.arguments]
  rw [List.forall_mem_append] at hfixed
  rw [hwords]
  refine whole_of_mem_map (List.forall_mem_cons.2 ⟨hcompiler, ?_⟩)
  rw [List.forall_mem_append, List.forall_mem_append]
  exact ⟨⟨hfixed.1, hflags⟩, hfixed.2⟩

theorem silentLine_eq (h : ∀ w ∈ ws, Whole w) :
    silentLine ws = Compiler.escapedWords ws ++ Bytes.ofString " >/dev/null 2>&1" :=
  ((whole_escapedWords h).append (whole_ofString (by decide))).takeWhile

/-- What silences a command. -/
def silenced : List Lexeme :=
  [.operator [byte '>'], .word ("/dev/null".toList.map byte), .number [byte '2'],
    .operator [byte '>', byte '&'], .word [byte '1']]

/-- **The line of a silenced command has its words and no others.** -/
theorem lexemes?_silentLine (h : ∀ w ∈ ws, Whole w) :
    lexemes? (silentLine ws) = some (ws.map .word ++ silenced) := by
  have hrest : lexemes? (Bytes.ofString " >/dev/null 2>&1") = some silenced := by
    rw [Bytes.ofString_eq]
    rfl
  have hblank : (Bytes.ofString " >/dev/null 2>&1").head?.all (· = byte ' ') := by
    rw [Bytes.ofString_eq]
    rfl
  rw [silentLine_eq h, lexemes?_escapedWords ws hblank, hrest, Option.map_some]

theorem mapM_word? (ws : List Bytes) : (ws.map Lexeme.word).mapM Lexeme.word? = some ws := by
  induction ws with
  | nil => rfl
  | cons w ws ih =>
    rw [List.map_cons, List.mapM_cons, ih]
    rfl

/-- **Escaped words are the words of their line**, whatever bytes they are made of. -/
theorem words?_escapedWords (ws : List Bytes) : words? (Compiler.escapedWords ws) = some ws := by
  have hlexemes := lexemes?_escapedWords ws (r := []) rfl
  rw [List.append_nil, lexemes?_nil, Option.map_some, List.append_nil] at hlexemes
  rw [words?, hlexemes, Option.bind_some, mapM_word?]

/-- **Escaped words come back from their line**, and the line of a compilation is one command that
gets no words but its own: whatever the names of the compiler and of its flags are, nothing in them
is another word, an operator, a comment, a pattern or an expansion. -/
theorem words_of_escaped :
    (∀ ws : List Bytes, (∀ w ∈ ws, 0 ∉ w) →
      words? ((Compiler.escapedWords ws).takeWhile (· ≠ 0)) = some ws) ∧
    ∀ c : AccelConfig, '\x00' ∉ c.compiler.toList → (∀ f ∈ c.extraFlags, '\x00' ∉ f.toList) →
      lexemes? (Compiler.commandLine c) = some ((calling c).map .word ++ silenced) := by
  refine ⟨fun ws h => ?_, fun c hcompiler hflags => ?_⟩
  · rw [(whole_escapedWords h).takeWhile, words?_escapedWords]
  · exact lexemes?_silentLine (whole_of_mem_calling hcompiler hflags)

/-- Quotes, nothing at all, and a command in the place of a flag: the line and its words. -/
theorem words_of_escaped_quotes :
    Compiler.escapedWords (["it's", "", "$(id); rm *", "-O2"].map Bytes.ofString) =
      Bytes.ofString "'it'\"'\"'s' '' '$(id); rm *' -O2" ∧
    words? ((Compiler.escapedWords
      (["it's", "", "$(id); rm *", "-O2"].map Bytes.ofString)).takeWhile (· ≠ 0)) =
        some (["it's", "", "$(id); rm *", "-O2"].map Bytes.ofString) ∧
    lexemes? (Compiler.commandLine { compiler := "my cc", extraFlags := ["-DQ='", ">/tmp/x &"] }) =
      some ((["my cc", "-std=c99", "-O2", "-shared", "-fPIC", "-ffp-contract=off", "-DQ='",
        ">/tmp/x &", "/tmp/synapse_accel.c", "-o", "/tmp/synapse_accel.so", "-lm"].map fun s =>
          .word (Bytes.ofString s)) ++ silenced) := by
  refine ⟨?_, words_of_escaped.1 _ ?_, ?_⟩
  · decide +kernel
  · decide +kernel
  · exact words_of_escaped.2 { compiler := "my cc", extraFlags := ["-DQ='", ">/tmp/x &"] }
      (by decide) (by decide)

end MemoFlow.CommandLine
