import MemoFlow.Code.Token

/-!
# Remarks of the compiler

A compiler accepts some texts with a remark. Whether a remark is made, and whether it makes the
compiler refuse the text, depends on its options.

* **`Remark`**: a remark, by the option that turns it on;
* `Code.isGroup`: three characters that stand for one;
* **`Code.characterRemarks`**: what is remarked on the characters of a text: comments that seem to
  begin inside each other or to go on behind their line, and groups of three characters.
-/

namespace MemoFlow.Code

/-- **A remark of the compiler.** -/
inductive Remark where
  /-- Made unless the option is turned off. -/
  | usual (option : String)
  /-- Made only when the option is turned on. -/
  | chosen (option : String)
  /-- A rule of the language is broken; made always. -/
  | required (option : String)
  /-- The text goes beyond the language; made when the option is turned on. -/
  | extension (option : String)
  /-- Something has a size; made when the option sets a limit below it. -/
  | measured (option : String) (size : Nat)
deriving DecidableEq, Repr

namespace Remark

/-- The option that a remark belongs to. -/
def option : Remark → String
  | .usual o | .chosen o | .required o | .extension o | .measured o _ => o

end Remark

/-! ## Characters of a text -/

open Ascii

/-- Whether a text begins with three characters that stand for one. -/
def isGroup : Bytes → Bool
  | a :: b :: c :: _ => a = byte '?' && b = byte '?' && (trigraph? c).isSome
  | _ => false

/-- The remark on three characters that stand for one, or would in another version of the
language. -/
def groupRemark (three : Bool) : Remark :=
  if three then .chosen "trigraphs" else .usual "trigraphs"

/-- **What the compiler remarks on the characters of a text.** -/
def characterRemarks (three : Bool) : Place → Bytes → List Remark
  | p, a :: b :: r =>
    let group := if isGroup (a :: b :: r) then [groupRemark three] else []
    match p with
    | .text =>
      if a = byte '/' && b = byte '*' then characterRemarks three .block r
      else if a = byte '/' && b = byte '/' then characterRemarks three .line r
      else if a = byte '"' || a = byte '\'' then characterRemarks three (.quote a) (b :: r)
      else group ++ characterRemarks three .text (b :: r)
    | .line =>
      if a = byte '\n' then characterRemarks three .text (b :: r)
      else if a = byte '\\' && b = byte '\n' then
        .chosen "comment" :: characterRemarks three .line r
      else characterRemarks three .line (b :: r)
    | .block =>
      if a = byte '*' && b = byte '/' then characterRemarks three .text r
      else if a = byte '/' && b = byte '*' && r.head? ≠ some (byte '/') then
        .chosen "comment" :: characterRemarks three .block (b :: r)
      else if group ≠ [] && (r.drop 1).head? = some (byte '\n') && r.head? = some (byte '/') then
        group ++ characterRemarks three .block (b :: r)
      else characterRemarks three .block (b :: r)
    | .quote m =>
      if a = byte '\\' then characterRemarks three (.quote m) r
      else if a = m || a = byte '\n' then characterRemarks three .text (b :: r)
      else group ++ characterRemarks three (.quote m) (b :: r)
  | _, _ => []

end MemoFlow.Code
