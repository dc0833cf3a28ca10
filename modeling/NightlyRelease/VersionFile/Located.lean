/-
# Version files by byte offsets

A run keeps the text of a version file whole and remembers where in it the patch
value stands: the offset of its first byte and the one behind its last byte,
counted in bytes of UTF-8 from the start of the text. The lines are gone through
with the offset at which each of them starts, which is the sum of what the lines
before it take.

A text is cut at an offset only if a character starts there or the text ends
there. A cut at any other offset breaks the run off.
-/

import NightlyRelease.VersionFile.Basic
import NightlyRelease.World

namespace NightlyRelease
namespace VersionFile

/-- How many bytes a text takes. -/
def byteCount (s : List Char) : Nat := (String.ofList s).utf8ByteSize

/-- The part of a text from a byte offset to another one. -/
def cut (text : String) (start stop : Nat) : Except Halt String :=
  if start ≤ stop ∧ String.Pos.Raw.isValid text ⟨start⟩ ∧ String.Pos.Raw.isValid text ⟨stop⟩ then
    .ok (String.Pos.Raw.extract text ⟨start⟩ ⟨stop⟩)
  else .error (.aborted "a text cannot be cut outside it or within a character")

/-- Where something stands in a text: the offset of its first byte, and the one behind its last. -/
structure Span where
  start : Nat
  stop : Nat
  deriving DecidableEq, Repr

/-- Where the value of a declaration stands if the text of the declaration starts at an offset. -/
def Declaration.span (offset : Nat) (d : Declaration) : Span where
  start := offset + byteCount d.before
  stop := offset + byteCount (d.before ++ d.value)

/-- A version file that has been read: its text, the version that it declares, and where the patch
value stands. -/
structure Located where
  text : String
  version : Version
  patchSpan : Span
  deriving DecidableEq, Repr

namespace Located

/-- Adds where the values stand that the lines declare; the lines start at the offset. -/
def scan (keyPrefix : String) (offset : Nat) (spans : Found Span) :
    List (List Char) → Except Error (Found Span)
  | [] => .ok spans
  | line :: rest => do
    let spans ← Field.all.foldlM (addField keyPrefix line (Declaration.span offset)) spans
    scan keyPrefix (offset + byteCount line) spans rest

/-- Where the value of a field stands. -/
def spanOf (keyPrefix : String) (spans : Found Span) (f : Field) : Except Error Span :=
  match spans f with
  | none => .error (.missingField (f.key keyPrefix))
  | some span => .ok span

/-- The number that a field declares. -/
def declared (text keyPrefix : String) (spans : Found Span) (f : Field) : Except Halt UInt32 := do
  let span ← Action.returned (spanOf keyPrefix spans f)
  let value ← cut text span.start span.stop
  match number? value.toList with
  | some n => return n
  | none => throw (.failed (.version
      (f.key keyPrefix ++ " value '" ++ value ++ "' is not a version number")))

/-- Reads the text of a version file whose keys have the given prefix. -/
def parse (text keyPrefix : String) : Except Halt Located := do
  let spans ← Action.returned (scan keyPrefix 0 (fun _ => none) (Text.lines text.toList))
  let major ← declared text keyPrefix spans .major
  let minor ← declared text keyPrefix spans .minor
  let patch ← declared text keyPrefix spans .patch
  let patchSpan ← Action.returned (spanOf keyPrefix spans .patch)
  return { text, version := { major, minor, patch }, patchSpan }

/-- The file with the next patch number in place of the declared one. -/
def bumpPatch (file : Located) : Except Halt Bumped := do
  let version ← Action.returned file.version.bumpPatch
  let before ← cut file.text 0 file.patchSpan.start
  let after ← cut file.text file.patchSpan.stop file.text.utf8ByteSize
  return { text := before ++ Text.Decimal.text version.patch.toNat ++ after
           previous := file.version, version }

end Located
end VersionFile
end NightlyRelease
