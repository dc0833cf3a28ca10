/-
# Version files

A version file declares the release number in three lines, one for each of the
keys `PREFIX_MAJOR`, `PREFIX_MINOR` and `PREFIX_PATCH`:

    set(PREFIX_MAJOR 1)
    set(PREFIX_MINOR 2)
    set(PREFIX_PATCH 7)

Every key is declared exactly once and its value is a number of 32 bits, with
one plus sign allowed before it. A bump replaces the patch value by the next
number; the text around it stays as it is.
-/

import NightlyRelease.Text.Lines
import NightlyRelease.Version.Basic
import NightlyRelease.VersionFile.Declaration

namespace NightlyRelease

/-- A version file that has been read: its text around the patch value, that value as it is
written, and the version that the file declares. -/
structure VersionFile where
  before : List Char
  patchValue : List Char
  after : List Char
  version : Version
  deriving DecidableEq

namespace VersionFile

/-- The three numbers of a version, as fields of a version file. -/
inductive Field where
  | major | minor | patch
  deriving DecidableEq, Repr

/-- The fields in the order in which they are looked for. -/
def Field.all : List Field := [.major, .minor, .patch]

/-- The key of a field, without the prefix of the file. -/
def Field.name : Field → String
  | major => "MAJOR"
  | minor => "MINOR"
  | patch => "PATCH"

/-- The key that declares a field. -/
def Field.key (keyPrefix : String) (f : Field) : String := keyPrefix ++ "_" ++ f.name

/-- The keys of all three fields. -/
def keys (keyPrefix : String) : List String := Field.all.map (Field.key keyPrefix)

/-- What has been found of the declarations so far, at most one for each field. -/
abbrev Found (α : Type) := Field → Option α

/-- Adds what `note` keeps of the declaration of a field that stands in a line. -/
def addField {α : Type} (keyPrefix : String) (line : List Char) (note : Declaration → α)
    (found : Found α) (f : Field) : Except Error (Found α) :=
  match declaration? (f.key keyPrefix).toList line with
  | none => .ok found
  | some d => match found f with
    | some _ => .error (.repeatedField (f.key keyPrefix))
    | none => .ok fun g => if g = f then some (note d) else found g

/-- Adds the declarations of the lines, each in the whole text, to those found before; `seen` is the
text before the lines. -/
def scan (keyPrefix : String) (seen : List Char) (found : Found Declaration) :
    List (List Char) → Except Error (Found Declaration)
  | [] => .ok found
  | line :: rest => do
    let found ← Field.all.foldlM (addField keyPrefix line (·.within seen rest.flatten)) found
    scan keyPrefix (seen ++ line) found rest

/-- The number of 32 bits that a value spells. -/
def number? (value : List Char) : Option UInt32 := do
  let digits := match value with
    | '+' :: r => r
    | s => s
  let n ← Text.Decimal.value? digits
  if n < UInt32.size then some (UInt32.ofNat n) else none

/-- The declaration of a field and the number that it declares. -/
def declared (keyPrefix : String) (found : Found Declaration) (f : Field) :
    Except Error (Declaration × UInt32) :=
  match found f with
  | none => .error (.missingField (f.key keyPrefix))
  | some d => match number? d.value with
    | some n => .ok (d, n)
    | none => .error (.version
        (f.key keyPrefix ++ " value '" ++ String.ofList d.value ++ "' is not a version number"))

/-- Reads the text of a version file whose keys have the given prefix. -/
def parse (text keyPrefix : String) : Except Error VersionFile := do
  let found ← scan keyPrefix [] (fun _ => none) (Text.lines text.toList)
  let (_, major) ← declared keyPrefix found .major
  let (_, minor) ← declared keyPrefix found .minor
  let (d, patch) ← declared keyPrefix found .patch
  return { before := d.before, patchValue := d.value, after := d.after,
           version := { major, minor, patch } }

/-- The text of the file. -/
def text (file : VersionFile) : String :=
  String.ofList (file.before ++ file.patchValue ++ file.after)

/-- The result of a bump: the new text and the versions before and after it. -/
structure Bumped where
  text : String
  previous : Version
  version : Version
  deriving DecidableEq

/-- The file with the next patch number in place of the declared one. -/
def bumpPatch (file : VersionFile) : Except Error Bumped := do
  let version ← file.version.bumpPatch
  return { text := String.ofList
             (file.before ++ Text.Decimal.digits version.patch.toNat ++ file.after)
           previous := file.version, version }

end VersionFile
end NightlyRelease
