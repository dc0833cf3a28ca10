/-
# Versions

A version is three numbers of 32 bits, written `major.minor.patch` and ordered
by the first number in which two versions differ. A nightly release raises the
last number by one. `Version.parse` reads the written form, with blanks around
it; suffixes and numbers that do not fit are refused.
-/

import NightlyRelease.Error
import NightlyRelease.Text.Blank
import NightlyRelease.Version.Grammar

namespace NightlyRelease

/-- The number of a release. -/
structure Version where
  major : UInt32
  minor : UInt32
  patch : UInt32
  deriving DecidableEq, Repr, Inhabited

namespace Version

/-- The written form of a version. -/
def text (v : Version) : String :=
  Text.Decimal.text v.major.toNat ++ "." ++ Text.Decimal.text v.minor.toNat ++ "." ++
    Text.Decimal.text v.patch.toNat

/-- The order of versions: major numbers first, then minor, then patch numbers. -/
protected def compare (v w : Version) : Ordering :=
  (compare v.major w.major).then ((compare v.minor w.minor).then (compare v.patch w.patch))

/-- `v` is an older version than `w`. -/
protected def lt (v w : Version) : Prop :=
  v.major < w.major ∨ (v.major = w.major ∧
    (v.minor < w.minor ∨ (v.minor = w.minor ∧ v.patch < w.patch)))

instance : LT Version := ⟨Version.lt⟩

instance (v w : Version) : Decidable (v < w) :=
  inferInstanceAs (Decidable (_ ∨ _ ∧ (_ ∨ _ ∧ _)))

/-- A component that was read, if it fits in 32 bits. -/
def component (name : String) (n : Nat) : Except Error UInt32 :=
  if n < UInt32.size then .ok (UInt32.ofNat n)
  else .error (.version (name ++ " component " ++ Text.Decimal.text n ++ " is out of range"))

/-- Reads a version, with blanks around it allowed. -/
def parse (s : String) : Except Error Version :=
  match Grammar.read (Text.trim s.toList) with
  | .error fault => .error (.version ("Invalid version '" ++ s ++ "': " ++ fault.message))
  | .ok r =>
    if r.preRelease ≠ [] ∨ r.build ≠ [] then
      .error (.version
        ("Version '" ++ Text.trimmed s ++ "' carries a pre-release or build suffix"))
    else do
      let major ← component "major" r.major
      let minor ← component "minor" r.minor
      let patch ← component "patch" r.patch
      return { major, minor, patch }

/-- The next nightly version: the patch number goes up by one, unless it is the largest. -/
def bumpPatch (v : Version) : Except Error Version :=
  if v.patch.toNat + 1 < UInt32.size then .ok { v with patch := v.patch + 1 }
  else .error (.version
    ("patch number " ++ Text.Decimal.text v.patch.toNat ++ " cannot be incremented"))

/-- Refuses a version that is not newer than `previous`. -/
def ensureFollows (v previous : Version) : Except Error Unit :=
  if previous < v then .ok ()
  else .error (.version ("version " ++ v.text ++ " does not follow " ++ previous.text))

/-- A version change in one line. -/
def change (previous next : Version) : String := previous.text ++ " -> " ++ next.text

end Version
end NightlyRelease
