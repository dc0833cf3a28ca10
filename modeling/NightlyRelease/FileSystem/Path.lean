/-
# Paths

A path is a text: names between slashes. It is absolute if it starts with a
slash. Joining a path to a directory puts it behind the directory, unless it is
absolute and stands for itself.
-/

import NightlyRelease.Text.Search

namespace NightlyRelease

/-- The name of a place in a file system. -/
structure Path where
  text : String
  deriving DecidableEq, Repr, Inhabited

namespace Path

/-- Whether a path starts at the root. -/
def isAbsolute (p : Path) : Bool := p.text.toList.head? == some '/'

/-- Whether a path ends with a slash. -/
def endsWithSlash (p : Path) : Bool := p.text.toList.getLast? == some '/'

/-- A path as seen from a directory. -/
def join (directory p : Path) : Path :=
  if p.isAbsolute then p
  else if directory.text = "" ∨ directory.endsWithSlash then ⟨directory.text ++ p.text⟩
  else ⟨directory.text ++ "/" ++ p.text⟩

/-- What stands between the slashes; an absolute path has an empty first component. -/
def components (p : Path) : List String := (Text.splitOn '/' p.text.toList).map String.ofList

end Path
end NightlyRelease
