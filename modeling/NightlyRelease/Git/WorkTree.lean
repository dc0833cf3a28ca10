/-
# The work directory

The files of the work directory, beside what the index and the last commit have
of them. A status tells in a short code how a file differs:

| code | meaning |
| --- | --- |
| `UU` | several sides of a merge are left |
| `??` | not under version control |
| `A` | new in the index |
| `D` | gone from the index or from the work directory |
| `T` | a link in one place and no link in another |
| `M` | changed |

The first code of the table that fits is given. Files inside another repository
are left out, and so are ignored files that are not under version control.
-/

import NightlyRelease.Git.Ignore
import NightlyRelease.Git.Index
import NightlyRelease.Git.Site
import NightlyRelease.Repository.Basic

namespace NightlyRelease
namespace Git
namespace WorkTree

/-- The files of a work directory with the links among them. -/
def files (fs : FileSystem) (workDirectory : FileSystem.Location) : List (TreePath × Blob) :=
  let found := fs.below workDirectory
  let nested := (found.map (·.1)).filterMap fun p =>
    if p.getLast? = some ".git" then some p.dropLast else none
  let outside (p : TreePath) : Bool :=
    p.head? != some ".git" && !nested.any fun d => d != [] && d.isPrefixOf p
  found.filterMap fun (p, n) => if outside p then (Blob.ofNode? n).map (p, ·) else none

/-- What three places have under a path. -/
structure Sides where
  head : Option Blob
  index : Option Blob
  work : Option Blob
  conflicted : Bool

/-- Whether two places have files of different kinds. -/
def otherKind (a b : Option Blob) : Bool :=
  match a, b with
  | some a, some b => a.mode != b.mode
  | _, _ => false

/-- The code of a difference, if there is one. -/
def Sides.code? (s : Sides) : Option String :=
  if s.conflicted then some "UU"
  else if s.work.isSome && s.index.isNone then some "??"
  else if s.index.isSome && s.head.isNone then some "A"
  else if (s.index.isNone && s.head.isSome) || (s.work.isNone && s.index.isSome) then some "D"
  else if otherKind s.head s.index || otherKind s.index s.work then some "T"
  else if s.head ≠ s.index ∨ s.index ≠ s.work then some "M"
  else none

/-- The status of a work directory whose files, without the hidden ones, are `work`. -/
def status (head : Tree) (index : Index) (work : List (TreePath × Blob)) : List StatusEntry :=
  let paths := (head.map (·.1) ++ index.map (·.path) ++ work.map (·.1)).eraseDups
  let entries := paths.filterMap fun p =>
    let sides : Sides := {
      head := head.at? p
      index := index.at? p
      work := List.lookup p work
      conflicted := index.isConflicted p }
    sides.code?.map fun code => ⟨code, TreePath.text p⟩
  Text.sortBy (·.path) entries

/-- The files of a work directory that are under version control or not ignored. -/
def shown (fs : FileSystem) (directory workDirectory : FileSystem.Location) (index : Index) :
    List (TreePath × Blob) :=
  let rules := Ignore.Rules.read fs directory workDirectory
  let tracked := index.paths
  (files fs workDirectory).filter fun (p, _) =>
    tracked.contains p || !rules.hides tracked false [] p

end WorkTree
end Git
end NightlyRelease
