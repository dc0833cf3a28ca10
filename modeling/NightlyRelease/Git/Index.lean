/-
# The index

The index holds what the next commit will hold. A merge that did not go through
leaves several sides of a file in it, in numbered stages, and then no commit can
be made. Adding a file puts one side of it in place of all others, and takes out
files that stand where it needs a directory, or the other way round.
-/

import NightlyRelease.Git.Commit
import NightlyRelease.Git.Fault

namespace NightlyRelease
namespace Git

/-- One side of a file; stage zero stands for the whole file. -/
structure IndexEntry where
  path : TreePath
  stage : Nat
  blob : Blob
  deriving DecidableEq

/-- What the next commit will hold. -/
abbrev Index := List IndexEntry

namespace Index

/-- What the next commit will hold under a path. -/
def at? (i : Index) (p : TreePath) : Option Blob :=
  (i.find? fun e => e.path == p && e.stage == 0).map (·.blob)

/-- Whether there are several sides of a file. -/
def isConflicted (i : Index) (p : TreePath) : Bool := i.any fun e => e.path == p && e.stage != 0

/-- Whether one path is the other or leads through it. -/
def collide (p q : TreePath) : Bool := p.isPrefixOf q || q.isPrefixOf p

/-- Adds a file. -/
def add (i : Index) (p : TreePath) (b : Blob) : Index :=
  (i.filter fun e => !collide p e.path) ++ [⟨p, 0, b⟩]

/-- Puts three sides of a file in its place. -/
def addConflict (i : Index) (p : TreePath) (side : Nat → Blob) : Index :=
  (i.filter fun e => e.path != p) ++ [1, 2, 3].map fun n => ⟨p, n, side n⟩

/-- The paths of all files. -/
def paths (i : Index) : List TreePath := (i.map (·.path)).eraseDups

/-- The index that holds some files. -/
def ofFiles (files : List (TreePath × Blob)) : Index := files.map fun (p, b) => ⟨p, 0, b⟩

/-- The tree of the next commit. -/
def tree (i : Index) : Except Fault Tree :=
  if i.any (·.stage != 0) then
    .error { text := "cannot create a tree from a not fully merged index."
             cls := some .index, code := some .unmerged }
  else .ok (Tree.ofList (i.map fun e => (e.path, e.blob)))

end Index
end Git
end NightlyRelease
