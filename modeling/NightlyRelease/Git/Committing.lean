/-
# Making commits

A commit holds what the index holds, builds on the commit that is checked out if
there is one, and moves the branch that is checked out to itself.
-/

import NightlyRelease.Git.Signature
import NightlyRelease.Git.Staging
import NightlyRelease.Git.Summary

namespace NightlyRelease
namespace Git

/-- The commit that is checked out, with its name; none before the first one. -/
def headCommit (fs : FileSystem) (m : Machine) (site : Site) :
    Except Fault (Option (CommitId × Commit)) := do
  match ← Head.read fs site.directory with
  | .unborn _ => return none
  | .broken name _ => throw (.cannotPeel name "Cannot resolve reference")
  | .born name id =>
    match id.bind fun id => (m.commit? site.directory id).map (id, ·) with
    | some found => return some found
    | none => throw (.cannotPeel name "Cannot retrieve reference target")

namespace Committing

/-- Moves what is checked out to a commit. -/
def moveHead (site : Site) (id : CommitId) : Operation Unit := do
  let fs ← Operation.files
  let head ← Operation.ofExcept (Head.read fs site.directory)
  Operation.setFiles
    (← Operation.ofExcept (Reference.write fs site.directory head.target (.commit (some id))))

/-- A commit of a tree on top of another one. -/
def onTop (tree : Tree) (parent : Option CommitId) (s : Signature) (message : List UInt8) :
    Commit where
  tree
  parents := parent.toList
  authorName := s.name
  authorEmail := s.email
  time := s.time
  message

/-- Makes a commit of a tree and moves what is checked out to it. -/
def record (site : Site) (c : Commit) : Operation CommitId := do
  let (id, m) := (← Operation.machine).addCommit site.directory c
  Operation.setMachine m
  moveHead site id
  return id

/-- Commits the index under any message. -/
def commitIndex (site : Site) (s : Signature) (message : List UInt8) : Operation CommitId := do
  let tree ← Operation.ofExcept (← Staging.index site).tree
  let parent ← Operation.ofExcept (headCommit (← Operation.files) (← Operation.machine) site)
  record site (onTop tree (parent.map (·.1)) s message)

end Committing
end Git
end NightlyRelease
