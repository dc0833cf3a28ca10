/-
# Walks through a history

A walk shows the commits that can be reached from a commit, each of them once.  Of the
commits that wait to be shown the newest one is next, and among those of one time the one
that has waited longest.  All commits on which a commit builds are looked up before it is
shown, so the walk ends with a fault there if the repository lacks one of them.
-/

import NightlyRelease.Git.Commit
import NightlyRelease.Git.Fault

namespace NightlyRelease
namespace Git

/-- A walk on its way: the commits that wait to be shown, the next one first, and the names of all
commits that it has come across. -/
structure Walk where
  waiting : List Commit
  seen : List CommitId

namespace Walk

/-- The walk that starts at a commit. -/
def start (id : CommitId) (c : Commit) : Walk := ⟨[c], [id]⟩

/-- Lets a commit wait behind all commits that are not older. -/
def enqueue (c : Commit) : List Commit → List Commit
  | [] => [c]
  | d :: rest => if d.time < c.time then c :: d :: rest else d :: enqueue c rest

/-- A repository lacks a commit. -/
def lacking (id : CommitId) : Fault where
  text := "object not found - no match for id (" ++ id.text ++ ")"
  cls := some .odb
  code := some .notFound

/-- Comes across a commit of a repository, which has to wait unless it has been seen before. -/
def meet (commit? : CommitId → Option Commit) (walk : Walk) (id : CommitId) : Except Fault Walk :=
  match commit? id with
  | none => .error (lacking id)
  | some c =>
    if id ∈ walk.seen then .ok walk
    else .ok { waiting := enqueue c walk.waiting, seen := id :: walk.seen }

/-- The commits that are shown next, so many of them if there are. -/
def commits (commit? : CommitId → Option Commit) : Nat → Walk → Except Fault (List Commit)
  | 0, _ => .ok []
  | limit + 1, walk => match walk.waiting with
    | [] => .ok []
    | c :: waiting => do
      let walk ← c.parents.foldlM (meet commit?) { walk with waiting }
      return c :: (← walk.commits commit? limit)

end Walk
end Git
end NightlyRelease
