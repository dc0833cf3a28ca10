/-
# Commits and trees

A tree holds files under paths; a commit holds a tree, the commits before it, an
author, a time and a message. Commits are known by their content, so the same content is
the same commit everywhere. A `History` lists all commits that were ever made,
oldest first, and the name of a commit is its place in the list. What a commit
builds on stands before it.
-/

import NightlyRelease.FileSystem.Basic
import NightlyRelease.Text.Hex
import NightlyRelease.Text.Sorting

namespace NightlyRelease
namespace Git

/-- A path in a tree: the names that lead to a file. -/
abbrev TreePath := List String

/-- The written form of a path in a tree. -/
def TreePath.text (p : TreePath) : String := "/".intercalate p

/-- Whether a file is a link. -/
inductive Mode where
  | regular | link
  deriving DecidableEq, Repr

/-- What is stored of a file. -/
structure Blob where
  mode : Mode
  content : ByteArray
  deriving DecidableEq

/-- What is stored of something in a file system; nothing of a directory. -/
def Blob.ofNode? : FileSystem.Node → Option Blob
  | .file content => some ⟨.regular, content⟩
  | .link target => some ⟨.link, target.toUTF8⟩
  | .directory => none

/-- Files under paths, sorted by path. -/
abbrev Tree := List (TreePath × Blob)

/-- What a tree has under a path. -/
def Tree.at? (t : Tree) (p : TreePath) : Option Blob := List.lookup p t

/-- The files of a tree, sorted by the written form of their paths. -/
def Tree.ofList (files : List (TreePath × Blob)) : Tree :=
  Text.sortBy (fun f => TreePath.text f.1) files

/-- The name of a commit. -/
abbrev CommitId := Nat

/-- A commit. -/
structure Commit where
  tree : Tree
  /-- The commits that it builds on. -/
  parents : List CommitId
  authorName : String
  authorEmail : String
  /-- When it was made, in seconds. -/
  time : Int := 0
  message : List UInt8
  deriving DecidableEq

/-- The message as it is read back: up to the first `NUL`, without the line feeds in front. -/
def Commit.shownMessage (c : Commit) : List UInt8 :=
  (c.message.takeWhile (· != 0)).dropWhile (· == 10)

/-- All commits, oldest first. -/
abbrev History := List Commit

namespace History

/-- The commit with a name. -/
def at? (h : History) (id : CommitId) : Option Commit := h[id]?

/-- The name of a commit, which joins the history unless it is there. -/
def add (h : History) (c : Commit) : CommitId × History :=
  match h.findIdx? (· = c) with
  | some id => (id, h)
  | none => (h.length, h ++ [c])

/-- A commit with all commits that it builds on, newest first; a commit builds on older ones
only, and others are left out. -/
def ancestry (h : History) : Nat → CommitId → List CommitId
  | 0, _ => []
  | bound + 1, id =>
    if id < bound + 1 then
      match h.at? id with
      | some c => id :: c.parents.flatMap (ancestry h bound)
      | none => []
    else []

/-- A commit with all commits that it builds on. -/
def reachable (h : History) (id : CommitId) : List CommitId := ancestry h (id + 1) id

/-- The commits from a commit back along first parents. -/
def line (h : History) : Nat → CommitId → List Commit
  | 0, _ => []
  | bound + 1, id => match h.at? id with
    | none => []
    | some c => c :: match c.parents with
      | [] => []
      | p :: _ => line h bound p

/-- The commits from a commit back along first parents, newest first. -/
def firstParents (h : History) (id : CommitId) : List Commit := line h (id + 1) id

end History

namespace CommitId

/-- The first number that names a commit: names have forty hexadecimal digits. -/
def first : Nat := 8 * Nat.pow 16 39

/-- The written form of a name. -/
def text (id : CommitId) : String := String.ofList (Text.Hex.padded 40 (first + id))

/-- The number that forty hexadecimal digits spell. -/
def value? (digits : List Char) : Option Nat :=
  if digits.length = 40 then
    digits.foldlM (fun n c => (Text.Hex.value? c).map (16 * n + ·)) 0
  else none

/-- The name that forty digits spell. Digits that spell a smaller number than all names name a
commit that was never made. -/
def read? (digits : List Char) : Option (Option CommitId) :=
  (value? digits).map fun n => if first ≤ n then some (n - first) else none

end CommitId
end Git
end NightlyRelease
