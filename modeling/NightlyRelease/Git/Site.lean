/-
# Finding a repository

A repository lies in a directory with a file `HEAD` and the directories
`objects` and `refs`; mostly that is the directory `.git` of the work directory.
From any path the search looks into `.git` there, at the place itself, and then
the same one directory up, until the root. Unless its settings call it bare, a
repository has a work directory, the one in which it lies.
-/

import NightlyRelease.Git.Settings

namespace NightlyRelease
namespace Git

/-- Where a repository lies, and the directory of its files unless it is a bare one. -/
structure Site where
  directory : FileSystem.Location
  workDirectory : Option FileSystem.Location
  deriving DecidableEq, Repr

namespace Site

/-- Whether a directory holds a repository. -/
def holds (fs : FileSystem) (l : FileSystem.Location) : Bool :=
  let isDirectory (name : String) : Bool :=
    match fs.find true (pathOf (l ++ [name])) with
    | .ok (_, .directory) => true
    | _ => false
  (match fs.find true (pathOf (l ++ ["HEAD"])) with
    | .ok (_, .file _) => true
    | _ => false) && isDirectory "objects" && isDirectory "refs"

/-- The name of the directory in which the repository of a work directory lies. -/
def innerName : String := ".git"

/-- The directory of the repository at a place itself. -/
def here? (fs : FileSystem) (l : FileSystem.Location) : Option FileSystem.Location :=
  [l ++ [innerName], l].find? (holds fs)

/-- The directory of the repository to which a place belongs; `up` leads from the place to the
root. -/
def search (fs : FileSystem) : (up : List String) → Option FileSystem.Location
  | [] => here? fs []
  | name :: up => here? fs (name :: up).reverse <|> search fs up

/-- The place that a path leads to. -/
def locate (fs : FileSystem) (p : Path) : Except Fault FileSystem.Location :=
  match fs.find true p with
  | .ok (l, _) => .ok l
  | .error fault => .error {
      text := "failed to resolve path '" ++ p.text ++ "': " ++ fault.reason
      cls := some .os, code := if fault.isMissing then some .notFound else none }

/-- There is no repository at a path. -/
def missing (p : Path) : Fault where
  text := "could not find repository at '" ++ p.text ++ "'"
  cls := some .repository
  code := some .notFound

/-- The repository in a directory. -/
def ofDirectory (fs : FileSystem) (directory : FileSystem.Location) : Except Fault Site := do
  let settings ← Settings.load fs directory
  return ⟨directory, if settings.isOn "core.bare" then none else some directory.dropLast⟩

/-- The repository to which a path belongs. -/
def discover (fs : FileSystem) (p : Path) : Except Fault Site := do
  withoutNul [p.text]
  match search fs (← locate fs p).reverse with
  | some directory => ofDirectory fs directory
  | none => throw (missing p)

/-- The repository at a path itself. -/
def ofPath (fs : FileSystem) (p : Path) : Except Fault Site := do
  match here? fs (← locate fs p) with
  | some directory => ofDirectory fs directory
  | none => throw (missing p)

end Site
end Git
end NightlyRelease
