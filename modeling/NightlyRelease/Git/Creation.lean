/-
# New repositories

A new repository has a `HEAD` that names its first branch, settings that say
whether it is bare, and empty directories for objects and references.
-/

import NightlyRelease.Git.Operation
import NightlyRelease.Git.Site

namespace NightlyRelease
namespace Git
namespace Creation

/-- The settings of a new repository. -/
def settings (bare : Bool) : Settings :=
  [("core.repositoryformatversion", "0"), ("core.filemode", "true"),
    ("core.bare", if bare then "true" else "false")].map fun (key, value) =>
      ⟨key, some (Text.bytes value)⟩

/-- The directories of a new repository. -/
def folders : List Path := [⟨"objects"⟩, ⟨"refs/heads"⟩, ⟨"refs/tags"⟩, ⟨"info"⟩]

/-- The files of a new repository. -/
def files (branch : String) (bare : Bool) : List (String × ByteArray) :=
  [("HEAD", (Reference.Target.reference (Reference.ofBranch branch)).file.toUTF8),
    ("config", ⟨(settings bare).render.toArray⟩)]

/-- A path that cannot be used for a repository. -/
def unusable (fault : FileSystem.Fault) : Fault := { text := fault.message, cls := some .os }

/-- Makes a repository at a path. -/
def make (fs : FileSystem) (p : Path) (branch : String) (bare : Bool) :
    Except FileSystem.Fault FileSystem := do
  let directory := if bare then p else p.join ⟨Site.innerName⟩
  let fs ← folders.foldlM (fun fs folder => fs.makeDirectories (directory.join folder)) fs
  (files branch bare).foldlM (fun fs (name, content) => fs.write (directory.join ⟨name⟩) content) fs

/-- Makes a repository at a path. -/
def create (p : Path) (branch : String) (bare : Bool) : Operation Unit := do
  Operation.setFiles
    (← Operation.ofExcept ((make (← Operation.files) p branch bare).mapError unusable))

end Creation
end Git
end NightlyRelease
