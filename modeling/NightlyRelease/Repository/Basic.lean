/-
# Repositories

What a run asks of version control. Paths are seen from the work directory, and
a branch is pushed to the branch of the same name.
-/

import NightlyRelease.Commit.Subject
import NightlyRelease.Config.Basic
import NightlyRelease.Credentials
import NightlyRelease.World

namespace NightlyRelease

/-- A changed path with the short code of the change, as `M` or `??`. -/
structure StatusEntry where
  code : String
  path : String
  deriving DecidableEq, Repr

/-- The services of a repository that remembers a `σ`. -/
structure Repository (σ : Type) where
  /-- The directory of the files that are under version control. -/
  workDirectory : Action σ Path
  /-- The subjects of so many of the newest commits, newest first. -/
  recentSubjects (limit : Nat) : Action σ (List Subject)
  /-- The subject of the newest commit. -/
  headSubject : Action σ (Option Subject)
  /-- The branch that is checked out. -/
  currentBranch : Action σ String
  remoteUrl (remote : String) : Action σ String
  setRemoteUrl (remote url : String) : Action σ Unit
  status : Action σ (List StatusEntry)
  /-- Puts a file into the next commit. -/
  stage (path : Path) : Action σ Unit
  /-- Commits what is staged and gives the name of the commit. -/
  commit (message : String) (author : Option Author) : Action σ String
  push (remote branch : String) (credentials : Option Credentials) : Action σ Unit
  /-- Records the branch of the remote that a branch belongs to. -/
  setTracking (remote branch : String) : Action σ Unit

end NightlyRelease
