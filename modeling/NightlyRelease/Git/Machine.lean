/-
# Repositories of a machine

What repositories hold besides their files: the history that all of them share,
and for each the commits of it that it has and its index. A machine also has a
clock, and may reach a server that answers requests.
-/

import NightlyRelease.Git.Http
import NightlyRelease.Git.Index

namespace NightlyRelease
namespace Git

/-- What a repository holds besides its files. -/
structure Store where
  directory : FileSystem.Location
  /-- The commits that it has. -/
  known : List CommitId := []
  index : Index := []

/-- What all repositories hold, and what they act with. -/
structure Machine where
  history : History := []
  stores : List Store := []
  /-- The time, in seconds. -/
  clock : Int := 0
  server : Option Http.Server := none

namespace Machine

/-- What the repository in a directory holds. -/
def store (m : Machine) (directory : FileSystem.Location) : Store :=
  (m.stores.find? (·.directory == directory)).getD { directory }

/-- Puts what a repository holds in place of what it held. -/
def setStore (m : Machine) (s : Store) : Machine :=
  { m with stores := s :: m.stores.filter (·.directory != s.directory) }

/-- A commit, if the repository in a directory has it. -/
def commit? (m : Machine) (directory : FileSystem.Location) (id : CommitId) : Option Commit :=
  if (m.store directory).known.contains id then m.history.at? id else none

/-- Gives a commit to the repository in a directory. -/
def addCommit (m : Machine) (directory : FileSystem.Location) (c : Commit) :
    CommitId × Machine :=
  let (id, history) := m.history.add c
  let store := m.store directory
  (id, { m with history }.setStore { store with known := id :: store.known })

/-- Gives a commit and all that it builds on to the repository in a directory. -/
def receive (m : Machine) (directory : FileSystem.Location) (id : CommitId) : Machine :=
  let store := m.store directory
  m.setStore { store with known := m.history.reachable id ++ store.known }

end Machine
end Git
end NightlyRelease
