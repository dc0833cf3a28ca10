/-
# Repositories on disk

The services of the repository at a site: references, settings and files lie in
the file system, commits and the index in the store. Each service turns the
faults of version control into the errors of a run, with a kind that tells what
was attempted.
-/

import NightlyRelease.Git.Committing
import NightlyRelease.Git.Push
import NightlyRelease.Git.Walk
import NightlyRelease.Repository.Basic

namespace NightlyRelease
namespace Git
namespace Site

/-- The directory of the files of a repository; a bare one has none. -/
def workPath (s : Site) : Except Error Path :=
  match s.workDirectory with
  | some l => .ok ⟨(pathOf l).text ++ "/"⟩
  | none => .error (.config "Repository is bare; a working tree is required")

/-- The settings of a repository. -/
def settings (s : Site) : Operation Settings := do
  Operation.ofExcept (Settings.load (← Operation.files) s.directory)

/-- The commit that is checked out. -/
def head (s : Site) : Operation (Option (CommitId × Commit)) := do
  Operation.ofExcept (headCommit (← Operation.files) (← Operation.machine) s)

/-- The first commits that a walk from a commit shows. -/
def newestCommits (s : Site) (limit : Nat) (id : CommitId) (c : Commit) :
    Operation (List Commit) := do
  let m ← Operation.machine
  Operation.ofExcept ((Walk.start id c).commits (m.commit? s.directory) limit)

/-- The most subjects for which there can be room: a list takes less than `2 ^ 63` bytes, and each
subject takes 24 of them, besides its text. -/
def subjectRoom : Nat := (Nat.pow 2 63 - 1) / 24

/-- The subjects of the newest commits. Room is made for as many as are asked for, however few there
are. -/
def recentSubjects (s : Site) (limit : Nat) : Action Machine (List Subject) := do
  match ← s.head.orFail Fault.toError with
  | none => return []
  | some (id, c) =>
    if subjectRoom < limit then throw (.aborted "capacity overflow")
    let commits ← (s.newestCommits limit id c).orFail Fault.toError
    return commits.map fun c => subjectOf c.shownMessage

/-- The branch that is checked out. -/
def currentBranch (fs : FileSystem) (s : Site) : Except Error String :=
  match Head.read fs s.directory with
  | .error fault => .error fault.toError
  | .ok (.unborn _) => .error .emptyHistory
  | .ok (.born name _) | .ok (.broken name _) =>
    match Reference.branch? name with
    | some branch => .ok branch
    | none => .error .detachedHead

/-- The URLs of a remote. -/
def remote (s : Site) (name : String) : Operation Remote.Urls := do
  Operation.ofExcept (Remote.find (← s.settings) name)

/-- Gives a remote another URL. -/
def setRemoteUrl (s : Site) (remote url : String) : Operation Unit := do
  Operation.setFiles
    (← Operation.ofExcept (Remote.setUrl (← Operation.files) s.directory remote url))

/-- The tree that is checked out. Where it leads to no commit, it counts as empty. -/
def headTree (s : Site) : Operation Tree := do
  match ← Operation.attempt s.head with
  | .ok found => return (found.map fun (_, c) => c.tree).getD []
  | .error fault => if fault.code = some .notFound then return [] else throw fault

/-- How the files of the work directory differ. -/
def status (s : Site) : Operation (List StatusEntry) := do
  let some workDirectory := s.workDirectory | throw (Staging.bareFault "cannot status")
  let head ← s.headTree
  let index ← Staging.index s
  let work := WorkTree.shown (← Operation.files) s.directory workDirectory index
  return WorkTree.status head index work

/-- The index with the file at a path in it. -/
def staged (s : Site) (p : Path) : Operation Index := do
  let (path, blob) ← Operation.ofExcept (Staging.read (← Operation.files) s p.text)
  return (← Staging.index s).add path blob

/-- The signature of the next commit. -/
def signature (s : Site) (author : Option Author) : Operation Signature := do
  Operation.ofExcept (Signature.choose (← Operation.machine).clock (← s.settings) author)

/-- What the next commit holds and builds on. -/
def nextTree (s : Site) : Operation (Tree × Option CommitId) := do
  let tree ← Operation.ofExcept (← Staging.index s).tree
  return (tree, (← s.head).map (·.1))

/-- Makes the next commit. -/
def recordNext (s : Site) (signature : Signature) (message : String)
    (next : Tree × Option CommitId) : Operation CommitId := do
  Operation.ofExcept (withoutNul [message])
  Committing.record s (Committing.onTop next.1 next.2 signature (Text.bytes message))

/-- Records the branch of a remote that a branch belongs to. -/
def setTracking (s : Site) (remote branch : String) : Operation Unit := do
  let key (variable_ : String) : String := "branch." ++ branch ++ "." ++ variable_
  let fs ← Operation.ofExcept
    (Settings.set (← Operation.files) s.directory (key "remote") remote)
  Operation.setFiles fs
  Operation.setFiles (← Operation.ofExcept
    (Settings.set fs s.directory (key "merge") (Reference.ofBranch branch)))

end Site

/-- The error of a push that ended with a fault. -/
def Push.errorOf (branch : String) (f : Fault) : Error :=
  match f.cls with
  | some .net => .push ("network error: " ++ f.render)
  | some .http => .push ("HTTP error: " ++ f.render)
  | _ => .push ("cannot push '" ++ branch ++ "': " ++ f.render)

end Git

namespace Repository

open Git

/-- The services of the repository at a site. -/
def stored (s : Site) : Repository Machine where
  workDirectory := Action.ofExcept s.workPath
  recentSubjects := s.recentSubjects
  headSubject := return (← s.recentSubjects 1).head?
  currentBranch := do Action.ofExcept (Site.currentBranch (← Action.files) s)
  remoteUrl name := do
    let urls ← (s.remote name).orFail fun f =>
      .remote ("Cannot find remote '" ++ name ++ "': " ++ f.render)
    match urls.text? with
    | some url => return url
    | none => Action.fail (.remote ("Remote '" ++ name ++ "' has no valid URL"))
  setRemoteUrl name url := (s.setRemoteUrl name url).orFail fun f =>
    .remote ("Cannot set URL of remote '" ++ name ++ "' to " ++ Url.redact url ++ ": " ++ f.render)
  status := s.status.orFail Fault.toError
  stage p := do
    let index ← (s.staged p).orFail fun f =>
      .commit ("Cannot stage " ++ p.text ++ ": " ++ f.render)
    (Staging.setIndex s index).orFail Fault.toError
  commit message author := do
    let signature ← (s.signature author).orFail fun f =>
      .commit ("No commit identity available: " ++ f.render)
    let next ← s.nextTree.orFail Fault.toError
    let id ← (s.recordNext signature message next).orFail fun f => .commit f.render
    return CommitId.text id
  push name branch credentials := do
    let urls ← (s.remote name).orFail fun f => .remote ("Cannot find remote: " ++ f.render)
    match ← (Push.run s name urls branch credentials).orFail (Push.errorOf branch) with
    | none => pure ()
    | some rejection => Action.fail (.push rejection.text)
  setTracking name branch := (s.setTracking name branch).orFail Fault.toError

/-- The services of the repository to which a path belongs. -/
def storedAt (p : Path) : Action Machine (Repository Machine) := do
  match Site.discover (← Action.files) p with
  | .ok site => return stored site
  | .error fault => Action.fail fault.toError

end Repository
end NightlyRelease
