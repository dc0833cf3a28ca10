/-
# A repository in memory

It keeps subjects instead of commits, has no files of its own, and records every
call that changes something. It can be told to refuse pushes, and to refuse one
particular URL.
-/

import NightlyRelease.Repository.Basic
import NightlyRelease.Text.Hex

namespace NightlyRelease

/-- A call that changed something, or tried to. -/
inductive RecordedCall where
  | setRemoteUrl (remote url : String)
  | stage (path : Path)
  | commit (message : String)
  /-- A push, with the URL that the remote had at that time. -/
  | push (remote branch url : String)
  | setTracking (remote branch : String)
  deriving DecidableEq, Repr

/-- What a repository in memory remembers. -/
structure InMemory where
  workDirectory : Path
  /-- The subjects of its commits, newest first. -/
  subjects : List Subject := []
  /-- The branch that is checked out, if one is. -/
  branch : Option String := some "main"
  /-- The URL of each remote. -/
  remotes : String → Option String := fun _ => none
  status : List StatusEntry := []
  /-- Why every push is refused, if it is. -/
  pushRefusal : Option String := none
  /-- The URL that no remote can be set to, if there is one. -/
  refusedUrl : Option String := none
  /-- The calls so far, oldest first. -/
  calls : List RecordedCall := []

namespace InMemory

/-- The repository with another URL for a remote. -/
def withRemote (r : InMemory) (name url : String) : InMemory :=
  { r with remotes := fun n => if n = name then some url else r.remotes n }

/-- The repository with a commit on top. -/
def withCommit (r : InMemory) (message : String) : InMemory :=
  { r with subjects := Subject.ofMessage message :: r.subjects }

/-- The repository with one more change in its work directory. -/
def withStatus (r : InMemory) (code path : String) : InMemory :=
  { r with status := r.status ++ [⟨code, path⟩] }

/-- The repository with one more call on record. -/
def record (r : InMemory) (c : RecordedCall) : InMemory := { r with calls := r.calls ++ [c] }

/-- Forty hexadecimal digits that name the newest of so many commits. -/
def commitId (count : Nat) : String := String.ofList (Text.Hex.padded 40 count)

/-- The branch that is checked out. -/
def currentBranch (r : InMemory) : Except Error String :=
  if r.subjects = [] then .error .emptyHistory
  else match r.branch with
    | some b => .ok b
    | none => .error .detachedHead

/-- The URL of a remote. -/
def remoteUrl (r : InMemory) (remote : String) : Except Error String :=
  match r.remotes remote with
  | some url => .ok url
  | none => .error (.remote ("Cannot find remote '" ++ remote ++ "'"))

/-- Gives a remote another URL. -/
def setRemoteUrl (r : InMemory) (remote url : String) : Except Error InMemory :=
  if r.refusedUrl = some url then
    .error (.remote ("Cannot set URL of remote '" ++ remote ++ "'"))
  else do
    let _ ← r.remoteUrl remote
    return (r.withRemote remote url).record (.setRemoteUrl remote url)

/-- Commits; everything is taken to be staged. -/
def commit (r : InMemory) (message : String) : String × InMemory :=
  let r := (r.withCommit message).record (.commit message)
  (commitId r.subjects.length, r)

/-- Records a push to the URL that the remote has. -/
def push (r : InMemory) (remote branch : String) : Except Error InMemory := do
  return r.record (.push remote branch (← r.remoteUrl remote))

/-- Why pushes are refused. -/
def pushOutcome (r : InMemory) : Except Error Unit :=
  match r.pushRefusal with
  | some reason => .error (.push reason)
  | none => .ok ()

end InMemory

namespace Repository

/-- What the repository remembers. -/
private def state : Action InMemory InMemory := Action.repository

/-- The services of a repository in memory. -/
def inMemory : Repository InMemory where
  workDirectory := return (← state).workDirectory
  recentSubjects limit := return (← state).subjects.take limit
  headSubject := return (← state).subjects.head?
  currentBranch := do Action.ofExcept (← state).currentBranch
  remoteUrl remote := do Action.ofExcept ((← state).remoteUrl remote)
  setRemoteUrl remote url := do
    let r ← Action.ofExcept ((← state).setRemoteUrl remote url)
    Action.modifyRepository fun _ => r
  status := return (← state).status
  stage path := Action.modifyRepository (·.record (.stage path))
  commit message _ := do
    let (id, r) := (← state).commit message
    Action.modifyRepository fun _ => r
    return id
  push remote branch _ := do
    let r ← Action.ofExcept ((← state).push remote branch)
    Action.modifyRepository fun _ => r
    Action.ofExcept r.pushOutcome
  setTracking remote branch := Action.modifyRepository (·.record (.setTracking remote branch))

namespace inMemory

open NightlyRelease.Action

variable (w : World InMemory) (remote branch : String)

@[simp] theorem workDirectory_apply :
    inMemory.workDirectory w = (.ok w.repository.workDirectory, w) := rfl

@[simp] theorem recentSubjects_apply (limit : Nat) :
    inMemory.recentSubjects limit w = (.ok (w.repository.subjects.take limit), w) := rfl

@[simp] theorem headSubject_apply :
    inMemory.headSubject w = (.ok w.repository.subjects.head?, w) := rfl

@[simp] theorem currentBranch_apply :
    inMemory.currentBranch w = (returned w.repository.currentBranch, w) :=
  ofExcept_apply w _

@[simp] theorem remoteUrl_apply :
    inMemory.remoteUrl remote w = (returned (w.repository.remoteUrl remote), w) :=
  ofExcept_apply w _

@[simp] theorem setRemoteUrl_apply (url : String) :
    inMemory.setRemoteUrl remote url w = match w.repository.setRemoteUrl remote url with
      | .ok r => (.ok (), { w with repository := r })
      | .error e => (.error (.failed e), w) := by
  show (ofExcept (w.repository.setRemoteUrl remote url) >>= fun r =>
    modifyRepository fun _ => r : Action InMemory Unit) w = _
  cases w.repository.setRemoteUrl remote url <;> simp

@[simp] theorem status_apply : inMemory.status w = (.ok w.repository.status, w) := rfl

@[simp] theorem stage_apply (path : Path) :
    inMemory.stage path w = (.ok (), { w with repository := w.repository.record (.stage path) }) :=
  rfl

@[simp] theorem commit_apply (message : String) (author : Option Author) :
    inMemory.commit message author w = (.ok (w.repository.commit message).1,
      { w with repository := (w.repository.commit message).2 }) := rfl

@[simp] theorem push_apply (credentials : Option Credentials) :
    inMemory.push remote branch credentials w = match w.repository.push remote branch with
      | .ok r => (returned r.pushOutcome, { w with repository := r })
      | .error e => (.error (.failed e), w) := by
  show (ofExcept (w.repository.push remote branch) >>= fun r => do
    modifyRepository fun _ => r
    ofExcept r.pushOutcome : Action InMemory Unit) w = _
  cases w.repository.push remote branch <;> simp

@[simp] theorem setTracking_apply :
    inMemory.setTracking remote branch w =
      (.ok (), { w with repository := w.repository.record (.setTracking remote branch) }) := rfl

end inMemory
end Repository
end NightlyRelease
