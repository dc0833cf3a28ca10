/-
# Publishing a bump

A bump is published in a fixed order: the version file is staged and committed,
the branch is pushed, and the branch of the remote is recorded. With credentials
and an https URL, the remote carries the credentials while the push goes on, and
gets its own URL back whether the push succeeds or not.

Changed files that the run does not write are reported and left alone.
-/

import NightlyRelease.RemoteSwap
import NightlyRelease.Warning

namespace NightlyRelease
namespace Publish

/-- What is published, where, and in whose name. -/
structure Request where
  remote : String
  branch : String
  versionFile : Path
  /-- The other files that the run writes. -/
  artifacts : List Path
  message : String
  credentials : Option Credentials
  author : Option Author

/-- A commit that was published. -/
structure Report where
  commit : String
  warnings : List Warning
  deriving DecidableEq, Repr

/-- The start of a commit name that people read: its first seven bytes, unless they end within
a character. -/
def shortId (id : String) : String :=
  match (List.range (id.length + 1)).find? fun n =>
      (String.ofList (id.toList.take n)).utf8ByteSize = 7 with
  | some n => String.ofList (id.toList.take n)
  | none => id

/-- A path as a status names it. -/
def statusName (p : Path) : String :=
  String.ofList (p.text.toList.map fun c => if c = '\\' then '/' else c)

/-- A code at the right end of two columns. -/
def alignCode (code : String) : String :=
  String.ofList (List.replicate (2 - code.length) ' ') ++ code

/-- The paths of changes to files that a run does not write. -/
def foreignPaths (written : List Path) (entries : List StatusEntry) : List String :=
  (entries.map (·.path)).filter fun p => !(written.map statusName).contains p

variable {σ : Type}

/-- Looks at the work directory for changes that the run does not make. -/
def inspect (repo : Repository σ) (written : List Path) : Action σ (List Warning) := do
  let entries ← repo.status
  for entry in entries do
    Action.log .debug ("status: " ++ alignCode entry.code ++ " " ++ entry.path)
  let foreign := foreignPaths written entries
  return if foreign = [] then [] else [.dirtyWorkingTree foreign]

/-- Ends a push through a swap. That the old URL could not be put back goes before an error of the
push, which is only logged then. -/
def settle (restored pushed : Except Error Unit) : Action σ Unit :=
  match restored, pushed with
  | .ok (), .ok () => pure ()
  | .ok (), .error e => Action.fail e
  | .error e, .ok () => Action.fail e
  | .error e, .error pushError => do
    Action.log .error ("Push also failed: " ++ pushError.message)
    Action.fail e

/-- Pushes while the remote has a URL with credentials. -/
def pushThrough (repo : Repository σ) (request : Request) (credentials : Credentials)
    (url : String) : Action σ Unit := do
  let swap ← RemoteSwap.replace repo request.remote url
  let (pushed, restored) ← swap.inScope repo do
    let pushed ← RemoteSwap.Scope.within
      (Action.attempt (repo.push request.remote request.branch (some credentials)))
    return (pushed, ← Action.attempt (RemoteSwap.restore repo))
  settle restored pushed

/-- Pushes, with credentials in the URL if it can carry them. -/
def push (repo : Repository σ) (request : Request) (url : String) : Action σ (List Warning) := do
  match request.credentials with
  | none =>
    repo.push request.remote request.branch none
    return []
  | some credentials => match credentials.injectInto url with
    | some url =>
      pushThrough repo request credentials url
      return []
    | none =>
      repo.push request.remote request.branch (some credentials)
      return [.credentialsNotInjected request.remote (Url.redact url)]

/-- Records the branch of the remote; a failure is only reported. -/
def recordTracking (repo : Repository σ) (remote branch : String) : Action σ (List Warning) := do
  match ← Action.attempt (repo.setTracking remote branch) with
  | .ok () => return []
  | .error e => return [.trackingNotRecorded branch e.message]

end Publish

/-- Commits the version file and pushes the commit. -/
def publish {σ : Type} (repo : Repository σ) (request : Publish.Request) :
    Action σ Publish.Report := do
  let dirty ← Publish.inspect repo (request.versionFile :: request.artifacts)
  repo.stage request.versionFile
  let commit ← repo.commit request.message request.author
  Action.log .info ("Committed " ++ Publish.shortId commit ++ ": " ++ request.message)
  let url ← repo.remoteUrl request.remote
  Action.log .info ("Pushing '" ++ request.branch ++ "' to " ++ Url.redact url)
  let unsent ← Publish.push repo request url
  let unrecorded ← Publish.recordTracking repo request.remote request.branch
  return { commit, warnings := dirty ++ unsent ++ unrecorded }

end NightlyRelease
