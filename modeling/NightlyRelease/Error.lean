/-
# Errors of a run

Each error has a kind, which callers tell apart, and a text for the reader; the
text starts with words that belong to the kind. Errors of the version-control
library and of the operating system carry the words of their cause, which a
command-line report repeats after the message.
-/

namespace NightlyRelease

/-- What can end a run, or one operation on a repository. -/
inductive Error where
  /-- The version-control library failed. -/
  | git (cause : String)
  /-- A file could not be read or written. -/
  | io (cause : String)
  /-- The configuration is unusable. -/
  | config (reason : String)
  /-- A version is not one, or does not go up. -/
  | version (reason : String)
  /-- The version file does not declare a key. -/
  | missingField (key : String)
  /-- The version file declares a key more than once. -/
  | repeatedField (key : String)
  /-- The repository has no commit. -/
  | emptyHistory
  /-- No branch is checked out. -/
  | detachedHead
  /-- A remote is missing or cannot be changed. -/
  | remote (reason : String)
  /-- Staging or committing failed. -/
  | commit (reason : String)
  /-- The push failed or was rejected. -/
  | push (reason : String)
  /-- The old URL of a remote could not be put back. -/
  | remoteRestore (reason : String)
  /-- A run that is not dry has no credentials. -/
  | missingCredentials
  deriving DecidableEq, Repr

namespace Error

/-- The text of an error. -/
def message : Error → String
  | git cause => "Git operation failed: " ++ cause
  | io cause => "I/O error: " ++ cause
  | config reason => "Configuration error: " ++ reason
  | version reason => "Version error: " ++ reason
  | missingField key => "Version file has no " ++ key ++ " declaration"
  | repeatedField key => "Version file declares " ++ key ++ " more than once"
  | emptyHistory => "Repository has no commits"
  | detachedHead => "HEAD is detached; a branch must be checked out to push"
  | remote reason => "Remote error: " ++ reason
  | commit reason => "Commit failed: " ++ reason
  | push reason => "Push failed: " ++ reason
  | remoteRestore reason => "Failed to restore remote URL: " ++ reason
  | missingCredentials => "Credentials are required unless running with --dry-run"

/-- The words of the library or the system behind an error, where there are any. -/
def cause? : Error → Option String
  | git cause => some cause
  | io cause => some cause
  | _ => none

/-- The message followed by its cause, as a command line reports it. -/
def chain (e : Error) : String :=
  match e.cause? with
  | none => e.message
  | some cause => e.message ++ ": " ++ cause

end Error
end NightlyRelease
