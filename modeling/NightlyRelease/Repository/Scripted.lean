/-
# Repositories that fail on cue

Any repository can be made to fail: each cue names a service, how many more of
its calls still go through, and how the calls after them end. Such a call does
not reach the repository. The name that a commit is reported under can be
replaced, too.
-/

import NightlyRelease.Repository.Basic

namespace NightlyRelease

/-- The services of a repository, without what they are asked. -/
inductive Service where
  | workDirectory | recentSubjects | headSubject | currentBranch | remoteUrl | setRemoteUrl
  | status | stage | commit | push | setTracking
  deriving DecidableEq, Repr

/-- When calls of a service fail, and how. -/
structure Cue where
  service : Service
  /-- How many more calls go through. -/
  skip : Nat
  halt : Halt
  deriving DecidableEq, Repr

/-- A repository with its cues. -/
structure Scripted (σ : Type) where
  cues : List Cue
  /-- The name that every commit is reported under, if there is one. -/
  commitId : Option String
  inner : σ

namespace Scripted

/-- Counts a call against the cues in their order, up to the first that makes it fail. -/
def meet (service : Service) : List Cue → Option Halt × List Cue
  | [] => (none, [])
  | cue :: cues =>
    if cue.service ≠ service then
      let (halt, cues) := meet service cues
      (halt, cue :: cues)
    else match cue.skip with
      | 0 => (some cue.halt, cue :: cues)
      | skip + 1 =>
        let (halt, cues) := meet service cues
        (halt, { cue with skip } :: cues)

variable {σ α : Type}

/-- Calls a service, unless a cue says that the call fails. -/
def call (service : Service) (act : Action σ α) : Action (Scripted σ) α := do
  let (halt, cues) := meet service (← Action.repository).cues
  Action.modifyRepository fun s => { s with cues }
  match halt with
  | some halt => throw halt
  | none => Action.onPart Scripted.inner (fun r s => { s with inner := r }) act

end Scripted

/-- A repository whose calls go through its cues. -/
def Repository.scripted {σ : Type} (r : Repository σ) : Repository (Scripted σ) where
  workDirectory := Scripted.call .workDirectory r.workDirectory
  recentSubjects limit := Scripted.call .recentSubjects (r.recentSubjects limit)
  headSubject := Scripted.call .headSubject r.headSubject
  currentBranch := Scripted.call .currentBranch r.currentBranch
  remoteUrl remote := Scripted.call .remoteUrl (r.remoteUrl remote)
  setRemoteUrl remote url := Scripted.call .setRemoteUrl (r.setRemoteUrl remote url)
  status := Scripted.call .status r.status
  stage path := Scripted.call .stage (r.stage path)
  commit message author := do
    let id ← Scripted.call .commit (r.commit message author)
    return (← Action.repository).commitId.getD id
  push remote branch credentials :=
    Scripted.call .push (r.push remote branch credentials)
  setTracking remote branch := Scripted.call .setTracking (r.setTracking remote branch)

end NightlyRelease
