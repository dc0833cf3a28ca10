/-
# A nightly run

A run stops at once if the newest commit is a nightly one. Else it collects the
changelog, raises the version, and checks that the new version is newer than the
one that the last run published. All of this only reads. Then, unless the run is
dry, the changelog and the version file are written, the version file is
published, and last the new version is written to its own file.
-/

import NightlyRelease.Artifacts
import NightlyRelease.LoopGuard
import NightlyRelease.Publish
import NightlyRelease.Terminal

namespace NightlyRelease
namespace Nightly

/-- What a run is asked for. -/
structure Options where
  credentials : Option Credentials := none
  /-- The remote to push to, in place of the configured one. -/
  remote : Option String := none
  /-- Whether nothing is to be written. -/
  dry : Bool := false

/-- What a run did, or would have done. -/
structure Report where
  previous : Version
  version : Version
  branch : String
  remote : String
  message : String
  changelog : Changelog
  /-- The name of the nightly commit; a dry run makes none. -/
  commit : Option String
  warnings : List Warning
  deriving DecidableEq, Repr

/-- How a run ended. -/
inductive Outcome where
  /-- The newest commit was a nightly one, with this subject. -/
  | skipped (subject : String)
  | dryRun (r : Report)
  | completed (r : Report)
  deriving DecidableEq, Repr

/-- The exit status that tells the outcome to the caller of the program. -/
def Outcome.exitCode : Outcome → Nat
  | skipped _ => 2
  | dryRun _ => 0
  | completed _ => 0

/-- The report at the end of a run. -/
def Outcome.summary : Outcome → Output
  | skipped subject => Terminal.status (Terminal.skipLine subject)
  | dryRun r =>
    Terminal.changelog r.changelog ++ Terminal.warnings r.warnings ++
      Terminal.status "Dry run, nothing was written:" ++
      Terminal.success ("  would write version " ++ Version.change r.previous r.version) ++
      Terminal.success ("  would commit \"" ++ r.message ++ "\" on '" ++ r.branch ++ "'") ++
      Terminal.success ("  would push '" ++ r.branch ++ "' to '" ++ r.remote ++ "'")
  | completed r =>
    Terminal.warnings r.warnings ++
      Terminal.success ("Published nightly version " ++ Version.change r.previous r.version ++
        " on '" ++ r.branch ++ "'")

variable {σ : Type}

/-- Whether the newest commit lets a run go on. -/
def checkHead (repo : Repository σ) (marker : String) : Action σ LoopGuard.Decision := do
  Action.ofExcept (LoopGuard.check (← repo.headSubject) marker)

/-- The changelog of the newest commits. -/
def collect (repo : Repository σ) (c : Config.Commits) : Action σ Changelog := do
  let subjects ← repo.recentSubjects c.window
  let changelog := Changelog.ofSubjects subjects c.marker c.minimum
  Action.log .debug (Text.Decimal.text changelog.size ++ " of " ++
    Text.Decimal.text subjects.length ++ " recent commits go into the changelog")
  return changelog

/-- The files of a run, as the program names them. -/
structure Places where
  versionFile : Path
  changelog : Path
  versionOutput : Path
  deriving DecidableEq, Repr

/-- The configured files in a work directory. -/
def places (workDirectory : Path) (c : Config.Paths) : Places where
  versionFile := workDirectory.join c.versionFile
  changelog := workDirectory.join c.changelog
  versionOutput := workDirectory.join c.versionOutput

/-- The bumped version file, once it is sure that its version is newer than the published one. -/
def bump (config : Config) (places : Places) : Action σ VersionFile.Bumped := do
  let file ← Artifacts.loadVersionFile places.versionFile config.keyPrefix
  Action.log .debug (config.paths.versionFile.text ++ " declares version " ++ file.version.text)
  let bumped ← MonadExcept.ofExcept file.bumpPatch
  match ← Artifacts.readVersion places.versionOutput with
  | none => pure ()
  | some published => Action.ofExcept (bumped.version.ensureFollows published)
  return bumped

/-- A run that has been prepared: its files, the new version file, and its report so far. -/
structure Plan where
  places : Places
  bumped : VersionFile.Bumped
  report : Report

/-- Finds out what a run would do, without writing anything. -/
def prepare (options : Options) (config : Config) (repo : Repository σ) : Action σ Plan := do
  let workDirectory ← repo.workDirectory
  let changelog ← collect repo config.commits
  let branch ← repo.currentBranch
  let remote := options.remote.getD config.remote
  let _ ← repo.remoteUrl remote
  let places := places workDirectory config.paths
  let bumped ← bump config places
  return {
    places, bumped
    report := {
      previous := bumped.previous
      version := bumped.version
      branch, remote, changelog
      message := config.commitMessage bumped.version
      commit := none
      warnings := if changelog.isEmpty then [.emptyChangelog config.commits.window] else [] } }

/-- The request to publish a plan. -/
def Plan.request (plan : Plan) (options : Options) (config : Config) : Publish.Request where
  remote := plan.report.remote
  branch := plan.report.branch
  versionFile := config.paths.versionFile
  artifacts := [config.paths.changelog, config.paths.versionOutput]
  message := plan.report.message
  credentials := options.credentials
  author := config.author

/-- Writes and publishes what was planned. -/
def Plan.execute (plan : Plan) (options : Options) (config : Config) (repo : Repository σ) :
    Action σ Report := do
  Artifacts.writeChangelog plan.places.changelog plan.report.changelog
  Artifacts.writeBumped plan.places.versionFile plan.bumped
  let published ← publish repo (plan.request options config)
  Artifacts.writeVersion plan.places.versionOutput plan.report.version
  return { plan.report with
    commit := some published.commit
    warnings := plan.report.warnings ++ published.warnings }

/-- One nightly run. -/
def run (options : Options) (config : Config) (repo : Repository σ) : Action σ Outcome := do
  match ← checkHead repo config.commits.marker with
  | .skip subject =>
    Action.log .info ("Latest commit is a nightly bump, skipping: " ++ subject)
    return .skipped subject
  | .proceed =>
    if !options.dry && options.credentials.isNone then
      Action.fail .missingCredentials
    let plan ← prepare options config repo
    if options.dry then
      Action.log .info ("Dry run: " ++ plan.report.previous.text ++ " would become " ++
        plan.report.version.text)
      return .dryRun plan.report
    return .completed (← plan.execute options config repo)

end Nightly
end NightlyRelease
