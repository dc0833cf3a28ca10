/-
# What a completed run has done

A completed run has written three files, one after the other: the changelog, the
bumped version file and the new version.  Each write gives what the report says,
to the configured path, whatever the paths are; the version file that was written
declares the new version, which is the next one after the version that was
declared before the run.  There is one more commit, with the message of the
report; all remotes have the URLs that they had; and one push went to the remote
and the branch of the report (`completed_run`).
-/

import NightlyRelease.Proofs.Nightly.Checkpoints
import NightlyRelease.Proofs.VersionFile.Parsing

namespace NightlyRelease
namespace Nightly

open NightlyRelease.Action Repository

/-- What a completed run with report `r` has done. `file` is the version file before the run and
`bumped` its bump; `fs₁` and `fs₂` are the files after the first and the second write. -/
structure Completion (options : Options) (config : Config) (w w' : World InMemory) (r : Report)
    (file : VersionFile) (bumped : VersionFile.Bumped) (fs₁ fs₂ : FileSystem) : Prop where
  file_read : ∃ text, w.files.readText (placesIn config w).versionFile = .ok text ∧
    VersionFile.parse text config.keyPrefix = .ok file
  file_bumped : file.bumpPatch = .ok bumped
  changelog_written :
    w.files.writeText (placesIn config w).changelog r.changelog.render = .ok fs₁
  versionFile_written : fs₁.writeText (placesIn config w).versionFile bumped.text = .ok fs₂
  versionOutput_written :
    fs₂.writeText (placesIn config w).versionOutput r.version.text = .ok w'.files
  previous_eq : r.previous = file.version
  /-- The version file that was written declares the new version. -/
  file_reparsed : ∃ file', VersionFile.parse bumped.text config.keyPrefix = .ok file' ∧
    file'.version = r.version
  version_next : r.version.major = r.previous.major ∧ r.version.minor = r.previous.minor ∧
    r.version.patch.toNat = r.previous.patch.toNat + 1
  /-- The version that was published before, if there is a file for it, is older. -/
  version_newer : ∀ text, w.files.readText (placesIn config w).versionOutput = .ok text →
    ∃ published, Version.parse text = .ok published ∧ published < r.version
  changelog_eq : r.changelog = changelogOf config w.repository
  subjects_eq : w'.repository.subjects = Subject.ofMessage r.message :: w.repository.subjects
  message_eq : r.message = config.commits.lead ++ r.version.text ++ " (nightly build)"
  remotes_eq : w'.repository.remotes = w.repository.remotes
  remote_eq : r.remote = options.remote.getD config.remote
  branch_eq : w.repository.branch = some r.branch
  /-- One push was recorded, to the URL of the remote or the one with credentials. -/
  pushed : ∃ calls url, w'.repository.calls = w.repository.calls ++ calls ∧
    w.repository.remotes r.remote = some url ∧
    calls.filter RecordedCall.isPush =
      [.push r.remote r.branch ((options.credentials.bind (·.injectInto url)).getD url)]

section

variable {options : Options} {config : Config} {w w' : World InMemory} {r : Report}

/-- A prepared run has found an older version in the file of the published version, if there is
such a file. -/
theorem exists_published_of_planned {fs : FileSystem} {repository : InMemory} {plan : Plan}
    {text : String} (h : planned options config fs repository = .ok plan)
    (htext : fs.readText plan.places.versionOutput = .ok text) :
    ∃ published, Version.parse text = .ok published ∧ published < plan.report.version := by
  obtain ⟨branch, url, bumped, -, -, hbumped, rfl⟩ := planned_eq_ok_iff.1 h
  obtain ⟨file, published, -, -, hpublished, hlt⟩ := bumpIn_eq_ok_iff.1 hbumped
  cases published with
  | none =>
    have hmissing := Artifacts.versionIn_eq_none_iff.1 hpublished
    cases htext.symm.trans hmissing
  | some v =>
    obtain ⟨text', htext', hparse⟩ := Artifacts.versionIn_eq_some_iff.1 hpublished
    obtain rfl : text' = text := Except.ok.inj (htext'.symm.trans htext)
    exact ⟨v, hparse, hlt v rfl⟩

theorem Course.completion (h : Course options config w (.ok (.completed r)) w') :
    ∃ file bumped fs₁ fs₂, Completion options config w w' r file bumped fs₁ fs₂ := by
  cases h with
  | @completed plan fs₁ fs₂ fs₃ published t hg hp hd hw₁ hw₂ he hw₃ =>
    have hnewer (text : String) (htext : w.files.readText plan.places.versionOutput = .ok text) :=
      exists_published_of_planned hp htext
    obtain ⟨text, file, htext, hfile, hb⟩ := exists_versionFile_of_planned hp
    obtain ⟨branch, url, bumped, hbranch, -, -, rfl⟩ := planned_eq_ok_iff.1 hp
    obtain ⟨hversion, hprevious, -⟩ := VersionFile.bumpPatch_eq_ok_iff.1 hb
    have hnext := Version.next_of_bumpPatch hversion
    rw [← hprevious] at hnext
    obtain ⟨url', hurl', hpush⟩ := he.filter_isPush
    exact ⟨file, bumped, fs₁, fs₂, {
      file_read := ⟨text, htext, hfile⟩
      file_bumped := hb
      changelog_written := hw₁
      versionFile_written := hw₂
      versionOutput_written := hw₃
      previous_eq := hprevious
      file_reparsed := ⟨_, VersionFile.parse_bumped hfile hb, rfl⟩
      version_next := hnext
      version_newer := hnewer
      changelog_eq := rfl
      subjects_eq := rfl
      message_eq := rfl
      remotes_eq := he.remotes_eq fun reason => by simp
      remote_eq := rfl
      branch_eq := (InMemory.currentBranch_eq_ok_iff.1 hbranch).2
      pushed := ⟨t.calls, url', rfl, hurl', hpush⟩ }⟩

/-- **What a completed run has done.** -/
theorem completed_run (h : run options config inMemory w = (.ok (.completed r), w')) :
    ∃ file bumped fs₁ fs₂, Completion options config w w' r file bumped fs₁ fs₂ :=
  have hcourse : Course options config w (.ok (.completed r)) w' := course_of_run h
  hcourse.completion

end

/-! ### A small release -/

/-- The version that a run has published, if it was completed. -/
def publishedBy : Except Halt Outcome → Option Version
  | .ok (.completed r) => some r.version
  | _ => none

theorem exists_of_publishedBy {x : Except Halt Outcome} {v : Version}
    (h : publishedBy x = some v) : ∃ r, x = .ok (.completed r) ∧ r.version = v := by
  unfold publishedBy at h
  split at h
  · next r => exact ⟨r, rfl, Option.some.inj h⟩
  · cases h

namespace Sample

/-- The configuration of a small library. -/
def config : Config where
  paths := {
    versionFile := ⟨"version.cmake"⟩, changelog := ⟨"changelog.txt"⟩
    versionOutput := ⟨"version.txt"⟩ }
  keyPrefix := "LIB"

/-- A run that publishes. -/
def options : Options where
  credentials := some ⟨"bot", "token"⟩

/-- The library at version 1.2.3. -/
def world : World InMemory where
  files := ⟨[(["lib"], .directory), (["lib", "version.cmake"],
    .file "set(LIB_MAJOR 1)\nset(LIB_MINOR 2)\nset(LIB_PATCH 3)\n".toUTF8)], []⟩
  repository := {
    workDirectory := ⟨"/lib"⟩
    subjects := [⟨"Add a first function"⟩]
    remotes := fun name => if name = "origin" then some "https://example.org/lib.git" else none }
  log := []

end Sample

/-- The library is released as version 1.2.4. -/
theorem completed_run_sample :
    ∃ r w', run Sample.options Sample.config inMemory Sample.world = (.ok (.completed r), w') ∧
      r.version = ⟨1, 2, 4⟩ ∧ ∃ file bumped fs₁ fs₂,
        Completion Sample.options Sample.config Sample.world w' r file bumped fs₁ fs₂ := by
  have hpublished : publishedBy (run Sample.options Sample.config inMemory Sample.world).1 =
      some ⟨1, 2, 4⟩ := by decide +kernel
  obtain ⟨r, hr, hversion⟩ := exists_of_publishedBy hpublished
  have hrun : run Sample.options Sample.config inMemory Sample.world =
      (.ok (.completed r), (run Sample.options Sample.config inMemory Sample.world).2) :=
    Prod.ext hr rfl
  exact ⟨r, _, hrun, hversion, completed_run hrun⟩

end Nightly
end NightlyRelease
