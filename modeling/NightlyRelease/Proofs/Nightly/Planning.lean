/-
# What a run finds out before it writes

Up to the point where a run is prepared, it only reads.  What it finds out is a
function of the files and the repository (`planned`), and what it does to the
world is to add log lines (`prepare_apply`).

A run is prepared exactly if a branch is checked out, the remote is known, the
version file can be read and bumped, and the file of the last published version
is missing or holds an older version than the bumped one (`planned_eq_ok_iff`,
`bumpIn_eq_ok_iff`).
-/

import NightlyRelease.Nightly
import NightlyRelease.Proofs.Result
import NightlyRelease.Proofs.Version.Order
import NightlyRelease.Proofs.VersionFile.Spans
import NightlyRelease.Repository.InMemory

namespace NightlyRelease

open NightlyRelease.Action Repository

theorem InMemory.currentBranch_eq_ok_iff {r : InMemory} {branch : String} :
    r.currentBranch = .ok branch ↔ r.subjects ≠ [] ∧ r.branch = some branch := by
  unfold currentBranch
  split
  · next h => simp [h]
  · next h =>
    cases r.branch <;> simp [h]

namespace Artifacts

/-- The version file, in pieces, that a file holds. -/
def versionFileIn (fs : FileSystem) (p : Path) (keyPrefix : String) : Except Error VersionFile :=
  match fs.readText p with
  | .ok text => VersionFile.parse text keyPrefix
  | .error fault => .error (.io ("cannot read version file " ++ p.text ++ ": " ++ fault.message))

variable {fs : FileSystem} {p : Path} {keyPrefix text : String} {file : VersionFile} {v : Version}

theorem versionFileIn_eq_ok_iff :
    versionFileIn fs p keyPrefix = .ok file ↔
      ∃ text, fs.readText p = .ok text ∧ VersionFile.parse text keyPrefix = .ok file := by
  unfold versionFileIn
  cases fs.readText p <;> simp

/-- **Reading a version file by offsets** gives what it holds in pieces, and is never broken off. -/
theorem loadVersionFile_apply {σ : Type} (w : World σ) : loadVersionFile p keyPrefix w =
    (returned ((versionFileIn w.files p keyPrefix).map VersionFile.located), w) := by
  simp only [loadVersionFile, versionFileIn, bind_apply, files_apply]
  cases w.files.readText p with
  | error fault => rfl
  | ok text =>
    simp only [VersionFile.Located.parse_eq, ofExcept_returned, ofExcept_apply]

theorem publishedVersion_eq_ok_iff :
    publishedVersion p text = .ok v ↔ Version.parse text = .ok v := by
  unfold publishedVersion
  cases Version.parse text with
  | ok w => exact Iff.rfl
  | error e => exact ⟨nofun, nofun⟩

theorem versionIn_eq_none_iff : versionIn fs p = .ok none ↔ fs.readText p = .error .notFound := by
  unfold versionIn
  split
  · next text h =>
    cases publishedVersion p text <;> simp [h, Functor.map, Except.map]
  · next h => simp [h]
  · next fault hfault h => simpa [h] using hfault

theorem versionIn_eq_some_iff :
    versionIn fs p = .ok (some v) ↔
      ∃ text, fs.readText p = .ok text ∧ Version.parse text = .ok v := by
  unfold versionIn
  split
  · next text h =>
    rw [h]
    simp only [Except.ok.injEq, exists_eq_left', ← publishedVersion_eq_ok_iff (p := p)]
    cases publishedVersion p text <;> simp [Functor.map, Except.map]
  · next h => simp [h]
  · next fault hfault h => simp [h]

end Artifacts

namespace Nightly

/-! ### What is found out -/

section

variable (options : Options) (config : Config) (places : Places) (fs : FileSystem) (r : InMemory)

/-- The bump of the version file. -/
def bumpIn : Except Error VersionFile.Bumped := do
  let file ← Artifacts.versionFileIn fs places.versionFile config.keyPrefix
  let bumped ← file.bumpPatch
  match ← Artifacts.versionIn fs places.versionOutput with
  | none => pure ()
  | some published => bumped.version.ensureFollows published
  return bumped

/-- The log lines of a bump. -/
def bumpLines : List Log.Line :=
  match Artifacts.versionFileIn fs places.versionFile config.keyPrefix with
  | .ok file =>
    [⟨.debug, config.paths.versionFile.text ++ " declares version " ++ file.version.text⟩]
  | .error _ => []

/-- The changelog of a repository. -/
def changelogOf : Changelog :=
  Changelog.ofSubjects (r.subjects.take config.commits.window) config.commits.marker
    config.commits.minimum

/-- The plan of a run on a branch. -/
def planOn (branch : String) (bumped : VersionFile.Bumped) : Plan where
  places := Nightly.places r.workDirectory config.paths
  bumped := bumped
  report := {
    previous := bumped.previous
    version := bumped.version
    branch
    remote := options.remote.getD config.remote
    message := config.commitMessage bumped.version
    changelog := changelogOf config r
    commit := none
    warnings :=
      if (changelogOf config r).isEmpty then [.emptyChangelog config.commits.window] else [] }

/-- What a run finds out before it writes. -/
def planned : Except Error Plan := do
  let branch ← r.currentBranch
  let _ ← r.remoteUrl (options.remote.getD config.remote)
  let bumped ← bumpIn config (Nightly.places r.workDirectory config.paths) fs
  return planOn options config r branch bumped

/-- The log lines that a run adds before it writes. -/
def planLines : List Log.Line :=
  ⟨.debug, Text.Decimal.text (changelogOf config r).size ++ " of " ++
    Text.Decimal.text (r.subjects.take config.commits.window).length ++
    " recent commits go into the changelog"⟩ ::
  match r.currentBranch, r.remoteUrl (options.remote.getD config.remote) with
  | .ok _, .ok _ => bumpLines config (Nightly.places r.workDirectory config.paths) fs
  | _, _ => []

end

variable {options : Options} {config : Config} {places : Places} {fs : FileSystem} {r : InMemory}
variable {bumped : VersionFile.Bumped} {plan : Plan}

theorem bumpIn_eq_ok_iff :
    bumpIn config places fs = .ok bumped ↔
      ∃ file published, Artifacts.versionFileIn fs places.versionFile config.keyPrefix = .ok file ∧
        file.bumpPatch = .ok bumped ∧ Artifacts.versionIn fs places.versionOutput = .ok published ∧
        ∀ v ∈ published, v < bumped.version := by
  simp only [bumpIn, bind_eq_ok_iff]
  constructor
  · rintro ⟨file, hfile, b, hb, published, hpublished, h⟩
    cases published with
    | none =>
      cases pure_eq_ok_iff.1 h
      exact ⟨file, none, hfile, hb, hpublished, by simp⟩
    | some v =>
      obtain ⟨⟨⟩, hfollows, h⟩ := bind_eq_ok_iff.1 h
      cases pure_eq_ok_iff.1 h
      refine ⟨file, some v, hfile, hb, hpublished, ?_⟩
      simpa using Version.ensureFollows_eq_ok_iff.1 hfollows
  · rintro ⟨file, published, hfile, hb, hpublished, hlt⟩
    refine ⟨file, hfile, bumped, hb, published, hpublished, ?_⟩
    cases published with
    | none => rfl
    | some v =>
      exact bind_eq_ok_iff.2 ⟨(), Version.ensureFollows_eq_ok_iff.2 (hlt v rfl), rfl⟩

theorem planned_eq_ok_iff :
    planned options config fs r = .ok plan ↔
      ∃ branch url bumped, r.currentBranch = .ok branch ∧
        r.remoteUrl (options.remote.getD config.remote) = .ok url ∧
        bumpIn config (Nightly.places r.workDirectory config.paths) fs = .ok bumped ∧
        planOn options config r branch bumped = plan := by
  simp only [planned, bind_eq_ok_iff, pure_eq_ok_iff]
  constructor
  · rintro ⟨branch, hbranch, url, hurl, bumped, hbumped, rfl⟩
    exact ⟨branch, url, bumped, hbranch, hurl, hbumped, rfl⟩
  · rintro ⟨branch, url, bumped, hbranch, hurl, hbumped, rfl⟩
    exact ⟨branch, hbranch, url, hurl, bumped, hbumped, rfl⟩

/-! ### What finding out does -/

variable {w : World InMemory}

theorem bump_apply :
    bump config places w =
      (returned (bumpIn config places w.files), w.logged (bumpLines config places w.files)) := by
  simp only [bump, bumpIn, bumpLines, Artifacts.loadVersionFile_apply, Artifacts.readVersion,
    bind_apply, files_apply, ofExcept_apply]
  cases Artifacts.versionFileIn w.files places.versionFile config.keyPrefix with
  | error e =>
    simp only [Except.map, error_bind, returned_error, World.logged, List.append_nil]
  | ok file =>
    simp only [Except.map, ok_bind, returned_ok, log_apply, VersionFile.version_located,
      VersionFile.Located.bumpPatch_eq, ofExcept_returned, ofExcept_apply]
    cases file.bumpPatch with
    | error e => simp only [error_bind, returned_error, World.logged]
    | ok bumped =>
      simp only [ok_bind, returned_ok]
      cases Artifacts.versionIn w.files places.versionOutput with
      | error e => simp only [error_bind, returned_error, World.logged]
      | ok published =>
        simp only [ok_bind, returned_ok]
        cases published with
        | none => rfl
        | some v =>
          simp only [bind_apply, ofExcept_apply]
          cases bumped.version.ensureFollows v <;> rfl

/-- **Preparing a run only adds log lines.** -/
theorem prepare_apply :
    prepare options config inMemory w = (returned (planned options config w.files w.repository),
      w.logged (planLines options config w.files w.repository)) := by
  simp only [prepare, collect, planned, planLines, bind_apply, inMemory.workDirectory_apply,
    inMemory.recentSubjects_apply, log_apply, pure_apply, inMemory.currentBranch_apply]
  cases w.repository.currentBranch with
  | error e => rfl
  | ok branch =>
    simp only [ok_bind, returned_ok, inMemory.remoteUrl_apply]
    cases w.repository.remoteUrl (options.remote.getD config.remote) with
    | error e => rfl
    | ok url =>
      simp only [ok_bind, returned_ok, bump_apply]
      cases bumpIn config (Nightly.places w.repository.workDirectory config.paths) w.files with
      | error e =>
        simp only [error_bind, returned_error, World.logged, List.append_assoc,
          List.singleton_append]
        rfl
      | ok bumped =>
        simp only [ok_bind, returned_ok, World.logged, List.append_assoc, List.singleton_append]
        rfl

end Nightly
end NightlyRelease
