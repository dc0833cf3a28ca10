/-
# Where a run can stop

A run that is not completed leaves the world at one of two checkpoints: either it
has changed nothing (`Untouched`), or it has written the changelog and the bumped
version file and committed the bump (`Committed`).  There is nothing in between,
since all that can fail before the first write only reads, and the write of the
version file cannot fail after the write of the changelog.

The second checkpoint shows as an error, about the file of the published version,
the remote or the push; and the remotes have their URLs, unless the error says
that one could not be put back (`run_checkpoints`).
-/

import NightlyRelease.Proofs.Commit.Folding
import NightlyRelease.Proofs.Nightly.Course
import NightlyRelease.Proofs.Publish.Protocol

namespace NightlyRelease

open NightlyRelease.Action Repository

/-- Whether an error can end a run that has committed its bump. -/
def Error.canFollowCommit : Error → Bool
  | io _ => true
  | remote _ => true
  | push _ => true
  | remoteRestore _ => true
  | _ => false

theorem Publish.Ends.canFollowCommit {request : Publish.Request} {r : InMemory} {e : Error}
    {t : Publish.Trace} (h : Publish.Ends request r (.error e) t) : e.canFollowCommit = true := by
  cases h <;> rfl

namespace Nightly

variable {options : Options} {config : Config} {w w' : World InMemory} {plan : Plan}
variable {result : Except Error Outcome}

/-- Files and repository are as they were. -/
structure Untouched (w w' : World InMemory) : Prop where
  files : w'.files = w.files
  repository : w'.repository = w.repository

/-- The files of a run on a world. -/
def placesIn (config : Config) (w : World InMemory) : Places :=
  places w.repository.workDirectory config.paths

/-- `bumped` is the bump of the version file at a path. -/
def IsBumpAt (fs : FileSystem) (p : Path) (keyPrefix : String) (bumped : VersionFile.Bumped) :
    Prop :=
  ∃ text file, fs.readText p = .ok text ∧ VersionFile.parse text keyPrefix = .ok file ∧
    file.bumpPatch = .ok bumped

/-- The changelog and the bumped version file were written, in this order, and the bump was
committed; `fs` are the files in between. -/
structure Committed (config : Config) (w w' : World InMemory) (bumped : VersionFile.Bumped)
    (fs : FileSystem) : Prop where
  isBumpAt : IsBumpAt w.files (placesIn config w).versionFile config.keyPrefix bumped
  changelog_written : w.files.writeText (placesIn config w).changelog
    (changelogOf config w.repository).render = .ok fs
  versionFile_written : fs.writeText (placesIn config w).versionFile bumped.text = .ok w'.files
  /-- There is one more commit; what became of the remotes and the calls is said elsewhere. -/
  repository_eq : w'.repository =
    { w.repository.withCommit (config.commitMessage bumped.version) with
      remotes := w'.repository.remotes, calls := w'.repository.calls }

/-- What is published of a plan was committed before. -/
theorem committed_of_written {fs₁ fs₂ : FileSystem} {t : Publish.Trace} {lines : List Log.Line}
    (hp : planned options config w.files w.repository = .ok plan)
    (hw₁ : w.files.writeText plan.places.changelog plan.report.changelog.render = .ok fs₁)
    (hw₂ : fs₁.writeText plan.places.versionFile plan.bumped.text = .ok fs₂) :
    Committed config w (t.after (plan.request options config)
      (plan.written fs₂ (w.logged lines))) plan.bumped fs₁ := by
  obtain ⟨text, file, hread⟩ := exists_versionFile_of_planned hp
  obtain ⟨branch, url, bumped, -, -, -, rfl⟩ := planned_eq_ok_iff.1 hp
  exact ⟨⟨text, file, hread⟩, hw₁, hw₂, rfl⟩

theorem Course.skipped_iff (h : Course options config w result w') (subject : String) :
    result = .ok (.skipped subject) ↔
      ∃ s, w.repository.subjects.head? = some s ∧ s.text = subject ∧
        config.commits.marker.toList <:+: s.text.toList := by
  simp only [← Subject.isAutomated_iff]
  cases h with
  | empty hs => simp [hs]
  | skipped hs hm => simp [hs, hm]
  | uncredited hs hm => simp [hs, hm]
  | _ hg =>
    obtain ⟨s, hs, hm⟩ := hg.head
    simp [hs, hm]

/-- A course that is not completed leads to one of two checkpoints. -/
theorem Course.checkpoint (h : Course options config w result w')
    (hunfinished : ∀ report, result ≠ .ok (.completed report)) :
    Untouched w w' ∨
    ∃ bumped fs e, Committed config w w' bumped fs ∧ result = .error e ∧
      e.canFollowCommit = true ∧
      ((∀ reason, e ≠ .remoteRestore reason) →
        w'.repository.remotes = w.repository.remotes) := by
  cases h with
  | unpublished hg hp hd hw₁ hw₂ he =>
    refine .inr ⟨_, _, _, committed_of_written hp hw₁ hw₂, rfl, he.canFollowCommit, fun hne => ?_⟩
    exact he.remotes_eq fun reason => by simpa using hne reason
  | unrecorded hg hp hd hw₁ hw₂ he hw₃ =>
    refine .inr ⟨_, _, _, committed_of_written hp hw₁ hw₂, rfl, rfl, fun _ => ?_⟩
    exact he.remotes_eq fun reason => by simp
  | completed => exact absurd rfl (hunfinished _)
  | _ => exact .inl ⟨rfl, rfl⟩

/-- **A run that is not completed stops at one of two checkpoints,** and skips exactly if the
newest commit has the marker. -/
theorem run_checkpoints (options : Options) (config : Config) (w : World InMemory) :
    ∃ result w', run options config inMemory w = (returned result, w') ∧
      (∀ subject, result = .ok (.skipped subject) ↔
        ∃ s, w.repository.subjects.head? = some s ∧ s.text = subject ∧
          config.commits.marker.toList <:+: s.text.toList) ∧
      ((∀ report, result ≠ .ok (.completed report)) →
        Untouched w w' ∨
        ∃ bumped fs e, Committed config w w' bumped fs ∧ result = .error e ∧
          e.canFollowCommit = true ∧
          ((∀ reason, e ≠ .remoteRestore reason) →
            w'.repository.remotes = w.repository.remotes)) := by
  obtain ⟨result, w', h⟩ := exists_course options config w
  exact ⟨result, w', h.run_apply, h.skipped_iff, h.checkpoint⟩

end Nightly
end NightlyRelease
