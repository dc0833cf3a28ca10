/-
# What a dry run tells

A dry run goes the way of the real run up to the point where that one writes: both
look at the same commits, files and remotes, and up to there the credentials count
only by being there.  So an error of the dry run is the error of the real run,
which then changes nothing; and the report of a dry run is the report of the real
run, but for the commit and for warnings that only writing can give
(`Report.Foretells`).

What a dry run cannot know is whether the real run gets through from there.  If it
does not, its error is about a file, the remote or the push
(`dry_run_previews`).
-/

import NightlyRelease.Proofs.Nightly.Checkpoints

namespace NightlyRelease
namespace Nightly

open NightlyRelease.Action Repository

/-- `r` is the report of a dry run, and `r'` says the same of a run that was completed: it names a
commit, and its warnings start with those of `r`. -/
def Report.Foretells (r r' : Report) : Prop :=
  r.commit = none ∧ ∃ id more,
    r' = { r with commit := some id, warnings := r.warnings ++ more }

/-- What a dry run that ends with `dry` tells of the real run that ends with `real` and leads from
`w` to `w'`. -/
structure Previews (w w' : World InMemory) (dry real : Except Error Outcome) : Prop where
  skipped_iff : ∀ subject, dry = .ok (.skipped subject) ↔ real = .ok (.skipped subject)
  /-- An error of the dry run is the error of the real run, before it changes anything. -/
  of_error : ∀ e, dry = .error e → real = .error e ∧ Untouched w w'
  /-- What was reported comes true, unless a file cannot be written or the bump cannot be
  published. -/
  of_dryRun : ∀ r, dry = .ok (.dryRun r) →
    (∃ e, real = .error e ∧ e.canFollowCommit = true) ∨
      ∃ r', real = .ok (.completed r') ∧ r.Foretells r'
  of_completed : ∀ r', real = .ok (.completed r') → ∃ r, dry = .ok (.dryRun r)

variable {options : Options} {config : Config} {fs : FileSystem} {r : InMemory} {plan : Plan}
variable {w w' : World InMemory} {real : Except Error Outcome} {e : Error}
variable {remote : Option String} {credentials : Credentials}

/-- The report of a plan comes true when the plan is published. -/
theorem foretells_completed (hp : planned options config fs r = .ok plan)
    (published : Publish.Report) : plan.report.Foretells (plan.completed published) := by
  obtain ⟨branch, url, bumped, -, -, -, rfl⟩ := planned_eq_ok_iff.1 hp
  exact ⟨rfl, published.commit, published.warnings, rfl⟩

/-! ### What the end of the real run leaves true of the preview -/

theorem previews_skipped (subject : String) :
    Previews w w' (.ok (.skipped subject)) (.ok (.skipped subject)) where
  skipped_iff _ := Iff.rfl
  of_error _ h := by cases h
  of_dryRun _ h := by cases h
  of_completed _ h := by cases h

theorem previews_error (e : Error) (hsame : Untouched w w') :
    Previews w w' (.error e) (.error e) where
  skipped_iff _ := by simp
  of_error _ h := ⟨h, hsame⟩
  of_dryRun _ h := by cases h
  of_completed _ h := by cases h

theorem previews_stopped (report : Report) (he : e.canFollowCommit = true) :
    Previews w w' (.ok (.dryRun report)) (.error e) where
  skipped_iff _ := by simp
  of_error _ h := by cases h
  of_dryRun _ _ := .inl ⟨e, rfl, he⟩
  of_completed _ h := by cases h

theorem previews_completed {report report' : Report} (h : report.Foretells report') :
    Previews w w' (.ok (.dryRun report)) (.ok (.completed report')) where
  skipped_iff _ := by simp
  of_error _ h := by cases h
  of_dryRun r hr := by
    cases hr
    exact .inr ⟨report', rfl, h⟩
  of_completed _ _ := ⟨report, rfl⟩

/-- **For every course of the real run there is a course of the dry run** that tells of it. -/
theorem Course.preview
    (h : Course { credentials := some credentials, remote } config w real w')
    (given : Option Credentials) :
    ∃ dry wd, Course { credentials := given, remote, dry := true } config w dry wd ∧
      Untouched w wd ∧ Previews w w' dry real := by
  have hproceeds (hg : Proceeds { credentials := some credentials, remote } config w.repository) :
      Proceeds { credentials := given, remote, dry := true } config w.repository :=
    ⟨hg.head, nofun⟩
  -- planning does not look at the credentials, nor at whether the run is dry
  have hpreview {plan : Plan}
      (hg : Proceeds { credentials := some credentials, remote } config w.repository)
      (hp : planned { credentials := some credentials, remote } config w.files w.repository =
        .ok plan) := Course.previewed (hproceeds hg) hp rfl
  cases h with
  | empty hs => exact ⟨_, _, .empty hs, ⟨rfl, rfl⟩, previews_error _ ⟨rfl, rfl⟩⟩
  | skipped hs hm => exact ⟨_, _, .skipped hs hm, ⟨rfl, rfl⟩, previews_skipped _⟩
  | uncredited hs hm hd hc => cases hc
  | unplanned hg hp =>
    exact ⟨_, _, .unplanned (hproceeds hg) hp, ⟨rfl, rfl⟩, previews_error _ ⟨rfl, rfl⟩⟩
  | previewed hg hp hd => cases hd
  | unwritten hg hp hd hw =>
    exact ⟨_, _, hpreview hg hp, ⟨rfl, rfl⟩, previews_stopped _ rfl⟩
  | unpublished hg hp hd hw₁ hw₂ he =>
    exact ⟨_, _, hpreview hg hp, ⟨rfl, rfl⟩, previews_stopped _ he.canFollowCommit⟩
  | unrecorded hg hp hd hw₁ hw₂ he hw₃ =>
    exact ⟨_, _, hpreview hg hp, ⟨rfl, rfl⟩, previews_stopped _ rfl⟩
  | completed hg hp hd hw₁ hw₂ he hw₃ =>
    exact ⟨_, _, hpreview hg hp, ⟨rfl, rfl⟩, previews_completed (foretells_completed hp _)⟩

/-- **A dry run is a faithful preview** of the real run, with any credentials or none, and changes
nothing itself. -/
theorem dry_run_previews (config : Config) (w : World InMemory) (remote : Option String)
    (given : Option Credentials) (credentials : Credentials) :
    ∃ dry wd real w',
      run { credentials := given, remote, dry := true } config inMemory w = (returned dry, wd) ∧
      run { credentials := some credentials, remote } config inMemory w = (returned real, w') ∧
      Untouched w wd ∧ Previews w w' dry real := by
  obtain ⟨real, w', hreal⟩ := exists_course { credentials := some credentials, remote } config w
  obtain ⟨dry, wd, hdry, huntouched, hpreviews⟩ := hreal.preview given
  exact ⟨dry, wd, real, w', hdry.run_apply, hreal.run_apply, huntouched, hpreviews⟩

end Nightly
end NightlyRelease
