/-
# The courses of a run

A run on a repository in memory takes one of nine courses.  `Course` has one
constructor for each of them, with the result of the run and the world after it.
Every run takes one (`exists_course`), and what a constructor says is what `run`
does (`Course.run_apply`).

Writing the bumped version file does not fail: the file has just been read, and
what can be read can be written (`FileSystem.exists_writeText`).
-/

import NightlyRelease.Proofs.FileSystem.Writing
import NightlyRelease.Proofs.Nightly.Planning
import NightlyRelease.Proofs.Publish.Endings

namespace NightlyRelease
namespace Nightly

open NightlyRelease.Action Repository

/-- Nothing stops a run before it is prepared: the newest commit is no nightly one, and there are
credentials unless the run is dry. -/
structure Proceeds (options : Options) (config : Config) (r : InMemory) : Prop where
  head : ∃ s, r.subjects.head? = some s ∧ s.isAutomated config.commits.marker = false
  credentials : options.dry = false → options.credentials.isSome

/-- The log lines about the files that are written before the commit. -/
def Plan.writtenLines (plan : Plan) : List Log.Line :=
  [⟨.info, "Wrote changelog with " ++ Text.Decimal.text plan.report.changelog.size ++
    " entries to " ++ plan.places.changelog.text⟩,
  ⟨.info, "Bumped " ++ plan.places.versionFile.text ++ " from " ++ plan.bumped.previous.text ++
    " to " ++ plan.bumped.version.text⟩]

/-- The world in which the changelog and the version file have been written. -/
def Plan.written (plan : Plan) (fs : FileSystem) (w : World InMemory) : World InMemory :=
  World.logged { w with files := fs } plan.writtenLines

/-- The report of a plan that was published. -/
def Plan.completed (plan : Plan) (published : Publish.Report) : Report :=
  { plan.report with
    commit := some published.commit, warnings := plan.report.warnings ++ published.warnings }

/-- The courses of a run. -/
inductive Course (options : Options) (config : Config) (w : World InMemory) :
    Except Error Outcome → World InMemory → Prop
  /-- There is no commit. -/
  | empty (hs : w.repository.subjects.head? = none) :
    Course options config w (.error .emptyHistory) w
  /-- The newest commit is a nightly one. -/
  | skipped {s : Subject} (hs : w.repository.subjects.head? = some s)
    (hm : s.isAutomated config.commits.marker = true) :
    Course options config w (.ok (.skipped s.text))
      (w.logged [⟨.info, "Latest commit is a nightly bump, skipping: " ++ s.text⟩])
  /-- There are no credentials, and the run is not dry. -/
  | uncredited {s : Subject} (hs : w.repository.subjects.head? = some s)
    (hm : s.isAutomated config.commits.marker = false) (hd : options.dry = false)
    (hc : options.credentials = none) :
    Course options config w (.error .missingCredentials) w
  /-- The run cannot be prepared. -/
  | unplanned {e : Error} (hg : Proceeds options config w.repository)
    (hp : planned options config w.files w.repository = .error e) :
    Course options config w (.error e) (w.logged (planLines options config w.files w.repository))
  /-- The run is prepared, and it is dry. -/
  | previewed {plan : Plan} (hg : Proceeds options config w.repository)
    (hp : planned options config w.files w.repository = .ok plan) (hd : options.dry = true) :
    Course options config w (.ok (.dryRun plan.report))
      (w.logged (planLines options config w.files w.repository ++
        [⟨.info, "Dry run: " ++ plan.report.previous.text ++ " would become " ++
          plan.report.version.text⟩]))
  /-- The changelog cannot be written. -/
  | unwritten {plan : Plan} {fault : FileSystem.Fault} (hg : Proceeds options config w.repository)
    (hp : planned options config w.files w.repository = .ok plan) (hd : options.dry = false)
    (hw : w.files.writeText plan.places.changelog plan.report.changelog.render = .error fault) :
    Course options config w (.error (.io fault.message))
      (w.logged (planLines options config w.files w.repository))
  /-- The commit is made and not published. -/
  | unpublished {plan : Plan} {fs₁ fs₂ : FileSystem} {e : Error} {t : Publish.Trace}
    (hg : Proceeds options config w.repository)
    (hp : planned options config w.files w.repository = .ok plan) (hd : options.dry = false)
    (hw₁ : w.files.writeText plan.places.changelog plan.report.changelog.render = .ok fs₁)
    (hw₂ : fs₁.writeText plan.places.versionFile plan.bumped.text = .ok fs₂)
    (he : Publish.Ends (plan.request options config) w.repository (.error e) t) :
    Course options config w (.error e) (t.after (plan.request options config)
      (plan.written fs₂ (w.logged (planLines options config w.files w.repository))))
  /-- The commit is published, and the new version cannot be written to its file. -/
  | unrecorded {plan : Plan} {fs₁ fs₂ : FileSystem} {published : Publish.Report}
    {t : Publish.Trace} {fault : FileSystem.Fault} (hg : Proceeds options config w.repository)
    (hp : planned options config w.files w.repository = .ok plan) (hd : options.dry = false)
    (hw₁ : w.files.writeText plan.places.changelog plan.report.changelog.render = .ok fs₁)
    (hw₂ : fs₁.writeText plan.places.versionFile plan.bumped.text = .ok fs₂)
    (he : Publish.Ends (plan.request options config) w.repository (.ok published) t)
    (hw₃ : fs₂.writeText plan.places.versionOutput plan.report.version.text = .error fault) :
    Course options config w (.error (.io fault.message)) (t.after (plan.request options config)
      (plan.written fs₂ (w.logged (planLines options config w.files w.repository))))
  /-- Everything is done. -/
  | completed {plan : Plan} {fs₁ fs₂ fs₃ : FileSystem} {published : Publish.Report}
    {t : Publish.Trace} (hg : Proceeds options config w.repository)
    (hp : planned options config w.files w.repository = .ok plan) (hd : options.dry = false)
    (hw₁ : w.files.writeText plan.places.changelog plan.report.changelog.render = .ok fs₁)
    (hw₂ : fs₁.writeText plan.places.versionFile plan.bumped.text = .ok fs₂)
    (he : Publish.Ends (plan.request options config) w.repository (.ok published) t)
    (hw₃ : fs₂.writeText plan.places.versionOutput plan.report.version.text = .ok fs₃) :
    Course options config w (.ok (.completed (plan.completed published)))
      (World.logged { t.after (plan.request options config)
          (plan.written fs₂ (w.logged (planLines options config w.files w.repository))) with
          files := fs₃ }
        [⟨.info, "Wrote version " ++ plan.report.version.text ++ " to " ++
          plan.places.versionOutput.text⟩])

variable {options : Options} {config : Config} {fs : FileSystem} {r : InMemory}
variable {w w' : World InMemory} {plan : Plan} {result : Except Error Outcome}

/-- The version file of a plan can be read. -/
theorem exists_versionFile_of_planned (h : planned options config fs r = .ok plan) :
    ∃ text file, fs.readText plan.places.versionFile = .ok text ∧
      VersionFile.parse text config.keyPrefix = .ok file ∧ file.bumpPatch = .ok plan.bumped := by
  obtain ⟨branch, url, bumped, -, -, hbumped, rfl⟩ := planned_eq_ok_iff.1 h
  obtain ⟨file, published, hfile, hb, -, -⟩ := bumpIn_eq_ok_iff.1 hbumped
  obtain ⟨text, htext, hparse⟩ := Artifacts.versionFileIn_eq_ok_iff.1 hfile
  exact ⟨text, file, htext, hparse, hb⟩

/-- **Every run takes one of these courses.** -/
theorem exists_course (options : Options) (config : Config) (w : World InMemory) :
    ∃ result w', Course options config w result w' := by
  cases hs : w.repository.subjects.head? with
  | none => exact ⟨_, _, .empty hs⟩
  | some s =>
    cases hm : s.isAutomated config.commits.marker with
    | true => exact ⟨_, _, .skipped hs hm⟩
    | false =>
      by_cases hc : options.dry = false ∧ options.credentials = none
      · exact ⟨_, _, .uncredited hs hm hc.1 hc.2⟩
      have hg : Proceeds options config w.repository :=
        ⟨⟨s, hs, hm⟩, fun hd => Option.isSome_iff_ne_none.2 fun hn => hc ⟨hd, hn⟩⟩
      cases hp : planned options config w.files w.repository with
      | error e => exact ⟨_, _, .unplanned hg hp⟩
      | ok plan =>
        cases hd : options.dry with
        | true => exact ⟨_, _, .previewed hg hp hd⟩
        | false =>
          cases hw₁ : w.files.writeText plan.places.changelog plan.report.changelog.render with
          | error fault => exact ⟨_, _, .unwritten hg hp hd hw₁⟩
          | ok fs₁ =>
            obtain ⟨text, file, htext, -, -⟩ := exists_versionFile_of_planned hp
            obtain ⟨fs₂, hw₂⟩ := FileSystem.exists_writeText hw₁ htext plan.bumped.text
            obtain ⟨published, t, he⟩ :=
              Publish.exists_ends (plan.request options config) w.repository
            cases published with
            | error e => exact ⟨_, _, .unpublished hg hp hd hw₁ hw₂ he⟩
            | ok published =>
              cases hw₃ : fs₂.writeText plan.places.versionOutput plan.report.version.text with
              | error fault => exact ⟨_, _, .unrecorded hg hp hd hw₁ hw₂ he hw₃⟩
              | ok fs₃ => exact ⟨_, _, .completed hg hp hd hw₁ hw₂ he hw₃⟩

/-! ### What a run does -/

theorem checkHead_apply (marker : String) :
    checkHead inMemory marker w =
      (returned (LoopGuard.check w.repository.subjects.head? marker), w) := by
  simp only [checkHead, bind_apply, inMemory.headSubject_apply, ofExcept_apply]

/-- What is left to do once nothing stops a run. -/
theorem run_of_proceeds (hg : Proceeds options config w.repository) :
    run options config inMemory w = (do
      let plan ← prepare options config inMemory
      if options.dry then
        log .info ("Dry run: " ++ plan.report.previous.text ++ " would become " ++
          plan.report.version.text)
        return .dryRun plan.report
      return .completed (← plan.execute options config inMemory) : Action InMemory Outcome) w := by
  obtain ⟨s, hs, hm⟩ := hg.head
  have hcheck : LoopGuard.check w.repository.subjects.head? config.commits.marker =
      .ok .proceed := by
    simp only [LoopGuard.check, hs, hm, Bool.false_eq_true, if_false]
  have hcredentials : (!options.dry && options.credentials.isNone) = false := by
    cases hd : options.dry with
    | true => rfl
    | false => simpa using hg.credentials hd
  simp only [run, bind_apply, checkHead_apply, hcheck, returned_ok, hcredentials,
    Bool.false_eq_true, if_false]

/-- What is left to do once a run is prepared and is not dry. -/
theorem run_of_planned (hg : Proceeds options config w.repository)
    (hp : planned options config w.files w.repository = .ok plan) (hd : options.dry = false) :
    run options config inMemory w =
      (do return .completed (← plan.execute options config inMemory) : Action InMemory Outcome)
        (w.logged (planLines options config w.files w.repository)) := by
  rw [run_of_proceeds hg, bind_apply, prepare_apply, hp]
  simp only [returned_ok, hd, Bool.false_eq_true, if_false]

/-- What is left to do once the changelog and the version file are written. -/
theorem run_of_written {fs₁ fs₂ : FileSystem} (hg : Proceeds options config w.repository)
    (hp : planned options config w.files w.repository = .ok plan) (hd : options.dry = false)
    (hw₁ : w.files.writeText plan.places.changelog plan.report.changelog.render = .ok fs₁)
    (hw₂ : fs₁.writeText plan.places.versionFile plan.bumped.text = .ok fs₂) :
    run options config inMemory w = (do
      let published ← publish inMemory (plan.request options config)
      Artifacts.writeVersion plan.places.versionOutput plan.report.version
      return .completed (plan.completed published) : Action InMemory Outcome)
      (plan.written fs₂ (w.logged (planLines options config w.files w.repository))) := by
  simp only [run_of_planned hg hp hd, Plan.execute, Artifacts.writeChangelog,
    Artifacts.writeBumped, bind_apply, writeText_apply, World.logged, hw₁, log_apply, hw₂,
    Plan.written, Plan.writtenLines, List.append_assoc, List.singleton_append]
  generalize publish inMemory (plan.request options config) _ = ending
  rcases ending with ⟨_ | published, v⟩
  · rfl
  · dsimp only
    rcases Artifacts.writeVersion plan.places.versionOutput plan.report.version v with ⟨_ | _, _⟩
    · rfl
    · rfl

/-- **What the constructors say is what `run` does.** -/
theorem Course.run_apply (h : Course options config w result w') :
    run options config inMemory w = (returned result, w') := by
  cases h with
  | empty hs =>
    simp only [run, bind_apply, checkHead_apply, LoopGuard.check, hs, returned_error]
  | skipped hs hm =>
    simp only [run, bind_apply, checkHead_apply, LoopGuard.check, hs, hm, if_true, returned_ok,
      log_apply, pure_apply]
    rfl
  | uncredited hs hm hd hc =>
    simp only [run, bind_apply, checkHead_apply, LoopGuard.check, hs, hm, Bool.false_eq_true,
      if_false, returned_ok, hd, hc]
    rfl
  | unplanned hg hp =>
    rw [run_of_proceeds hg, bind_apply, prepare_apply, hp]
    rfl
  | previewed hg hp hd =>
    rw [run_of_proceeds hg, bind_apply, prepare_apply, hp]
    simp only [returned_ok, hd, if_true, bind_apply, log_apply, pure_apply, World.logged,
      List.append_assoc]
  | unwritten hg hp hd hw =>
    simp only [run_of_planned hg hp hd, Plan.execute, Artifacts.writeChangelog, bind_apply,
      writeText_apply, World.logged, hw, returned_error]
  | @unpublished plan fs₁ fs₂ e t hg hp hd hw₁ hw₂ he =>
    have hpublish := he.publish_apply
      (w := plan.written fs₂ (w.logged (planLines options config w.files w.repository)))
    rw [run_of_written hg hp hd hw₁ hw₂, bind_apply, hpublish]
    rfl
  | @unrecorded plan fs₁ fs₂ published t fault hg hp hd hw₁ hw₂ he hw₃ =>
    have hpublish := he.publish_apply
      (w := plan.written fs₂ (w.logged (planLines options config w.files w.repository)))
    have hfiles : (t.after (plan.request options config) (plan.written fs₂
        (w.logged (planLines options config w.files w.repository)))).files = fs₂ := rfl
    rw [run_of_written hg hp hd hw₁ hw₂, bind_apply, hpublish]
    simp only [Artifacts.writeVersion, bind_apply, writeText_apply, returned_ok, hfiles, hw₃,
      returned_error]
  | @completed plan fs₁ fs₂ fs₃ published t hg hp hd hw₁ hw₂ he hw₃ =>
    have hpublish := he.publish_apply
      (w := plan.written fs₂ (w.logged (planLines options config w.files w.repository)))
    have hfiles : (t.after (plan.request options config) (plan.written fs₂
        (w.logged (planLines options config w.files w.repository)))).files = fs₂ := rfl
    rw [run_of_written hg hp hd hw₁ hw₂, bind_apply, hpublish]
    simp only [Artifacts.writeVersion, bind_apply, writeText_apply, returned_ok, hfiles, hw₃,
      log_apply, pure_apply]
    rfl

/-- What `run` does is what a constructor says. -/
theorem course_of_run (h : run options config inMemory w = (returned result, w')) :
    Course options config w result w' := by
  obtain ⟨result₁, w₁, hcourse⟩ := exists_course options config w
  have heq := hcourse.run_apply.symm.trans h
  rw [Prod.mk.injEq, returned_inj] at heq
  obtain ⟨rfl, rfl⟩ := heq
  exact hcourse

end Nightly
end NightlyRelease
