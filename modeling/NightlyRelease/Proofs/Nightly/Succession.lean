/-
# Runs that follow one another

If the subjects of the nightly commits lack the marker, nothing stops a second run,
and it goes on where the first one ended: it reads the version file that the first
run wrote, raises its version once more, and finds the version before in the file
of the published version.

`Ready` says what a run needs, besides the bump of its version file.  This is
exactly what a completed run has found (`Course.ready`), a run that is ready is
completed (`Ready.completed`), and it leaves the world ready for the bumped file
(`Ready.next`).  So runs count up, one by one (`Ready.raised`), until the patch
number is the largest; then a run is refused and changes nothing
(`runs_count_up`).
-/

import NightlyRelease.Proofs.Nightly.Ascent
import NightlyRelease.Proofs.VersionFile.Counting

namespace NightlyRelease

open NightlyRelease.Action Repository

namespace Nightly

/-- The world after `n` runs with the same options and configuration. -/
def afterRuns (options : Options) (config : Config) (w : World InMemory) : Nat → World InMemory
  | 0 => w
  | n + 1 => (run options config inMemory (afterRuns options config w n)).2

/-- **A run is ready** to publish the bump of `file`: whatever else it needs is there. -/
structure Ready (options : Options) (config : Config) (file : VersionFile) (w : World InMemory) :
    Prop where
  dry : options.dry = false
  proceeds : Proceeds options config w.repository
  branch : ∃ branch, w.repository.currentBranch = .ok branch
  remote : ∃ url, w.repository.remoteUrl (options.remote.getD config.remote) = .ok url
  file_read : Artifacts.versionFileIn w.files (placesIn config w).versionFile config.keyPrefix =
    .ok file
  /-- The published version, if there is one, is not newer than the version of the file. -/
  published_read : ∃ published,
    Artifacts.versionIn w.files (placesIn config w).versionOutput = .ok published ∧
      ∀ v ∈ published, ¬ file.version < v
  takes_changelog : w.files.Takes (placesIn config w).changelog
  takes_versionOutput : w.files.Takes (placesIn config w).versionOutput
  publishes : ∀ request : Publish.Request, request.remote = options.remote.getD config.remote →
    request.credentials = options.credentials →
      ∃ report t, Publish.Ends request w.repository (.ok report) t

section

variable {options : Options} {config : Config} {w w' : World InMemory} {r : Report}
variable {file : VersionFile} {bumped : VersionFile.Bumped} {fs₁ fs₂ : FileSystem} {n : Nat}

/-! ### What a completed run has found -/

/-- A completed run was ready. -/
theorem Course.ready (h : Course options config w (.ok (.completed r)) w') :
    ∃ file, Ready options config file w ∧ file.version = r.previous := by
  cases h with
  | @completed plan fs₁ fs₂ fs₃ published t hg hp hd hw₁ hw₂ he hw₃ =>
    obtain ⟨branch, url, bumped, hbranch, hurl, hbumped, rfl⟩ := planned_eq_ok_iff.1 hp
    obtain ⟨file, output, hfile, hb, houtput, hlt⟩ := bumpIn_eq_ok_iff.1 hbumped
    obtain ⟨hversion, hprevious, -⟩ := VersionFile.bumpPatch_eq_ok_iff.1 hb
    have htakes := (FileSystem.takes_iff _).2 ⟨fs₃, hw₃⟩
    rw [FileSystem.takes_writeText hw₂, FileSystem.takes_writeText hw₁] at htakes
    exact ⟨file, {
      dry := hd
      proceeds := hg
      branch := ⟨branch, hbranch⟩
      remote := ⟨url, hurl⟩
      file_read := hfile
      published_read := ⟨output, houtput, fun v hv =>
        (Version.lt_bumped_iff hversion).1 (hlt v hv)⟩
      takes_changelog := (FileSystem.takes_iff _).2 ⟨fs₁, hw₁⟩
      takes_versionOutput := htakes
      publishes := fun request hremote hcredentials =>
        he.again hremote hcredentials rfl rfl rfl }, hprevious.symm⟩

/-- A completed run changes nothing about the repository but its subjects and its calls. -/
theorem Course.repository_eq (h : Course options config w (.ok (.completed r)) w') :
    w'.repository = { w.repository.withCommit (config.commitMessage r.version) with
      calls := w'.repository.calls } := by
  cases h with
  | completed hg hp hd hw₁ hw₂ he hw₃ =>
    have hremotes := he.remotes_eq fun reason => by simp
    obtain ⟨branch, url, bumped, -, -, -, rfl⟩ := planned_eq_ok_iff.1 hp
    simp only [World.logged, Publish.Trace.after, Plan.written, hremotes]
    rfl

/-- Nothing overwrites the bumped version file: the new version goes to another place, since before
the run there was no version where the version file was. -/
theorem Completion.versionFile_read (h : Completion options config w w' r file bumped fs₁ fs₂) :
    w'.files.readText (placesIn config w).versionFile = .ok bumped.text := by
  obtain ⟨text, htext, hparse⟩ := h.file_read
  have hwritten := FileSystem.readText_writeText h.versionFile_written
  rcases FileSystem.readText_writeText_cases h.versionOutput_written hwritten with
    hkept | ⟨-, hplace⟩
  · exact hkept
  · -- the two paths led to one place before the run, too, and what was read there is no version
    obtain ⟨m, hm, -⟩ := FileSystem.read_eq_ok_iff.1 (FileSystem.readText_eq_ok_iff.1 htext)
    have hm₂ := (FileSystem.resolve_write h.versionFile_written).2
      ((FileSystem.resolve_write h.changelog_written).2 hm)
    rw [hplace, FileSystem.resolve_write h.versionFile_written,
      FileSystem.resolve_write h.changelog_written] at hm₂
    have houtput := FileSystem.readText_of_resolve_eq htext (hm₂.trans hm.symm)
    obtain ⟨published, hpublished, -⟩ := h.version_newer text houtput
    exact absurd hpublished (parse_versionFile_ne_ok hparse published)

/-! ### One run after another -/

/-- **A run that is ready is completed,** if the version can be bumped. -/
theorem Ready.completed (h : Ready options config file w) (hb : file.bumpPatch = .ok bumped) :
    ∃ r w', Course options config w (.ok (.completed r)) w' ∧ r.previous = file.version ∧
      r.version = bumped.version := by
  obtain ⟨branch, hbranch⟩ := h.branch
  obtain ⟨url, hurl⟩ := h.remote
  obtain ⟨output, houtput, hle⟩ := h.published_read
  obtain ⟨hversion, hprevious, -⟩ := VersionFile.bumpPatch_eq_ok_iff.1 hb
  have hbumped : bumpIn config (placesIn config w) w.files = .ok bumped :=
    bumpIn_eq_ok_iff.2 ⟨file, output, h.file_read, hb, houtput, fun v hv =>
      (Version.lt_bumped_iff hversion).2 (hle v hv)⟩
  have hp : planned options config w.files w.repository =
      .ok (planOn options config w.repository branch bumped) :=
    planned_eq_ok_iff.2 ⟨branch, url, bumped, hbranch, hurl, hbumped, rfl⟩
  obtain ⟨text, htext, -⟩ := Artifacts.versionFileIn_eq_ok_iff.1 h.file_read
  obtain ⟨fs₁, hw₁⟩ := (FileSystem.takes_iff
    (planOn options config w.repository branch bumped).report.changelog.render).1
      h.takes_changelog
  obtain ⟨fs₂, hw₂⟩ := FileSystem.exists_writeText hw₁ htext bumped.text
  have htakes := h.takes_versionOutput
  rw [← FileSystem.takes_writeText hw₁, ← FileSystem.takes_writeText hw₂] at htakes
  obtain ⟨fs₃, hw₃⟩ := (FileSystem.takes_iff bumped.version.text).1 htakes
  obtain ⟨published, t, he⟩ := h.publishes
    ((planOn options config w.repository branch bumped).request options config) rfl rfl
  exact ⟨_, _, .completed h.proceeds hp h.dry hw₁ hw₂ he hw₃, hprevious, rfl⟩

/-- A run that is ready is refused before it changes anything, if the version cannot be bumped. -/
theorem Ready.refused {reason : String} (h : Ready options config file w)
    (hb : file.bumpPatch = .error (.version reason)) :
    run options config inMemory w = (.error (.failed (.version reason)),
      w.logged (planLines options config w.files w.repository)) := by
  obtain ⟨branch, hbranch⟩ := h.branch
  obtain ⟨url, hurl⟩ := h.remote
  have hp : planned options config w.files w.repository = .error (.version reason) := by
    rw [planned, hbranch, ok_bind, hurl, ok_bind, ← placesIn, bumpIn, h.file_read, ok_bind, hb]
    rfl
  exact (Course.unplanned h.proceeds hp).run_apply

/-- A run that was ready has bumped the file for which it was. -/
theorem Ready.completion (h : Ready options config file w) (hb : file.bumpPatch = .ok bumped)
    (hc : Course options config w (.ok (.completed r)) w') :
    ∃ fs₁ fs₂, Completion options config w w' r file bumped fs₁ fs₂ := by
  obtain ⟨file', bumped', fs₁, fs₂, hdone⟩ := hc.completion
  have hread := Artifacts.versionFileIn_eq_ok_iff.2 hdone.file_read
  obtain rfl : file = file' := Except.ok.inj (h.file_read.symm.trans hread)
  obtain rfl : bumped = bumped' := Except.ok.inj (hb.symm.trans hdone.file_bumped)
  exact ⟨fs₁, fs₂, hdone⟩

/-- The new version is the one of the bump. -/
theorem Completion.version_eq (h : Completion options config w w' r file bumped fs₁ fs₂) :
    r.version = bumped.version := by
  obtain ⟨text, -, hparse⟩ := h.file_read
  obtain ⟨file', hfile', hversion⟩ := h.file_reparsed
  rw [VersionFile.parse_bumped hparse h.file_bumped] at hfile'
  cases hfile'
  exact hversion.symm

/-- **A run that was ready leaves the world ready** for the file that it wrote, if its commit lacks
the marker. -/
theorem Ready.next (h : Ready options config file w) (hb : file.bumpPatch = .ok bumped)
    (hc : Course options config w (.ok (.completed r)) w')
    (hmarker : (Subject.ofMessage (config.commitMessage r.version)).isAutomated
      config.commits.marker = false) :
    Ready options config { file with
      patchValue := Text.Decimal.digits bumped.version.patch.toNat
      version := bumped.version } w' := by
  obtain ⟨fs₁, fs₂, hdone⟩ := h.completion hb hc
  obtain ⟨text, -, hparse⟩ := hdone.file_read
  have hparsed := VersionFile.parse_bumped hparse hb
  have hrepository := hc.repository_eq
  have hplaces : placesIn config w' = placesIn config w := by
    rw [placesIn, hc.workDirectory_eq, placesIn]
  have htakes (p : Path) : w'.files.Takes p ↔ w.files.Takes p := by
    rw [FileSystem.takes_writeText hdone.versionOutput_written,
      FileSystem.takes_writeText hdone.versionFile_written,
      FileSystem.takes_writeText hdone.changelog_written]
  refine {
    dry := h.dry
    proceeds := ⟨⟨_, by rw [hrepository]; rfl, hmarker⟩, h.proceeds.credentials⟩
    branch := ?_
    remote := ?_
    file_read := ?_
    published_read := ⟨some r.version, ?_, ?_⟩
    takes_changelog := ?_
    takes_versionOutput := ?_
    publishes := fun request hremote hcredentials => ?_ }
  · obtain ⟨branch, hbranch⟩ := h.branch
    refine ⟨branch, InMemory.currentBranch_eq_ok_iff.2 ⟨?_, ?_⟩⟩
    · rw [hrepository]
      exact List.cons_ne_nil _ _
    · rw [hrepository]
      exact (InMemory.currentBranch_eq_ok_iff.1 hbranch).2
  · rw [hrepository]
    exact h.remote
  · rw [hplaces, Artifacts.versionFileIn_eq_ok_iff]
    exact ⟨_, hdone.versionFile_read, hparsed⟩
  · rw [hplaces, Artifacts.versionIn_eq_some_iff]
    exact ⟨_, FileSystem.readText_writeText hdone.versionOutput_written, Version.parse_text _⟩
  · rintro v ⟨⟩
    rw [hdone.version_eq]
    exact Version.lt_irrefl _
  · rw [hplaces, htakes]
    exact h.takes_changelog
  · rw [hplaces, htakes]
    exact h.takes_versionOutput
  · obtain ⟨report, t, he⟩ := h.publishes request hremote hcredentials
    rw [hrepository]
    exact he.again rfl rfl rfl rfl rfl

/-! ### Many runs -/

theorem placesIn_afterRuns (options : Options) (config : Config) (w : World InMemory)
    (n : Nat) : placesIn config (afterRuns options config w n) = placesIn config w := by
  induction n with
  | zero => rfl
  | succ n ih =>
    obtain ⟨result, w', h⟩ := exists_course options config (afterRuns options config w n)
    rw [← ih, placesIn, placesIn, afterRuns, h.run_apply, h.workDirectory_eq]

/-- The run after `n` runs, if the world is ready for it. -/
theorem Ready.course_afterRuns
    (h : Ready options config (file.raised n) (afterRuns options config w n))
    (hroom : file.version.patch.toNat + (n + 1) < UInt32.size) :
    ∃ r, Course options config (afterRuns options config w n) (.ok (.completed r))
        (afterRuns options config w (n + 1)) ∧
      r.previous = file.version.plus n ∧ r.version = file.version.plus (n + 1) := by
  obtain ⟨r, w', hc, hprevious, hversion⟩ := h.completed (VersionFile.bumpPatch_raised hroom)
  rw [VersionFile.version_raised] at hprevious
  refine ⟨r, ?_, hprevious, hversion⟩
  rwa [afterRuns, hc.run_apply]

/-- **Runs leave the world ready for the next one,** as long as there is room for the patch number
and the commits lack the marker. -/
theorem Ready.raised (h : Ready options config file w)
    (hroom : file.version.patch.toNat + n < UInt32.size)
    (hmarker : ∀ i, 1 ≤ i → i ≤ n →
      (Subject.ofMessage (config.commitMessage (file.version.plus i))).isAutomated
        config.commits.marker = false) :
    Ready options config (file.raised n) (afterRuns options config w n) := by
  -- what run `n` has written is what run `n + 1` reads
  induction n with
  | zero => exact h
  | succ n ih =>
    have hn := ih (by omega) fun i hi hin => hmarker i hi (by omega)
    obtain ⟨r, hc, -, hversion⟩ := hn.course_afterRuns hroom
    have hlacks := hmarker (n + 1) (by omega) (by omega)
    rw [← hversion] at hlacks
    have hnext := hn.next (VersionFile.bumpPatch_raised hroom) hc hlacks
    rw [VersionFile.raised_succ hroom]
    exact hnext

/-- The version files and the published versions that `n` runs leave, one after the other, if the
version file of the first one is `file`. -/
structure CountsUp (options : Options) (config : Config) (w : World InMemory) (file : VersionFile)
    (n : Nat) : Prop where
  completed : ∀ i < n, ∃ r,
    (run options config inMemory (afterRuns options config w i)).1 = .ok (.completed r) ∧
      r.previous = file.version.plus i ∧ r.version = file.version.plus (i + 1)
  /-- Only the patch value is another one. -/
  versionFile_read : (afterRuns options config w n).files.readText
    (placesIn config w).versionFile = .ok (file.raised n).text
  versionOutput_read : 0 < n → (afterRuns options config w n).files.readText
    (placesIn config w).versionOutput = .ok (file.version.plus n).text
  /-- After the largest patch number, a run is refused. -/
  refused : file.version.patch.toNat + n = 4294967295 →
    (∃ reason, (run options config inMemory (afterRuns options config w n)).1 =
      .error (.failed (.version reason))) ∧
    Untouched (afterRuns options config w n) (afterRuns options config w (n + 1))

theorem Ready.countsUp (h : Ready options config file w)
    (hroom : file.version.patch.toNat + n < UInt32.size)
    (hmarker : ∀ i, 1 ≤ i → i ≤ n →
      (Subject.ofMessage (config.commitMessage (file.version.plus i))).isAutomated
        config.commits.marker = false) : CountsUp options config w file n := by
  have hready (i : Nat) (hi : i ≤ n) :
      Ready options config (file.raised i) (afterRuns options config w i) :=
    h.raised (by omega) fun j hj hji => hmarker j hj (by omega)
  refine ⟨fun i hi => ?_, ?_, fun hn => ?_, fun hlargest => ?_⟩
  · obtain ⟨r, hc, hprevious, hversion⟩ := (hready i hi.le).course_afterRuns (by omega)
    exact ⟨r, by rw [hc.run_apply]; rfl, hprevious, hversion⟩
  · obtain ⟨text, htext, hparse⟩ :=
      Artifacts.versionFileIn_eq_ok_iff.1 (hready n le_rfl).file_read
    rw [placesIn_afterRuns] at htext
    rw [htext, VersionFile.text_of_parse hparse]
  · obtain ⟨m, rfl⟩ := Nat.exists_eq_succ_of_ne_zero hn.ne'
    obtain ⟨r, hc, -, hversion⟩ := (hready m (by omega)).course_afterRuns hroom
    obtain ⟨file', bumped, fs₁, fs₂, hdone⟩ := hc.completion
    have houtput := FileSystem.readText_writeText hdone.versionOutput_written
    rwa [placesIn_afterRuns, hversion] at houtput
  · have hpatch : (file.raised n).version.patch.toNat + 1 = UInt32.size := by
      rw [VersionFile.version_raised, Version.toNat_patch_plus hroom, hlargest]
    obtain ⟨reason, hreason⟩ := VersionFile.bumpPatch_of_largest hpatch
    have hrun := (hready n le_rfl).refused hreason
    refine ⟨⟨reason, by rw [hrun]⟩, ?_⟩
    rw [afterRuns, hrun]
    exact ⟨rfl, rfl⟩

/-- **Consecutive runs count up by one.** If the first run is completed, then so are the `n` runs
from the first one on, as long as there is room for the patch number and the commits lack the
marker: each goes from the version of the run before it to the next one, and in the end the version
file is the text it was, with the patch number that is higher by `n`. When that is the largest one,
a further run is refused for the version and changes nothing. -/
theorem runs_count_up (hfirst : run options config inMemory w = (.ok (.completed r), w'))
    (hroom : r.previous.patch.toNat + n ≤ 4294967295)
    (hmarker : ∀ i, 1 ≤ i → i ≤ n →
      (Subject.ofMessage (config.commitMessage (r.previous.plus i))).isAutomated
        config.commits.marker = false) :
    ∃ file, w.files.readText (placesIn config w).versionFile = .ok file.text ∧
      VersionFile.parse file.text config.keyPrefix = .ok file ∧ file.version = r.previous ∧
      CountsUp options config w file n := by
  have hcourse : Course options config w (.ok (.completed r)) w' := course_of_run hfirst
  obtain ⟨file, hready, hversion⟩ := hcourse.ready
  obtain ⟨text, htext, hparse⟩ := Artifacts.versionFileIn_eq_ok_iff.1 hready.file_read
  obtain rfl := VersionFile.text_of_parse hparse
  rw [← hversion] at hroom hmarker
  have hsize : file.version.patch.toNat + n < UInt32.size := Nat.lt_succ_of_le hroom
  exact ⟨file, htext, hparse, hversion, hready.countsUp hsize hmarker⟩

end

/-- The version that a completed run has raised. -/
def raisedBy : Except Halt Outcome → Option Version
  | .ok (.completed r) => some r.previous
  | _ => none

theorem exists_of_raisedBy {x : Except Halt Outcome} {v : Version} (h : raisedBy x = some v) :
    ∃ r, x = .ok (.completed r) ∧ r.previous = v := by
  unfold raisedBy at h
  split at h
  · next r => exact ⟨r, rfl, Option.some.inj h⟩
  · cases h

namespace Sample

/-- The configuration of the small library, with a lead that lacks the marker. -/
def unmarked : Config := { config with commits := { lead := "Nightly version " } }

/-- The small library, with room for two more patch numbers. -/
def narrowRoom : World InMemory := { world with
  files := world.files.set ["lib", "version.cmake"] (.file
    "set(LIB_MAJOR 1)\nset(LIB_MINOR 2)\nset(LIB_PATCH 4294967293)\n".toUTF8) }

end Sample

/-- Two runs use up the patch numbers of the small library, and a third one is refused. -/
theorem runs_count_up_sample :
    raisedBy (run Sample.options Sample.unmarked inMemory Sample.narrowRoom).1 =
      some ⟨1, 2, 4294967293⟩ ∧
    (∀ i, 1 ≤ i → i ≤ 2 → (Subject.ofMessage (Sample.unmarked.commitMessage
      ((⟨1, 2, 4294967293⟩ : Version).plus i))).isAutomated
        Sample.unmarked.commits.marker = false) ∧
    ∃ file, file.version = ⟨1, 2, 4294967293⟩ ∧
      CountsUp Sample.options Sample.unmarked Sample.narrowRoom file 2 := by
  have hraised : raisedBy (run Sample.options Sample.unmarked inMemory Sample.narrowRoom).1 =
      some ⟨1, 2, 4294967293⟩ := by decide +kernel
  have hmarker : ∀ i, 1 ≤ i → i ≤ 2 → (Subject.ofMessage (Sample.unmarked.commitMessage
      ((⟨1, 2, 4294967293⟩ : Version).plus i))).isAutomated
        Sample.unmarked.commits.marker = false := by
    intro i hi hi'
    obtain rfl | rfl : i = 1 ∨ i = 2 := by omega
    · decide +kernel
    · decide +kernel
  obtain ⟨r, hr, hprevious⟩ := exists_of_raisedBy hraised
  have hfirst : run Sample.options Sample.unmarked inMemory Sample.narrowRoom =
      (.ok (.completed r), (run Sample.options Sample.unmarked inMemory Sample.narrowRoom).2) :=
    Prod.ext hr rfl
  have hroom : r.previous.patch.toNat + 2 ≤ 4294967295 := by rw [hprevious]; decide
  rw [← hprevious] at hmarker
  obtain ⟨file, -, -, hversion, hcounts⟩ := runs_count_up hfirst hroom hmarker
  rw [hprevious] at hversion hmarker
  exact ⟨hraised, hmarker, file, hversion, hcounts⟩

end Nightly
end NightlyRelease
