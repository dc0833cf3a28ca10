/-
# Published versions only go up

Runs follow one another over one work directory, and between them anything may
change but the file of the published version (`Attempt.Leads`).  This file is the
memory of the runs: once a run has published `v`, the file can be read, and a
version that it holds is not older than `v` (`Holds`).

A later run keeps this up.  It may overwrite the file, if one of its other paths
leads to the same place, but neither a changelog nor a version file reads as a
version (`parse_render_ne_ok`, `parse_versionFile_ne_ok`); and then it puts the
new version there, if it gets that far.  A run that is completed has found a
version in the file, and what it publishes is newer.  So the published versions
go up (`published_ascends`).
-/

import NightlyRelease.Proofs.Nightly.Completion
import NightlyRelease.Proofs.Version.Canonical
import Mathlib.Data.List.Chain

namespace NightlyRelease
namespace Nightly

open NightlyRelease.Action Repository

/-! ### Texts that are no versions -/

theorem parse_ne_ok_of_mem {text : String} {c : Char} (hc : c ∈ text.toList)
    (hblank : Text.isBlank c = false) (hdigit : Text.Decimal.isDigit c = false) (hdot : c ≠ '.')
    (v : Version) : Version.parse text ≠ .ok v := by
  intro h
  rcases Version.of_mem_of_parse h hc with h | h | h
  · rw [hblank] at h; cases h
  · rw [hdigit] at h; cases h
  · exact hdot h

/-- No changelog reads as a version. -/
theorem parse_render_ne_ok (c : Changelog) (v : Version) : Version.parse c.render ≠ .ok v :=
  parse_ne_ok_of_mem (c := '<') (by simp [Changelog.render]) (by decide) (by decide) (by decide) v

/-- No version file reads as a version. -/
theorem parse_versionFile_ne_ok {text keyPrefix : String} {file : VersionFile}
    (h : VersionFile.parse text keyPrefix = .ok file) (v : Version) :
    Version.parse text ≠ .ok v :=
  parse_ne_ok_of_mem (c := '(') (VersionFile.mem_of_parse h (by decide)) (by decide) (by decide)
    (by decide) v

/-! ### The file of the published version -/

/-- There is a file at the path, and it holds no version that is older than `v`. -/
def Holds (fs : FileSystem) (p : Path) (v : Version) : Prop :=
  ∃ text, fs.readText p = .ok text ∧ ∀ u, Version.parse text = .ok u → ¬ u < v

variable {fs fs' : FileSystem} {p q : Path} {u v : Version} {text : String}

theorem Holds.mono (h : Holds fs p v) (huv : u < v) : Holds fs p u := by
  obtain ⟨text, htext, hv⟩ := h
  exact ⟨text, htext, fun w hw hwu => hv w hw (Version.lt_trans hwu huv)⟩

/-- Writing a text that is no version, to whatever place, keeps the file up. -/
theorem Holds.writeText (h : Holds fs p v) (hw : fs.writeText q text = .ok fs')
    (htext : ∀ u, Version.parse text ≠ .ok u) : Holds fs' p v := by
  obtain ⟨old, hold, hv⟩ := h
  rcases FileSystem.readText_writeText_cases hw hold with hkept | ⟨hnew, -⟩
  · exact ⟨old, hkept, hv⟩
  · exact ⟨text, hnew, fun u hu => absurd hu (htext u)⟩

/-- A version that was written to the file is held by it. -/
theorem holds_of_writeText (hw : fs.writeText p v.text = .ok fs') : Holds fs' p v := by
  refine ⟨v.text, FileSystem.readText_writeText hw, fun u hu => ?_⟩
  rw [Version.parse_text, Except.ok.injEq] at hu
  subst hu
  exact Version.lt_irrefl _

/-- The two writes before the commit keep the file up. -/
theorem Holds.committed {config : Config} {w w' : World InMemory} {bumped : VersionFile.Bumped}
    (h : Holds w.files p v) (hc : Committed config w w' bumped fs) : Holds w'.files p v := by
  obtain ⟨text, file, -, hfile, hb⟩ := hc.isBumpAt
  exact (h.writeText hc.changelog_written (parse_render_ne_ok _)).writeText
    hc.versionFile_written (parse_versionFile_ne_ok (VersionFile.parse_bumped hfile hb))

/-! ### One run -/

section

variable {options : Options} {config : Config} {w w' : World InMemory}
variable {result : Except Error Outcome}

/-- A run that is completed puts its version into the file. -/
theorem Course.holds_completed {r : Report}
    (h : Course options config w (.ok (.completed r)) w') :
    Holds w'.files (placesIn config w).versionOutput r.version := by
  obtain ⟨file, bumped, fs₁, fs₂, hc⟩ := h.completion
  exact holds_of_writeText hc.versionOutput_written

/-- A run that is completed publishes a newer version than the file was known to hold. -/
theorem Course.lt_of_holds {r : Report} (h : Course options config w (.ok (.completed r)) w')
    (hv : Holds w.files (placesIn config w).versionOutput v) : v < r.version := by
  obtain ⟨file, bumped, fs₁, fs₂, hc⟩ := h.completion
  obtain ⟨text, htext, hle⟩ := hv
  obtain ⟨published, hparse, hlt⟩ := hc.version_newer text htext
  exact Version.lt_of_not_lt_of_lt (hle published hparse) hlt

/-- Whatever the course of a run, the file stays up. -/
theorem Course.holds (h : Course options config w result w')
    (hv : Holds w.files (placesIn config w).versionOutput v) :
    Holds w'.files (placesIn config w).versionOutput v := by
  by_cases hcompleted : ∃ r, result = .ok (.completed r)
  · obtain ⟨r, rfl⟩ := hcompleted
    exact h.holds_completed.mono (h.lt_of_holds hv)
  · have hne : ∀ r, result ≠ .ok (.completed r) := fun r hr => hcompleted ⟨r, hr⟩
    rcases h.checkpoint hne with huntouched | ⟨bumped, fs, e, hcommitted, -⟩
    · rwa [huntouched.files]
    · exact hv.committed hcommitted

theorem Course.workDirectory_eq (h : Course options config w result w') :
    w'.repository.workDirectory = w.repository.workDirectory := by
  cases h <;> rfl

/-- An error about a version comes from planning. -/
theorem Course.planned_of_version {reason : String}
    (h : Course options config w (.error (.version reason)) w') :
    Untouched w w' ∧ planned options config w.files w.repository = .error (.version reason) := by
  cases h with
  | unplanned hg hp => exact ⟨⟨rfl, rfl⟩, hp⟩
  | unpublished hg hp hd hw₁ hw₂ he => cases he

end

/-! ### Many runs -/

/-- A run, with the world before it. -/
structure Attempt where
  options : Options
  config : Config
  before : World InMemory

namespace Attempt

variable {a b : Attempt} {runs : List Attempt}

/-- How the run ends. -/
def result (a : Attempt) : Except Halt Outcome := (run a.options a.config inMemory a.before).1

/-- The world after the run. -/
def after (a : Attempt) : World InMemory := (run a.options a.config inMemory a.before).2

/-- The version that the run published, if it was completed. -/
def published (a : Attempt) : Option Version := publishedBy a.result

/-- The file of the published version. -/
def output (a : Attempt) : Path := (placesIn a.config a.before).versionOutput

/-- `b` runs some time after `a`, and nobody has touched the file of the published version since;
everything else may have changed. -/
structure Leads (a b : Attempt) : Prop where
  output_eq : b.output = a.output
  output_kept : b.before.files.readText b.output = a.after.files.readText a.output

theorem exists_course (a : Attempt) :
    ∃ result, a.result = returned result ∧ Course a.options a.config a.before result a.after := by
  obtain ⟨result, w', h⟩ := Nightly.exists_course a.options a.config a.before
  have hrun := h.run_apply
  refine ⟨result, by rw [Attempt.result, hrun], ?_⟩
  rwa [after, hrun]

/-- The same run again, after the repository has changed. -/
def again (a : Attempt) (change : InMemory → InMemory) : Attempt :=
  { a with before := { a.after with repository := change a.after.repository } }

/-- A run does not move the work directory, and so the file stays where it was. -/
theorem leads_again (a : Attempt) {change : InMemory → InMemory}
    (h : ∀ r, (change r).workDirectory = r.workDirectory) : a.Leads (a.again change) := by
  obtain ⟨result, -, hc⟩ := a.exists_course
  have houtput : (a.again change).output = a.output := by
    rw [output, placesIn, again, h, hc.workDirectory_eq, output, placesIn]
  exact ⟨houtput, by rw [houtput]; rfl⟩

theorem exists_report_of_published (h : a.published = some v) :
    ∃ r, Course a.options a.config a.before (.ok (.completed r)) a.after ∧ r.version = v := by
  obtain ⟨result, hresult, hc⟩ := a.exists_course
  obtain ⟨r, hr, hv⟩ := exists_of_publishedBy h
  obtain rfl : result = .ok (.completed r) := returned_inj.1 (hresult.symm.trans hr)
  exact ⟨r, hc, hv⟩

theorem Leads.holds (h : a.Leads b) (hv : Holds a.after.files a.output v) :
    Holds b.before.files b.output v := by
  obtain ⟨text, htext, hle⟩ := hv
  exact ⟨text, h.output_kept.trans htext, hle⟩

/-- A run keeps the file up. -/
theorem holds_after (h : Holds a.before.files a.output v) : Holds a.after.files a.output v := by
  obtain ⟨result, -, hc⟩ := a.exists_course
  exact hc.holds h

/-- A run that publishes puts its version into the file. -/
theorem holds_published (h : a.published = some v) : Holds a.after.files a.output v := by
  obtain ⟨r, hc, rfl⟩ := exists_report_of_published h
  exact hc.holds_completed

/-- A run publishes nothing but what is newer than the file was known to hold. -/
theorem lt_published (h : a.published = some v) (hu : Holds a.before.files a.output u) :
    u < v := by
  obtain ⟨r, hc, rfl⟩ := exists_report_of_published h
  exact hc.lt_of_holds hu

/-- **All that a sequence of runs publishes is newer** than what the file held at its start: each
run keeps the file up for the next one. -/
theorem lt_of_mem_published (h : runs.IsChain Leads)
    (hhead : ∀ a ∈ runs.head?, Holds a.before.files a.output u) :
    ∀ v ∈ runs.filterMap published, u < v := by
  induction runs with
  | nil => simp
  | cons a runs ih =>
    obtain ⟨hleads, hchain⟩ := List.isChain_cons.1 h
    have ha : Holds a.before.files a.output u := hhead a rfl
    have hrest := ih hchain fun b hb => (hleads b hb).holds (holds_after ha)
    intro v hv
    rw [List.mem_filterMap] at hv
    obtain ⟨b, hb, hpublished⟩ := hv
    rcases List.mem_cons.1 hb with rfl | hb
    · exact lt_published hpublished ha
    · exact hrest v (List.mem_filterMap.2 ⟨b, hb, hpublished⟩)

theorem pairwise_published (h : runs.IsChain Leads) :
    (runs.filterMap published).Pairwise (· < ·) := by
  induction runs with
  | nil => simp
  | cons a runs ih =>
    obtain ⟨hleads, hchain⟩ := List.isChain_cons.1 h
    cases ha : a.published with
    | none => simpa only [List.filterMap_cons, ha] using ih hchain
    | some v =>
      rw [List.filterMap_cons, ha, List.pairwise_cons]
      exact ⟨lt_of_mem_published hchain fun b hb => (hleads b hb).holds (holds_published ha),
        ih hchain⟩

/-! ### The check against the published version -/

/-- A run reaches the check against the file of the published version, with `file` as the version
file and `p` in the other file. -/
structure Reaches (a : Attempt) (file : VersionFile) (p : Version) : Prop where
  proceeds : Proceeds a.options a.config a.before.repository
  branch : ∃ branch, a.before.repository.currentBranch = .ok branch
  remote : ∃ url,
    a.before.repository.remoteUrl (a.options.remote.getD a.config.remote) = .ok url
  file_read : Artifacts.versionFileIn a.before.files (placesIn a.config a.before).versionFile
    a.config.keyPrefix = .ok file
  file_bumped : ∃ bumped, file.bumpPatch = .ok bumped
  published_read : Artifacts.versionIn a.before.files a.output = .ok (some p)

variable {file : VersionFile} {p : Version}

/-- What is planned at the check is decided by the order of the two versions. -/
theorem Reaches.planned_eq (h : a.Reaches file p) :
    ∃ plan reason, planned a.options a.config a.before.files a.before.repository =
      if file.version < p then .error (.version reason) else .ok plan := by
  obtain ⟨branch, hbranch⟩ := h.branch
  obtain ⟨url, hurl⟩ := h.remote
  obtain ⟨bumped, hbumped⟩ := h.file_bumped
  obtain ⟨hversion, -, -⟩ := VersionFile.bumpPatch_eq_ok_iff.1 hbumped
  have hpublished : Artifacts.versionIn a.before.files
      (placesIn a.config a.before).versionOutput = .ok (some p) := h.published_read
  have hbump : bumpIn a.config (placesIn a.config a.before) a.before.files =
      (bumped.version.ensureFollows p >>= fun _ => pure bumped) := by
    rw [bumpIn, h.file_read, ok_bind, hbumped, ok_bind, hpublished, ok_bind]
  refine ⟨planOn a.options a.config a.before.repository branch bumped,
    "version " ++ bumped.version.text ++ " does not follow " ++ p.text, ?_⟩
  rw [planned, hbranch, ok_bind, hurl, ok_bind, ← placesIn, hbump, Version.ensureFollows]
  by_cases hlt : file.version < p
  · rw [if_neg fun hp => (Version.lt_bumped_iff hversion).1 hp hlt, if_pos hlt]
    rfl
  · rw [if_pos ((Version.lt_bumped_iff hversion).2 hlt), if_neg hlt]
    rfl

/-- A run that is refused for a version has changed nothing and was refused in planning. -/
theorem planned_of_refused {reason : String}
    (h : a.result = .error (.failed (.version reason))) :
    Untouched a.before a.after ∧
      planned a.options a.config a.before.files a.before.repository = .error (.version reason) := by
  obtain ⟨result, hreturned, hc⟩ := a.exists_course
  obtain rfl : result = .error (.version reason) := returned_inj.1 (hreturned.symm.trans h)
  exact hc.planned_of_version

/-- **A run that reaches the check is refused there** exactly if the published version is newer
than the one that the version file declares. -/
theorem Reaches.refused_iff (h : a.Reaches file p) :
    (∃ reason, a.result = .error (.failed (.version reason))) ↔ file.version < p := by
  obtain ⟨plan, reason, hplanned⟩ := h.planned_eq
  constructor
  · rintro ⟨reason', hresult⟩
    by_contra hlt
    rw [if_neg hlt, (planned_of_refused hresult).2] at hplanned
    cases hplanned
  · intro hlt
    rw [if_pos hlt] at hplanned
    have hrun := (Course.unplanned h.proceeds hplanned).run_apply
    exact ⟨reason, by rw [result, hrun]; rfl⟩

end Attempt

/-- **Published versions only go up.** In a sequence of runs in which nobody else touches the file
of the published version, each version that is published is newer than all before it. A run that
finds version `p` in that file is refused, with nothing changed, exactly if `p` is newer than the
version that the version file declares. -/
theorem published_ascends :
    (∀ runs : List Attempt, runs.IsChain Attempt.Leads →
      (runs.filterMap Attempt.published).Pairwise (· < ·)) ∧
    (∀ (a : Attempt) (file : VersionFile) (p : Version), a.Reaches file p →
      ((∃ reason, a.result = .error (.failed (.version reason))) ↔ file.version < p) ∧
      (file.version < p → Untouched a.before a.after)) := by
  refine ⟨fun runs h => Attempt.pairwise_published h, fun a file p h => ⟨h.refused_iff, ?_⟩⟩
  intro hlt
  obtain ⟨reason, hresult⟩ := h.refused_iff.2 hlt
  exact (Attempt.planned_of_refused hresult).1

namespace Sample

/-- The first release of the small library. -/
def first : Attempt := ⟨options, config, world⟩

/-- A run right after it, which is skipped. -/
def second : Attempt := first.again id

/-- A run after one more commit. -/
def third : Attempt := second.again (·.withCommit "Add a second function")

/-- A run that finds version 1.2.4 published, with a version file that was put back. -/
def behind : Attempt := { first with
  before := { world with files := world.files.set ["lib", "version.txt"] (.file "1.2.4".toUTF8) } }

/-- The version file at version 1.2.3. -/
def file : VersionFile where
  before := "set(LIB_MAJOR 1)\nset(LIB_MINOR 2)\nset(LIB_PATCH ".toList
  patchValue := ['3']
  after := ")\n".toList
  version := ⟨1, 2, 3⟩

end Sample

/-- The small library is released twice, with a skipped run in between; and a run is refused that
finds its version file put back. -/
theorem published_ascends_sample :
    ([Sample.first, Sample.second, Sample.third].filterMap Attempt.published =
        [⟨1, 2, 4⟩, ⟨1, 2, 5⟩] ∧
      ([Sample.first, Sample.second, Sample.third].filterMap Attempt.published).Pairwise
        (· < ·)) ∧
    Sample.behind.Reaches Sample.file ⟨1, 2, 4⟩ ∧
    (∃ reason, Sample.behind.result = .error (.failed (.version reason))) ∧
    Untouched Sample.behind.before Sample.behind.after := by
  have hchain : [Sample.first, Sample.second, Sample.third].IsChain Attempt.Leads :=
    .cons_cons (Sample.first.leads_again fun _ => rfl)
      (.cons_cons (Sample.second.leads_again fun _ => rfl) (.singleton _))
  have hpublished : [Sample.first, Sample.second, Sample.third].filterMap Attempt.published =
      [⟨1, 2, 4⟩, ⟨1, 2, 5⟩] := by decide +kernel
  have hreaches : Sample.behind.Reaches Sample.file ⟨1, 2, 4⟩ := {
    proceeds := ⟨⟨⟨"Add a first function"⟩, rfl, by decide +kernel⟩, fun _ => rfl⟩
    branch := ⟨"main", toOption_eq_some_iff.1 (by decide +kernel)⟩
    remote := ⟨"https://example.org/lib.git", toOption_eq_some_iff.1 (by decide +kernel)⟩
    file_read := toOption_eq_some_iff.1 (by decide +kernel)
    file_bumped := ⟨_, rfl⟩
    published_read := toOption_eq_some_iff.1 (by decide +kernel) }
  obtain ⟨hiff, huntouched⟩ := published_ascends.2 _ _ _ hreaches
  have hlt : Sample.file.version < ⟨1, 2, 4⟩ := by decide
  exact ⟨⟨hpublished, published_ascends.1 _ hchain⟩, hreaches, hiff.2 hlt, huntouched hlt⟩

end Nightly
end NightlyRelease
