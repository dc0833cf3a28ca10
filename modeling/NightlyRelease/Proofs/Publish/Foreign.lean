/-
# Which changes the warning calls foreign

A changed file is foreign if its path names another place than all files that the
run writes (`foreignFiles`).  Publishing compares texts instead: the path of a
status entry with the paths of the request, in which backslashes became slashes.

The comparison finds every foreign file as long as no backslash is replaced, and
finds nothing else if the paths are spelled with their names alone
(`Separates`).  A file of the run that the request spells in another way is called
foreign, though (`own_file_reported`).

Whatever the status says, all else that publishing does is the same
(`Ends.withStatus`).
-/

import NightlyRelease.Proofs.FileSystem.Places
import NightlyRelease.Proofs.Publish.Endings
import Mathlib.Data.List.Basic

namespace NightlyRelease

open NightlyRelease.Action Repository

/-- The paths of a warning about changed files. -/
def Warning.dirtyPaths? : Warning → Option (List String)
  | dirtyWorkingTree paths => some paths
  | _ => none

namespace Publish

variable {request : Request} {r : InMemory} {result : Except Error Report} {t : Trace}
variable {directory q : Path} {written : List Path} {entries : List StatusEntry} {p url : String}

/-! ### Texts and places -/

/-- The files that a run writes. -/
def Request.outputs (request : Request) : List Path := request.versionFile :: request.artifacts

/-- The paths of a status that name none of the written files. -/
def foreignFiles (directory : Path) (written : List Path) (entries : List StatusEntry) :
    List String :=
  (entries.map (·.path)).filter fun p => ∀ q ∈ written, directory.place q ≠ directory.place ⟨p⟩

theorem mem_foreignPaths_iff :
    p ∈ foreignPaths written entries ↔
      p ∈ entries.map (·.path) ∧ p ∉ written.map statusName := by
  rw [foreignPaths, List.mem_filter, Bool.not_eq_true', List.contains_eq_mem,
    decide_eq_false_iff_not]

theorem mem_foreignFiles_iff :
    p ∈ foreignFiles directory written entries ↔
      p ∈ entries.map (·.path) ∧ ∀ q ∈ written, directory.place q ≠ directory.place ⟨p⟩ := by
  rw [foreignFiles, List.mem_filter, decide_eq_true_iff]

/-- A status names a path without backslashes as it is. -/
theorem statusName_eq (h : '\\' ∉ q.text.toList) : statusName q = q.text := by
  have hmap : q.text.toList.map (fun c => if c = '\\' then '/' else c) = q.text.toList :=
    calc q.text.toList.map (fun c => if c = '\\' then '/' else c)
      _ = q.text.toList.map id :=
        List.map_congr_left fun c hc => if_neg (ne_of_mem_of_not_mem hc h)
      _ = q.text.toList := List.map_id _
  rw [statusName, hmap, String.ofList_toList]

/-- A path that is spelled as a status would spell it: with its names alone, and without
backslashes. -/
structure IsPlain (q : Path) : Prop where
  bare : q.IsBare
  no_backslash : '\\' ∉ q.text.toList

instance decidableIsPlain (q : Path) : Decidable (IsPlain q) :=
  decidable_of_iff (q.IsBare ∧ '\\' ∉ q.text.toList)
    ⟨fun h => ⟨h.1, h.2⟩, fun h => ⟨h.bare, h.no_backslash⟩⟩

/-- A bare path that names the place of a plain one is spelled like it. -/
theorem IsPlain.statusName_eq (hq : IsPlain q) (hp : Path.IsBare ⟨p⟩)
    (h : directory.place q = directory.place ⟨p⟩) : statusName q = p := by
  rw [Path.place_eq_iff directory (Path.isAbsolute_of_isBare hq.bare)
    (Path.isAbsolute_of_isBare hp)] at h
  rw [Publish.statusName_eq hq.no_backslash, Path.eq_of_isBare hq.bare hp h]

/-- How the paths that the warning names relate to the foreign files. -/
structure Separates (directory : Path) (written : List Path) (entries : List StatusEntry) :
    Prop where
  /-- The warning names the foreign files exactly if each entry that has the text of a written path
  names a written file, and the other way round. -/
  exact_iff : foreignPaths written entries = foreignFiles directory written entries ↔
    ∀ e ∈ entries, e.path ∈ written.map statusName ↔
      ∃ q ∈ written, directory.place q = directory.place ⟨e.path⟩
  /-- Without backslashes it names all of them. -/
  complete : (∀ q ∈ written, '\\' ∉ q.text.toList) →
    (foreignFiles directory written entries).Sublist (foreignPaths written entries)
  /-- It does not name the place of a plainly spelled file. -/
  sound : ∀ q ∈ written, IsPlain q → ∀ p, Path.IsBare ⟨p⟩ →
    directory.place q = directory.place ⟨p⟩ → p ∉ foreignPaths written entries
  /-- It names the foreign files and no others, if all paths are plainly spelled. -/
  exact_of_plain : (∀ q ∈ written, IsPlain q) → (∀ e ∈ entries, Path.IsBare ⟨e.path⟩) →
    foreignPaths written entries = foreignFiles directory written entries

theorem foreignPaths_eq_iff (directory : Path) (written : List Path)
    (entries : List StatusEntry) :
    foreignPaths written entries = foreignFiles directory written entries ↔
      ∀ e ∈ entries, e.path ∈ written.map statusName ↔
        ∃ q ∈ written, directory.place q = directory.place ⟨e.path⟩ := by
  have hjudge (e : StatusEntry) (he : e ∈ entries) :
      (e.path ∈ foreignPaths written entries ↔ e.path ∈ foreignFiles directory written entries) ↔
        (e.path ∈ written.map statusName ↔
          ∃ q ∈ written, directory.place q = directory.place ⟨e.path⟩) := by
    have hpath : e.path ∈ entries.map (·.path) := List.mem_map_of_mem he
    rw [mem_foreignPaths_iff, mem_foreignFiles_iff, and_iff_right hpath, and_iff_right hpath,
      ← not_iff_not (a := e.path ∈ written.map statusName)]
    simp only [not_exists, not_and, ne_eq]
  constructor
  · intro h e he
    rw [← hjudge e he, h]
  · intro h
    refine List.filter_congr fun p hp => ?_
    obtain ⟨e, he, rfl⟩ := List.mem_map.1 hp
    have := (hjudge e he).2 (h e he)
    rw [mem_foreignPaths_iff, mem_foreignFiles_iff, and_iff_right hp, and_iff_right hp] at this
    rw [List.contains_eq_mem, ← decide_not, decide_eq_decide]
    exact this

/-- **What the comparison of texts finds.** -/
theorem separates (directory : Path) (written : List Path) (entries : List StatusEntry) :
    Separates directory written entries := by
  have hcomplete (h : ∀ q ∈ written, '\\' ∉ q.text.toList) (p : String)
      (hp : p ∈ written.map statusName) :
      ∃ q ∈ written, directory.place q = directory.place ⟨p⟩ := by
    obtain ⟨q, hq, rfl⟩ := List.mem_map.1 hp
    exact ⟨q, hq, by rw [statusName_eq (h q hq)]⟩
  have hsound (q : Path) (hq : q ∈ written) (hplain : IsPlain q) (p : String)
      (hp : Path.IsBare ⟨p⟩) (h : directory.place q = directory.place ⟨p⟩) :
      p ∈ written.map statusName :=
    List.mem_map.2 ⟨q, hq, hplain.statusName_eq hp h⟩
  refine ⟨foreignPaths_eq_iff directory written entries, fun h => ?_,
    fun q hq hplain p hp hplace hforeign => ?_, fun hplain hbare => ?_⟩
  · refine List.monotone_filter_right _ fun p hp => ?_
    rw [decide_eq_true_iff] at hp
    rw [Bool.not_eq_true', List.contains_eq_mem, decide_eq_false_iff_not]
    intro hmem
    obtain ⟨q, hq, hplace⟩ := hcomplete h p hmem
    exact hp q hq hplace
  · exact (mem_foreignPaths_iff.1 hforeign).2 (hsound q hq hplain p hp hplace)
  · refine (foreignPaths_eq_iff directory written entries).2 fun e he => ⟨?_, ?_⟩
    · exact hcomplete (fun q hq => (hplain q hq).no_backslash) e.path
    · rintro ⟨q, hq, hplace⟩
      exact hsound q hq (hplain q hq) e.path (hbare e he) hplace

/-! ### The rest of publishing -/

/-- The log lines about a status. -/
def statusLines (entries : List StatusEntry) : List Log.Line :=
  entries.map fun e => ⟨.debug, "status: " ++ alignCode e.code ++ " " ++ e.path⟩

/-- A repository whose status is another one. -/
def withEntries (r : InMemory) (entries : List StatusEntry) : InMemory :=
  { r with status := entries }

/-- What a report tells besides the changed files: the commit and the other warnings. -/
def Report.besides (report : Report) : String × List Warning :=
  (report.commit, report.warnings.filter (·.dirtyPaths?.isNone))

/-- The log lines before a push that are not about the status. -/
def Request.committedLines (request : Request) (r : InMemory) (url : String) : List Log.Line :=
  [⟨.info, "Committed " ++ shortId (InMemory.commitId (r.subjects.length + 1)) ++ ": " ++
      request.message⟩,
    ⟨.info, "Pushing '" ++ request.branch ++ "' to " ++ Url.redact url⟩]

theorem pushLines_eq (request : Request) (r : InMemory) (url : String) :
    request.pushLines r url = statusLines r.status ++ request.committedLines r url :=
  List.append_assoc _ _ _

theorem dirtyPaths_report (unsent : List Warning)
    (h : unsent.filterMap Warning.dirtyPaths? = []) :
    (request.report r unsent).warnings.filterMap Warning.dirtyPaths? =
      if foreignPaths request.outputs r.status = [] then []
      else [foreignPaths request.outputs r.status] := by
  rw [Request.report, List.filterMap_append, h, List.append_nil, Request.dirty, Request.outputs]
  split <;> rfl

theorem besides_report (unsent : List Warning) :
    (request.report r unsent).besides =
      (InMemory.commitId (r.subjects.length + 1), unsent.filter (·.dirtyPaths?.isNone)) := by
  rw [Report.besides, Request.report, List.filter_append, Request.dirty]
  dsimp only
  split <;> rfl

theorem dirtyPaths_unsent (request : Request) (url : String) :
    (request.unsent url).filterMap Warning.dirtyPaths? = [] := by
  rw [Request.unsent]
  split <;> rfl

/-- The report of a request that was published has one warning about changed files, unless there
are none to be named. -/
theorem Ends.dirtyPaths {report : Report} (h : Ends request r (.ok report) t) :
    report.warnings.filterMap Warning.dirtyPaths? =
      if foreignPaths request.outputs r.status = [] then []
      else [foreignPaths request.outputs r.status] := by
  cases h with
  | pushed => exact dirtyPaths_report _ (dirtyPaths_unsent request _)
  | swapped => exact dirtyPaths_report _ rfl

/-- Two ways to end differ only in what they tell about the status: `entries` stand for it in the
second one. -/
structure AlikeBesides (r : InMemory) (entries : List StatusEntry)
    (result result' : Except Error Report) (t t' : Trace) : Prop where
  besides : result'.map Report.besides = result.map Report.besides
  remotes : t'.remotes = t.remotes
  calls : t'.calls = t.calls
  lines : ∃ lines, t.lines = statusLines r.status ++ lines ∧
    t'.lines = statusLines entries ++ lines

/-- **With another status, publishing ends in the same way.** -/
theorem Ends.withStatus (h : Ends request r result t) (entries : List StatusEntry) :
    ∃ result' t', Ends request (withEntries r entries) result' t' ∧
      AlikeBesides r entries result result' t t' := by
  have hlines (url : String) (more : List Log.Line) :
      ∃ lines, request.pushLines r url ++ more = statusLines r.status ++ lines ∧
        request.pushLines (withEntries r entries) url ++ more = statusLines entries ++ lines :=
    ⟨request.committedLines r url ++ more, by rw [pushLines_eq, List.append_assoc],
      by rw [pushLines_eq, List.append_assoc]; rfl⟩
  have hlines₀ (url : String) := hlines url []
  simp only [List.append_nil] at hlines₀
  have hreport (unsent : List Warning) :
      (request.report (withEntries r entries) unsent).besides =
        (request.report r unsent).besides := by
    rw [besides_report, besides_report]
    rfl
  cases h with
  | unknown hr => exact ⟨_, _, .unknown hr, rfl, rfl, rfl, _, rfl, rfl⟩
  | pushed hr hc hp =>
    exact ⟨_, _, .pushed hr hc hp, congrArg Except.ok (hreport _), rfl, rfl, hlines₀ _⟩
  | refused hr hc hp => exact ⟨_, _, .refused hr hc hp, rfl, rfl, rfl, hlines₀ _⟩
  | unswapped hr hc hu => exact ⟨_, _, .unswapped hr hc hu, rfl, rfl, rfl, hlines₀ _⟩
  | swapped hr hc hu hu' hp =>
    exact ⟨_, _, .swapped hr hc hu hu' hp, congrArg Except.ok (hreport _), rfl, rfl, hlines _ _⟩
  | restored hr hc hu hu' hp =>
    exact ⟨_, _, .restored hr hc hu hu' hp, rfl, rfl, rfl, hlines _ _⟩
  | stuck hr hc hu hu' =>
    refine ⟨_, _, .stuck hr hc hu hu', rfl, rfl, rfl, ?_⟩
    rw [List.append_assoc, List.append_assoc]
    exact hlines _ _

/-- Another status changes the log lines about it and the warning about changed files, and nothing
else that publishing does. -/
def Unaffected (request : Request) (w : World InMemory) (entries : List StatusEntry) : Prop :=
  ∃ result result' w₁ w₂ lines,
    publish inMemory request w = (returned result, w₁) ∧
    publish inMemory request { w with repository := withEntries w.repository entries } =
      (returned result', w₂) ∧
    result'.map Report.besides = result.map Report.besides ∧
    w₂.files = w₁.files ∧ w₂.repository = withEntries w₁.repository entries ∧
    w₁.log = w.log ++ (statusLines w.repository.status ++ lines) ∧
    w₂.log = w.log ++ (statusLines entries ++ lines)

theorem unaffected (request : Request) (w : World InMemory) (entries : List StatusEntry) :
    Unaffected request w entries := by
  obtain ⟨result, t, h⟩ := exists_ends request w.repository
  obtain ⟨result', t', h', hbesides, hremotes, hcalls, lines, hlines, hlines'⟩ :=
    h.withStatus entries
  refine ⟨result, result', _, _, lines, h.publish_apply,
    Ends.publish_apply (w := { w with repository := withEntries w.repository entries }) h',
    hbesides, rfl, ?_, ?_, ?_⟩
  · simp only [Trace.after, withEntries, InMemory.withCommit, hremotes, hcalls]
  · rw [Trace.after, hlines]
  · rw [Trace.after, hlines']

/-- **The warning about changed files** names the paths of the status whose text is none of the
written ones. These are the foreign files, where texts tell places apart; and all else that is done
does not depend on the status. -/
theorem dirty_warning_separates (request : Request) (w : World InMemory) :
    (∀ report w', publish inMemory request w = (.ok report, w') →
      report.warnings.filterMap Warning.dirtyPaths? =
        if foreignPaths request.outputs w.repository.status = [] then []
        else [foreignPaths request.outputs w.repository.status]) ∧
    Separates w.repository.workDirectory request.outputs w.repository.status ∧
    w.repository.workDirectory.PlacesTell ∧
    ∀ entries, Unaffected request w entries := by
  refine ⟨fun report w' h => ?_, separates _ _ _, Path.placesTell _, unaffected request w⟩
  obtain ⟨result, t, hends⟩ := exists_ends request w.repository
  rw [hends.publish_apply] at h
  cases result with
  | ok report' =>
    obtain rfl : report' = report := by simpa using congrArg Prod.fst h
    exact hends.dirtyPaths
  | error e => cases congrArg Prod.fst h

namespace Sample

/-- A bump that writes three files in `/lib`. -/
def bump : Request where
  remote := "origin"
  branch := "main"
  versionFile := ⟨"cmake/Version.cmake"⟩
  artifacts := [⟨"changelog.txt"⟩, ⟨"version.txt"⟩]
  message := "Bump"
  credentials := none
  author := none

/-- Two of them are changed, and `notes.txt` is both staged and changed again. -/
def changed : World InMemory where
  files := FileSystem.empty
  repository := {
    workDirectory := ⟨"/lib"⟩
    remotes := fun name => if name = "origin" then some "https://example.com/lib.git" else none
    status := [⟨"M", "cmake/Version.cmake"⟩, ⟨"A", "notes.txt"⟩, ⟨"??", "changelog.txt"⟩,
      ⟨"M", "notes.txt"⟩] }
  log := []

/-- The same bump, with one of its files spelled in another way. -/
def respelled : Request := { bump with artifacts := [⟨"./changelog.txt"⟩, ⟨"version.txt"⟩] }

/-- Only this file is changed. -/
def ownChange : World InMemory :=
  { changed with repository := withEntries changed.repository [⟨"??", "changelog.txt"⟩] }

end Sample

/-- In the sample, the warning names the foreign file twice and no other file. -/
theorem dirty_warning_separates_sample :
    ∃ report w', publish inMemory Sample.bump Sample.changed = (.ok report, w') ∧
      report.warnings.filterMap Warning.dirtyPaths? = [["notes.txt", "notes.txt"]] ∧
      foreignFiles ⟨"/lib"⟩ Sample.bump.outputs Sample.changed.repository.status =
        ["notes.txt", "notes.txt"] := by
  have hreport : (publish inMemory Sample.bump Sample.changed).1 =
      .ok ⟨InMemory.commitId 1, [.dirtyWorkingTree ["notes.txt", "notes.txt"]]⟩ := by
    decide +kernel
  have hpublish : publish inMemory Sample.bump Sample.changed = (.ok _, _) := Prod.ext hreport rfl
  obtain ⟨hwarning, hseparates, -⟩ := dirty_warning_separates Sample.bump Sample.changed
  have hplain : ∀ q ∈ Sample.bump.outputs, IsPlain q := by decide +kernel
  have hexact := hseparates.exact_of_plain hplain (by decide +kernel)
  have hforeign : foreignPaths Sample.bump.outputs Sample.changed.repository.status =
      ["notes.txt", "notes.txt"] := by decide +kernel
  refine ⟨_, _, hpublish, ?_, hexact.symm.trans hforeign⟩
  rw [hwarning _ _ hpublish, hforeign]
  rfl

/-- **A file of the run is called foreign** if the request spells it in another way than the
status. -/
theorem own_file_reported :
    (publish inMemory Sample.respelled Sample.ownChange).1 =
      .ok ⟨InMemory.commitId 1, [.dirtyWorkingTree ["changelog.txt"]]⟩ ∧
    foreignFiles ⟨"/lib"⟩ Sample.respelled.outputs Sample.ownChange.repository.status = [] := by
  constructor
  · decide +kernel
  · decide +kernel

end Publish
end NightlyRelease
