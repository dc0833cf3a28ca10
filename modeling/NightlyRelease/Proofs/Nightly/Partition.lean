/-
# Changelogs divide the history

People commit, runs take place, and everything but the history changes as it
likes.  A `Session` keeps the books of this: it notes which commits no completed
run has seen so far (`pending`), and for each completed run its report and the
commits that were pending before it (`releases`).  After the start the books are
kept from the events and the results of the runs alone; the history is not looked
at again.

The history tells the same.  It falls apart into the pending commits and, run by
run, the commit of the bump and the commits that were pending before it
(`Session.Balanced`).  A run looks at its newest commits, as many as the window
has, down to the first one with the marker; the marker stands in the commit just
behind the pending ones, and so what the run finds are the newest of these
(`takeWhile_take_append`).  Its changelog has the longer ones of them, and no other
run has any of them (`changelogs_partition`).
-/

import NightlyRelease.Proofs.Nightly.Recurrence
import Mathlib.Data.List.Flatten

namespace NightlyRelease
namespace Nightly

open NightlyRelease.Action Repository

/-- What happens to a repository. -/
inductive Event where
  /-- Somebody commits. -/
  | commit (message : String)
  | run (options : Options)
  /-- Everything but the history becomes what it is in `v`. -/
  | change (v : World InMemory)

/-- The subject of the commit that somebody makes. -/
def Event.subject? : Event → Option Subject
  | commit message => some (Subject.ofMessage message)
  | run _ => none
  | change _ => none

/-- A completed run, with the commits that it found since the completed run before, newest first. -/
structure Release where
  report : Report
  commits : List Subject

/-- What a release has put on the history: its own commit, on the commits that it found. -/
def Release.history (l : Release) : List Subject := Subject.ofMessage l.report.message :: l.commits

/-- The books of a repository. -/
structure Session where
  world : World InMemory
  /-- The commits since the last completed run, newest first. -/
  pending : List Subject
  /-- The completed runs, newest first. -/
  releases : List Release

/-- A subject without the marker. -/
def isManual (config : Config) (s : Subject) : Bool := !s.isAutomated config.commits.marker

/-- What a changelog has of some commits: of the newest ones, as many as the window has, those that
are long enough. -/
def listed (config : Config) (commits : List Subject) : List String :=
  ((commits.take config.commits.window).filter
    (·.isSubstantial config.commits.minimum)).map (·.text)

namespace Session

/-- The books at the start: the commits since the newest one with the marker are pending. -/
def start (config : Config) (w : World InMemory) : Session where
  world := w
  pending := w.repository.subjects.takeWhile (isManual config)
  releases := []

/-- The books after an event. -/
def step (config : Config) (s : Session) : Event → Session
  | .commit message => { s with
      world := { s.world with repository := s.world.repository.withCommit message }
      pending := Subject.ofMessage message :: s.pending }
  | .run options => match run options config inMemory s.world with
    | (.ok (.completed r), w) => ⟨w, [], ⟨r, s.pending⟩ :: s.releases⟩
    | (_, w) => { s with world := w }
  | .change v => { s with
      world := { v with
        repository := { v.repository with subjects := s.world.repository.subjects } } }

/-- The books after some events. -/
def play (config : Config) (s : Session) (events : List Event) : Session :=
  events.foldl (step config) s

/-- What people commit lacks the marker, and a run is completed or skipped, unless it is dry. -/
def Allows (config : Config) (s : Session) : Event → Prop
  | .commit message => isManual config (Subject.ofMessage message) = true
  | .run options => options.dry = true ∨ (Nightly.run options config inMemory s.world).1.isOk = true
  | .change _ => True

/-- Each of some events is allowed when it comes. -/
def AllowsAll (config : Config) (s : Session) : List Event → Prop
  | [] => True
  | e :: events => s.Allows config e ∧ (s.step config e).AllowsAll config events

instance decidableAllows (config : Config) (s : Session) : ∀ e, Decidable (s.Allows config e)
  | .commit _ => inferInstanceAs (Decidable (_ = true))
  | .run _ => inferInstanceAs (Decidable (_ ∨ _))
  | .change _ => inferInstanceAs (Decidable True)

instance decidableAllowsAll (config : Config) :
    ∀ (s : Session) (events : List Event), Decidable (s.AllowsAll config events)
  | _, [] => inferInstanceAs (Decidable True)
  | s, e :: events =>
    have := decidableAllowsAll config (s.step config e) events
    inferInstanceAs (Decidable (_ ∧ _))

/-- All commits that people have made, newest first, as far as the books know of them. -/
def commits (s : Session) : List Subject := s.pending ++ s.releases.flatMap (·.commits)

/-- **The books agree with the history:** behind the pending commits stands what the releases have
put there, and then the `older` commits, and what comes first of this has the marker. -/
structure Balanced (config : Config) (older : List Subject) (s : Session) : Prop where
  subjects_eq : s.world.repository.subjects =
    s.pending ++ (s.releases.flatMap Release.history ++ older)
  manual : ∀ x ∈ s.pending, isManual config x = true
  behind : ∀ x ∈ (s.releases.flatMap Release.history ++ older).head?, isManual config x = false
  entries_eq : ∀ l ∈ s.releases, l.report.changelog.entries = listed config l.commits

end Session

/-! ### What a run finds -/

/-- The first elements of a list that pass a test, up to some number, are the first ones of those
before an element that does not pass. -/
theorem takeWhile_take_append {α : Type} {p : α → Bool} {a b : List α} (ha : ∀ x ∈ a, p x = true)
    (hb : ∀ x ∈ b.head?, p x = false) (n : Nat) : ((a ++ b).take n).takeWhile p = a.take n := by
  have hstop : (b.take (n - a.length)).takeWhile p = [] := by
    cases b with
    | nil => simp
    | cons x b =>
      cases n - a.length with
      | zero => rfl
      | succ m => simp [hb x rfl]
  rw [List.take_append, List.takeWhile_append_of_pos fun x hx => ha x (List.mem_of_mem_take hx),
    hstop, List.append_nil]

section

variable {options : Options} {config : Config} {w w' : World InMemory} {s : Session}
variable {older : List Subject} {e : Event} {events : List Event} {r : Report}
variable {result : Except Error Outcome}

/-- **A run finds the newest pending commits.** -/
theorem Session.Balanced.changelogOf_entries (h : s.Balanced config older) :
    (changelogOf config s.world.repository).entries = listed config s.pending := by
  have hfound : (s.world.repository.subjects.take config.commits.window).takeWhile
      (isManual config) = s.pending.take config.commits.window := by
    rw [h.subjects_eq, takeWhile_take_append h.manual h.behind]
  simp only [changelogOf, Changelog.ofSubjects, listed, ← hfound]
  rfl

/-- A run that is not completed leaves the history alone, if it is dry or ends well. -/
theorem Course.subjects_kept (h : Course options config w result w')
    (hresult : ∀ r, result ≠ .ok (.completed r))
    (hquiet : options.dry = true ∨ result.isOk = true) :
    w'.repository.subjects = w.repository.subjects := by
  cases h with
  | unpublished hg hp hd =>
    rcases hquiet with hdry | hok
    · rw [hd] at hdry; cases hdry
    · cases hok
  | unrecorded hg hp hd =>
    rcases hquiet with hdry | hok
    · rw [hd] at hdry; cases hdry
    · cases hok
  | completed => exact absurd rfl (hresult _)
  | _ => rfl

namespace Session

/-- What a run does to the books: it is completed and takes all pending commits, or it changes
nothing but the world. -/
theorem step_run_cases (options : Options) (config : Config) (s : Session) :
    (∃ r w', Course options config s.world (.ok (.completed r)) w' ∧
      s.step config (.run options) = ⟨w', [], ⟨r, s.pending⟩ :: s.releases⟩) ∨
    (∃ result w', Course options config s.world result w' ∧
      (∀ r, result ≠ .ok (.completed r)) ∧
      s.step config (.run options) = { s with world := w' }) := by
  obtain ⟨result, w', h⟩ := exists_course options config s.world
  have hrun := h.run_apply
  cases result with
  | error e => exact .inr ⟨_, w', h, nofun, by simp only [step, hrun, returned_error]⟩
  | ok outcome =>
    cases outcome with
    | completed r => exact .inl ⟨r, w', h, by simp only [step, hrun, returned_ok]⟩
    | skipped subject => exact .inr ⟨_, w', h, nofun, by simp only [step, hrun, returned_ok]⟩
    | dryRun r => exact .inr ⟨_, w', h, nofun, by simp only [step, hrun, returned_ok]⟩

/-! ### The books after a step -/

theorem balanced_start (config : Config) (w : World InMemory) :
    (start config w).Balanced config (w.repository.subjects.dropWhile (isManual config)) where
  subjects_eq := (List.takeWhile_append_dropWhile ..).symm
  manual _ hx := List.mem_takeWhile_imp hx
  behind x hx := by
    have hnot := List.head?_dropWhile_not (isManual config) w.repository.subjects
    change (w.repository.subjects.dropWhile (isManual config)).head? = some x at hx
    rwa [hx] at hnot
  entries_eq _ hl := by cases hl

/-- A completed run takes all pending commits. -/
theorem Balanced.release (h : s.Balanced config older)
    (hmarked : ∀ v, (Subject.ofMessage (config.commitMessage v)).isAutomated
      config.commits.marker = true)
    (hc : Course options config s.world (.ok (.completed r)) w') :
    Balanced config older ⟨w', [], ⟨r, s.pending⟩ :: s.releases⟩ := by
  obtain ⟨file, bumped, fs₁, fs₂, hdone⟩ := hc.completion
  have hmessage : r.message = config.commitMessage r.version := hdone.message_eq
  refine ⟨?_, by simp, ?_, ?_⟩
  · rw [hdone.subjects_eq, h.subjects_eq]
    simp [Release.history]
  · rintro x hx
    obtain rfl : Subject.ofMessage r.message = x := by simpa [Release.history] using hx
    rw [hmessage, isManual, hmarked, Bool.not_true]
  · intro l hl
    rcases List.mem_cons.1 hl with rfl | hl
    · rw [hdone.changelog_eq, h.changelogOf_entries]
    · exact h.entries_eq l hl

/-- **A step keeps the books in agreement with the history.** -/
theorem Balanced.step (h : s.Balanced config older)
    (hmarked : ∀ v, (Subject.ofMessage (config.commitMessage v)).isAutomated
      config.commits.marker = true)
    (he : s.Allows config e) : (s.step config e).Balanced config older := by
  cases e with
  | commit message =>
    refine ⟨?_, ?_, h.behind, h.entries_eq⟩
    · exact congrArg (Subject.ofMessage message :: ·) h.subjects_eq
    · rintro x hx
      rcases List.mem_cons.1 hx with rfl | hx
      · exact he
      · exact h.manual x hx
  | change v => exact ⟨h.subjects_eq, h.manual, h.behind, h.entries_eq⟩
  | run options =>
    rcases step_run_cases options config s with ⟨r, w', hc, hstep⟩ | ⟨result, w', hc, hne, hstep⟩
    · rw [hstep]
      exact h.release hmarked hc
    · have hquiet : options.dry = true ∨ result.isOk = true := by
        rw [Allows, hc.run_apply] at he
        cases result <;> exact he
      rw [hstep]
      exact ⟨(hc.subjects_kept hne hquiet).trans h.subjects_eq, h.manual, h.behind, h.entries_eq⟩

/-- An event adds the commit that somebody makes, and nothing else. -/
theorem commits_step (config : Config) (s : Session) (e : Event) :
    (s.step config e).commits = e.subject?.toList ++ s.commits := by
  cases e with
  | commit message => rfl
  | change v => rfl
  | run options =>
    rcases step_run_cases options config s with ⟨r, w', -, hstep⟩ | ⟨result, w', -, -, hstep⟩
    · rw [hstep]
      simp [commits, Event.subject?]
    · rw [hstep]
      rfl

/-! ### The books after many steps -/

theorem Balanced.play (h : s.Balanced config older)
    (hmarked : ∀ v, (Subject.ofMessage (config.commitMessage v)).isAutomated
      config.commits.marker = true)
    (hevents : s.AllowsAll config events) : (s.play config events).Balanced config older := by
  induction events generalizing s with
  | nil => exact h
  | cons e events ih => exact ih (h.step hmarked hevents.1) hevents.2

theorem commits_play (config : Config) (s : Session) (events : List Event) :
    (s.play config events).commits =
      (events.filterMap Event.subject?).reverse ++ s.commits := by
  induction events generalizing s with
  | nil => rfl
  | cons e events ih =>
    rw [show s.play config (e :: events) = (s.step config e).play config events from rfl, ih,
      commits_step]
    cases h : e.subject? <;> simp [h]

/-- What a changelog lists stands among the commits, in their order. -/
theorem listed_sublist (config : Config) (commits : List Subject) :
    (listed config commits).Sublist (commits.map (·.text)) :=
  (List.filter_sublist.trans (List.take_sublist _ _)).map _

/-- What all changelogs list stands among the commits, in their order. -/
theorem Balanced.entries_sublist (h : s.Balanced config older) :
    (s.releases.flatMap (·.report.changelog.entries)).Sublist (s.commits.map (·.text)) := by
  have hrelease (l : Release) (hl : l ∈ s.releases) :
      l.report.changelog.entries.Sublist (l.commits.map (·.text)) := by
    rw [h.entries_eq l hl]
    exact listed_sublist config l.commits
  rw [commits, List.map_append, List.map_flatMap]
  exact (List.Sublist.flatMap_right _ hrelease).trans (List.sublist_append_right _ _)

end Session

/-- What the books `s` of some events tell, where `manual` are the commits that stood before the
marker at the start and `older` those from the marker on. -/
structure Partitioned (config : Config) (events : List Event) (manual older : List Subject)
    (s : Session) : Prop where
  /-- A changelog has the newest commits since the completed run before, as many as the window has,
  without those that are too short. -/
  entries_eq : ∀ l ∈ s.releases, l.report.changelog.entries = listed config l.commits
  /-- Each commit was found by one completed run or is pending. -/
  commits_eq : s.pending ++ s.releases.flatMap (·.commits) =
    (events.filterMap Event.subject?).reverse ++ manual
  /-- No commit is listed twice, and none out of its order. -/
  entries_sublist : (s.releases.flatMap (·.report.changelog.entries)).Sublist
    (((events.filterMap Event.subject?).reverse ++ manual).map (·.text))
  /-- In the history, the commit of each completed run stands on those that the run found. -/
  history_eq : s.world.repository.subjects =
    s.pending ++ (s.releases.flatMap Release.history ++ older)

/-- **Changelogs divide the history.** If all nightly commits have the marker in their subjects and
the commits of people do not, and if runs are completed, skipped or dry, then each changelog lists
the commits that people have made since the completed run before, from the newest down to the size
of the window, and each commit is listed once at most. The first run goes back to the newest commit
with the marker. -/
theorem changelogs_partition
    (hmarked : ∀ v, (Subject.ofMessage (config.commitMessage v)).isAutomated
      config.commits.marker = true)
    (hevents : (Session.start config w).AllowsAll config events) :
    Partitioned config events (w.repository.subjects.takeWhile (isManual config))
      (w.repository.subjects.dropWhile (isManual config))
      ((Session.start config w).play config events) := by
  have hbalanced := (Session.balanced_start config w).play hmarked hevents
  have hcommits := Session.commits_play config (Session.start config w) events
  have hstart : (Session.start config w).commits =
      w.repository.subjects.takeWhile (isManual config) := List.append_nil _
  rw [hstart] at hcommits
  exact ⟨hbalanced.entries_eq, hcommits, hcommits ▸ hbalanced.entries_sublist,
    hbalanced.subjects_eq⟩

end

namespace Sample

/-- The configuration of the small library, with a window of two commits. -/
def narrow : Config := { config with commits := { window := 2 } }

/-- The small library with two commits since its last nightly one, which is version 1.2.3. -/
def nightly : World InMemory := { world with
  repository := { world.repository with
    subjects := [⟨"Add a second function"⟩, ⟨"Add a first function"⟩,
      ⟨"-- managed-build bump version number to 1.2.3 (nightly build)"⟩, ⟨"Start"⟩] } }

/-- Two commits and a release, a skipped run, two commits, a dry run, and a second release. -/
def week : List Event :=
  [.commit "Typo", .commit "Add a third function", .run options, .run options,
    .commit "Fix the third function\n\nIt was wrong.", .commit "Describe the library",
    .run { options with dry := true }, .run options]

end Sample

/-- The small library is released twice: the first changelog has the newest two of four commits
but for a short one, the second one the two commits since then. -/
theorem changelogs_partition_sample :
    (∀ v, (Subject.ofMessage (Sample.narrow.commitMessage v)).isAutomated
      Sample.narrow.commits.marker = true) ∧
    (Session.start Sample.narrow Sample.nightly).AllowsAll Sample.narrow Sample.week ∧
    ((Session.start Sample.narrow Sample.nightly).play Sample.narrow Sample.week).releases.map
      (·.report.changelog.entries) =
        [["Describe the library", "Fix the third function"], ["Add a third function"]] ∧
    Partitioned Sample.narrow Sample.week
      [⟨"Add a second function"⟩, ⟨"Add a first function"⟩]
      [⟨"-- managed-build bump version number to 1.2.3 (nightly build)"⟩, ⟨"Start"⟩]
      ((Session.start Sample.narrow Sample.nightly).play Sample.narrow Sample.week) := by
  have hmarked (v : Version) : (Subject.ofMessage (Sample.narrow.commitMessage v)).isAutomated
      Sample.narrow.commits.marker = true := by
    have hkept : Sample.narrow.commits.marker.toList <:+:
        Subject.kept Sample.narrow.commits.lead.toList := by decide +kernel
    exact (Config.isAutomated_commitMessage_iff _ v).2
      (hkept.trans (List.prefix_append _ _).isInfix)
  have hevents : (Session.start Sample.narrow Sample.nightly).AllowsAll Sample.narrow
      Sample.week := by decide +kernel
  have hmanual : Sample.nightly.repository.subjects.takeWhile (isManual Sample.narrow) =
      [⟨"Add a second function"⟩, ⟨"Add a first function"⟩] := by decide +kernel
  have holder : Sample.nightly.repository.subjects.dropWhile (isManual Sample.narrow) =
      [⟨"-- managed-build bump version number to 1.2.3 (nightly build)"⟩, ⟨"Start"⟩] := by
    decide +kernel
  have hpartitioned := changelogs_partition hmarked hevents
  rw [hmanual, holder] at hpartitioned
  exact ⟨hmarked, hevents, by decide +kernel, hpartitioned⟩

end Nightly
end NightlyRelease
