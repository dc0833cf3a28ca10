/-
# The subject of the newest commit, on disk and in memory

A commit that was made on disk is what is checked out then (`headCommit_of_commit`).
A walk from there shows it first, and then what was shown before it was made; so the
newest subject is the summary of its message, in front of the subjects that were told
before, or of the fault that was met (`tells_of_commit`), and so after any number of
commits in a row (`told_of_commits`).  A repository in memory folds the message when the
commit is made, and keeps that.

The two tell the same subject exactly if all lines of the message fold alike, and
if they do not, then the loop guard sees it for some marker (`seenAlike_iff`,
`newest_subjects`).  A line with nothing but a no-break space ends the paragraph by
one rule and not by the other, so that a marker behind it is seen on disk only
(`marker_seen_on_disk_only`).
-/

import NightlyRelease.Changelog
import NightlyRelease.LoopGuard
import NightlyRelease.Proofs.Commit.Agreement
import NightlyRelease.Proofs.Git.Operations
import NightlyRelease.Proofs.Git.References
import NightlyRelease.Proofs.Git.Walks
import NightlyRelease.Proofs.Text.Scanning
import NightlyRelease.Repository.InMemory

namespace NightlyRelease

open Git

/-- From one world to the next a repository has come to tell one more subject, in front of those
that it told before; where it told a fault before, it tells this fault still. -/
structure Repository.Tells {σ : Type} (repository : Repository σ) (w w' : World σ)
    (newest : Subject) : Prop where
  head : repository.headSubject w' = (.ok (some newest), w')
  recent_zero : repository.recentSubjects 0 w' = (.ok [], w')
  recent_succ : ∀ limit < Git.Site.subjectRoom, repository.recentSubjects (limit + 1) w' =
    ((repository.recentSubjects limit w).1.map (newest :: ·), w')

/-- There is room for one more commit: a name is left for it, and no directory stands in the place
of the reference that is checked out. -/
structure Git.Site.HasRoom (s : Site) (w : World Machine) : Prop where
  names : w.repository.history.length < CommitId.first
  place : ∀ head, Head.read w.files s.directory = .ok head →
    w.files.at? (Reference.location s.directory head.target) ≠ some .directory

namespace Subject

variable {s : Site} {w w' : World Machine} {message name : String} {author : Option Author}
variable {id : CommitId} {c : Commit} {a b : Subject}

/-! ### On disk -/

/-- What is checked out is a branch with a commit or one without, if a commit can be made. -/
theorem not_broken_of_headCommit {head : Head} {found : Option (CommitId × Commit)}
    (hread : Head.read w.files s.directory = .ok head)
    (h : headCommit w.files w.repository s = .ok found) (missing : String) :
    head ≠ .broken name missing := by
  rintro rfl
  rw [headCommit, hread] at h
  cases h

/-- **A commit is what is checked out then,** and it holds the message, on top of the commit that
was checked out. -/
theorem headCommit_of_commit (hroom : s.HasRoom w)
    (h : (Repository.stored s).commit message author w = (.ok name, w')) :
    hasNul message = false ∧ ∃ id c found, c.message = Text.bytes message ∧
      c.parents = (found.map (·.1)).toList ∧ headCommit w.files w.repository s = .ok found ∧
      w.repository.addCommit s.directory c = (id, w'.repository) ∧
      headCommit w'.files w'.repository s = .ok (some (id, c)) := by
  obtain ⟨id, tree, found, signature, -, -, hfound, hnul, hrecord⟩ := record_of_commit h
  have hc := Committing.commit?_of_record hrecord
  obtain ⟨hid, head, fs, hread, hwrite, rfl⟩ := Committing.record_eq_ok hrecord
  have hlt : id < CommitId.first := by
    rw [← hid]
    exact Nat.lt_of_le_of_lt (History.fst_add_le _ _) hroom.names
  obtain ⟨last, hlast⟩ := Head.read_of_write hread
    (fun _ missing => not_broken_of_headCommit hread hfound missing) hlt (hroom.place head hread)
    hwrite
  refine ⟨hnul, id, _, found, rfl, rfl, hfound, Prod.ext hid rfl, ?_⟩
  rw [headCommit, hlast, ok_bind]
  dsimp only
  rw [Option.bind_some, hc]
  rfl

/-- The repository has the commit that is checked out. -/
theorem commit?_of_headCommit (h : headCommit w.files w.repository s = .ok (some (id, c))) :
    w.repository.commit? s.directory id = some c := by
  obtain ⟨head, -, h⟩ := bind_eq_ok_iff.1 h
  cases head with
  | unborn => cases h
  | broken => cases h
  | born name found =>
    dsimp only at h
    split at h
    · next pair hpair =>
      cases h
      obtain ⟨i, -, hi⟩ := Option.bind_eq_some_iff.1 hpair
      obtain ⟨e, he, heq⟩ := Option.map_eq_some_iff.1 hi
      cases heq
      exact he
    · cases h

theorem newestCommits_apply {limit : Nat} : s.newestCommits limit id c w =
    ((Walk.start id c).commits (w.repository.commit? s.directory) limit, w) := by
  rw [Site.newestCommits, Operation.bind_of_ok (Operation.machine_apply w),
    Operation.ofExcept_apply]

/-- What a repository tells of its newest commits: the subjects of those that a walk shows. -/
def told (s : Site) (w : World Machine) (limit : Nat) : Except Halt (List Subject) :=
  match headCommit w.files w.repository s with
  | .error fault => .error (.failed fault.toError)
  | .ok none => .ok []
  | .ok (some (id, c)) =>
    if Site.subjectRoom < limit then .error (.aborted "capacity overflow")
    else Action.returned ((((Walk.start id c).commits (w.repository.commit? s.directory)
      limit).map (List.map fun c => subjectOf c.shownMessage)).mapError Fault.toError)

theorem recentSubjects_apply (s : Site) (limit : Nat) (w : World Machine) :
    s.recentSubjects limit w = (told s w limit, w) := by
  rw [Site.recentSubjects, Action.bind_apply, Operation.orFail_apply (s.head_apply w), told]
  cases headCommit w.files w.repository s with
  | error fault => rfl
  | ok found =>
    cases found with
    | none => rfl
    | some pair =>
      by_cases hlimit : Site.subjectRoom < limit
      · simp only [Except.mapError, Action.returned_ok, hlimit, if_true]
        rfl
      · simp only [Except.mapError, Action.returned_ok, hlimit, if_false, Action.bind_apply,
          Operation.orFail_apply newestCommits_apply]
        cases (Walk.start pair.1 pair.2).commits (w.repository.commit? s.directory) limit <;> rfl

theorem told_of_unborn (h : headCommit w.files w.repository s = .ok none) (limit : Nat) :
    told s w limit = .ok [] := by
  rw [told, h]

theorem told_of_headCommit {limit : Nat}
    (h : headCommit w.files w.repository s = .ok (some (id, c)))
    (hlimit : limit ≤ Site.subjectRoom) : told s w limit =
      Action.returned ((((Walk.start id c).commits (w.repository.commit? s.directory) limit).map
        (List.map fun c => subjectOf c.shownMessage)).mapError Fault.toError) := by
  rw [told, h]
  exact if_neg (Nat.not_lt.2 hlimit)

/-- A message without `NUL` is read back whole, but for the line feeds in front. -/
theorem subjectOf_shownMessage (hmessage : c.message = Text.bytes message)
    (hnul : hasNul message = false) :
    subjectOf c.shownMessage = subjectOf (Text.bytes message) := by
  have hwhole : (Text.bytes message).takeWhile (· != 0) = Text.bytes message := by
    rw [List.takeWhile_eq_self_iff]
    intro b hb
    rw [bne_iff_ne]
    rintro rfl
    rw [Text.bytes_eq_encode, Text.mem_encode_iff (by decide)] at hb
    rw [hasNul, List.contains_eq_mem, decide_eq_false_iff_not] at hnul
    exact hnul hb
  have htwice : Summary.ofBytes ((Text.bytes message).dropWhile (· == 10)) =
      Summary.ofBytes (Text.bytes message) :=
    congrArg (Summary.fold []) (List.dropWhile_idempotent _ _)
  rw [Commit.shownMessage, hmessage, hwhole, subjectOf, htwice, subjectOf]

/-- After a commit a repository tells one more subject. -/
theorem told_succ (hordered : w.repository.history.Ordered) (hroom : s.HasRoom w)
    (h : (Repository.stored s).commit message author w = (.ok name, w')) {limit : Nat}
    (hlimit : limit < Site.subjectRoom) :
    told s w' (limit + 1) = (told s w limit).map (subjectOf (Text.bytes message) :: ·) := by
  obtain ⟨hnul, id, c, found, hmessage, hparents, hfound, hadd, hhead⟩ :=
    headCommit_of_commit hroom h
  rw [told_of_headCommit hhead hlimit, ← subjectOf_shownMessage hmessage hnul]
  cases found with
  | none =>
    rw [told_of_unborn hfound, Walk.commits_start_of_nil hparents]
    rfl
  | some earlier =>
    have hwalk := Walk.commits_addCommit limit hordered hparents (commit?_of_headCommit hfound)
    rw [hadd] at hwalk
    rw [told_of_headCommit hfound (Nat.le_of_lt hlimit), hwalk]
    cases (Walk.start earlier.1 earlier.2).commits (w.repository.commit? s.directory) limit <;> rfl

/-- **The newest subject on disk** is the summary of the message. -/
theorem tells_of_commit (hordered : w.repository.history.Ordered) (hroom : s.HasRoom w)
    (h : (Repository.stored s).commit message author w = (.ok name, w')) :
    (Repository.stored s).Tells w w' (subjectOf (Text.bytes message)) := by
  obtain ⟨-, id, c, found, -, -, hfound, -, hhead⟩ := headCommit_of_commit hroom h
  have hnothing : told s w 0 = .ok [] := by
    cases found with
    | none => exact told_of_unborn hfound 0
    | some earlier => exact told_of_headCommit hfound (Nat.zero_le _)
  have hone : s.recentSubjects 1 w' = (.ok [subjectOf (Text.bytes message)], w') := by
    rw [recentSubjects_apply, told_succ hordered hroom h (by decide), hnothing]
    rfl
  refine ⟨Action.bind_eq_ok_iff.2 ⟨_, w', hone, rfl⟩, ?_, fun limit hlimit => ?_⟩
  · show s.recentSubjects 0 w' = _
    rw [recentSubjects_apply, told_of_headCommit hhead (Nat.zero_le _)]
    rfl
  · show s.recentSubjects (limit + 1) w' = ((s.recentSubjects limit w).1.map _, w')
    rw [recentSubjects_apply, recentSubjects_apply, told_succ hordered hroom h hlimit]

/-- A commit keeps the history ordered. -/
theorem ordered_of_commit (hordered : w.repository.history.Ordered) (hroom : s.HasRoom w)
    (h : (Repository.stored s).commit message author w = (.ok name, w')) :
    w'.repository.history.Ordered := by
  obtain ⟨-, id, c, found, -, hparents, hfound, hadd, -⟩ := headCommit_of_commit hroom h
  have hhistory : w'.repository.history = (w.repository.history.add c).2 :=
    congrArg (fun added => added.2.history) hadd.symm
  rw [hhistory]
  refine hordered.add fun p hp => ?_
  rw [hparents] at hp
  obtain ⟨earlier, rfl, rfl⟩ := Option.map_eq_some_iff.1 (Option.mem_toList.1 hp)
  exact Machine.lt_of_commit? (commit?_of_headCommit hfound)

/-- Commits in a row, with their messages, the newest one first. -/
inductive Commits (s : Site) (w : World Machine) : List String → World Machine → Prop where
  | nil : Commits s w [] w
  | cons {messages : List String} {message name : String} {author : Option Author}
      {v w' : World Machine} : Commits s w messages v → s.HasRoom v →
      (Repository.stored s).commit message author v = (.ok name, w') →
      Commits s w (message :: messages) w'

/-- **After commits in a row** the repository tells their subjects, in front of those that it told
before. -/
theorem told_of_commits {messages : List String} (hordered : w.repository.history.Ordered)
    (h : Commits s w messages w') (limit : Nat)
    (hlimit : messages.length + limit ≤ Site.subjectRoom) :
    w'.repository.history.Ordered ∧ told s w' (messages.length + limit) =
      (told s w limit).map (messages.map (fun message => subjectOf (Text.bytes message)) ++ ·) := by
  -- a commit keeps the history ordered, which is what the next one needs
  induction h with
  | nil =>
    refine ⟨hordered, ?_⟩
    rw [List.length_nil, Nat.zero_add]
    cases told s w limit <;> rfl
  | cons _ hroom hcommit ih =>
    rw [List.length_cons, Nat.succ_add] at hlimit ⊢
    obtain ⟨hordered', htold⟩ := ih (Nat.le_of_lt hlimit)
    refine ⟨ordered_of_commit hordered' hroom hcommit, ?_⟩
    rw [told_succ hordered' hroom hcommit hlimit, htold]
    cases told s w limit <;> rfl

/-! ### On disk and in memory -/

/-- No guard and no changelog tells two subjects of the newest commit apart. -/
structure SeenAlike (a b : Subject) : Prop where
  guard : ∀ marker, LoopGuard.check (some a) marker = LoopGuard.check (some b) marker
  changelog : ∀ earlier marker minimum,
    Changelog.ofSubjects (a :: earlier) marker minimum =
      Changelog.ofSubjects (b :: earlier) marker minimum

/-- Every difference between two subjects shows: each of them has the empty marker in it, so that
the guard names it. -/
theorem seenAlike_iff : SeenAlike a b ↔ a = b := by
  constructor
  · intro h
    have hmarker (s : Subject) : s.isAutomated "" = true :=
      Text.contains_iff.2 ⟨[], s.text.toList, by simp⟩
    have hguard := h.guard ""
    simp only [LoopGuard.check, hmarker, if_true] at hguard
    cases a
    cases b
    cases hguard
    rfl
  · rintro rfl
    exact ⟨fun _ => rfl, fun _ _ _ => rfl⟩

/-- **The newest subject, on disk and in memory:** after the same commit, the one tells the summary
of the message and the other one the folded message, each in front of what it told before.  They are
the same, and seen alike by every guard and in every changelog, exactly if all lines of the message
fold alike. -/
theorem newest_subjects (hordered : w.repository.history.Ordered) (hroom : s.HasRoom w)
    (h : (Repository.stored s).commit message author w = (.ok name, w')) (v : World InMemory) :
    (Repository.stored s).Tells w w' (subjectOf (Text.bytes message)) ∧
      Repository.inMemory.Tells v (Repository.inMemory.commit message author v).2
        (ofMessage message) ∧
      (subjectOf (Text.bytes message) = ofMessage message ↔ FoldsAlike message.toList) ∧
      (SeenAlike (subjectOf (Text.bytes message)) (ofMessage message) ↔
        FoldsAlike message.toList) :=
  ⟨tells_of_commit hordered hroom h, ⟨rfl, rfl, fun _ _ => rfl⟩, subjectOf_eq_ofMessage_iff,
    seenAlike_iff.trans subjectOf_eq_ofMessage_iff⟩

namespace Sample

/-- A repository in `/lib`. -/
def site : Site := ⟨["lib", ".git"], some ["lib"]⟩

/-- There is no commit yet, and no directory for references. -/
def world : World Machine where
  files := ⟨[(["lib"], .directory), (["lib", ".git"], .directory),
    (["lib", ".git", "HEAD"], .file "ref: refs/heads/main\n".toUTF8)], []⟩
  repository := {}
  log := []

/-- A repository in memory without commits. -/
def memory : World InMemory := ⟨.empty, { workDirectory := ⟨"/lib"⟩ }, []⟩

/-- In whose name the commits are made. -/
def bot : Author := ⟨"Bot", "bot@example.org"⟩

/-- The first paragraph has two lines, with a tab in front of the second one. -/
def indented : String := "\nFix the checksum \n\tof LIN\r\n\nDetails"

/-- A marker stands behind a line with a no-break space. -/
def split : String := "Nightly release\n\u00a0\n-- managed-build bump"

theorem hasRoom_world : site.HasRoom world := by
  have hhead : Head.read world.files site.directory = .ok (.unborn "refs/heads/main") :=
    toOption_eq_some_iff.1 (by decide +kernel)
  refine ⟨by decide +kernel, fun head h => ?_⟩
  cases hhead.symm.trans h
  decide +kernel

end Sample

/-- The lines of the sample fold alike, so both tell the same subject. -/
theorem newest_subjects_sample :
    Sample.world.repository.history.Ordered ∧ Sample.site.HasRoom Sample.world ∧
    ∃ name w', (Repository.stored Sample.site).commit Sample.indented (some Sample.bot)
        Sample.world = (.ok name, w') ∧
      (Repository.stored Sample.site).Tells Sample.world w' ⟨"Fix the checksum of LIN"⟩ ∧
      Repository.inMemory.Tells Sample.memory
        (Repository.inMemory.commit Sample.indented (some Sample.bot) Sample.memory).2
        ⟨"Fix the checksum of LIN"⟩ ∧
      FoldsAlike Sample.indented.toList := by
  have hresult : ((Repository.stored Sample.site).commit Sample.indented (some Sample.bot)
      Sample.world).1 = .ok (CommitId.text 0) := toOption_eq_some_iff.1 (by decide +kernel)
  have hcommit : (Repository.stored Sample.site).commit Sample.indented (some Sample.bot)
      Sample.world = (.ok (CommitId.text 0), _) := Prod.ext hresult rfl
  have hdisk : subjectOf (Text.bytes Sample.indented) = ⟨"Fix the checksum of LIN"⟩ := by
    decide +kernel
  have hmemory : ofMessage Sample.indented = ⟨"Fix the checksum of LIN"⟩ := by decide +kernel
  have hordered : Sample.world.repository.history.Ordered := nofun
  obtain ⟨htold, hkept, halike, -⟩ :=
    newest_subjects hordered Sample.hasRoom_world hcommit Sample.memory
  rw [hdisk] at htold
  rw [hmemory] at hkept
  have hfolds := halike.1 (hdisk.trans hmemory.symm)
  exact ⟨hordered, Sample.hasRoom_world, _, _, hcommit, htold, hkept, hfolds⟩

/-- **A marker can be seen on disk only:** a line with a no-break space does not end the paragraph
of the stored message, so the marker behind it stands in the subject, and the guard skips the run;
in memory the paragraph has ended, and the guard lets the run go on. -/
theorem marker_seen_on_disk_only :
    let onDisk := ((Repository.stored Sample.site).commit Sample.split (some Sample.bot)
      Sample.world).2
    let inMemory := (Repository.inMemory.commit Sample.split (some Sample.bot) Sample.memory).2
    ((Repository.stored Sample.site).headSubject onDisk).1 =
        .ok (some ⟨"Nightly release \u00a0 -- managed-build bump"⟩) ∧
      (Repository.inMemory.headSubject inMemory).1 = .ok (some ⟨"Nightly release"⟩) ∧
      LoopGuard.check (some ⟨"Nightly release \u00a0 -- managed-build bump"⟩) "-- managed-build" =
        .ok (.skip "Nightly release \u00a0 -- managed-build bump") ∧
      LoopGuard.check (some ⟨"Nightly release"⟩) "-- managed-build" = .ok .proceed := by
  refine ⟨toOption_eq_some_iff.1 ?_, toOption_eq_some_iff.1 ?_, toOption_eq_some_iff.1 ?_,
    toOption_eq_some_iff.1 ?_⟩ <;> decide +kernel

end Subject
end NightlyRelease
