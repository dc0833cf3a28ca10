/-
# What the sections of a configuration give

Each part of a configuration that has a default has it twice: where its section is
read, for a section that does not give it, and in the default configuration, for a
document without the section.  The two agree (`ungiven_eq`), so a section that
is missing is read like an empty one (`givenOr_record_iff`), and what a document gives
can be said part by part, with no word about which sections it has (`Merges`).

An author is different: it has no default, and a section that gives only one half of
it is refused.
-/

import NightlyRelease.Config.Document
import NightlyRelease.Proofs.Toml.Fields

namespace NightlyRelease
namespace Config

open Toml (GivenOr IsText IsCount Table)
open Toml.Field (Settles setEntries setEntries_eq_ok_iff givenOr_of_setEntries accepts_of_givenOr)

variable {σ : Type} {t inner : Table} {heading expected : String} {c : Config}
variable {v : Toml.Node} {s : String}

/-! ### Sections -/

/-- The names of the sections. -/
def headings : List String := sections.map (·.key)

/-- The keys that are known in a section. -/
def knownKeys : String → List String
  | "paths" => pathsFields.map (·.key)
  | "version" => versionFields.map (·.key)
  | "commits" => commitsFields.map (·.key)
  | "remote" => remoteFields.map (·.key)
  | "author" => authorFields.map (·.key)
  | _ => []

/-- Every section that is there is a table. -/
def SectionsAreTables (t : Table) : Prop :=
  ∀ heading ∈ headings, ∀ v ∈ t.find? heading, (Table.ofNode? v).isSome

instance : Decidable (SectionsAreTables t) := by
  unfold SectionsAreTables
  infer_instance

/-- A section; one that is missing counts as an empty one. -/
def sectionOf (t : Table) (heading : String) : Table :=
  ((t.find? heading).bind Table.ofNode?).getD (.empty .implied none)

/-- The value of a key in a section, if it is given. -/
def valueAt (t : Table) (heading key : String) : Option Toml.Node := (sectionOf t heading).find? key

/-- A document whose sections are tables, and neither in it nor in a section is a key given
twice. -/
structure IsSectioned (t : Table) : Prop where
  names : (t.entries.map (·.1.name)).Nodup
  tables : ∀ heading ∈ headings, ∀ v, t.find? heading = some v →
    ∃ inner : Table, v = inner.node ∧ (inner.entries.map (·.1.name)).Nodup

theorem isSectioned_of_wellKeyed (h : t.WellKeyed) (htables : SectionsAreTables t) :
    IsSectioned t where
  names := (Table.wellKeyed_iff.1 h).1
  tables heading hheading v hv := by
    obtain ⟨inner, hinner⟩ := Option.isSome_iff_exists.1 (htables heading hheading v hv)
    obtain rfl := Table.eq_node_of_ofNode? hinner
    exact ⟨inner, rfl, (Table.wellKeyed_iff.1 (h.of_find? hv)).1⟩

theorem sectionOf_of_find?_eq_none (h : t.find? heading = none) :
    sectionOf t heading = .empty .implied none := by rw [sectionOf, h]; rfl

theorem sectionOf_of_find? (h : t.find? heading = some inner.node) :
    sectionOf t heading = inner := by rw [sectionOf, h]; rfl

theorem IsSectioned.nodup_sectionOf (h : IsSectioned t) (hheading : heading ∈ headings) :
    ((sectionOf t heading).entries.map (·.1.name)).Nodup := by
  cases hfind : t.find? heading with
  | none => rw [sectionOf_of_find?_eq_none hfind]; exact .nil
  | some v =>
    obtain ⟨inner, rfl, hnodup⟩ := h.tables heading hheading v hfind
    rwa [sectionOf_of_find? hfind]

/-- **The two ways to the defaults agree:** a section of which nothing is given is the default of
the section, and a document of which nothing is given is the default configuration. -/
theorem ungiven_paths_eq : ({} : Paths) = default.paths := rfl

theorem ungiven_commits_eq : ({} : Commits) = default.commits := rfl

theorem ungiven_eq : ({} : Config) = default := rfl

/-- **A section that is missing is read like an empty one,** if what nothing is given of is the
default of the section. -/
theorem givenOr_record_iff {fields : List (Toml.Field σ)} {start otherwise s : σ}
    (hstart : start = otherwise) (h : IsSectioned t) (hheading : heading ∈ headings) :
    GivenOr (Toml.record expected fields start · = .ok ·) otherwise (t.find? heading) s ↔
      setEntries fields start (sectionOf t heading).entries = .ok s := by
  subst hstart
  cases hfind : t.find? heading with
  | none =>
    rw [sectionOf_of_find?_eq_none hfind]
    exact ⟨fun hs => congrArg _ (Eq.symm hs), fun hs => Eq.symm (Except.ok.inj hs)⟩
  | some v =>
    obtain ⟨inner, rfl, -⟩ := h.tables heading hheading v hfind
    rw [sectionOf_of_find? hfind]
    exact Toml.record_node_eq_ok_iff

/-! ### What a section gives -/

/-- A value is the text of a path. -/
def IsPath (v : Toml.Node) (p : Path) : Prop := IsText v p.text

theorem IsPath.unique (v : Toml.Node) (p p' : Path) (h : IsPath v p) (h' : IsPath v p') :
    p = p' := congrArg Path.mk (IsText.unique v _ _ h h')

theorem pathText_eq_ok_iff {p : Path} : pathText v = .ok p ↔ IsPath v p := by
  rw [pathText, IsPath, ← Toml.textNamed_eq_ok_iff]
  cases Toml.textNamed "path string" v with
  | ok s =>
    exact ⟨fun h => congrArg _ (congrArg Path.text (Except.ok.inj h)),
      fun h => congrArg (Except.ok ∘ Path.mk) (Except.ok.inj h)⟩
  | error e => exact ⟨nofun, nofun⟩

/-- The paths of a section, each given or the one of the defaults. -/
structure GivesPaths (t : Table) (p : Paths) : Prop where
  versionFile : GivenOr IsPath default.paths.versionFile (t.find? "version_file") p.versionFile
  changelog : GivenOr IsPath default.paths.changelog (t.find? "changelog") p.changelog
  versionOutput :
    GivenOr IsPath default.paths.versionOutput (t.find? "version_output") p.versionOutput

/-- What is said about commits in a section, each part given or the one of the defaults. -/
structure GivesCommits (t : Table) (c : Commits) : Prop where
  marker : GivenOr IsText default.commits.marker (t.find? "marker") c.marker
  lead : GivenOr IsText default.commits.lead (t.find? "commit_prefix") c.lead
  window : GivenOr IsCount default.commits.window (t.find? "changelog_window") c.window
  minimum : GivenOr IsCount default.commits.minimum (t.find? "min_subject_len") c.minimum

/-- The author of a section, of whom everything is given. -/
structure GivesAuthor (t : Table) (a : Author) : Prop where
  name : ∃ v, t.find? "name" = some v ∧ IsText v a.name
  email : ∃ v, t.find? "email" = some v ∧ IsText v a.email

theorem GivesPaths.unique (p p' : Paths) (h : GivesPaths t p) (h' : GivesPaths t p') : p = p' := by
  cases p
  cases p'
  rw [Paths.mk.injEq]
  exact ⟨h.versionFile.unique IsPath.unique h'.versionFile,
    h.changelog.unique IsPath.unique h'.changelog,
    h.versionOutput.unique IsPath.unique h'.versionOutput⟩

theorem GivesCommits.unique (c c' : Commits) (h : GivesCommits t c) (h' : GivesCommits t c') :
    c = c' := by
  cases c
  cases c'
  rw [Commits.mk.injEq]
  exact ⟨h.marker.unique IsText.unique h'.marker, h.lead.unique IsText.unique h'.lead,
    h.window.unique IsCount.unique h'.window, h.minimum.unique IsCount.unique h'.minimum⟩

theorem GivesAuthor.unique (a a' : Author) (h : GivesAuthor t a) (h' : GivesAuthor t a') :
    a = a' := by
  obtain ⟨v, hv, hname⟩ := h.name
  obtain ⟨v', hv', hname'⟩ := h'.name
  obtain ⟨w, hw, hemail⟩ := h.email
  obtain ⟨w', hw', hemail'⟩ := h'.email
  obtain rfl := Option.some.inj (hv.symm.trans hv')
  obtain rfl := Option.some.inj (hw.symm.trans hw')
  cases a
  cases a'
  rw [Author.mk.injEq]
  exact ⟨IsText.unique v _ _ hname hname', IsText.unique w _ _ hemail hemail'⟩

/-- What a section says about an author, be it everything or not. -/
structure GivesDraft (t : Table) (d : AuthorDraft) : Prop where
  name : GivenOr (Toml.Optionally IsText) none (t.find? "name") d.name
  email : GivenOr (Toml.Optionally IsText) none (t.find? "email") d.email

theorem GivesDraft.unique (d d' : AuthorDraft) (h : GivesDraft t d) (h' : GivesDraft t d') :
    d = d' := by
  have hunique := Toml.Optionally.unique IsText.unique
  cases d
  cases d'
  rw [AuthorDraft.mk.injEq]
  exact ⟨h.name.unique hunique h'.name, h.email.unique hunique h'.email⟩

section Fields

variable (hnodup : (t.entries.map (·.1.name)).Nodup)
include hnodup

theorem setEntries_pathsFields {p : Paths} :
    setEntries pathsFields {} t.entries = .ok p ↔ GivesPaths t p := by
  have hown : ∀ (v : Toml.Node) (p : Path) (s : Paths), pathText v = .ok p → IsPath v p :=
    fun _ _ _ => pathText_eq_ok_iff.1
  have hdecode : ∀ (p : Path) (v : Toml.Node), IsPath v p → ∃ q, pathText v = .ok q :=
    fun p _ h => ⟨p, pathText_eq_ok_iff.2 h⟩
  have hversionFile : Settles "version_file" IsPath Paths.versionFile pathsFields :=
    .own hown (.other (.other .nil))
  have hchangelog : Settles "changelog" IsPath Paths.changelog pathsFields :=
    .other (.own hown (.other .nil))
  have hversionOutput : Settles "version_output" IsPath Paths.versionOutput pathsFields :=
    .other (.other (.own hown .nil))
  refine setEntries_eq_ok_iff hnodup (fun p h => ?_) GivesPaths.unique fun h => ?_
  · exact ⟨givenOr_of_setEntries hversionFile (by decide) hnodup h,
      givenOr_of_setEntries hchangelog (by decide) hnodup h,
      givenOr_of_setEntries hversionOutput (by decide) hnodup h⟩
  · simp only [pathsFields, List.forall_mem_cons]
    exact ⟨accepts_of_givenOr h.versionFile (hdecode _),
      accepts_of_givenOr h.changelog (hdecode _),
      accepts_of_givenOr h.versionOutput (hdecode _), nofun⟩

/-- A section with one text in it. -/
theorem setEntries_textField {key start : String} :
    setEntries [.of key Toml.text fun s _ => s] start t.entries = .ok s ↔
      GivenOr IsText start (t.find? key) s := by
  have hkey : Settles key IsText id [.of key Toml.text fun s _ => s] :=
    .own (fun _ _ _ => Toml.textNamed_eq_ok_iff.1) .nil
  refine setEntries_eq_ok_iff hnodup (fun s h => ?_)
    (fun s s' h h' => h.unique IsText.unique h') fun h => ?_
  · exact givenOr_of_setEntries hkey List.mem_cons_self hnodup h
  · simp only [List.forall_mem_cons]
    exact ⟨accepts_of_givenOr h fun _ hs => ⟨_, Toml.textNamed_eq_ok_iff.2 hs⟩, nofun⟩

theorem setEntries_commitsFields {c : Commits} :
    setEntries commitsFields {} t.entries = .ok c ↔ GivesCommits t c := by
  have htext : ∀ (v : Toml.Node) (s : String) (c : Commits), Toml.text v = .ok s → IsText v s :=
    fun _ _ _ => Toml.textNamed_eq_ok_iff.1
  have hcount : ∀ (v : Toml.Node) (n : Nat) (c : Commits), Toml.count v = .ok n → IsCount v n :=
    fun _ _ _ => Toml.count_eq_ok_iff.1
  have hmarker : Settles "marker" IsText Commits.marker commitsFields :=
    .own htext (.other (.other (.other .nil)))
  have hlead : Settles "commit_prefix" IsText Commits.lead commitsFields :=
    .other (.own htext (.other (.other .nil)))
  have hwindow : Settles "changelog_window" IsCount Commits.window commitsFields :=
    .other (.other (.own hcount (.other .nil)))
  have hminimum : Settles "min_subject_len" IsCount Commits.minimum commitsFields :=
    .other (.other (.other (.own hcount .nil)))
  refine setEntries_eq_ok_iff hnodup (fun c h => ?_) GivesCommits.unique fun h => ?_
  · exact ⟨givenOr_of_setEntries hmarker (by decide) hnodup h,
      givenOr_of_setEntries hlead (by decide) hnodup h,
      givenOr_of_setEntries hwindow (by decide) hnodup h,
      givenOr_of_setEntries hminimum (by decide) hnodup h⟩
  · simp only [commitsFields, List.forall_mem_cons]
    exact ⟨accepts_of_givenOr h.marker fun _ hs => ⟨_, Toml.textNamed_eq_ok_iff.2 hs⟩,
      accepts_of_givenOr h.lead fun _ hs => ⟨_, Toml.textNamed_eq_ok_iff.2 hs⟩,
      accepts_of_givenOr h.window fun _ hn => ⟨_, Toml.count_eq_ok_iff.2 hn⟩,
      accepts_of_givenOr h.minimum fun _ hn => ⟨_, Toml.count_eq_ok_iff.2 hn⟩, nofun⟩

theorem setEntries_authorFields {d : AuthorDraft} :
    setEntries authorFields {} t.entries = .ok d ↔ GivesDraft t d := by
  have hown : ∀ (v : Toml.Node) (s : String) (d : AuthorDraft), Toml.text v = .ok s →
      Toml.Optionally IsText v (some s) :=
    fun _ s _ h => ⟨s, rfl, Toml.textNamed_eq_ok_iff.1 h⟩
  have hname : Settles "name" (Toml.Optionally IsText) AuthorDraft.name authorFields :=
    .own hown (.other .nil)
  have hemail : Settles "email" (Toml.Optionally IsText) AuthorDraft.email authorFields :=
    .other (.own hown .nil)
  refine setEntries_eq_ok_iff hnodup (fun d h => ?_) GivesDraft.unique fun h => ?_
  · exact ⟨givenOr_of_setEntries hname (by decide) hnodup h,
      givenOr_of_setEntries hemail (by decide) hnodup h⟩
  · have hdecode : ∀ (s? : Option String) (v : Toml.Node), Toml.Optionally IsText v s? →
        ∃ s, Toml.text v = .ok s := by
      rintro - v ⟨s, -, hs⟩
      exact ⟨s, Toml.textNamed_eq_ok_iff.2 hs⟩
    simp only [authorFields, List.forall_mem_cons]
    exact ⟨accepts_of_givenOr h.name (hdecode _),
      accepts_of_givenOr h.email (hdecode _), nofun⟩

/-- An author is read from a section exactly when it gives both parts. -/
theorem authorSection_node {a : Author} :
    authorSection t.node = .ok a ↔ GivesAuthor t a := by
  rw [authorSection, bind_eq_ok_iff]
  constructor
  · rintro ⟨d, hd, h⟩
    obtain ⟨hname, hemail⟩ := (setEntries_authorFields hnodup).1 (Toml.record_node_eq_ok_iff.1 hd)
    split at h
    · next name email hname' hemail' =>
      obtain rfl := pure_eq_ok_iff.1 h
      rw [hname', Toml.givenOr_optionally_some_iff] at hname
      rw [hemail', Toml.givenOr_optionally_some_iff] at hemail
      exact ⟨hname, hemail⟩
    · cases h
  · intro h
    refine ⟨⟨some a.name, some a.email⟩, Toml.record_node_eq_ok_iff.2 ?_, rfl⟩
    exact (setEntries_authorFields hnodup).2 ⟨Toml.givenOr_optionally_some_iff.2 h.name,
      Toml.givenOr_optionally_some_iff.2 h.email⟩

end Fields

/-! ### What a document gives -/

/-- A configuration takes every part from the document that the document gives, and all others from
the defaults. There is an author exactly if there is a section for one, which then gives both
parts. -/
structure Merges (t : Table) (c : Config) : Prop where
  paths : GivesPaths (sectionOf t "paths") c.paths
  keyPrefix : GivenOr IsText default.keyPrefix (valueAt t "version" "prefix") c.keyPrefix
  commits : GivesCommits (sectionOf t "commits") c.commits
  remote : GivenOr IsText default.remote (valueAt t "remote" "name") c.remote
  author_eq_none_iff : c.author = none ↔ t.find? "author" = none
  author_given : ∀ a, c.author = some a → GivesAuthor (sectionOf t "author") a

theorem Merges.unique (c c' : Config) (h : Merges t c) (h' : Merges t c') : c = c' := by
  have hauthor : c.author = c'.author := by
    cases ha : c.author with
    | none => exact (h'.author_eq_none_iff.2 (h.author_eq_none_iff.1 ha)).symm
    | some a =>
      cases ha' : c'.author with
      | none =>
        rw [h.author_eq_none_iff.2 (h'.author_eq_none_iff.1 ha')] at ha
        cases ha
      | some a' => rw [GivesAuthor.unique a a' (h.author_given a ha) (h'.author_given a' ha')]
  have hkeyPrefix := h.keyPrefix.unique IsText.unique h'.keyPrefix
  have hremote := h.remote.unique IsText.unique h'.remote
  cases c
  cases c'
  rw [mk.injEq]
  exact ⟨h.paths.unique _ _ h'.paths, hkeyPrefix, h.commits.unique _ _ h'.commits, hremote, hauthor⟩

section Sections

variable (h : IsSectioned t)
include h

theorem givenOr_paths_iff {p : Paths} :
    GivenOr (Toml.record "struct PathsConfig" pathsFields {} · = .ok ·) default.paths
      (t.find? "paths") p ↔ GivesPaths (sectionOf t "paths") p :=
  (givenOr_record_iff ungiven_paths_eq h (by decide)).trans
    (setEntries_pathsFields (h.nodup_sectionOf (by decide)))

theorem givenOr_version_iff :
    GivenOr (Toml.record "struct VersionConfig" versionFields defaultKeyPrefix · = .ok ·)
      default.keyPrefix (t.find? "version") s ↔
      GivenOr IsText default.keyPrefix (valueAt t "version" "prefix") s :=
  (givenOr_record_iff rfl h (by decide)).trans
    (setEntries_textField (h.nodup_sectionOf (by decide)))

theorem givenOr_commits_iff {m : Commits} :
    GivenOr (Toml.record "struct CommitsConfig" commitsFields {} · = .ok ·) default.commits
      (t.find? "commits") m ↔ GivesCommits (sectionOf t "commits") m :=
  (givenOr_record_iff ungiven_commits_eq h (by decide)).trans
    (setEntries_commitsFields (h.nodup_sectionOf (by decide)))

theorem givenOr_remote_iff :
    GivenOr (Toml.record "struct RemoteConfig" remoteFields defaultRemote · = .ok ·)
      default.remote (t.find? "remote") s ↔
      GivenOr IsText default.remote (valueAt t "remote" "name") s :=
  (givenOr_record_iff rfl h (by decide)).trans
    (setEntries_textField (h.nodup_sectionOf (by decide)))

theorem givenOr_author_iff {a? : Option Author} :
    GivenOr (Toml.Optionally (authorSection · = .ok ·)) none (t.find? "author") a? ↔
      (a? = none ↔ t.find? "author" = none) ∧
        ∀ a, a? = some a → GivesAuthor (sectionOf t "author") a := by
  cases a? with
  | none => simp [Toml.givenOr_optionally_none_iff]
  | some a =>
    rw [Toml.givenOr_optionally_some_iff]
    constructor
    · rintro ⟨v, hv, ha⟩
      obtain ⟨inner, rfl, hnodup⟩ := h.tables "author" (by decide) v hv
      rw [sectionOf_of_find? hv, hv]
      refine ⟨⟨nofun, nofun⟩, fun a' ha' => ?_⟩
      obtain rfl := Option.some.inj ha'
      exact (authorSection_node hnodup).1 ha
    · rintro ⟨hnone, hgiven⟩
      cases hv : t.find? "author" with
      | none => cases hnone.2 hv
      | some v =>
        obtain ⟨inner, rfl, hnodup⟩ := h.tables "author" (by decide) v hv
        have ha := hgiven a rfl
        rw [sectionOf_of_find? hv] at ha
        exact ⟨_, rfl, (authorSection_node hnodup).2 ha⟩

/-- **A document gives the configuration that merges it with the defaults,** and no other. -/
theorem ofTable_eq_ok_iff : ofTable t = .ok c ↔ Merges t c := by
  have hpaths : Settles "paths"
      (Toml.record "struct PathsConfig" pathsFields {} · = .ok ·) Config.paths sections :=
    .own (fun _ _ _ h => h) (.other (.other (.other (.other .nil))))
  have hversion : Settles "version"
      (Toml.record "struct VersionConfig" versionFields defaultKeyPrefix · = .ok ·)
      Config.keyPrefix sections :=
    .other (.own (fun _ _ _ h => h) (.other (.other (.other .nil))))
  have hcommits : Settles "commits"
      (Toml.record "struct CommitsConfig" commitsFields {} · = .ok ·) Config.commits sections :=
    .other (.other (.own (fun _ _ _ h => h) (.other (.other .nil))))
  have hremote : Settles "remote"
      (Toml.record "struct RemoteConfig" remoteFields defaultRemote · = .ok ·)
      Config.remote sections :=
    .other (.other (.other (.own (fun _ _ _ h => h) (.other .nil))))
  have hauthor : Settles "author"
      (Toml.Optionally (authorSection · = .ok ·)) Config.author sections :=
    .other (.other (.other (.other (.own (fun _ a _ h => ⟨a, rfl, h⟩) .nil))))
  rw [ofTable, ungiven_eq]
  refine setEntries_eq_ok_iff h.names (fun c hc => ?_) Merges.unique fun hc => ?_
  · obtain ⟨hnone, hgiven⟩ := (givenOr_author_iff h).1
      (givenOr_of_setEntries hauthor (by decide) h.names hc)
    exact {
      paths := (givenOr_paths_iff h).1
        (givenOr_of_setEntries hpaths (by decide) h.names hc)
      keyPrefix := (givenOr_version_iff h).1
        (givenOr_of_setEntries hversion (by decide) h.names hc)
      commits := (givenOr_commits_iff h).1
        (givenOr_of_setEntries hcommits (by decide) h.names hc)
      remote := (givenOr_remote_iff h).1
        (givenOr_of_setEntries hremote (by decide) h.names hc)
      author_eq_none_iff := hnone
      author_given := hgiven }
  · have hread {σ : Type} {decode : Toml.Decoder σ} (s : σ) (v : Toml.Node)
        (hs : decode v = .ok s) : ∃ s, decode v = .ok s := ⟨s, hs⟩
    simp only [sections, List.forall_mem_cons]
    refine ⟨accepts_of_givenOr ((givenOr_paths_iff h).2 hc.paths) (hread _),
      accepts_of_givenOr ((givenOr_version_iff h).2 hc.keyPrefix) (hread _),
      accepts_of_givenOr ((givenOr_commits_iff h).2 hc.commits) (hread _),
      accepts_of_givenOr ((givenOr_remote_iff h).2 hc.remote) (hread _),
      accepts_of_givenOr
        ((givenOr_author_iff h).2 ⟨hc.author_eq_none_iff, hc.author_given⟩) ?_, nofun⟩
    rintro v ⟨a, -, ha⟩
    exact ⟨a, ha⟩

end Sections

end Config
end NightlyRelease
