/-
# What the commit of a bump holds

Publishing stages the version file and commits.  A commit holds all that is staged,
and so the commit of a bump holds the version file as it is in the work directory,
and all else as it is in the index (`BumpCommit`).  It leaves the other files of the
commit before it alone exactly if nothing else was staged before
(`bumpCommit_of_commitBump`).

The status tells of what was staged before, and the warning about it says that it
will not be committed.  It is committed (`staged_file_committed`).
-/

import NightlyRelease.Proofs.Git.Operations
import NightlyRelease.Publish

namespace NightlyRelease

open Git

namespace Publish

section

variable {σ : Type} (repo : Repository σ) (request : Request)

/-- The first part of publishing: the warnings about the status, and the commit. -/
def commitBump : Action σ (List Warning × String) := do
  let dirty ← inspect repo (request.versionFile :: request.artifacts)
  repo.stage request.versionFile
  let commit ← repo.commit request.message request.author
  return (dirty, commit)

/-- The second part of publishing: the push of the commit. -/
def deliver (dirty : List Warning) (commit : String) : Action σ Report := do
  Action.log .info ("Committed " ++ shortId commit ++ ": " ++ request.message)
  let url ← repo.remoteUrl request.remote
  Action.log .info ("Pushing '" ++ request.branch ++ "' to " ++ Url.redact url)
  let unsent ← push repo request url
  let unrecorded ← recordTracking repo request.remote request.branch
  return { commit, warnings := dirty ++ unsent ++ unrecorded }

/-- Publishing has these two parts. -/
theorem publish_eq_deliver :
    publish repo request = (do
      let (dirty, commit) ← commitBump repo request
      deliver repo request dirty commit) := by
  simp only [publish, commitBump, deliver, bind_assoc, pure_bind]

end

section

variable {σ : Type} {repo : Repository σ} {request : Request}

/-- The report names the commit, and its warnings start with those about the status. -/
theorem deliver_eq_ok {w w' : World σ} {dirty : List Warning} {commit : String} {report : Report}
    (h : deliver repo request dirty commit w = (.ok report, w')) :
    report.commit = commit ∧ dirty <+: report.warnings := by
  unfold deliver at h
  obtain ⟨_, _, _, h⟩ := Action.bind_eq_ok_iff.1 h
  obtain ⟨url, _, _, h⟩ := Action.bind_eq_ok_iff.1 h
  obtain ⟨_, _, _, h⟩ := Action.bind_eq_ok_iff.1 h
  obtain ⟨unsent, _, _, h⟩ := Action.bind_eq_ok_iff.1 h
  obtain ⟨unrecorded, _, _, h⟩ := Action.bind_eq_ok_iff.1 h
  cases h
  exact ⟨rfl, List.append_assoc dirty _ _ ▸ List.prefix_append _ _⟩

/-- Looking at the status changes what looking at it changes, and adds log lines. -/
theorem inspect_eq_ok {written : List Path} {w w' : World σ} {dirty : List Warning}
    (h : inspect repo written w = (.ok dirty, w')) :
    ∃ entries v, repo.status w = (.ok entries, v) ∧
      w' = v.logged (entries.map fun e =>
        ⟨.debug, "status: " ++ alignCode e.code ++ " " ++ e.path⟩) ∧
      dirty = if foreignPaths written entries = [] then []
        else [.dirtyWorkingTree (foreignPaths written entries)] := by
  obtain ⟨entries, v, hentries, h⟩ := Action.bind_eq_ok_iff.1 h
  simp only [Action.bind_apply, Action.forIn_log_apply, Action.pure_apply] at h
  cases h
  exact ⟨entries, v, hentries, rfl, rfl⟩

/-- Apart from one file, a tree has what the index has, without what cannot stand beside the
file. -/
def OthersFrom (index : Index) (file : TreePath) (tree : Tree) : Prop :=
  ∀ q ≠ file, tree.at? q = if Index.collide file q then none else index.at? q

/-- What the commit `c` of a bump holds, on top of `parent`. -/
structure BumpCommit (site : Site) (request : Request) (w : World Machine) (dirty : List Warning)
    (parent c : Commit) : Prop where
  /-- The version file is there as the work directory has it. -/
  versionFile_at : ∃ workDirectory l node blob, site.workDirectory = some workDirectory ∧
    w.files.find false ⟨(pathOf workDirectory).text ++ "/" ++ request.versionFile.text⟩ =
      .ok (l, node) ∧ Blob.ofNode? node = some blob ∧
    c.tree.at? request.versionFile.components = some blob
  /-- All else is there as the index has it. -/
  others : OthersFrom (site.index w) request.versionFile.components c.tree
  /-- The other files are those of the commit before exactly if nothing else was staged. -/
  kept_iff : (∀ q ≠ request.versionFile.components, c.tree.at? q = parent.tree.at? q) ↔
    OthersFrom (site.index w) request.versionFile.components parent.tree
  /-- A warning names each of the other files that the commit changes, unless the run writes it or
  the version file stands in its way. -/
  warned : ∀ q ≠ request.versionFile.components, c.tree.at? q ≠ parent.tree.at? q →
    Index.collide request.versionFile.components q = false →
    TreePath.text q ∉ (request.versionFile :: request.artifacts).map statusName →
      ∃ paths, .dirtyWorkingTree paths ∈ dirty ∧ TreePath.text q ∈ paths

variable {site : Site} {w w' : World Machine} {dirty : List Warning} {name : String}
variable {hid : CommitId} {parent : Commit}

/-- What is staged beside the index of the last commit is named by the warning. -/
theorem mem_foreignPaths {written : List Path} {head : Tree} {index : Index} {q : TreePath}
    (work : List (TreePath × Blob)) (h : head.at? q ≠ index.at? q)
    (hforeign : TreePath.text q ∉ written.map statusName) :
    TreePath.text q ∈ foreignPaths written (WorkTree.status head index work) := by
  obtain ⟨e, he, hpath⟩ := WorkTree.exists_entry work h
  rw [foreignPaths, List.mem_filter]
  refine ⟨List.mem_map.2 ⟨e, he, hpath⟩, ?_⟩
  simpa using hforeign

/-- What the index gives once the version file is in it. -/
theorem bumpCommit_of_tree {workDirectory l : FileSystem.Location} {node : FileSystem.Node}
    {blob : Blob} {work : List (TreePath × Blob)} {c : Commit}
    (hwork : site.workDirectory = some workDirectory)
    (hfind : w.files.find false
      ⟨(pathOf workDirectory).text ++ "/" ++ request.versionFile.text⟩ = .ok (l, node))
    (hblob : Blob.ofNode? node = some blob)
    (htree : ((site.index w).add request.versionFile.components blob).tree = .ok c.tree)
    (hdirty : dirty =
      let foreign := foreignPaths (request.versionFile :: request.artifacts)
        (WorkTree.status parent.tree (site.index w) work)
      if foreign = [] then [] else [.dirtyWorkingTree foreign]) :
    BumpCommit site request w dirty parent c := by
  have hat (q : TreePath) : c.tree.at? q =
      if q = request.versionFile.components then some blob
      else if Index.collide request.versionFile.components q then none
      else (site.index w).at? q := by
    rw [Index.at?_of_tree htree, Index.at?_add]
  have hothers : OthersFrom (site.index w) request.versionFile.components c.tree :=
    fun q hq => by rw [hat, if_neg hq]
  refine ⟨⟨workDirectory, l, node, blob, hwork, hfind, hblob, by rw [hat, if_pos rfl]⟩, hothers,
    ?_, fun q hq hne hcollide hforeign => ?_⟩
  · refine forall_congr' fun q => imp_congr_right fun hq => ?_
    rw [hothers q hq, eq_comm]
  · rw [hothers q hq, hcollide, if_neg Bool.false_ne_true] at hne
    have hmem := mem_foreignPaths work hne.symm hforeign
    refine ⟨_, ?_, hmem⟩
    rw [hdirty]
    dsimp only
    rw [if_neg (List.ne_nil_of_mem hmem)]
    exact List.mem_singleton_self _

/-- **The commit of a bump** holds the version file of the work directory and all else that was
staged. It is made on top of the commit that is checked out; publishing goes on from there, and its
report names the commit and starts with the warnings about the status. -/
theorem bumpCommit_of_commitBump
    (hparent : headCommit w.files w.repository site = .ok (some (hid, parent)))
    (hcommit : commitBump (Repository.stored site) request w = (.ok (dirty, name), w')) :
    (∃ id c, name = CommitId.text id ∧ w'.repository.commit? site.directory id = some c ∧
      c.parents = [hid] ∧ BumpCommit site request w dirty parent c) ∧
    publish (Repository.stored site) request w =
      deliver (Repository.stored site) request dirty name w' ∧
    ∀ report w'', publish (Repository.stored site) request w = (.ok report, w'') →
      report.commit = name ∧ dirty <+: report.warnings := by
  have hpublish : publish (Repository.stored site) request w =
      deliver (Repository.stored site) request dirty name w' := by
    rw [publish_eq_deliver, Action.bind_apply, hcommit]
  refine ⟨?_, hpublish, fun report w'' h => deliver_eq_ok (hpublish ▸ h)⟩
  -- the status is looked at, the file staged and the commit made, each in the world before it
  obtain ⟨dirty', w₁, hinspect, h⟩ := Action.bind_eq_ok_iff.1 hcommit
  obtain ⟨⟨⟩, w₂, hstage, h⟩ := Action.bind_eq_ok_iff.1 h
  obtain ⟨name', w₃, hnext, h⟩ := Action.bind_eq_ok_iff.1 h
  cases h
  obtain ⟨entries, v, hentries, rfl, hdirty⟩ := inspect_eq_ok hinspect
  obtain ⟨rfl, work, rfl⟩ := Site.status_eq_ok hparent (Operation.orFail_eq_ok_iff.1 hentries)
  obtain ⟨names, blob, hread, rfl⟩ := stage_eq_ok hstage
  obtain ⟨rfl, workDirectory, l, node, hwork, hfind, hblob⟩ := Staging.read_eq_ok hread
  obtain ⟨id, c, head, hname, hc, htree, hhead, hparents⟩ := commit_eq_ok hnext
  rw [Site.index_withIndex] at htree
  rw [headCommit_withIndex] at hhead
  obtain rfl : some (hid, parent) = head := Except.ok.inj (hparent.symm.trans hhead)
  exact ⟨id, c, hname, hc, hparents, bumpCommit_of_tree hwork hfind hblob htree hdirty⟩

end

namespace Sample

/-- A repository in `/lib` and a bare one in `/origin.git`. -/
def site : Site := ⟨["lib", ".git"], some ["lib"]⟩

/-- The version file before the bump. -/
def released : Blob := ⟨.regular, "set(LIB_PATCH 3)\n".toUTF8⟩

/-- A file that somebody is working on. -/
def draft : Blob := ⟨.regular, "draft\n".toUTF8⟩

/-- The only commit so far. -/
def first : Commit where
  tree := [(["version.cmake"], released)]
  parents := []
  authorName := "Developer"
  authorEmail := "developer@example.org"
  message := Text.bytes "Start"

/-- The version file has been bumped in the work directory, and the file `notes.txt` is staged. -/
def world : World Machine where
  files := ⟨[(["lib"], .directory),
    (["lib", "version.cmake"], .file "set(LIB_PATCH 4)\n".toUTF8),
    (["lib", "notes.txt"], .file draft.content),
    (["lib", ".git"], .directory), (["lib", ".git", "objects"], .directory),
    (["lib", ".git", "HEAD"], .file "ref: refs/heads/main\n".toUTF8),
    (["lib", ".git", "refs"], .directory), (["lib", ".git", "refs", "heads"], .directory),
    (["lib", ".git", "refs", "heads", "main"], .file (CommitId.text 0 ++ "\n").toUTF8),
    (["lib", ".git", "config"], .file "[remote \"origin\"]\n\turl = /origin.git\n".toUTF8),
    (["origin.git"], .directory), (["origin.git", "objects"], .directory),
    (["origin.git", "HEAD"], .file "ref: refs/heads/main\n".toUTF8),
    (["origin.git", "refs"], .directory),
    (["origin.git", "config"], .file "[core]\n\tbare = true\n".toUTF8)], []⟩
  repository := {
    history := [first]
    stores := [{
      directory := site.directory
      known := [0]
      index := [⟨["version.cmake"], 0, released⟩, ⟨["notes.txt"], 0, draft⟩] }] }
  log := []

/-- The bump is to be published. -/
def request : Request where
  remote := "origin"
  branch := "main"
  versionFile := ⟨"version.cmake"⟩
  artifacts := []
  message := "Bump"
  credentials := none
  author := some ⟨"Bot", "bot@example.org"⟩

end Sample

/-- The commit that publishes the bump in the sample holds what was staged. -/
theorem bumpCommit_of_commitBump_sample :
    headCommit Sample.world.files Sample.world.repository Sample.site =
      .ok (some (0, Sample.first)) ∧
    ∃ name w', commitBump (Repository.stored Sample.site) Sample.request Sample.world =
        (.ok ([.dirtyWorkingTree ["notes.txt"]], name), w') ∧
      ∃ id c, name = CommitId.text id ∧
        w'.repository.commit? Sample.site.directory id = some c ∧ c.parents = [0] ∧
        BumpCommit Sample.site Sample.request Sample.world [.dirtyWorkingTree ["notes.txt"]]
          Sample.first c := by
  have hparent : headCommit Sample.world.files Sample.world.repository Sample.site =
      .ok (some (0, Sample.first)) := toOption_eq_some_iff.1 (by decide +kernel)
  have hresult : (commitBump (Repository.stored Sample.site) Sample.request Sample.world).1 =
      .ok ([.dirtyWorkingTree ["notes.txt"]], CommitId.text 1) :=
    toOption_eq_some_iff.1 (by decide +kernel)
  have hcommit : commitBump (Repository.stored Sample.site) Sample.request Sample.world =
      (.ok ([.dirtyWorkingTree ["notes.txt"]], CommitId.text 1), _) := Prod.ext hresult rfl
  exact ⟨hparent, _, _, hcommit, (bumpCommit_of_commitBump hparent hcommit).1⟩

/-- **A staged file is committed with the bump:** publishing succeeds, its warning says that
`notes.txt` will not be committed, and the commit has the draft, which the commit before it has
not. -/
theorem staged_file_committed :
    headCommit Sample.world.files Sample.world.repository Sample.site =
      .ok (some (0, Sample.first)) ∧
    (publish (Repository.stored Sample.site) Sample.request Sample.world).1 =
      .ok ⟨CommitId.text 1, [.dirtyWorkingTree ["notes.txt"]]⟩ ∧
    ∃ c, (publish (Repository.stored Sample.site) Sample.request Sample.world).2.repository.commit?
        Sample.site.directory 1 = some c ∧
      c.parents = [0] ∧ c.tree.at? ["notes.txt"] = some Sample.draft ∧
      Sample.first.tree.at? ["notes.txt"] = none := by
  have hcommitted : ((publish (Repository.stored Sample.site) Sample.request
      Sample.world).2.repository.commit? Sample.site.directory 1).map
        (fun c => (c.parents, c.tree.at? ["notes.txt"])) = some ([0], some Sample.draft) := by
    decide +kernel
  obtain ⟨c, hc, hholds⟩ := Option.map_eq_some_iff.1 hcommitted
  obtain ⟨hparents, hdraft⟩ := Prod.mk.inj hholds
  exact ⟨toOption_eq_some_iff.1 (by decide +kernel), toOption_eq_some_iff.1 (by decide +kernel),
    c, hc, hparents, hdraft, by decide +kernel⟩

end Publish
end NightlyRelease
