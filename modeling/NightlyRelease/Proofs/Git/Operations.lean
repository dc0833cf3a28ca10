/-
# What operations on a repository do

An operation that gives a result is taken apart step by step: each of its steps
gave a result in the world that the step before it left (`Operation.bind_eq_ok_iff`,
`Action.bind_eq_ok_iff`).  So the services of a repository on disk are described
by what they have done if they gave a result.  Looking at the status changes
nothing (`Site.status_eq_ok`), staging a file changes the index and nothing else
(`stage_eq_ok`), and a commit is recorded with what the index holds, on top of the
commit that is checked out (`record_of_commit`).
-/

import NightlyRelease.Proofs.Git.Trees
import NightlyRelease.Proofs.Result
import NightlyRelease.Repository.Stored

namespace NightlyRelease

/-- A chain of actions gives a result exactly if each of them does. -/
theorem Action.bind_eq_ok_iff {σ α β : Type} {act : Action σ α} {next : α → Action σ β}
    {w w' : World σ} {b : β} :
    (act >>= next) w = (.ok b, w') ↔ ∃ a v, act w = (.ok a, v) ∧ next a v = (.ok b, w') := by
  rw [Action.bind_apply]
  rcases act w with ⟨_ | a, v⟩
  · exact iff_of_false nofun fun ⟨_, _, h, _⟩ => nomatch h
  · exact ⟨fun h => ⟨a, v, rfl, h⟩, fun ⟨_, _, h, h'⟩ => by cases h; exact h'⟩

namespace Git

namespace Operation

variable {α β : Type} {op : Operation α} {next : α → Operation β} {w w' : World Machine}
variable {a a' : α} {b : β}

/-- A chain of operations gives a result exactly if each of them does. -/
theorem bind_eq_ok_iff :
    (op >>= next) w = (.ok b, w') ↔ ∃ a v, op w = (.ok a, v) ∧ next a v = (.ok b, w') := by
  show ExceptT.bindCont next (op w).1 (op w).2 = _ ↔ _
  rcases op w with ⟨_ | a, v⟩
  · exact iff_of_false nofun fun ⟨_, _, h, _⟩ => nomatch h
  · exact ⟨fun h => ⟨a, v, rfl, h⟩, fun ⟨_, _, h, h'⟩ => by cases h; exact h'⟩

theorem bind_of_ok {v : World Machine} (h : op w = (.ok a, v)) : (op >>= next) w = next a v := by
  show ExceptT.bindCont next (op w).1 (op w).2 = _
  rw [h]
  rfl

theorem pure_eq_ok_iff : (pure a : Operation α) w = (.ok a', w') ↔ a = a' ∧ w = w' :=
  ⟨fun h => by cases h; exact ⟨rfl, rfl⟩, fun ⟨h, h'⟩ => by rw [h, h']; rfl⟩

theorem files_apply (w : World Machine) : files w = (.ok w.files, w) := rfl

theorem machine_apply (w : World Machine) : machine w = (.ok w.repository, w) := rfl

theorem ofExcept_apply (x : Except Fault α) (w : World Machine) : ofExcept x w = (x, w) := by
  cases x <;> rfl

theorem ofExcept_eq_ok_iff {x : Except Fault α} :
    ofExcept x w = (.ok a, w') ↔ x = .ok a ∧ w = w' := by
  rw [ofExcept_apply, Prod.mk.injEq]

theorem attempt_of_ok {v : World Machine} (h : op w = (.ok a, v)) :
    attempt op w = (.ok (.ok a), v) := by
  rw [attempt, h]

theorem orFail_apply {toError : Fault → Error} {x : Except Fault α} {v : World Machine}
    (h : op w = (x, v)) : op.orFail toError w = (Action.returned (x.mapError toError), v) := by
  rw [orFail, h]
  cases x <;> rfl

/-- As part of a run, an operation gives the result that it gives. -/
theorem orFail_eq_ok_iff {toError : Fault → Error} :
    op.orFail toError w = (.ok a, w') ↔ op w = (.ok a, w') := by
  unfold orFail
  rcases op w with ⟨_ | b, v⟩
  · exact iff_of_false nofun nofun
  · exact ⟨fun h => by cases h; rfl, fun h => by cases h; rfl⟩

end Operation

variable {s : Site} {w w' : World Machine} {i : Index} {id : CommitId} {c : Commit}

/-- What the next commit of a repository will hold. -/
def Site.index (s : Site) (w : World Machine) : Index := (w.repository.store s.directory).index

/-- The world with another index. -/
def Site.withIndex (s : Site) (w : World Machine) (i : Index) : World Machine := { w with
  repository := w.repository.setStore { w.repository.store s.directory with index := i } }

theorem Site.index_withIndex (s : Site) (w : World Machine) (i : Index) :
    s.index (s.withIndex w i) = i := by
  have hstore := w.repository.store_setStore { w.repository.store s.directory with index := i }
  rw [Machine.directory_store] at hstore
  exact congrArg Store.index hstore

/-- Another index leaves the commit that is checked out where it is. -/
theorem headCommit_withIndex (s : Site) (w : World Machine) (i : Index) :
    headCommit (s.withIndex w i).files (s.withIndex w i).repository s =
      headCommit w.files w.repository s := by
  simp only [headCommit, Site.withIndex, Machine.commit?_setIndex]

/-! ### Looking -/

theorem Site.head_apply (s : Site) (w : World Machine) :
    s.head w = (headCommit w.files w.repository s, w) := by
  rw [Site.head, Operation.bind_of_ok (Operation.files_apply w),
    Operation.bind_of_ok (Operation.machine_apply w), Operation.ofExcept_apply]

theorem Staging.index_apply (s : Site) (w : World Machine) :
    Staging.index s w = (.ok (s.index w), w) := rfl

/-- The tree that is checked out is that of the commit. -/
theorem Site.headTree_apply (h : headCommit w.files w.repository s = .ok (some (id, c))) :
    s.headTree w = (.ok c.tree, w) := by
  have hhead : s.head w = (.ok (some (id, c)), w) := by rw [Site.head_apply, h]
  rw [Site.headTree, Operation.bind_of_ok (Operation.attempt_of_ok hhead)]
  rfl

/-- **The status** compares the commit that is checked out, the index and the work directory, and
changes nothing. -/
theorem Site.status_eq_ok {entries : List StatusEntry}
    (hhead : headCommit w.files w.repository s = .ok (some (id, c)))
    (h : s.status w = (.ok entries, w')) :
    w' = w ∧ ∃ work, entries = WorkTree.status c.tree (s.index w) work := by
  unfold Site.status at h
  cases hwork : s.workDirectory with
  | none =>
    rw [hwork] at h
    cases h
  | some workDirectory =>
    simp only [hwork] at h
    rw [Operation.bind_of_ok (Site.headTree_apply hhead),
      Operation.bind_of_ok (Staging.index_apply s w),
      Operation.bind_of_ok (Operation.files_apply w)] at h
    obtain ⟨rfl, rfl⟩ := Operation.pure_eq_ok_iff.1 h
    exact ⟨rfl, _, rfl⟩

/-! ### Staging -/

/-- What is staged of a file is what the work directory has of it, under the names of its path. -/
theorem Staging.read_eq_ok {fs : FileSystem} {p : String} {names : TreePath} {blob : Blob}
    (h : Staging.read fs s p = .ok (names, blob)) :
    names = Path.components ⟨p⟩ ∧ ∃ workDirectory l node, s.workDirectory = some workDirectory ∧
      fs.find false ⟨(pathOf workDirectory).text ++ "/" ++ p⟩ = .ok (l, node) ∧
      Blob.ofNode? node = some blob := by
  unfold Staging.read at h
  obtain ⟨-, -, h⟩ := bind_eq_ok_iff.1 h
  obtain ⟨-, -, h⟩ := bind_eq_ok_iff.1 h
  cases hwork : s.workDirectory with
  | none =>
    rw [hwork] at h
    cases h
  | some workDirectory =>
    simp only [hwork] at h
    obtain ⟨⟨l, node⟩, hfind, h⟩ := bind_eq_ok_iff.1 h
    rw [mapError_eq_ok_iff] at hfind
    split at h
    · cases h
    · split at h
      · next b hb =>
        cases h
        exact ⟨rfl, workDirectory, l, node, rfl, hfind, hb⟩
      · cases h

/-- **Staging a file** puts it into the index and changes nothing else. -/
theorem stage_eq_ok {p : Path} (h : (Repository.stored s).stage p w = (.ok (), w')) :
    ∃ names blob, Staging.read w.files s p.text = .ok (names, blob) ∧
      w' = s.withIndex w ((s.index w).add names blob) := by
  obtain ⟨i, v, hi, h⟩ := Action.bind_eq_ok_iff.1 h
  rw [Operation.orFail_eq_ok_iff] at hi h
  rw [Site.staged, Operation.bind_of_ok (Operation.files_apply w)] at hi
  obtain ⟨⟨names, blob⟩, v₁, hstep, hi⟩ := Operation.bind_eq_ok_iff.1 hi
  obtain ⟨hread, rfl⟩ := Operation.ofExcept_eq_ok_iff.1 hstep
  dsimp only at hi
  rw [Operation.bind_of_ok (Staging.index_apply s w)] at hi
  obtain ⟨rfl, rfl⟩ := Operation.pure_eq_ok_iff.1 hi
  rw [Staging.setIndex, Operation.bind_of_ok (Operation.files_apply w)] at h
  obtain ⟨⟨⟩, v₂, hunlocked, h⟩ := Operation.bind_eq_ok_iff.1 h
  obtain ⟨-, rfl⟩ := Operation.ofExcept_eq_ok_iff.1 hunlocked
  cases h
  exact ⟨names, blob, hread, rfl⟩

/-! ### Committing -/

/-- Moving what is checked out writes its reference. -/
theorem Committing.moveHead_eq_ok (h : Committing.moveHead s id w = (.ok (), w')) :
    ∃ head fs, Head.read w.files s.directory = .ok head ∧
      Reference.write w.files s.directory head.target (.commit (some id)) = .ok fs ∧
      w' = { w with files := fs } := by
  rw [Committing.moveHead, Operation.bind_of_ok (Operation.files_apply w)] at h
  obtain ⟨head, v, hhead, h⟩ := Operation.bind_eq_ok_iff.1 h
  obtain ⟨hread, rfl⟩ := Operation.ofExcept_eq_ok_iff.1 hhead
  obtain ⟨fs, v, hfs, h⟩ := Operation.bind_eq_ok_iff.1 h
  obtain ⟨hwrite, rfl⟩ := Operation.ofExcept_eq_ok_iff.1 hfs
  cases h
  exact ⟨head, fs, hread, hwrite, rfl⟩

/-- **A commit that is recorded** joins the repository, and what is checked out moves to it. -/
theorem Committing.record_eq_ok (h : Committing.record s c w = (.ok id, w')) :
    (w.repository.addCommit s.directory c).1 = id ∧
      ∃ head fs, Head.read w.files s.directory = .ok head ∧
        Reference.write w.files s.directory head.target (.commit (some id)) = .ok fs ∧
        w' = { w with files := fs, repository := (w.repository.addCommit s.directory c).2 } := by
  rw [Committing.record, Operation.bind_of_ok (Operation.machine_apply w)] at h
  obtain ⟨⟨⟩, v, hset, h⟩ := Operation.bind_eq_ok_iff.1 h
  cases hset
  obtain ⟨⟨⟩, v, hmove, h⟩ := Operation.bind_eq_ok_iff.1 h
  obtain ⟨rfl, rfl⟩ := Operation.pure_eq_ok_iff.1 h
  obtain ⟨head, fs, hread, hwrite, rfl⟩ := Committing.moveHead_eq_ok hmove
  exact ⟨rfl, head, fs, hread, hwrite, rfl⟩

/-- A commit that was recorded is there. -/
theorem Committing.commit?_of_record (h : Committing.record s c w = (.ok id, w')) :
    w'.repository.commit? s.directory id = some c := by
  obtain ⟨rfl, head, fs, -, -, rfl⟩ := Committing.record_eq_ok h
  exact Machine.commit?_addCommit w.repository s.directory c

/-- Finding out who commits changes nothing. -/
theorem Site.signature_eq_ok {author : Option Author} {signature : Signature}
    (h : s.signature author w = (.ok signature, w')) : w' = w := by
  rw [Site.signature, Operation.bind_of_ok (Operation.machine_apply w)] at h
  obtain ⟨settings, v, hsettings, h⟩ := Operation.bind_eq_ok_iff.1 h
  rw [Site.settings, Operation.bind_of_ok (Operation.files_apply w)] at hsettings
  obtain ⟨-, rfl⟩ := Operation.ofExcept_eq_ok_iff.1 hsettings
  exact (Operation.ofExcept_eq_ok_iff.1 h).2.symm

/-- The next commit holds the tree of the index. -/
theorem Site.nextTree_eq_ok {next : Tree × Option CommitId}
    (h : s.nextTree w = (.ok next, w')) :
    w' = w ∧ ∃ tree head, (s.index w).tree = .ok tree ∧
      headCommit w.files w.repository s = .ok head ∧ next = (tree, head.map (·.1)) := by
  rw [Site.nextTree, Operation.bind_of_ok (Staging.index_apply s w)] at h
  obtain ⟨tree, v, hstep, h⟩ := Operation.bind_eq_ok_iff.1 h
  obtain ⟨htree, rfl⟩ := Operation.ofExcept_eq_ok_iff.1 hstep
  obtain ⟨head, v, hhead, h⟩ := Operation.bind_eq_ok_iff.1 h
  rw [Site.head_apply, Prod.mk.injEq] at hhead
  obtain ⟨hhead, rfl⟩ := hhead
  obtain ⟨rfl, rfl⟩ := Operation.pure_eq_ok_iff.1 h
  exact ⟨rfl, tree, head, htree, hhead, rfl⟩

/-- **A commit** is recorded with the tree of the index and the message, on top of the commit that
is checked out. -/
theorem record_of_commit {message : String} {author : Option Author} {name : String}
    (h : (Repository.stored s).commit message author w = (.ok name, w')) :
    ∃ id tree head signature, name = CommitId.text id ∧ (s.index w).tree = .ok tree ∧
      headCommit w.files w.repository s = .ok head ∧ hasNul message = false ∧
      Committing.record s
        (Committing.onTop tree (head.map (·.1)) signature (Text.bytes message)) w =
          (.ok id, w') := by
  obtain ⟨signature, v, hsignature, h⟩ := Action.bind_eq_ok_iff.1 h
  obtain ⟨next, v', hnext, h⟩ := Action.bind_eq_ok_iff.1 h
  obtain ⟨id, v'', hrecord, h⟩ := Action.bind_eq_ok_iff.1 h
  cases h
  rw [Operation.orFail_eq_ok_iff] at hsignature hnext hrecord
  obtain rfl := Site.signature_eq_ok hsignature
  obtain ⟨rfl, tree, head, htree, hhead, rfl⟩ := Site.nextTree_eq_ok hnext
  obtain ⟨⟨⟩, v, hcheck, hrecord⟩ := Operation.bind_eq_ok_iff.1 hrecord
  obtain ⟨hnul, rfl⟩ := Operation.ofExcept_eq_ok_iff.1 hcheck
  refine ⟨id, tree, head, signature, rfl, htree, hhead, ?_, hrecord⟩
  cases hmessage : hasNul message with
  | false => rfl
  | true =>
    rw [withoutNul, List.any_cons, hmessage] at hnul
    cases hnul

/-- A commit holds the tree of the index, on top of the commit that is checked out. -/
theorem commit_eq_ok {message : String} {author : Option Author} {name : String}
    (h : (Repository.stored s).commit message author w = (.ok name, w')) :
    ∃ id c head, name = CommitId.text id ∧ w'.repository.commit? s.directory id = some c ∧
      (s.index w).tree = .ok c.tree ∧ headCommit w.files w.repository s = .ok head ∧
      c.parents = (head.map (·.1)).toList := by
  obtain ⟨id, tree, head, signature, hname, htree, hhead, -, hrecord⟩ := record_of_commit h
  exact ⟨id, _, head, hname, Committing.commit?_of_record hrecord, htree, hhead, rfl⟩

end Git
end NightlyRelease
