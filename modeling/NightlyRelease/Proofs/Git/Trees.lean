/-
# Trees, the index and the status

A tree, the index and the status are lists, and what matters of them is what they
have under a path.  Sorting does not change what a tree has (`Tree.at?_ofList`), the
tree of the next commit has what the index has (`Index.at?_of_tree`), and adding a
file changes what the index has under its path and under the paths that cannot
stand beside it (`Index.at?_add`).  A path under which the index has something else
than the last commit is in the status, whatever the work directory has
(`WorkTree.exists_entry`).
-/

import NightlyRelease.Git.WorkTree
import NightlyRelease.Git.Machine
import Mathlib.Tactic.SplitIfs

namespace NightlyRelease
namespace Git

variable {p q : TreePath} {b : Blob} {i : Index} {t : Tree}

/-! ### Trees -/

theorem lookup_eq_head?_filter {α : Type} (files : List (TreePath × α)) (p : TreePath) :
    files.lookup p = ((files.filter (·.1 == p)).head?).map (·.2) := by
  induction files with
  | nil => rfl
  | cons f files ih =>
    obtain ⟨q, a⟩ := f
    by_cases h : q = p
    · simp [h]
    · have hpq : (p == q) = false := beq_false_of_ne (Ne.symm h)
      simp [List.lookup_cons, hpq, h, ih]

/-- **Sorting does not change what a tree has.** -/
theorem Tree.at?_ofList (files : List (TreePath × Blob)) (p : TreePath) :
    (Tree.ofList files).at? p = files.lookup p := by
  have hkey : ∀ f g : TreePath × Blob, (f.1 == p) = true → (g.1 == p) = true →
      TreePath.text f.1 = TreePath.text g.1 :=
    fun f g hf hg => by rw [eq_of_beq hf, eq_of_beq hg]
  rw [Tree.at?, lookup_eq_head?_filter, Tree.ofList, Text.filter_sortBy hkey,
    ← lookup_eq_head?_filter]

theorem Tree.mem_paths (h : t.at? p = some b) : p ∈ t.map (·.1) := by
  obtain ⟨before, after, rfl, -⟩ := List.lookup_eq_some_iff.1 h
  simp

/-! ### The index -/

theorem Index.mem_paths (h : i.at? p = some b) : p ∈ i.map (·.path) := by
  obtain ⟨e, he, -⟩ := Option.map_eq_some_iff.1 h
  have hpath := List.find?_some he
  simp only [Bool.and_eq_true, beq_iff_eq] at hpath
  exact List.mem_map.2 ⟨e, List.mem_of_find?_eq_some he, hpath.1⟩

theorem Index.tree_eq_ok_iff :
    i.tree = .ok t ↔
      (∀ e ∈ i, e.stage = 0) ∧ Tree.ofList (i.map fun e => (e.path, e.blob)) = t := by
  unfold Index.tree
  split
  · next h =>
    obtain ⟨e, he, hstage⟩ := List.any_eq_true.1 h
    refine iff_of_false nofun fun hall => ?_
    simp [hall.1 e he] at hstage
  · next h =>
    simp only [List.any_eq_true, not_exists, not_and] at h
    have hall : ∀ e ∈ i, e.stage = 0 := fun e he => by simpa using h e he
    rw [Except.ok.injEq, and_iff_right hall]

/-- **The tree of the next commit has what the index has.** -/
theorem Index.at?_of_tree (h : i.tree = .ok t) (p : TreePath) : t.at? p = i.at? p := by
  obtain ⟨hall, rfl⟩ := Index.tree_eq_ok_iff.1 h
  rw [Tree.at?_ofList, Index.at?]
  clear h
  induction i with
  | nil => rfl
  | cons e i ih =>
    have hrest := ih fun e he => hall e (List.mem_cons_of_mem _ he)
    have hstage : e.stage = 0 := hall e List.mem_cons_self
    by_cases hp : e.path = p
    · simp [hp, hstage]
    · have hpq : (p == e.path) = false := beq_false_of_ne (Ne.symm hp)
      simp [List.lookup_cons, hpq, hp, hrest]

/-- Taking out what cannot stand beside a file takes these paths out and no other ones. -/
theorem Index.at?_filter (i : Index) (p q : TreePath) :
    Index.at? (i.filter fun e => !Index.collide p e.path) q =
      if Index.collide p q then none else i.at? q := by
  induction i with
  | nil => simp [Index.at?]
  | cons e i ih =>
    rw [List.filter_cons]
    by_cases hq : e.path = q
    · subst hq
      cases hcollide : Index.collide p e.path with
      | true => simpa [hcollide] using ih
      | false =>
        simp only [hcollide, Bool.not_false, if_true, Index.at?, List.find?_cons] at ih ⊢
        cases hstage : e.stage == 0 with
        | true => simp
        | false => simpa using ih
    · -- an entry of another path counts on neither side
      have hother (i : Index) : Index.at? (e :: i) q = i.at? q := by simp [Index.at?, hq]
      rw [hother, ← ih]
      split
      · exact hother _
      · rfl

/-- **Adding a file** changes what the index has under its path, and takes out what cannot stand
beside it. -/
theorem Index.at?_add (i : Index) (p : TreePath) (b : Blob) (q : TreePath) :
    (i.add p b).at? q =
      if q = p then some b else if Index.collide p q then none else i.at? q := by
  rw [← Index.at?_filter, Index.add, Index.at?, List.find?_append, Option.map_or]
  change ((Index.at? _ q).or _) = _
  by_cases h : q = p
  · subst h
    have hself : Index.collide q q = true := by simp [Index.collide]
    rw [Index.at?_filter, if_pos hself]
    simp
  · simp [h, Ne.symm h]

/-! ### The status -/

/-- What differs between the last commit and the index has a code. -/
theorem WorkTree.Sides.exists_code {s : WorkTree.Sides} (h : s.head ≠ s.index) :
    ∃ code, s.code? = some code := by
  rw [← Option.isSome_iff_exists]
  unfold WorkTree.Sides.code?
  split_ifs with _ _ _ _ _ hsame
  all_goals first | rfl | exact absurd (.inl h) hsame

/-- **A path under which the index has something else than the last commit is in the status.** -/
theorem WorkTree.exists_entry {head : Tree} {index : Index} (work : List (TreePath × Blob))
    (h : head.at? p ≠ index.at? p) :
    ∃ e ∈ WorkTree.status head index work, e.path = TreePath.text p := by
  obtain ⟨code, hcode⟩ := WorkTree.Sides.exists_code
    (s := ⟨head.at? p, index.at? p, List.lookup p work, index.isConflicted p⟩) h
  have hmem : p ∈ head.map (·.1) ++ index.map (·.path) ++ work.map (·.1) := by
    refine List.mem_append_left _ (List.mem_append.2 ?_)
    cases hhead : head.at? p with
    | some b => exact .inl (Tree.mem_paths hhead)
    | none =>
      cases hindex : index.at? p with
      | some b => exact .inr (Index.mem_paths hindex)
      | none => exact absurd (hhead.trans hindex.symm) h
  refine ⟨⟨code, TreePath.text p⟩, ?_, rfl⟩
  rw [WorkTree.status, Text.mem_sortBy, List.mem_filterMap]
  exact ⟨p, List.mem_eraseDups.2 hmem, congrArg (Option.map _) hcode⟩

/-! ### Histories and stores -/

/-- A commit that was added is there. -/
theorem History.at?_add (h : History) (c : Commit) : (h.add c).2.at? (h.add c).1 = some c := by
  unfold History.add
  split
  · next id hid =>
    obtain ⟨hlt, hc, -⟩ := List.findIdx?_eq_some_iff_getElem.1 hid
    rw [History.at?, List.getElem?_eq_getElem hlt, of_decide_eq_true hc]
  · simp [History.at?]

/-- The name of a commit that was added is a new one at most. -/
theorem History.fst_add_le (h : History) (c : Commit) : (h.add c).1 ≤ h.length := by
  unfold History.add
  split
  · next id hid =>
    obtain ⟨hlt, -, -⟩ := List.findIdx?_eq_some_iff_getElem.1 hid
    exact Nat.le_of_lt hlt
  · exact Nat.le_refl _

namespace Machine

variable (m : Machine) (d : FileSystem.Location)

theorem directory_store : (m.store d).directory = d := by
  unfold store
  cases h : m.stores.find? (·.directory == d) with
  | none => rfl
  | some s =>
    have hs := List.find?_some h
    exact eq_of_beq hs

theorem store_setStore (s : Store) : (m.setStore s).store s.directory = s := by
  simp [store, setStore]

/-- Another index leaves the commits of a repository where they are. -/
theorem commit?_setIndex (i : Index) :
    (m.setStore { m.store d with index := i }).commit? d = m.commit? d := by
  funext id
  have hstore := m.store_setStore { m.store d with index := i }
  rw [directory_store] at hstore
  rw [commit?, hstore]
  rfl

/-- A commit that was given to a repository is there. -/
theorem commit?_addCommit (c : Commit) :
    (m.addCommit d c).2.commit? d (m.addCommit d c).1 = some c := by
  have hat := History.at?_add m.history c
  have hstore := ({ m with history := (m.history.add c).2 } : Machine).store_setStore
    { m.store d with known := (m.history.add c).1 :: (m.store d).known }
  rw [directory_store] at hstore
  simp only [addCommit, commit?, hstore, List.contains_cons, BEq.rfl, Bool.true_or, if_true]
  exact hat

end Machine

end Git
end NightlyRelease
