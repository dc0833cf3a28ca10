/-
# Walks after one more commit

What a commit builds on was made before it (`History.Ordered`), so a walk never comes
back to the commit that it started at.  That this commit has been seen makes no difference
to a walk that only comes across older ones (`commits_past`).  So the walk from a new
commit shows this commit, and then what the walk from the commit before it has shown in the
repository as it was, with the same fault if a commit is lacking (`commits_addCommit`).
-/

import NightlyRelease.Proofs.Git.Reachable
import NightlyRelease.Proofs.Git.Trees

namespace NightlyRelease
namespace Git

variable {c d : Commit} {id top : CommitId}

/-! ### Histories -/

namespace History

variable {h : History}

/-- What a commit builds on was made before it. -/
def Ordered (h : History) : Prop := ∀ id c, h.at? id = some c → ∀ p ∈ c.parents, p < id

/-- The other commits are where they were. -/
theorem at?_add_of_ne (hid : id ≠ (h.add c).1) : (h.add c).2.at? id = h.at? id := by
  unfold add at hid ⊢
  split
  · rfl
  · next hnone =>
    simp only [hnone] at hid
    rw [at?, at?, List.getElem?_append]
    split
    · rfl
    · next hge =>
      have hlast : h.length ≤ id := Nat.le_of_not_lt hge
      have hpast : [c].length ≤ id - h.length :=
        Nat.sub_pos_of_lt (Nat.lt_of_le_of_ne hlast (Ne.symm hid))
      rw [List.getElem?_eq_none hpast, List.getElem?_eq_none hlast]

/-- A commit that is added stands behind those on which it builds. -/
theorem Ordered.lt_add (h₀ : h.Ordered) (hc : ∀ p ∈ c.parents, p < h.length) :
    ∀ p ∈ c.parents, p < (h.add c).1 := by
  unfold add
  split
  · next i hi =>
    obtain ⟨hlt, heq, -⟩ := List.findIdx?_eq_some_iff_getElem.1 hi
    exact h₀ i c (by rw [at?, List.getElem?_eq_getElem hlt, of_decide_eq_true heq])
  · exact hc

/-- A history stays ordered when a commit is added. -/
theorem Ordered.add (h₀ : h.Ordered) (hc : ∀ p ∈ c.parents, p < h.length) :
    (h.add c).2.Ordered := by
  intro id d hd
  by_cases hid : id = (h.add c).1
  · subst hid
    rw [at?_add] at hd
    cases hd
    exact h₀.lt_add hc
  · exact h₀ id d (at?_add_of_ne hid ▸ hd)

end History

/-- The commits of a repository are those of the history that it has. -/
theorem Machine.at?_of_commit? {m : Machine} {directory : FileSystem.Location}
    (h : m.commit? directory id = some c) : m.history.at? id = some c := by
  unfold commit? at h
  split at h
  · exact h
  · cases h

theorem Machine.lt_of_commit? {m : Machine} {directory : FileSystem.Location}
    (h : m.commit? directory id = some c) : id < m.history.length :=
  (List.getElem?_eq_some_iff.1 (at?_of_commit? h)).1

theorem Machine.history_setStore (m : Machine) (s : Store) :
    (m.setStore s).history = m.history := rfl

/-- A commit that is given to a repository leaves its other commits as they are. -/
theorem Machine.commit?_addCommit_of_ne {m : Machine} {directory : FileSystem.Location}
    (hid : id ≠ (m.addCommit directory c).1) :
    (m.addCommit directory c).2.commit? directory id = m.commit? directory id := by
  have hat := History.at?_add_of_ne hid
  have hstore := ({ m with history := (m.history.add c).2 } : Machine).store_setStore
    { m.store directory with known := (m.history.add c).1 :: (m.store directory).known }
  rw [directory_store] at hstore
  have hne : (id == (m.history.add c).1) = false := beq_false_of_ne hid
  simp only [addCommit, commit?, hstore, List.contains_cons, hne, Bool.false_or,
    history_setStore, hat]

/-! ### Walks -/

namespace Walk

variable {find find' : CommitId → Option Commit} {walk walk' : Walk} {ids : List CommitId}
variable {limit : Nat}

/-- The same commits are found before `top`, and they build on such commits only. -/
structure AgreeBefore (top : CommitId) (find find' : CommitId → Option Commit) : Prop where
  same : ∀ id < top, find' id = find id
  closed : ∀ id < top, ∀ c, find id = some c → ∀ p ∈ c.parents, p < top

/-- The walk that has seen one more commit, at its start. -/
def past (walk : Walk) (top : CommitId) : Walk := { walk with seen := walk.seen ++ [top] }

/-- The commits that wait build on commits that were made before `top`. -/
def Below (walk : Walk) (top : CommitId) : Prop :=
  ∀ c ∈ walk.waiting, ∀ p ∈ c.parents, p < top

theorem meet_past (hid : id < top) (hfind : find' id = find id) :
    meet find' (walk.past top) id = (meet find walk id).map (·.past top) := by
  have hseen : id ∈ (walk.past top).seen ↔ id ∈ walk.seen := by
    simp only [past, List.mem_append, List.mem_singleton, Nat.ne_of_lt hid, or_false]
  unfold meet
  rw [hfind]
  cases find id with
  | none => rfl
  | some c =>
    by_cases h : id ∈ walk.seen
    · simp only [hseen, h, if_true]
      rfl
    · simp only [hseen, h, if_false]
      rfl

theorem foldlM_meet_past (walk : Walk) (hids : ∀ id ∈ ids, id < top)
    (hfind : ∀ id < top, find' id = find id) : ids.foldlM (meet find') (walk.past top) =
      (ids.foldlM (meet find) walk).map (·.past top) := by
  induction ids generalizing walk with
  | nil => rfl
  | cons id ids ih =>
    have hid := hids id List.mem_cons_self
    rw [List.foldlM_cons, List.foldlM_cons, meet_past hid (hfind id hid)]
    cases meet find walk id with
    | error fault => rfl
    | ok next => exact ih next fun id h => hids id (List.mem_cons_of_mem _ h)

theorem Below.of_met (h : walk.Below top) (hmet : Met find ids walk walk')
    (hids : ∀ id ∈ ids, id < top)
    (hfound : ∀ id < top, ∀ c, find id = some c → ∀ p ∈ c.parents, p < top) :
    walk'.Below top := by
  intro d hd
  rcases hmet.waiting_cases d hd with hd | ⟨id, hid, hfind⟩
  · exact h d hd
  · exact hfound id (hids id hid) d hfind

/-- **A commit behind the walk is never met again:** whether it has been seen, and what is found
under its name, makes no difference to the walk. -/
theorem commits_past (hfind : AgreeBefore top find find') (h : walk.Below top) :
    (walk.past top).commits find' limit = walk.commits find limit := by
  -- each step meets the parents of a commit that waited, so the walk stays below the top
  induction limit generalizing walk with
  | zero => rfl
  | succ limit ih =>
    obtain ⟨waiting, seen⟩ := walk
    cases waiting with
    | nil => rfl
    | cons c waiting =>
      have hparents : ∀ p ∈ c.parents, p < top := h c List.mem_cons_self
      have hrest : Below ⟨waiting, seen⟩ top := fun d hd => h d (List.mem_cons_of_mem _ hd)
      have hmeets : c.parents.foldlM (meet find') ⟨waiting, seen ++ [top]⟩ =
          (c.parents.foldlM (meet find) ⟨waiting, seen⟩).map (·.past top) :=
        foldlM_meet_past ⟨waiting, seen⟩ hparents hfind.same
      simp only [past, commits] at ih ⊢
      rw [hmeets]
      cases hnext : c.parents.foldlM (meet find) ⟨waiting, seen⟩ with
      | error fault => rfl
      | ok next =>
        have hlater := ih (hrest.of_met (met_of_foldlM hnext) hparents hfind.closed)
        simp only [Except.map, ok_bind, past, hlater]

/-- A commit that builds on none is shown alone. -/
theorem commits_start_of_nil (hc : c.parents = []) :
    (start id c).commits find (limit + 1) = .ok [c] := by
  simp only [start, commits, hc, List.foldlM_nil]
  cases limit <;> rfl

/-- A walk from a commit shows it, and then what a walk from the commit before it shows. -/
theorem commits_start (hfind : AgreeBefore top find find') (hc : c.parents = [id]) (hid : id < top)
    (hd : find id = some d) :
    (start top c).commits find' (limit + 1) = ((start id d).commits find limit).map (c :: ·) := by
  have hmeet : meet find' ⟨[], [top]⟩ id = .ok ((start id d).past top) := by
    rw [meet, hfind.same id hid, hd]
    exact if_neg fun h => Nat.ne_of_lt hid (List.mem_singleton.1 h)
  have hbelow : (start id d).Below top := by
    intro e he
    obtain rfl := List.mem_singleton.1 he
    exact hfind.closed id hid e hd
  have hmeets : c.parents.foldlM (meet find') ⟨[], [top]⟩ = .ok ((start id d).past top) := by
    rw [hc, List.foldlM_cons, hmeet]
    rfl
  have hlater : ((start id d).past top).commits find' limit = (start id d).commits find limit :=
    commits_past hfind hbelow
  show (c.parents.foldlM (meet find') ⟨[], [top]⟩ >>= fun walk => do
    return c :: (← walk.commits find' limit)) = _
  rw [hmeets, ok_bind, hlater]
  cases (start id d).commits find limit <;> rfl

/-- **The walk from a new commit** shows this commit, and then what the walk from the commit before
it has shown in the repository as it was. -/
theorem commits_addCommit {m : Machine} {directory : FileSystem.Location} (limit : Nat)
    (hordered : m.history.Ordered) (hc : c.parents = [id])
    (hd : m.commit? directory id = some d) :
    (start (m.addCommit directory c).1 c).commits
        ((m.addCommit directory c).2.commit? directory) (limit + 1) =
      ((start id d).commits (m.commit? directory) limit).map (c :: ·) := by
  have hparents : ∀ p ∈ c.parents, p < m.history.length := by
    intro p hp
    rw [hc, List.mem_singleton] at hp
    rw [hp]
    exact Machine.lt_of_commit? hd
  have hid : id < (m.addCommit directory c).1 :=
    hordered.lt_add hparents id (hc ▸ List.mem_singleton_self id)
  refine commits_start ⟨fun i hi => ?_, fun i hi e he p hp => ?_⟩ hc hid hd
  · exact Machine.commit?_addCommit_of_ne (Nat.ne_of_lt hi)
  · exact Nat.lt_trans (hordered i e (Machine.at?_of_commit? he) p hp) hi

end Walk
end Git
end NightlyRelease
