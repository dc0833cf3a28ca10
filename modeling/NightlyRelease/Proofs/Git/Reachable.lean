/-
# What a walk shows

A commit is reachable from the commits that build on it, directly or not (`Reaches`).  A
walk shows reachable commits only, and a walk that comes to an end before it has shown as
many as it may has shown all of them (`commits_reach`).

What carries this is the state of the walk: whatever it has come across waits, or has been
shown and then all on which it builds have been come across, too (`Covers`).  When nothing
waits any more, no reachable commit is left out.
-/

import NightlyRelease.Git.Walk
import NightlyRelease.Proofs.Result

namespace NightlyRelease
namespace Git
namespace Walk

variable {find : CommitId → Option Commit} {walk walk' : Walk} {c d : Commit} {id j p : CommitId}
variable {ids seen seen' : List CommitId} {waiting done shown : List Commit} {limit : Nat}

/-- One commit is another one, or the other one builds on it, directly or not. -/
inductive Reaches (find : CommitId → Option Commit) (id : CommitId) : CommitId → Prop where
  | self : Reaches find id id
  | parent {j p : CommitId} {d : Commit} : Reaches find id j → find j = some d → p ∈ d.parents →
      Reaches find id p

theorem mem_enqueue_iff {l : List Commit} : d ∈ enqueue c l ↔ d = c ∨ d ∈ l := by
  induction l with
  | nil => simp [enqueue]
  | cons e rest ih =>
    unfold enqueue
    split
    · exact List.mem_cons
    · simp only [List.mem_cons, ih]
      exact or_left_comm

/-! ### Meeting commits -/

/-- What a walk has become that has come across some commits: these have been seen, and those that
are new wait. -/
structure Met (find : CommitId → Option Commit) (ids : List CommitId) (walk walk' : Walk) :
    Prop where
  waiting_subset : walk.waiting ⊆ walk'.waiting
  seen_subset : walk.seen ⊆ walk'.seen
  met : ids ⊆ walk'.seen
  seen_cases : ∀ j ∈ walk'.seen, j ∈ walk.seen ∨ ∃ d ∈ walk'.waiting, find j = some d
  waiting_cases : ∀ d ∈ walk'.waiting, d ∈ walk.waiting ∨ ∃ j ∈ ids, find j = some d

theorem met_nil : Met find [] walk walk :=
  ⟨List.Subset.refl _, List.Subset.refl _, List.nil_subset _, fun _ => .inl, fun _ => .inl⟩

theorem met_of_meet (h : meet find walk id = .ok walk') : Met find [id] walk walk' := by
  unfold meet at h
  cases hc : find id with
  | none =>
    rw [hc] at h
    cases h
  | some c =>
    simp only [hc] at h
    split at h
    · next hid =>
      cases h
      exact ⟨List.Subset.refl _, List.Subset.refl _, List.cons_subset.2 ⟨hid, List.nil_subset _⟩,
        fun _ => .inl, fun _ => .inl⟩
    · cases h
      refine ⟨fun d hd => mem_enqueue_iff.2 (.inr hd), List.subset_cons_self _ _,
        List.cons_subset.2 ⟨List.mem_cons_self, List.nil_subset _⟩, fun j hj => ?_, fun d hd => ?_⟩
      · rcases List.mem_cons.1 hj with rfl | hj
        · exact .inr ⟨c, mem_enqueue_iff.2 (.inl rfl), hc⟩
        · exact .inl hj
      · rcases mem_enqueue_iff.1 hd with rfl | hd
        · exact .inr ⟨id, List.mem_singleton_self id, hc⟩
        · exact .inl hd

theorem Met.trans {next : Walk} (h : Met find [id] walk next) (h' : Met find ids next walk') :
    Met find (id :: ids) walk walk' where
  waiting_subset := List.Subset.trans h.waiting_subset h'.waiting_subset
  seen_subset := List.Subset.trans h.seen_subset h'.seen_subset
  met := List.cons_subset.2 ⟨h'.seen_subset (h.met (List.mem_singleton_self id)), h'.met⟩
  seen_cases j hj := by
    rcases h'.seen_cases j hj with hj | hj
    · exact (h.seen_cases j hj).imp_right fun ⟨d, hd, hfind⟩ => ⟨d, h'.waiting_subset hd, hfind⟩
    · exact .inr hj
  waiting_cases d hd := by
    rcases h'.waiting_cases d hd with hd | ⟨j, hj, hfind⟩
    · refine (h.waiting_cases d hd).imp_right fun ⟨j, hj, hfind⟩ => ⟨j, ?_, hfind⟩
      exact List.mem_cons.2 (.inl (List.mem_singleton.1 hj))
    · exact .inr ⟨j, List.mem_cons_of_mem _ hj, hfind⟩

theorem met_of_foldlM (h : ids.foldlM (meet find) walk = .ok walk') : Met find ids walk walk' := by
  induction ids generalizing walk with
  | nil =>
    cases h
    exact met_nil
  | cons id ids ih =>
    rw [List.foldlM_cons] at h
    obtain ⟨next, hnext, h⟩ := bind_eq_ok_iff.1 h
    exact (met_of_meet hnext).trans (ih h)

/-! ### The whole walk -/

/-- The first step of a walk, and the walk after it. -/
theorem commits_cons_eq_ok (h : commits find (limit + 1) ⟨c :: waiting, seen⟩ = .ok shown) :
    ∃ next later, Met find c.parents ⟨waiting, seen⟩ next ∧
      commits find limit next = .ok later ∧ shown = c :: later := by
  obtain ⟨next, hnext, h⟩ := bind_eq_ok_iff.1 h
  obtain ⟨later, hlater, h⟩ := bind_eq_ok_iff.1 h
  exact ⟨next, later, met_of_foldlM hnext, hlater, (pure_eq_ok_iff.1 h).symm⟩

/-- What is shown is reachable if what waits is. -/
theorem reaches_of_commits (h : commits find limit walk = .ok shown)
    (hwaiting : ∀ d ∈ walk.waiting, ∃ j, Reaches find id j ∧ find j = some d) :
    ∀ d ∈ shown, ∃ j, Reaches find id j ∧ find j = some d := by
  induction limit generalizing walk shown with
  | zero =>
    cases h
    exact fun d hd => absurd hd List.not_mem_nil
  | succ limit ih =>
    obtain ⟨_ | ⟨c, waiting⟩, seen⟩ := walk
    · cases h
      exact fun d hd => absurd hd List.not_mem_nil
    · obtain ⟨next, later, hmet, hlater, rfl⟩ := commits_cons_eq_ok h
      have hc := hwaiting c List.mem_cons_self
      refine List.forall_mem_cons.2 ⟨hc, ih hlater fun d hd => ?_⟩
      rcases hmet.waiting_cases d hd with hd | ⟨p, hp, hfind⟩
      · exact hwaiting d (List.mem_cons_of_mem _ hd)
      · obtain ⟨j, hj, hfindj⟩ := hc
        exact ⟨p, hj.parent hfindj hp, hfind⟩

/-- Whatever a walk has come across waits, or it has been shown and the walk has come across all on
which it builds. -/
def Covers (find : CommitId → Option Commit) (waiting done : List Commit) (seen : List CommitId) :
    Prop :=
  ∀ j ∈ seen, ∃ d, find j = some d ∧ (d ∈ waiting ∨ d ∈ done ∧ d.parents ⊆ seen)

/-- Showing a commit keeps the walk covered. -/
theorem Covers.step (h : Covers find (c :: waiting) done seen)
    (hmet : Met find c.parents ⟨waiting, seen⟩ walk) :
    Covers find walk.waiting (c :: done) walk.seen := by
  intro j hj
  rcases hmet.seen_cases j hj with hj | ⟨d, hd, hfind⟩
  · obtain ⟨d, hfind, hd⟩ := h j hj
    refine ⟨d, hfind, ?_⟩
    rcases hd with hd | ⟨hd, hparents⟩
    · rcases List.mem_cons.1 hd with rfl | hd
      · exact .inr ⟨List.mem_cons_self, hmet.met⟩
      · exact .inl (hmet.waiting_subset hd)
    · exact .inr ⟨List.mem_cons_of_mem _ hd, fun p hp => hmet.seen_subset (hparents hp)⟩
  · exact ⟨d, hfind, .inl hd⟩

/-- A walk that comes to its end has shown all that it has come across. -/
theorem covers_of_commits (h : commits find limit walk = .ok shown) (hshort : shown.length < limit)
    (hcovers : Covers find walk.waiting done walk.seen) :
    ∃ seen', walk.seen ⊆ seen' ∧ Covers find [] (shown ++ done) seen' := by
  induction limit generalizing walk shown done with
  | zero => exact absurd hshort (Nat.not_lt_zero _)
  | succ limit ih =>
    obtain ⟨_ | ⟨c, waiting⟩, seen⟩ := walk
    · cases h
      exact ⟨seen, List.Subset.refl _, hcovers⟩
    · obtain ⟨next, later, hmet, hlater, rfl⟩ := commits_cons_eq_ok h
      obtain ⟨seen', hseen, hend⟩ := ih hlater (Nat.lt_of_succ_lt_succ hshort) (hcovers.step hmet)
      refine ⟨seen', List.Subset.trans hmet.seen_subset hseen, fun j hj => ?_⟩
      obtain ⟨d, hfind, hd⟩ := hend j hj
      refine ⟨d, hfind, hd.imp_right (And.imp_left fun hd => ?_)⟩
      simpa [or_left_comm] using hd

/-- **What a walk shows can be reached from its start,** and a walk that comes to its end has shown
all that can be reached. -/
theorem commits_reach (hc : find id = some c) (h : (start id c).commits find limit = .ok shown) :
    (∀ d ∈ shown, ∃ j, Reaches find id j ∧ find j = some d) ∧
      (shown.length < limit → ∀ j, Reaches find id j → ∃ d ∈ shown, find j = some d) := by
  refine ⟨reaches_of_commits h fun d hd => ⟨id, .self, ?_⟩, fun hshort j hj => ?_⟩
  · rw [List.mem_singleton.1 hd, hc]
  · have hstart : Covers find [c] [] [id] := fun j hj =>
      ⟨c, List.mem_singleton.1 hj ▸ hc, .inl List.mem_cons_self⟩
    obtain ⟨seen', hid, hend⟩ := covers_of_commits h hshort hstart
    have hseen : j ∈ seen' := by
      induction hj with
      | self => exact hid (List.mem_singleton_self id)
      | parent _ hfind hp ih =>
        obtain ⟨d, hd, hcases⟩ := hend _ ih
        cases hfind.symm.trans hd
        rcases hcases with hnil | ⟨-, hparents⟩
        · cases hnil
        · exact hparents hp
    obtain ⟨d, hfind, hcases⟩ := hend j hseen
    rcases hcases with hnil | ⟨hd, -⟩
    · cases hnil
    · exact ⟨d, by simpa using hd, hfind⟩

end Walk
end Git
end NightlyRelease
