/-
# Making directories

Directories are made where nothing stands, so all that was there stays and no link
appears (`extends_makeDirectories`).  A path that led somewhere leads there still, and
what could be read can be read (`Extends.read`).
-/

import NightlyRelease.Proofs.FileSystem.Writing

namespace NightlyRelease
namespace FileSystem

variable {fs fs' fs'' : FileSystem} {p q : Path} {l : Location} {names : List String}
variable {c : ByteArray}

/-- A file system has all that another one has, and no other links. -/
structure Extends (fs fs' : FileSystem) : Prop where
  at?_eq : ∀ {l n}, fs.at? l = some n → fs'.at? l = some n
  linkAt?_eq : ∀ l, fs'.linkAt? l = fs.linkAt? l
  current_eq : fs'.current = fs.current

theorem Extends.refl (fs : FileSystem) : Extends fs fs := ⟨id, fun _ => rfl, rfl⟩

theorem Extends.trans (h : Extends fs fs') (h' : Extends fs' fs'') : Extends fs fs'' where
  at?_eq hl := h'.at?_eq (h.at?_eq hl)
  linkAt?_eq l := (h'.linkAt?_eq l).trans (h.linkAt?_eq l)
  current_eq := h'.current_eq.trans h.current_eq

/-- **What could be read can be read in an extension.** -/
theorem Extends.read (h : Extends fs fs') (hq : fs.read q = .ok c) : fs'.read q = .ok c := by
  have hcarries : Carries fs fs' := ⟨h.at?_eq, h.linkAt?_eq, h.current_eq⟩
  obtain ⟨l, hl, hfile⟩ := read_eq_ok_iff.1 hq
  exact read_eq_ok_iff.2 ⟨l, hcarries.resolve hl, h.at?_eq hfile⟩

/-- A directory is made where nothing stands. -/
theorem extends_set_directory (h : fs.at? l = none) : Extends fs (fs.set l .directory) := by
  have hl : l ≠ [] := by
    rintro rfl
    cases h
  refine ⟨fun {m n} hm => ?_, fun m => ?_, current_set fs l _⟩
  · rw [at?_set fs _ hl, if_neg, hm]
    rintro rfl
    rw [h] at hm
    cases hm
  · simp only [linkAt?, at?_set fs _ hl]
    by_cases hm : m = l
    · rw [if_pos hm, hm, h]
    · rw [if_neg hm]

theorem extends_makeAlong (h : fs.makeAlong p names = .ok fs') : Extends fs fs' := by
  induction names generalizing fs p with
  | nil =>
    cases h
    exact .refl _
  | cons name rest ih =>
    obtain ⟨l, -, h⟩ := bind_eq_ok_iff.1 h
    split at h
    · next hnone => exact (extends_set_directory (Option.isNone_iff_eq_none.1 hnone)).trans (ih h)
    · exact ih h

/-- **Making directories** takes nothing away. -/
theorem extends_makeDirectories (h : fs.makeDirectories p = .ok fs') : Extends fs fs' :=
  extends_makeAlong h

end FileSystem
end NightlyRelease
