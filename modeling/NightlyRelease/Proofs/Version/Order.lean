/-
# Versions in order

Versions are compared by their first number, then the second, then the third.
This is a strict order in which any two versions are comparable, and a bump goes
to the very next version: nothing lies between a version and its bump
(`lt_bumped_iff`).
-/

import NightlyRelease.Version.Basic

namespace NightlyRelease
namespace Version

variable {u v w : Version}

theorem lt_iff :
    v < w ↔ v.major.toNat < w.major.toNat ∨ v.major.toNat = w.major.toNat ∧
      (v.minor.toNat < w.minor.toNat ∨
        v.minor.toNat = w.minor.toNat ∧ v.patch.toNat < w.patch.toNat) := by
  simp only [UInt32.toNat_inj, ← UInt32.lt_iff_toNat_lt]
  rfl

theorem lt_irrefl (v : Version) : ¬ v < v := by
  rw [lt_iff]; omega

theorem lt_trans (h : u < v) (h' : v < w) : u < w := by
  rw [lt_iff] at *; omega

/-- What is not older than an older version is newer. -/
theorem lt_of_not_lt_of_lt (h : ¬ v < u) (h' : v < w) : u < w := by
  rw [lt_iff] at *; omega

theorem bumpPatch_eq_ok_iff :
    v.bumpPatch = .ok w ↔
      v.patch.toNat + 1 < UInt32.size ∧ w = { v with patch := v.patch + 1 } := by
  unfold bumpPatch
  split
  · next h => rw [Except.ok.injEq, eq_comm, and_iff_right h]
  · next h => exact iff_of_false (by simp) fun hw => h hw.1

theorem toNat_patch_of_bumpPatch (h : v.bumpPatch = .ok w) :
    w.patch.toNat = v.patch.toNat + 1 := by
  obtain ⟨hlt, rfl⟩ := bumpPatch_eq_ok_iff.1 h
  rw [UInt32.toNat_add, UInt32.toNat_one, Nat.mod_eq_of_lt hlt]

/-- A bump raises the patch number by one and keeps the others. -/
theorem next_of_bumpPatch (h : v.bumpPatch = .ok w) :
    w.major = v.major ∧ w.minor = v.minor ∧ w.patch.toNat = v.patch.toNat + 1 := by
  have hpatch := toNat_patch_of_bumpPatch h
  obtain ⟨-, rfl⟩ := bumpPatch_eq_ok_iff.1 h
  exact ⟨rfl, rfl, hpatch⟩

/-- **A bump goes to the very next version:** the versions before it are those that are not newer
than the version that is bumped. -/
theorem lt_bumped_iff (h : v.bumpPatch = .ok w) : u < w ↔ ¬ v < u := by
  have hpatch := toNat_patch_of_bumpPatch h
  obtain ⟨-, rfl⟩ := bumpPatch_eq_ok_iff.1 h
  rw [lt_iff, lt_iff, hpatch]
  simp only
  omega

/-- The version with a patch number that is higher by `n`. -/
def plus (v : Version) (n : Nat) : Version := { v with patch := v.patch + UInt32.ofNat n }

@[simp] theorem plus_zero (v : Version) : v.plus 0 = v := by
  simp [plus]

theorem toNat_patch_plus {n : Nat} (h : v.patch.toNat + n < UInt32.size) :
    (v.plus n).patch.toNat = v.patch.toNat + n := by
  rw [plus, UInt32.toNat_add, UInt32.toNat_ofNat_of_lt' (by omega), Nat.mod_eq_of_lt h]

/-- Raising the patch number once more is a bump. -/
theorem bumpPatch_plus {n : Nat} (h : v.patch.toNat + (n + 1) < UInt32.size) :
    (v.plus n).bumpPatch = .ok (v.plus (n + 1)) := by
  rw [bumpPatch_eq_ok_iff, toNat_patch_plus (by omega)]
  refine ⟨by omega, ?_⟩
  simp only [plus, UInt32.ofNat_add, UInt32.add_assoc]
  rfl

/-- A patch number cannot be raised exactly if it is the largest. -/
theorem bumpPatch_eq_error_iff {e : Error} :
    v.bumpPatch = .error e ↔ v.patch.toNat = 4294967295 ∧
      e = .version "patch number 4294967295 cannot be incremented" := by
  have hlt := v.patch.toNat_lt_size
  have hsize : UInt32.size = 4294967296 := rfl
  unfold bumpPatch
  split
  · next h => exact iff_of_false nofun fun hv => by omega
  · next h =>
    have hlargest : v.patch.toNat = 4294967295 := by omega
    have htext : Text.Decimal.text 4294967295 = "4294967295" := by decide +kernel
    rw [hlargest, htext, Except.error.injEq, eq_comm, and_iff_right rfl]
    rfl

theorem ensureFollows_eq_ok_iff : v.ensureFollows u = .ok () ↔ u < v := by
  unfold ensureFollows
  split
  · next h => simp [h]
  · next h => simp [h]

end Version
end NightlyRelease
