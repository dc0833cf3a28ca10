/-
# Which characters a bump changes

A bump writes the decimal text of the next patch number in place of the whole value.
If the value is a run of digits, then nothing but these digits changes
(`OnlyDigitsChange`).  A value may also have a plus sign before its digits, and this
sign is taken out with them.  Then there is no way to see the change as one of digits
only, wherever in the text one looks for it: a run of digits that has the sign's
length in addition could only be longer than the value by leading zeros, and the new
number has none (`onlyDigitsChange_iff`).

So a bump changes only digits exactly if the value has no sign (`bump_changes_digits`).
-/

import NightlyRelease.Proofs.VersionFile.Reading

namespace NightlyRelease
namespace VersionFile

open Text

variable {keyPrefix text : String} {file : VersionFile} {bumped : Bumped}
variable {a b ds sign old new : List Char} {n : Nat}

/-- The new text is the old one with the decimal text of the next number in place of a run of
digits that spells `n`. -/
def OnlyDigitsChange (old new : List Char) (n : Nat) : Prop :=
  ∃ a ds b, old = a ++ ds ++ b ∧ new = a ++ Decimal.digits (n + 1) ++ b ∧ IsNumeral ds n

/-- The decimal text of a number is not longer than any other numeral of it. -/
theorem IsNumeral.length_digits_le (h : IsNumeral ds n) :
    (Decimal.digits n).length ≤ ds.length := by
  obtain ⟨hne, hall, rfl⟩ := h
  induction ds with
  | nil => exact absurd rfl hne
  | cons c r ih =>
    by_cases hzero : c = '0' ∧ r ≠ []
    · obtain ⟨rfl, hr⟩ := hzero
      have hvalue : Decimal.value ('0' :: r) = Decimal.value r := rfl
      have := ih hr fun d hd => hall d (List.mem_cons_of_mem _ hd)
      rw [hvalue, List.length_cons]
      omega
    · rw [Decimal.digits_value (List.cons_ne_nil c r) hall]
      rintro r' ⟨⟩
      exact Decidable.not_not.1 fun hr => hzero ⟨rfl, hr⟩

/-- A numeral that starts like the decimal text of a number above zero is canonical. -/
theorem IsNumeral.eq_digits {c : Char} {r s : List Char} (h : IsNumeral (c :: r) n)
    (hnext : Decimal.digits (n + 1) = c :: s) : Decimal.digits n = c :: r := by
  obtain ⟨hne, hall, rfl⟩ := h
  refine Decimal.digits_value hne hall ?_
  rintro r' ⟨⟩
  -- the next number is not zero, so its decimal text does not start with a zero
  obtain rfl := Decimal.digits_eq_zero_cons hnext
  have := Decimal.value_digits (Decimal.value ('0' :: r) + 1)
  rw [hnext] at this
  cases this

/-- **With a plus sign in the value, not only digits change.** -/
theorem not_onlyDigitsChange (h : IsNumeral ds n) :
    ¬ OnlyDigitsChange (a ++ ('+' :: ds) ++ b) (a ++ Decimal.digits (n + 1) ++ b) n := by
  rintro ⟨a', es, b', hold, hnew, hes⟩
  have hplus : Decimal.isDigit '+' = false := by decide
  have hlength : es.length = ds.length + 1 := by
    have hold := congrArg List.length hold
    have hnew := congrArg List.length hnew
    simp only [List.length_append, List.length_cons] at hold hnew
    omega
  have hhead (x y : List Char) : es ++ x ≠ '+' :: y := by
    intro heq
    obtain ⟨c, r, rfl⟩ := List.exists_cons_of_ne_nil hes.1
    obtain rfl := (List.cons.inj heq).1
    rw [hes.2.1 '+' List.mem_cons_self] at hplus
    cases hplus
  obtain ⟨d, s, hnext⟩ := List.exists_cons_of_ne_nil (Decimal.digits_ne_nil (n + 1))
  simp only [List.append_assoc, hnext] at hold hnew
  rcases List.append_eq_append_iff.1 hnew with ⟨x, rfl, hx⟩ | ⟨x, rfl, hx⟩
  · -- the run stands at the sign or behind it, but the new number does not start with the sign
    rw [List.append_assoc] at hold
    have hold := List.append_cancel_left hold
    cases x with
    | nil => exact hhead _ _ hold.symm
    | cons c x =>
      obtain rfl := (List.cons.inj hold).1
      obtain rfl := (List.cons.inj hx).1
      rw [Decimal.mem_digits (hnext ▸ List.mem_cons_self)] at hplus
      cases hplus
  · -- the run stands before the sign and starts like the new number, so it is the shortest numeral
    rw [List.append_assoc] at hold
    have hold := List.append_cancel_left hold
    cases x with
    | nil => exact hhead _ _ hold.symm
    | cons c x =>
      obtain ⟨e, r, rfl⟩ := List.exists_cons_of_ne_nil hes.1
      obtain rfl := (List.cons.inj hold).1
      obtain rfl := (List.cons.inj hx).1
      have := h.length_digits_le
      rw [hes.eq_digits hnext] at this
      omega

/-- **Only digits change exactly if the value has no sign.** -/
theorem onlyDigitsChange_iff (h : IsNumeral ds n) (hsign : sign = [] ∨ sign = ['+']) :
    OnlyDigitsChange (a ++ (sign ++ ds) ++ b) (a ++ Decimal.digits (n + 1) ++ b) n ↔ sign = [] := by
  rcases hsign with rfl | rfl
  · exact iff_of_true ⟨a, ds, b, rfl, rfl, h⟩ rfl
  · exact iff_of_false (not_onlyDigitsChange h) (List.cons_ne_nil _ _)

/-- What a bump takes out of a text: the sign and the digits of the value that one line declares
for the patch number. -/
structure ValueReplaced (keyPrefix : String) (old new : List Char) (n : Nat)
    (sign ds : List Char) : Prop where
  sign_cases : sign = [] ∨ sign = ['+']
  numeral : IsNumeral ds n
  declared : ∃ (before : List (List Char)) (d : Declaration) (after : List (List Char)),
    lines old = before ++ d.text :: after ∧
    d.Declares (Field.key keyPrefix .patch).toList ∧ d.value = sign ++ ds ∧
    old = before.flatten ++ d.before ++ sign ++ ds ++ (d.after ++ after.flatten) ∧
    new = before.flatten ++ d.before ++ Decimal.digits (n + 1) ++ (d.after ++ after.flatten)

/-- **A bump replaces the patch value:** a run of digits that spells the old patch number, with a
plus sign if the value has one, makes way for the decimal text of the next number, and all else in
the text stays as it is. So only digits change exactly if the value has no plus sign. -/
theorem bump_changes_digits (h : parse text keyPrefix = .ok file)
    (hb : file.bumpPatch = .ok bumped) :
    ∃ sign ds, ValueReplaced keyPrefix text.toList bumped.text.toList file.version.patch.toNat
        sign ds ∧
      (OnlyDigitsChange text.toList bumped.text.toList file.version.patch.toNat ↔ sign = []) := by
  obtain ⟨hversion, -, htext⟩ := bumpPatch_eq_ok_iff.1 hb
  rw [Version.toNat_patch_of_bumpPatch hversion] at htext
  obtain ⟨hfields, hpatch⟩ := parse_eq_ok_iff.1 h
  obtain ⟨before, line, after, d, hls, -, hd, hparts⟩ := declarations_eq_singleton_iff.1 hpatch
  obtain ⟨rfl, hdeclares⟩ :=
    (declaration?_eq_some_iff (Field.patch.exists_not_isBlank keyPrefix)).1 hd
  obtain ⟨hbefore, hvalue, hafter⟩ := Declaration.mk.inj hparts
  obtain ⟨d', hd', hnumber⟩ := hfields .patch
  obtain rfl : d' = ⟨file.before, file.patchValue, file.after⟩ := by simpa [hd'] using hpatch
  obtain ⟨sign, ds, hspelt, hsign, hnumeral⟩ := number?_eq_some_iff.1 hnumber
  have hold : text.toList = file.before ++ (sign ++ ds) ++ file.after := by
    rw [← text_of_parse h, VersionFile.text, String.toList_ofList, ← hspelt]
  have hnew : bumped.text.toList =
      file.before ++ Decimal.digits (file.version.patch.toNat + 1) ++ file.after := by
    rw [htext, String.toList_ofList]
  refine ⟨sign, ds, ⟨hsign, hnumeral, before, d, after, hls, hdeclares, ?_, ?_, ?_⟩, ?_⟩
  · exact hvalue.trans hspelt
  · rw [hold, ← hbefore, ← hafter]
    simp
  · rw [hnew, ← hbefore, ← hafter]
    simp
  · rw [hold, hnew]
    exact onlyDigitsChange_iff hnumeral hsign

namespace Sample

/-- The declarations of a small library before the patch value. -/
def opening : String := "set(LIB_MAJOR 1)\nset(LIB_MINOR 2)\nset(LIB_PATCH "

/-- A version file whose patch value has a plus sign. -/
def signed : VersionFile := ⟨opening.toList, ['+', '7'], [')', '\n'], ⟨1, 2, 7⟩⟩

/-- A version file whose patch value has leading zeros. -/
def zeros : VersionFile := ⟨opening.toList, ['0', '0', '9'], [')', '\n'], ⟨1, 2, 9⟩⟩

end Sample

/-- A bump of a value with leading zeros changes digits only. -/
theorem bump_changes_digits_sample :
    parse Sample.zeros.text "LIB" = .ok Sample.zeros ∧
    Sample.zeros.bumpPatch = .ok ⟨Sample.opening ++ "10)\n", ⟨1, 2, 9⟩, ⟨1, 2, 10⟩⟩ ∧
    ∃ sign ds, ValueReplaced "LIB" Sample.zeros.text.toList (Sample.opening ++ "10)\n").toList 9
        sign ds ∧
      (OnlyDigitsChange Sample.zeros.text.toList (Sample.opening ++ "10)\n").toList 9 ↔
        sign = []) := by
  have hparse : parse Sample.zeros.text "LIB" = .ok Sample.zeros :=
    toOption_eq_some_iff.1 (by decide +kernel)
  have hbump : Sample.zeros.bumpPatch =
      .ok ⟨Sample.opening ++ "10)\n", ⟨1, 2, 9⟩, ⟨1, 2, 10⟩⟩ :=
    toOption_eq_some_iff.1 (by decide +kernel)
  exact ⟨hparse, hbump, bump_changes_digits hparse hbump⟩

/-- **A bump takes out a plus sign:** the value `+7` becomes `8`, which is no change of digits
only. -/
theorem plus_sign_taken_out :
    parse Sample.signed.text "LIB" = .ok Sample.signed ∧
    Sample.signed.bumpPatch = .ok ⟨Sample.opening ++ "8)\n", ⟨1, 2, 7⟩, ⟨1, 2, 8⟩⟩ ∧
    ¬ OnlyDigitsChange Sample.signed.text.toList (Sample.opening ++ "8)\n").toList 7 := by
  refine ⟨toOption_eq_some_iff.1 (by decide +kernel), toOption_eq_some_iff.1 (by decide +kernel),
    ?_⟩
  have hold : Sample.signed.text.toList = Sample.opening.toList ++ ('+' :: ['7']) ++ [')', '\n'] :=
    String.toList_ofList
  have hdigits : Decimal.digits (7 + 1) = ['8'] := by decide +kernel
  have hnew : (Sample.opening ++ "8)\n").toList =
      Sample.opening.toList ++ Decimal.digits (7 + 1) ++ [')', '\n'] := by
    rw [hdigits, String.toList_append]
    simp
  rw [hold, hnew]
  exact not_onlyDigitsChange ⟨List.cons_ne_nil _ _, List.forall_mem_singleton.2 rfl, rfl⟩

end VersionFile
end NightlyRelease
