/-
# How a text is read as a version file

A line gives a key a value (`Gives`) if it has the form

    blanks `set(` blanks KEY blanks VALUE blanks `)` anything

with at least one blank after the key and no blank and no `)` in the value.  A text
is read in two passes, and `Reads` says what comes out of them.  The first pass goes
through the lines and stops at the first one that gives a value to a key for the
second time.  Only if there is none does the second pass look at the keys, in the
order of `Field.all`, and stop at the first one that no line gives a value or whose
value spells no number of 32 bits.  So a repeated key is reported before a missing
key and before a bad value, wherever these stand.

`parse` gives exactly what `Reads` says, for every text and every prefix
(`reads_parse`, `parse_eq_iff_reads`).
-/

import NightlyRelease.Proofs.VersionFile.Parsing

namespace NightlyRelease
namespace VersionFile

open Text

variable {key line value seen rest : List Char} {ls before after : List (List Char)}
variable {d : Declaration} {f g : Field} {keyPrefix text : String} {e : Error}
variable {file : VersionFile} {n : UInt32} {found : Found Declaration}

/-! ### The grammar of a line -/

/-- The line gives the key a value. -/
def Gives (key value line : List Char) : Prop :=
  ∃ indent gap sep trail rest,
    line = indent ++ (opening ++ (gap ++ (key ++ (sep ++ (value ++ (trail ++ ')' :: rest)))))) ∧
    (∀ c ∈ indent, isBlank c = true) ∧ (∀ c ∈ gap, isBlank c = true) ∧
    (∀ c ∈ sep, isBlank c = true) ∧ sep ≠ [] ∧ (∀ c ∈ trail, isBlank c = true) ∧
    ∀ c ∈ value, c ≠ ')' ∧ isBlank c = false

/-- A run of decimal digits with a value; leading zeros are allowed. -/
def IsNumeral (ds : List Char) (n : Nat) : Prop :=
  ds ≠ [] ∧ (∀ c ∈ ds, Decimal.isDigit c = true) ∧ Decimal.value ds = n

/-- The value spells a number: digits, with one plus sign allowed before them. -/
def Spells (value : List Char) (n : UInt32) : Prop :=
  ∃ sign ds, value = sign ++ ds ∧ (sign = [] ∨ sign = ['+']) ∧ IsNumeral ds n.toNat

theorem isValueChar_iff {c : Char} : isValueChar c = true ↔ c ≠ ')' ∧ isBlank c = false := by
  simp [isValueChar]

/-- A line that gives a key a value declares it; where the value is empty, all blanks before the
parenthesis count to the text before it. -/
theorem exists_declares_iff :
    (∃ d : Declaration, d.text = line ∧ d.Declares key ∧ d.value = value) ↔
      Gives key value line := by
  constructor
  · rintro ⟨d, rfl, hd, rfl⟩
    obtain ⟨indent, gap, sep, hbefore, hindent, hgap, hsep, hne⟩ := hd.before
    obtain ⟨trail, rest, hafter, htrail⟩ := hd.after
    exact ⟨indent, gap, sep, trail, rest, by simp [Declaration.text, hbefore, hafter], hindent,
      hgap, hsep, hne, htrail, fun c hc => isValueChar_iff.1 (hd.value c hc)⟩
  · rintro ⟨indent, gap, sep, trail, rest, rfl, hindent, hgap, hsep, hne, htrail, hvalue⟩
    have hchars : ∀ c ∈ value, isValueChar c = true := fun c hc => isValueChar_iff.2 (hvalue c hc)
    cases value with
    | nil =>
      refine ⟨⟨indent ++ (opening ++ (gap ++ (key ++ (sep ++ trail)))), [], ')' :: rest⟩,
        by simp [Declaration.text], ⟨⟨hchars, ⟨[], rest, rfl, by simp⟩, ?_⟩, ?_⟩, rfl⟩
      · exact stops_cons (by decide)
      · refine ⟨indent, gap, sep ++ trail, rfl, hindent, hgap, fun c hc => ?_, by simp [hne]⟩
        exact (List.mem_append.1 hc).elim (hsep c) (htrail c)
    | cons c r =>
      refine ⟨⟨indent ++ (opening ++ (gap ++ (key ++ sep))), c :: r, trail ++ ')' :: rest⟩,
        by simp [Declaration.text], ⟨⟨hchars, ⟨trail, rest, rfl, htrail⟩, ?_⟩, ?_⟩, rfl⟩
      · exact stops_cons (hvalue c List.mem_cons_self).2
      · exact ⟨indent, gap, sep, rfl, hindent, hgap, hsep, hne⟩

theorem gives_iff (hkey : ∃ c ∈ key, isBlank c = false) :
    Gives key value line ↔ ∃ d, declaration? key line = some d ∧ d.value = value := by
  simp only [← exists_declares_iff, declaration?_eq_some_iff hkey, and_assoc]

theorem Field.gives_iff :
    Gives (f.key keyPrefix).toList value line ↔
      ∃ d, declaration? (f.key keyPrefix).toList line = some d ∧ d.value = value :=
  VersionFile.gives_iff (f.exists_not_isBlank keyPrefix)

/-- **A line gives at most one of the keys a value,** and only one value. -/
theorem Gives.unique {value' : List Char} (h : Gives (f.key keyPrefix).toList value line)
    (h' : Gives (g.key keyPrefix).toList value' line) : f = g ∧ value = value' := by
  obtain ⟨d, hd, rfl⟩ := Field.gives_iff.1 h
  obtain ⟨d', hd', rfl⟩ := Field.gives_iff.1 h'
  by_cases hfg : g = f
  · subst hfg
    rw [hd, Option.some.injEq] at hd'
    exact ⟨rfl, by rw [hd']⟩
  · rw [Field.declaration?_eq_none hd hfg] at hd'
    cases hd'

theorem value?_eq_some_iff {ds : List Char} {m : Nat} :
    Decimal.value? ds = some m ↔ IsNumeral ds m := by
  simp only [Decimal.value?, IsNumeral, Option.ite_none_right_eq_some,
    Option.ite_none_left_eq_some, Option.some.injEq, List.all_eq_true]

theorem number?_eq_some_iff : number? value = some n ↔ Spells value n := by
  have hdigits (ds : List Char) :
      (Decimal.value? ds).bind (fun m => if m < UInt32.size then some (UInt32.ofNat m) else none) =
        some n ↔ IsNumeral ds n.toNat := by
    simp only [Option.bind_eq_some_iff, value?_eq_some_iff, Option.ite_none_right_eq_some,
      Option.some.injEq]
    constructor
    · rintro ⟨m, hm, hlt, rfl⟩
      rwa [UInt32.toNat_ofNat_of_lt' hlt]
    · intro h
      exact ⟨_, h, n.toNat_lt_size, UInt32.ofNat_toNat⟩
  have hplus : ¬ Decimal.isDigit '+' = true := by decide
  unfold number?
  split
  · next r =>
    refine (hdigits r).trans ⟨fun h => ⟨['+'], r, rfl, .inr rfl, h⟩, ?_⟩
    rintro ⟨sign, ds, heq, rfl | rfl, h⟩
    · -- the plus sign is no digit
      exact absurd (h.2.1 '+' (by rw [← List.nil_append ds, ← heq]; exact List.mem_cons_self)) hplus
    · obtain rfl := (List.cons.inj heq).2
      exact h
  · next hne =>
    refine (hdigits value).trans ⟨fun h => ⟨[], value, rfl, .inl rfl, h⟩, ?_⟩
    rintro ⟨sign, ds, rfl, rfl | rfl, h⟩
    · exact h
    · exact absurd rfl (hne ds)

/-! ### Repeated keys -/

/-- The line gives the key of a field some value. -/
def Sets (keyPrefix : String) (f : Field) (line : List Char) : Prop :=
  ∃ value, Gives (f.key keyPrefix).toList value line

/-- The line gives a value to a key that one of the lines before it has given a value. -/
def Repeats (keyPrefix : String) (f : Field) (before : List (List Char)) (line : List Char) :
    Prop :=
  Sets keyPrefix f line ∧ ∃ l ∈ before, Sets keyPrefix f l

/-- No line repeats a key. -/
def NoneRepeats (keyPrefix : String) (ls : List (List Char)) : Prop :=
  ∀ before line after f, ls = before ++ line :: after → ¬ Repeats keyPrefix f before line

theorem sets_iff :
    Sets keyPrefix f line ↔ ∃ d, declaration? (f.key keyPrefix).toList line = some d := by
  simp only [Sets, Field.gives_iff]
  exact ⟨fun ⟨_, d, hd, _⟩ => ⟨d, hd⟩, fun ⟨d, hd⟩ => ⟨_, d, hd, rfl⟩⟩

theorem not_sets_iff :
    ¬ Sets keyPrefix f line ↔ declaration? (f.key keyPrefix).toList line = none := by
  rw [sets_iff, ← Option.isSome_iff_exists, Option.not_isSome_iff_eq_none]

/-- What has been found so far is what the lines so far declare. -/
def Covers (keyPrefix : String) (found : Found Declaration) (ls : List (List Char)) : Prop :=
  ∀ f, (found f).isSome ↔ ∃ l ∈ ls, Sets keyPrefix f l

section

variable {α : Type} {note : Declaration → α} {found : Found α}

theorem addField_of_none (h : declaration? (f.key keyPrefix).toList line = none) :
    addField keyPrefix line note found f = .ok found := by
  rw [addField, h]

/-- A line that declares no field adds nothing. -/
theorem foldlM_addField_of_none
    (h : ∀ f : Field, declaration? (f.key keyPrefix).toList line = none) :
    Field.all.foldlM (addField keyPrefix line note) found = .ok found := by
  simp only [Field.all, List.foldlM_cons, List.foldlM_nil, addField_of_none (h _), ok_bind]
  rfl

/-- A line adds the one field that it declares. -/
theorem foldlM_addField_of_some (h : declaration? (f.key keyPrefix).toList line = some d) :
    Field.all.foldlM (addField keyPrefix line note) found =
      addField keyPrefix line note found f := by
  have hothers (g : Field) (found : Found α) (hne : g ≠ f) :
      addField keyPrefix line note found g = .ok found :=
    addField_of_none (Field.declaration?_eq_none h hne)
  have hpure (x : Except Error (Found α)) : (x >>= fun y => .ok y) = x := bind_pure x
  cases f <;> simp [Field.all, hothers, ok_bind, hpure]

end

/-- A line that repeats no key is added to what has been found. -/
theorem Covers.step (h : Covers keyPrefix found before)
    (hline : ∀ f, ¬ Repeats keyPrefix f before line) (seen rest : List Char) :
    ∃ found', Field.all.foldlM (addField keyPrefix line (·.within seen rest)) found = .ok found' ∧
      Covers keyPrefix found' (before ++ [line]) := by
  by_cases hsets : ∃ f, Sets keyPrefix f line
  · obtain ⟨f, hf⟩ := hsets
    obtain ⟨d, hd⟩ := sets_iff.1 hf
    have hnone : found f = none := by
      rw [← Option.not_isSome_iff_eq_none, h f]
      exact fun hbefore => hline f ⟨hf, hbefore⟩
    refine ⟨fun g => if g = f then some (d.within seen rest) else found g, ?_, fun g => ?_⟩
    · rw [foldlM_addField_of_some hd, addField, hd, hnone]
    · by_cases hg : g = f
      · subst hg
        simp [hf]
      · have hother : ¬ Sets keyPrefix g line := by
          rw [not_sets_iff]
          exact Field.declaration?_eq_none hd hg
        simp [hg, h g, hother]
  · have hnone (f : Field) : ¬ Sets keyPrefix f line := fun hf => hsets ⟨f, hf⟩
    refine ⟨found, foldlM_addField_of_none fun f => not_sets_iff.1 (hnone f), fun f => ?_⟩
    simp [h f, hnone f]

/-- **The scan passes over lines that repeat no key.** -/
theorem Covers.scan_append {past : List (List Char)} (h : Covers keyPrefix found past)
    (hnone : NoneRepeats keyPrefix (past ++ before)) (seen : List Char)
    (rest : List (List Char)) :
    ∃ found', scan keyPrefix seen found (before ++ rest) =
        scan keyPrefix (seen ++ before.flatten) found' rest ∧
      Covers keyPrefix found' (past ++ before) := by
  -- by induction on the lines, which join the past one by one
  induction before generalizing past found seen with
  | nil => exact ⟨found, by simp, by simpa using h⟩
  | cons line before ih =>
    obtain ⟨found₁, hstep, hfound₁⟩ :=
      h.step (fun f => hnone past line before f rfl) seen (before ++ rest).flatten
    obtain ⟨found₂, hscan, hfound₂⟩ := ih hfound₁ (by simpa using hnone) (seen ++ line)
    refine ⟨found₂, ?_, by simpa using hfound₂⟩
    rw [List.cons_append, scan, hstep, ok_bind, hscan]
    simp

theorem covers_nil : Covers keyPrefix (fun _ => none) [] := fun f => by simp

theorem exists_scan_of_noneRepeats (h : NoneRepeats keyPrefix ls) :
    ∃ found, scan keyPrefix [] (fun _ => none) ls = .ok found ∧ Covers keyPrefix found ls := by
  obtain ⟨found, hscan, hfound⟩ := covers_nil.scan_append h [] []
  rw [List.append_nil] at hscan
  exact ⟨found, hscan, hfound⟩

/-- **The scan stops at the first line that repeats a key.** -/
theorem scan_of_repeats (hfirst : NoneRepeats keyPrefix before)
    (h : Repeats keyPrefix f before line) :
    scan keyPrefix [] (fun _ => none) (before ++ line :: after) =
      .error (.repeatedField (f.key keyPrefix)) := by
  obtain ⟨found, hscan, hfound⟩ := covers_nil.scan_append hfirst [] (line :: after)
  obtain ⟨hline, hbefore⟩ := h
  obtain ⟨d, hd⟩ := sets_iff.1 hline
  obtain ⟨e, he⟩ := Option.isSome_iff_exists.1 ((hfound f).2 hbefore)
  rw [hscan, scan, foldlM_addField_of_some hd, addField, hd]
  simp only [he]
  rfl

/-- Where a line repeats a key, there is a first line that does. -/
theorem noneRepeats_or (keyPrefix : String) (ls : List (List Char)) :
    NoneRepeats keyPrefix ls ∨ ∃ before line after f, ls = before ++ line :: after ∧
      NoneRepeats keyPrefix before ∧ Repeats keyPrefix f before line := by
  induction ls using List.reverseRecOn with
  | nil => exact .inl fun before line after f h => by simp at h
  | append_singleton ls last ih =>
    rcases ih with hnone | ⟨before, line, after, f, rfl, hfirst, hrepeats⟩
    · by_cases hlast : ∃ f, Repeats keyPrefix f ls last
      · obtain ⟨f, hf⟩ := hlast
        exact .inr ⟨ls, last, [], f, rfl, hnone, hf⟩
      · refine .inl fun before line after f h hf => ?_
        rcases List.eq_nil_or_concat after with rfl | ⟨after, l, rfl⟩
        · obtain ⟨rfl, hl⟩ := List.append_inj' h rfl
          cases hl
          exact hlast ⟨f, hf⟩
        · rw [List.concat_eq_append, ← List.cons_append, ← List.append_assoc] at h
          exact hnone before line after f (List.append_inj' h rfl).1 hf
    · exact .inr ⟨before, line, after ++ [last], f, by simp, hfirst, hrepeats⟩

/-- Where no line repeats a key, a key that a line gives a value is not given one by another
line. -/
theorem NoneRepeats.others (hnone : NoneRepeats keyPrefix (before ++ line :: after))
    (h : Sets keyPrefix f line) : ∀ l ∈ before ++ after, ¬ Sets keyPrefix f l := by
  intro l hl hs
  rcases List.mem_append.1 hl with hl | hl
  · exact hnone before line after f rfl ⟨h, l, hl, hs⟩
  · obtain ⟨after₁, after₂, rfl⟩ := List.append_of_mem hl
    exact hnone (before ++ line :: after₁) l after₂ f (by simp) ⟨hs, line, by simp, h⟩

/-! ### Missing keys and values -/

/-- A line gives the key of a field a value that spells the number. -/
def Given (keyPrefix : String) (ls : List (List Char)) (f : Field) (n : UInt32) : Prop :=
  ∃ l ∈ ls, ∃ value, Gives (f.key keyPrefix).toList value l ∧ Spells value n

/-- The fields that are looked for before a field. -/
def Field.earlier (f : Field) : List Field := Field.all.takeWhile (· ≠ f)

/-- What a text with these lines is read as. -/
inductive Reads (keyPrefix : String) (ls : List (List Char)) : Except Error VersionFile → Prop
  /-- The first line that repeats a key is reported, whatever else there is. -/
  | repeated {before after : List (List Char)} {line : List Char} {f : Field}
    (hls : ls = before ++ line :: after)
    (hfirst : NoneRepeats keyPrefix before) (hrepeats : Repeats keyPrefix f before line) :
    Reads keyPrefix ls (.error (.repeatedField (f.key keyPrefix)))
  /-- The first field at fault has no line. -/
  | missing {f : Field} (hnone : NoneRepeats keyPrefix ls)
    (hearlier : ∀ g ∈ f.earlier, ∃ n, Given keyPrefix ls g n)
    (hmissing : ∀ l ∈ ls, ¬ Sets keyPrefix f l) :
    Reads keyPrefix ls (.error (.missingField (f.key keyPrefix)))
  /-- The first field at fault has a value that spells no number. -/
  | misspelt {f : Field} {l value : List Char} (hnone : NoneRepeats keyPrefix ls)
    (hearlier : ∀ g ∈ f.earlier, ∃ n, Given keyPrefix ls g n) (hl : l ∈ ls)
    (hgives : Gives (f.key keyPrefix).toList value l) (hvalue : ∀ n, ¬ Spells value n) :
    Reads keyPrefix ls (.error (.version
      (f.key keyPrefix ++ " value '" ++ String.ofList value ++ "' is not a version number")))
  /-- No field is at fault: the file is the text, taken apart at the value of the patch number. -/
  | file {file : VersionFile} {before after : List (List Char)} {d : Declaration}
    (hnone : NoneRepeats keyPrefix ls)
    (hgiven : ∀ f : Field, Given keyPrefix ls f (f.of file.version))
    (hls : ls = before ++ d.text :: after)
    (hpatch : d.Declares (Field.key keyPrefix .patch).toList)
    (hparts : d.within before.flatten after.flatten = ⟨file.before, file.patchValue, file.after⟩) :
    Reads keyPrefix ls (.ok file)

theorem declared_of_none (h : found f = none) :
    declared keyPrefix found f = .error (.missingField (f.key keyPrefix)) := by
  rw [declared, h]

theorem declared_of_not_spells (h : found f = some d) (hvalue : ∀ n, ¬ Spells d.value n) :
    declared keyPrefix found f = .error (.version
      (f.key keyPrefix ++ " value '" ++ String.ofList d.value ++ "' is not a version number")) := by
  have hnumber : number? d.value = none := by
    rw [Option.eq_none_iff_forall_ne_some]
    exact fun n hn => hvalue n (number?_eq_some_iff.1 hn)
  simp only [declared, h, hnumber]

theorem declared_of_spells (h : found f = some d) (hvalue : Spells d.value n) :
    declared keyPrefix found f = .ok (d, n) :=
  declared_eq_ok_iff.2 ⟨h, number?_eq_some_iff.2 hvalue⟩

/-- What the scan has found of a field is the value that a line gives it. -/
theorem exists_found_of_gives (hscan : scan keyPrefix [] (fun _ => none) ls = .ok found)
    (hl : line ∈ ls) (h : Gives (f.key keyPrefix).toList value line) :
    ∃ d, found f = some d ∧ d.value = value := by
  obtain ⟨e, he, rfl⟩ := Field.gives_iff.1 h
  have hlist := scan_eq_ok_iff.1 hscan f
  have hvalues := congrArg (List.map (·.value)) hlist
  rw [Option.toList_none, List.nil_append, map_value_declarations] at hvalues
  have hmem : e.value ∈ (found f).toList.map (·.value) := by
    rw [hvalues]
    exact List.mem_map_of_mem (List.mem_filterMap.2 ⟨line, hl, he⟩)
  obtain ⟨d, hd, hvalue⟩ := List.mem_map.1 hmem
  exact ⟨d, Option.mem_toList.1 hd, hvalue⟩

theorem exists_declared_of_given (hscan : scan keyPrefix [] (fun _ => none) ls = .ok found)
    (h : Given keyPrefix ls f n) : ∃ d, declared keyPrefix found f = .ok (d, n) := by
  obtain ⟨l, hl, value, hgives, hspells⟩ := h
  obtain ⟨d, hd, rfl⟩ := exists_found_of_gives hscan hl hgives
  exact ⟨d, declared_of_spells hd hspells⟩

/-- **The first field at fault decides.** -/
theorem parse_of_declared_error
    (hscan : scan keyPrefix [] (fun _ => none) (lines text.toList) = .ok found)
    (hearlier : ∀ g ∈ f.earlier, ∃ n, Given keyPrefix (lines text.toList) g n)
    (h : declared keyPrefix found f = .error e) : parse text keyPrefix = .error e := by
  have hok (g : Field) (hg : g ∈ f.earlier) : ∃ x, declared keyPrefix found g = .ok x := by
    obtain ⟨n, hn⟩ := hearlier g hg
    obtain ⟨d, hd⟩ := exists_declared_of_given hscan hn
    exact ⟨_, hd⟩
  cases f with
  | major => simp only [parse, hscan, h, ok_bind, error_bind]
  | minor =>
    obtain ⟨⟨d, n⟩, hmajor⟩ := hok .major (by decide)
    simp only [parse, hscan, hmajor, h, ok_bind, error_bind]
  | patch =>
    obtain ⟨⟨d, n⟩, hmajor⟩ := hok .major (by decide)
    obtain ⟨⟨d', n'⟩, hminor⟩ := hok .minor (by decide)
    simp only [parse, hscan, hmajor, hminor, h, ok_bind, error_bind]

/-- A field is given a number, or it has no line, or a line gives it something else. -/
theorem given_or (keyPrefix : String) (ls : List (List Char)) (f : Field) :
    (∃ n, Given keyPrefix ls f n) ∨ (∀ l ∈ ls, ¬ Sets keyPrefix f l) ∨
      ∃ l ∈ ls, ∃ value, Gives (f.key keyPrefix).toList value l ∧ ∀ n, ¬ Spells value n := by
  by_cases hsets : ∃ l ∈ ls, Sets keyPrefix f l
  · obtain ⟨l, hl, value, hgives⟩ := hsets
    by_cases hspells : ∃ n, Spells value n
    · obtain ⟨n, hn⟩ := hspells
      exact .inl ⟨n, l, hl, value, hgives, hn⟩
    · exact .inr (.inr ⟨l, hl, value, hgives, fun n hn => hspells ⟨n, hn⟩⟩)
  · exact .inr (.inl fun l hl hs => hsets ⟨l, hl, hs⟩)

/-! ### All texts -/

/-- What is read is what the lines say. -/
theorem Reads.parse_eq {r : Except Error VersionFile}
    (h : Reads keyPrefix (lines text.toList) r) : parse text keyPrefix = r := by
  cases h with
  | repeated hls hfirst hrepeats =>
    rw [parse, hls, scan_of_repeats hfirst hrepeats, error_bind]
  | missing hnone hearlier hmissing =>
    obtain ⟨found, hscan, hfound⟩ := exists_scan_of_noneRepeats hnone
    refine parse_of_declared_error hscan hearlier (declared_of_none ?_)
    rw [← Option.not_isSome_iff_eq_none, hfound]
    rintro ⟨l, hl, hs⟩
    exact hmissing l hl hs
  | misspelt hnone hearlier hl hgives hvalue =>
    obtain ⟨found, hscan, -⟩ := exists_scan_of_noneRepeats hnone
    obtain ⟨d, hd, rfl⟩ := exists_found_of_gives hscan hl hgives
    exact parse_of_declared_error hscan hearlier (declared_of_not_spells hd hvalue)
  | @file file before after d hnone hgiven hls hpatch hparts =>
    obtain ⟨found, hscan, -⟩ := exists_scan_of_noneRepeats hnone
    have hkey := Field.patch.exists_not_isBlank keyPrefix
    have hfields (f : Field) : ∃ d, declarations (f.key keyPrefix).toList [] (lines text.toList) =
        [d] ∧ number? d.value = some (f.of file.version) := by
      obtain ⟨d, hd⟩ := exists_declared_of_given hscan (hgiven f)
      obtain ⟨hd, hnumber⟩ := declared_eq_ok_iff.1 hd
      have hlist := scan_eq_ok_iff.1 hscan f
      rw [hd, Option.toList_none, List.nil_append] at hlist
      exact ⟨d, hlist.symm, hnumber⟩
    have hline : declaration? (Field.key keyPrefix .patch).toList d.text = some d :=
      (declaration?_eq_some_iff (Field.patch.exists_not_isBlank keyPrefix)).2 ⟨rfl, hpatch⟩
    rw [hls] at hnone
    refine parse_eq_ok_iff.2 ⟨hfields, declarations_eq_singleton_iff.2
      ⟨before, d.text, after, d, hls, fun l hl => ?_, hline, hparts⟩⟩
    exact not_sets_iff.1 (hnone.others (sets_iff.2 ⟨d, hline⟩) l hl)

/-- A text that is a version file is read as one. -/
theorem reads_of_parse (h : parse text keyPrefix = .ok file)
    (hnone : NoneRepeats keyPrefix (lines text.toList)) :
    Reads keyPrefix (lines text.toList) (.ok file) := by
  obtain ⟨hfields, hpatch⟩ := parse_eq_ok_iff.1 h
  obtain ⟨before, line, after, d, hls, -, hd, hparts⟩ := declarations_eq_singleton_iff.1 hpatch
  obtain ⟨rfl, hdeclares⟩ :=
    (declaration?_eq_some_iff (Field.patch.exists_not_isBlank keyPrefix)).1 hd
  refine .file hnone (fun f => ?_) hls hdeclares hparts
  obtain ⟨e, he, hnumber⟩ := hfields f
  obtain ⟨ls₁, l, ls₂, e', hls', -, he', rfl⟩ := declarations_eq_singleton_iff.1 he
  exact ⟨l, by simp [hls'], e'.value, Field.gives_iff.2 ⟨e', he', rfl⟩,
    number?_eq_some_iff.1 hnumber⟩

/-- Every text is read as something. -/
theorem reads_parse (text keyPrefix : String) :
    Reads keyPrefix (lines text.toList) (parse text keyPrefix) := by
  -- a fault is what `parse` gives, since it gives whatever is read
  have hfault {e : Error} (h : Reads keyPrefix (lines text.toList) (.error e)) :
      Reads keyPrefix (lines text.toList) (parse text keyPrefix) := by rwa [h.parse_eq]
  rcases noneRepeats_or keyPrefix (lines text.toList) with
    hnone | ⟨before, line, after, f, hls, hfirst, hrepeats⟩
  · have hfields (f : Field) (hearlier : ∀ g ∈ f.earlier, ∃ n,
        Given keyPrefix (lines text.toList) g n) :
        (∃ n, Given keyPrefix (lines text.toList) f n) ∨
          Reads keyPrefix (lines text.toList) (parse text keyPrefix) := by
      rcases given_or keyPrefix (lines text.toList) f with
        hgiven | hmissing | ⟨l, hl, value, hgives, hvalue⟩
      · exact .inl hgiven
      · exact .inr (hfault (.missing hnone hearlier hmissing))
      · exact .inr (hfault (.misspelt hnone hearlier hl hgives hvalue))
    obtain ⟨major, hmajor⟩ | hreads := hfields .major (by simp [Field.earlier, Field.all])
    · have hminor_earlier : ∀ g ∈ Field.minor.earlier, ∃ n,
          Given keyPrefix (lines text.toList) g n := by
        simpa [Field.earlier, Field.all] using ⟨major, hmajor⟩
      obtain ⟨minor, hminor⟩ | hreads := hfields .minor hminor_earlier
      · have hpatch_earlier : ∀ g ∈ Field.patch.earlier, ∃ n,
            Given keyPrefix (lines text.toList) g n := by
          simpa [Field.earlier, Field.all] using ⟨⟨major, hmajor⟩, ⟨minor, hminor⟩⟩
        obtain ⟨patch, hpatch⟩ | hreads := hfields .patch hpatch_earlier
        · obtain ⟨found, hscan, -⟩ := exists_scan_of_noneRepeats hnone
          obtain ⟨d₁, h₁⟩ := exists_declared_of_given hscan hmajor
          obtain ⟨d₂, h₂⟩ := exists_declared_of_given hscan hminor
          obtain ⟨d₃, h₃⟩ := exists_declared_of_given hscan hpatch
          have hparse : parse text keyPrefix =
              .ok ⟨d₃.before, d₃.value, d₃.after, ⟨major, minor, patch⟩⟩ := by
            simp only [parse, hscan, h₁, h₂, h₃, ok_bind]
            rfl
          rw [hparse]
          exact reads_of_parse hparse hnone
        · exact hreads
      · exact hreads
    · exact hreads
  · exact hfault (.repeated hls hfirst hrepeats)

/-- **A text is read as exactly what its lines say.** No line gives two of the keys a value. The
first line that repeats a key is reported before all else; then the first field in the order of
`Field.all` that has no line, or whose value spells no number; and a text without such a fault is
a version file with the numbers that its lines spell. -/
theorem parse_eq_iff_reads (text keyPrefix : String) :
    (∀ (line value value' : List Char) (f g : Field), Gives (f.key keyPrefix).toList value line →
      Gives (g.key keyPrefix).toList value' line → f = g ∧ value = value') ∧
    ∀ r, parse text keyPrefix = r ↔ Reads keyPrefix (lines text.toList) r :=
  ⟨fun _ _ _ _ _ h h' => h.unique h',
    fun _ => ⟨fun h => h ▸ reads_parse text keyPrefix, fun h => h.parse_eq⟩⟩

end VersionFile
end NightlyRelease
