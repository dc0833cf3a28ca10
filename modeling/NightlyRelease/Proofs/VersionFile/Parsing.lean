/-
# What a version file declares, and what a bump makes of it

A text holds for each key a list of declarations, one for each line that declares
the key (`declarations`).  The scan keeps at most one declaration for each field
and so gives a result exactly if all these lists are that short (`scan_eq_ok_iff`);
a text is a version file exactly if each field is declared once, with a number
(`parse_eq_ok_iff`).

A bump writes another value in place of the declared patch number.  The line of
the patch number stays a line that declares it and declares no other key, and all
other lines stay as they are.  So the new text is a version file again, which
declares the bumped version (`parse_bumped`).
-/

import NightlyRelease.Proofs.Text.Lines
import NightlyRelease.Proofs.Version.Order
import NightlyRelease.Proofs.Result
import NightlyRelease.Proofs.VersionFile.Grammar
import NightlyRelease.VersionFile.Basic

namespace NightlyRelease
namespace VersionFile

open Text

/-- The declarations of a key in some lines, each in the whole text; `seen` is the text before
the lines. -/
def declarations (key seen : List Char) : List (List Char) → List Declaration
  | [] => []
  | line :: rest =>
    (declaration? key line).toList.map (·.within seen rest.flatten) ++
      declarations key (seen ++ line) rest

/-- The number of a version that a field declares. -/
def Field.of : Field → Version → UInt32
  | major, v => v.major
  | minor, v => v.minor
  | patch, v => v.patch

variable {key seen line rest a b v : List Char} {ls ls₁ ls₂ : List (List Char)} {d : Declaration}
variable {keyPrefix text : String} {f : Field} {fs : List Field}
variable {α : Type} {note : Declaration → α} {found found' : Found α}
variable {file : VersionFile} {bumped : Bumped}

/-! ### The scan -/

/-- The start of a list with one element at most is such a list, too. -/
theorem toList_head?_of_append {a b : List α} {o : Option α} (h : a ++ b = o.toList) :
    a.head?.toList = a := by
  rcases a with _ | ⟨x, _ | ⟨y, r⟩⟩
  · rfl
  · rfl
  · cases o <;> simp at h

theorem toList_inj {o o' : Option α} : o.toList = o'.toList ↔ o = o' := by
  cases o <;> cases o' <;> simp

theorem found_eq_iff : found' = found ↔ ∀ g, (found' g).toList = (found g).toList := by
  simp only [funext_iff, toList_inj]

theorem addField_eq_ok_iff :
    addField keyPrefix line note found f = .ok found' ↔
      ∀ g, (found' g).toList = (found g).toList ++ if g = f then
        (declaration? (f.key keyPrefix).toList line).toList.map note else [] := by
  unfold addField
  cases declaration? (f.key keyPrefix).toList line with
  | none => simp [← found_eq_iff, eq_comm]
  | some d =>
    cases hf : found f with
    | some e =>
      refine iff_of_false (by simp) fun h => ?_
      have := h f
      cases hf' : found' f <;> simp [hf, hf'] at this
    | none =>
      rw [Except.ok.injEq, eq_comm, found_eq_iff]
      refine forall_congr' fun g => ?_
      by_cases hg : g = f
      · subst hg; simp [hf]
      · simp [hg]

/-- Adding the declarations of some fields appends to the lists of these fields. -/
theorem foldlM_addField_eq_ok_iff (hfs : fs.Nodup) :
    fs.foldlM (addField keyPrefix line note) found = .ok found' ↔
      ∀ g, (found' g).toList = (found g).toList ++ if g ∈ fs then
        (declaration? (g.key keyPrefix).toList line).toList.map note else [] := by
  induction fs generalizing found with
  | nil =>
    simp only [List.foldlM_nil, pure_eq_ok_iff, List.not_mem_nil, if_false, List.append_nil]
    rw [eq_comm, found_eq_iff]
  | cons f fs ih =>
    obtain ⟨hf, hfs⟩ := List.nodup_cons.1 hfs
    simp only [List.foldlM_cons, bind_eq_ok_iff, addField_eq_ok_iff, ih hfs]
    constructor
    · rintro ⟨mid, hmid, h⟩ g
      rw [h g, hmid g, List.append_assoc]
      by_cases hg : g = f
      · subst hg; simp [hf]
      · simp [hg]
    · intro h
      refine ⟨fun g => if g = f then found' g else found g, fun g => ?_, fun g => ?_⟩
      · by_cases hg : g = f
        · subst hg; simp [h g]
        · simp [hg]
      · by_cases hg : g = f
        · subst hg; simp [hf]
        · simp [hg, h g]

/-- **The scan finds all declarations,** and gives a result if there is one for a field at most. -/
theorem scan_eq_ok_iff {found found' : Found Declaration} :
    scan keyPrefix seen found ls = .ok found' ↔
      ∀ f, (found' f).toList =
        (found f).toList ++ declarations (f.key keyPrefix).toList seen ls := by
  induction ls generalizing seen found with
  | nil => simp [scan, declarations, ← found_eq_iff, eq_comm]
  | cons line rest ih =>
    have hall : ∀ g, g ∈ Field.all := by rintro (_ | _ | _) <;> decide
    simp only [scan, bind_eq_ok_iff, foldlM_addField_eq_ok_iff (show Field.all.Nodup by decide),
      hall, if_true, ih, declarations]
    constructor
    · rintro ⟨mid, hmid, h⟩ f
      rw [h f, hmid f, List.append_assoc]
    · intro h
      refine ⟨fun f => ((found f).toList ++ (declaration? (f.key keyPrefix).toList line).toList.map
        (·.within seen rest.flatten)).head?, fun f => ?_, fun f => ?_⟩
      · exact toList_head?_of_append ((List.append_assoc ..).trans (h f).symm)
      · rw [toList_head?_of_append ((List.append_assoc ..).trans (h f).symm), h f,
          List.append_assoc]

theorem declared_eq_ok_iff {found : Found Declaration} {n : UInt32} :
    declared keyPrefix found f = .ok (d, n) ↔ found f = some d ∧ number? d.value = some n := by
  unfold declared
  cases found f with
  | none => simp
  | some e =>
    simp only [Option.some.injEq]
    constructor
    · intro h
      split at h
      · next m hm => cases h; exact ⟨rfl, hm⟩
      · cases h
    · rintro ⟨rfl, hn⟩
      simp only [hn]

/-- **A text is a version file exactly if each field is declared once, with a number.** -/
theorem parse_eq_ok_iff :
    parse text keyPrefix = .ok file ↔
      (∀ f, ∃ d, declarations (Field.key keyPrefix f).toList [] (lines text.toList) = [d] ∧
        number? d.value = some (f.of file.version)) ∧
      declarations (Field.key keyPrefix .patch).toList [] (lines text.toList) =
        [⟨file.before, file.patchValue, file.after⟩] := by
  simp only [parse, bind_eq_ok_iff, pure_eq_ok_iff, scan_eq_ok_iff, Option.toList_none,
    List.nil_append, Prod.exists, declared_eq_ok_iff]
  constructor
  · rintro ⟨found, hfound, d₁, n₁, ⟨h₁, hn₁⟩, d₂, n₂, ⟨h₂, hn₂⟩, d₃, n₃, ⟨h₃, hn₃⟩, rfl⟩
    refine ⟨?_, by rw [← hfound, h₃]; rfl⟩
    rintro (_ | _ | _)
    · exact ⟨d₁, by rw [← hfound, h₁]; rfl, hn₁⟩
    · exact ⟨d₂, by rw [← hfound, h₂]; rfl, hn₂⟩
    · exact ⟨d₃, by rw [← hfound, h₃]; rfl, hn₃⟩
  · rintro ⟨h, hpatch⟩
    obtain ⟨d₁, h₁, hn₁⟩ := h .major
    obtain ⟨d₂, h₂, hn₂⟩ := h .minor
    obtain ⟨d₃, h₃, hn₃⟩ := h .patch
    obtain rfl : d₃ = ⟨file.before, file.patchValue, file.after⟩ := by
      simpa [h₃] using hpatch
    refine ⟨fun f => (declarations (f.key keyPrefix).toList [] (lines text.toList)).head?,
      fun f => ?_, d₁, _, ⟨by simp [h₁], hn₁⟩, d₂, _, ⟨by simp [h₂], hn₂⟩,
      _, _, ⟨by simp [h₃], hn₃⟩, rfl⟩
    obtain ⟨d, hd, -⟩ := h f
    simp [hd]

/-! ### The text of a version file -/

theorem declarations_eq_nil_iff :
    declarations key seen ls = [] ↔ ∀ l ∈ ls, declaration? key l = none := by
  induction ls generalizing seen with
  | nil => simp [declarations]
  | cons line rest ih => simp [declarations, ih]

/-- The values that are declared do not depend on the text around the lines. -/
theorem map_value_declarations :
    (declarations key seen ls).map (·.value) =
      (ls.filterMap (declaration? key)).map (·.value) := by
  induction ls generalizing seen with
  | nil => rfl
  | cons line rest ih =>
    cases h : declaration? key line <;>
      simp [declarations, h, ih, Declaration.within]

/-- **A key is declared once** if one line declares it and the other lines do not. -/
theorem declarations_eq_singleton_iff :
    declarations key seen ls = [d] ↔ ∃ ls₁ line ls₂ e, ls = ls₁ ++ line :: ls₂ ∧
      (∀ l ∈ ls₁ ++ ls₂, declaration? key l = none) ∧ declaration? key line = some e ∧
      e.within (seen ++ ls₁.flatten) ls₂.flatten = d := by
  induction ls generalizing seen with
  | nil => simp [declarations]
  | cons line rest ih =>
    cases h : declaration? key line with
    | none =>
      simp only [declarations, h, Option.toList_none, List.map_nil, List.nil_append, ih]
      constructor
      · rintro ⟨ls₁, line', ls₂, e, rfl, hnone, he, rfl⟩
        exact ⟨line :: ls₁, line', ls₂, e, rfl, by simpa [h] using hnone, he, by simp⟩
      · rintro ⟨_ | ⟨l, ls₁⟩, line', ls₂, e, hls, hnone, he, rfl⟩
        · cases hls
          rw [h] at he
          cases he
        · cases hls
          exact ⟨ls₁, line', ls₂, e, rfl, fun l hl => hnone l (List.mem_cons_of_mem _ hl), he,
            by simp⟩
    | some e =>
      simp only [declarations, h, Option.toList_some, List.map_cons, List.map_nil,
        List.singleton_append, List.cons.injEq, declarations_eq_nil_iff]
      constructor
      · rintro ⟨rfl, hnone⟩
        exact ⟨[], line, rest, e, rfl, hnone, h, by simp⟩
      · rintro ⟨_ | ⟨l, ls₁⟩, line', ls₂, e', hls, hnone, he, rfl⟩
        · cases hls
          rw [h] at he
          cases he
          exact ⟨by simp, hnone⟩
        · cases hls
          have := hnone line List.mem_cons_self
          rw [h] at this
          cases this

namespace Field

theorem exists_not_isBlank (keyPrefix : String) (f : Field) :
    ∃ c ∈ (f.key keyPrefix).toList, isBlank c = false :=
  ⟨'_', by simp [key], by decide⟩

/-- The blanks with which a key starts are those of the prefix. -/
theorem takeWhile_key (keyPrefix : String) (f : Field) :
    (f.key keyPrefix).toList.takeWhile isBlank = keyPrefix.toList.takeWhile isBlank := by
  have hstop : ('_' :: f.name.toList).takeWhile isBlank = [] := by
    rw [List.takeWhile_cons, if_neg (by decide)]
  have hkey : (f.key keyPrefix).toList = keyPrefix.toList ++ '_' :: f.name.toList := by
    simp [key]
  rw [hkey, List.takeWhile_append, hstop, List.append_nil]
  split
  · next h => exact ((List.takeWhile_prefix _).eq_of_length h).symm
  · rfl

theorem length_key (keyPrefix : String) (f g : Field) :
    (f.key keyPrefix).toList.length = (g.key keyPrefix).toList.length := by
  cases f <;> cases g <;> simp [key, name]

theorem key_inj {g : Field} (h : (f.key keyPrefix).toList = (g.key keyPrefix).toList) : f = g := by
  have hname : f.name = g.name := String.toList_inj.1 (by simpa [key] using h)
  cases f <;> cases g <;> first | rfl | exact absurd hname (by decide)

/-- A line declares one field at most. -/
theorem declaration?_eq_none {g : Field}
    (h : declaration? (f.key keyPrefix).toList line = some d) (hne : g ≠ f) :
    declaration? (g.key keyPrefix).toList line = none := by
  cases hg : declaration? (g.key keyPrefix).toList line with
  | none => rfl
  | some e =>
    have hf := f.exists_not_isBlank keyPrefix
    have hg' := g.exists_not_isBlank keyPrefix
    obtain ⟨hdtext, hd⟩ := (declaration?_eq_some_iff hf).1 h
    obtain ⟨hetext, he⟩ := (declaration?_eq_some_iff hg').1 hg
    exact absurd (key_inj (he.key_unique hd (hetext.trans hdtext.symm) hg' hf
      ((g.takeWhile_key _).trans (f.takeWhile_key _).symm) (g.length_key _ f))) hne

end Field

/-! ### Another patch number -/

theorem declaration?_withValue (hkey : ∃ c ∈ key, isBlank c = false)
    (h : declaration? key line = some d) (hne : v ≠ []) (hv : ∀ c ∈ v, isValueChar c = true) :
    declaration? key (d.before ++ v ++ d.after) = some { d with value := v } :=
  (declaration?_eq_some_iff hkey).2
    ⟨rfl, ((declaration?_eq_some_iff hkey).1 h).2.withValue hne hv⟩

/-- The lines of a text in which another value stands in place of a declared one. -/
theorem lines_withValue (hkey : ∃ c ∈ key, isBlank c = false)
    (h : declaration? key line = some d) (hls : AreLines (ls₁ ++ line :: ls₂)) (hv : '\n' ∉ v) :
    lines (ls₁.flatten ++ (d.before ++ v ++ d.after) ++ ls₂.flatten) =
      ls₁ ++ (d.before ++ v ++ d.after) :: ls₂ := by
  obtain ⟨rfl, hd⟩ := (declaration?_eq_some_iff hkey).1 h
  have hafter : d.after ≠ [] := by
    obtain ⟨blanks, rest, heq, -⟩ := hd.after
    simp [heq]
  have := lines_flatten (hls.replace hafter hv)
  rwa [List.flatten_append, List.flatten_cons, ← List.append_assoc] at this

/-- **A version file with another number as its patch value** declares this number and is the
same in all the rest. -/
theorem parse_withValue {n : UInt32} (h : parse text keyPrefix = .ok file)
    (hv : ∀ c ∈ v, isValueChar c = true) (hn : number? v = some n) :
    parse (String.ofList (file.before ++ v ++ file.after)) keyPrefix =
      .ok { file with patchValue := v, version := { file.version with patch := n } } := by
  have hne : v ≠ [] := by rintro rfl; cases hn
  have hline : '\n' ∉ v := fun hmem => absurd (hv _ hmem) (by decide)
  have hkey := Field.patch.exists_not_isBlank keyPrefix
  obtain ⟨hfields, hpatch⟩ := parse_eq_ok_iff.1 h
  obtain ⟨ls₁, line, ls₂, e, hls, hnone, he, hwithin⟩ := declarations_eq_singleton_iff.1 hpatch
  obtain ⟨hbefore, -, hafter⟩ := Declaration.mk.inj hwithin
  have hlines : lines (file.before ++ v ++ file.after) =
      ls₁ ++ (e.before ++ v ++ e.after) :: ls₂ := by
    rw [← lines_withValue hkey he (hls ▸ areLines_lines _) hline, ← hbefore, ← hafter]
    simp
  have he' := declaration?_withValue hkey he hne hv
  rw [parse_eq_ok_iff, String.toList_ofList, hlines]
  have hpatch' : declarations (Field.key keyPrefix .patch).toList []
      (ls₁ ++ (e.before ++ v ++ e.after) :: ls₂) = [⟨file.before, v, file.after⟩] :=
    declarations_eq_singleton_iff.2 ⟨ls₁, _, ls₂, _, rfl, hnone, he', by
      rw [← hbefore, ← hafter]; rfl⟩
  refine ⟨fun f => ?_, hpatch'⟩
  by_cases hf : f = .patch
  · subst hf
    exact ⟨_, hpatch', hn⟩
  · -- neither the old line nor the new one declares another field
    obtain ⟨d, hd, hdn⟩ := hfields f
    have hvalues := congrArg (List.map (·.value)) hd
    simp only [hls, map_value_declarations, List.filterMap_append, List.filterMap_cons,
      Field.declaration?_eq_none he hf] at hvalues
    have hvalues' : (declarations (f.key keyPrefix).toList []
        (ls₁ ++ (e.before ++ v ++ e.after) :: ls₂)).map (·.value) = [d].map (·.value) := by
      simpa only [map_value_declarations, List.filterMap_append, List.filterMap_cons,
        Field.declaration?_eq_none he' hf] using hvalues
    obtain ⟨d', hd', hdvalue⟩ := List.map_eq_singleton_iff.1 hvalues'
    refine ⟨d', hd', ?_⟩
    rw [hdvalue, hdn]
    cases f with
    | major => rfl
    | minor => rfl
    | patch => exact absurd rfl hf

theorem number?_digits (n : UInt32) : number? (Decimal.digits n.toNat) = some n := by
  have hplus : ∀ r, Decimal.digits n.toNat ≠ '+' :: r := fun r hr =>
    absurd (Decimal.mem_digits (hr ▸ List.mem_cons_self)) (by decide)
  unfold number?
  split
  · next r heq => exact absurd heq (hplus r)
  · simp [Decimal.value?_digits, n.toNat_lt_size]

theorem bumpPatch_eq_ok_iff :
    file.bumpPatch = .ok bumped ↔ file.version.bumpPatch = .ok bumped.version ∧
      bumped.previous = file.version ∧ bumped.text = String.ofList
        (file.before ++ Decimal.digits bumped.version.patch.toNat ++ file.after) := by
  simp only [bumpPatch, bind_eq_ok_iff, pure_eq_ok_iff]
  constructor
  · rintro ⟨version, hversion, rfl⟩
    exact ⟨hversion, rfl, rfl⟩
  · rintro ⟨hversion, hprevious, htext⟩
    refine ⟨_, hversion, ?_⟩
    rw [← hprevious, ← htext]

/-- **A bumped version file is a version file** that declares the version of the bump. -/
theorem parse_bumped (h : parse text keyPrefix = .ok file) (hb : file.bumpPatch = .ok bumped) :
    parse bumped.text keyPrefix = .ok { file with
      patchValue := Decimal.digits bumped.version.patch.toNat, version := bumped.version } := by
  obtain ⟨hversion, -, htext⟩ := bumpPatch_eq_ok_iff.1 hb
  obtain ⟨-, hv⟩ := Version.bumpPatch_eq_ok_iff.1 hversion
  have hdigits : ∀ c ∈ Decimal.digits bumped.version.patch.toNat, isValueChar c = true := by
    intro c hc
    have hdigit := Decimal.mem_digits hc
    have hne : c ≠ ')' := by rintro rfl; cases hdigit
    simp [isValueChar, hne, Decimal.isBlank_of_isDigit hdigit]
  rw [htext, parse_withValue h hdigits (number?_digits _), hv]

/-- **A version file is its text,** taken apart at the patch value. -/
theorem text_of_parse (h : parse text keyPrefix = .ok file) : file.text = text := by
  obtain ⟨-, hpatch⟩ := parse_eq_ok_iff.1 h
  obtain ⟨ls₁, line, ls₂, e, hls, -, he, hwithin⟩ := declarations_eq_singleton_iff.1 hpatch
  obtain ⟨rfl, -⟩ := (declaration?_eq_some_iff (Field.patch.exists_not_isBlank _)).1 he
  have hparts := Declaration.text_within e ([] ++ ls₁.flatten) ls₂.flatten
  rw [hwithin, Declaration.text] at hparts
  rw [VersionFile.text, hparts, ← String.toList_inj, ← flatten_lines text.toList, hls]
  simp

/-- A version file holds the opening words of a declaration. -/
theorem mem_of_parse {c : Char} (h : parse text keyPrefix = .ok file) (hc : c ∈ opening) :
    c ∈ text.toList := by
  obtain ⟨-, hpatch⟩ := parse_eq_ok_iff.1 h
  obtain ⟨ls₁, line, ls₂, e, hls, -, he, -⟩ := declarations_eq_singleton_iff.1 hpatch
  obtain ⟨rfl, hd⟩ := (declaration?_eq_some_iff (Field.patch.exists_not_isBlank _)).1 he
  obtain ⟨indent, gap, sep, htext, -⟩ := hd.text_eq
  rw [← flatten_lines text.toList, hls, List.flatten_append, List.flatten_cons, htext]
  simp [hc]

end VersionFile
end NightlyRelease
