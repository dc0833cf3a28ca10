/-
# Byte offsets in a version file

A run reads a version file by byte offsets (`Located`), and what is proved about version
files is about the text before the patch value, the value, and the text after it.  The two
agree: a declaration that stands in a text is cut out of it at its span (`cut_span`), because
the offsets of a span are the lengths of two beginnings of the text.  So neither reading nor
bumping ever cuts a text outside it or within a character, whatever the text holds
(`Located.parse_eq`, `Located.bumpPatch_eq`), and the span of a version file that has been
read fits its text (`fits_located`).
-/

import Mathlib.Data.String.Basic
import NightlyRelease.Proofs.VersionFile.Parsing
import NightlyRelease.VersionFile.Located

namespace NightlyRelease
namespace VersionFile

open NightlyRelease.Action Text

variable {a b c key seen line rest : List Char} {ls : List (List Char)} {d : Declaration}
variable {keyPrefix text : String} {f : Field} {fs : List Field} {offset : Nat}
variable {file : VersionFile}

/-! ### Cuts -/

@[simp] theorem byteCount_nil : byteCount [] = 0 := rfl

theorem byteCount_append : byteCount (a ++ b) = byteCount a + byteCount b := by
  rw [byteCount, String.ofList_append, String.utf8ByteSize_append, byteCount, byteCount]

/-- A beginning of a text ends where a character of the text starts, or where the text ends. -/
theorem isValid_byteCount (h : text.toList = a ++ b) :
    String.Pos.Raw.IsValid text ⟨byteCount a⟩ :=
  String.Pos.Raw.isValid_iff_exists_append.2
    ⟨String.ofList a, String.ofList b, by rw [← String.ofList_append, ← h, String.ofList_toList],
      rfl⟩

/-- What stands between two beginnings of a text is cut out at their lengths. -/
theorem cut_byteCount (h : text.toList = a ++ b ++ c) :
    cut text (byteCount a) (byteCount (a ++ b)) = .ok (String.ofList b) := by
  have hstart : String.Pos.Raw.IsValid text ⟨byteCount a⟩ :=
    isValid_byteCount (h.trans (List.append_assoc ..))
  have hle : byteCount a ≤ byteCount (a ++ b) := byteCount_append ▸ Nat.le_add_right ..
  rw [cut, if_pos ⟨hle, String.Pos.Raw.isValid_eq_true_iff.2 hstart,
    String.Pos.Raw.isValid_eq_true_iff.2 (isValid_byteCount h)⟩]
  have hextract := String.extract_of_valid a b c
  rw [← h, String.ofList_toList, ← String.utf8ByteSize_ofList, ← String.utf8ByteSize_ofList]
    at hextract
  rw [byteCount_append]
  exact congrArg _ hextract

/-! ### Spans -/

/-- A span that can be cut out of a text: it lies in the text and cuts no character. -/
structure Span.Fits (s : Span) (text : String) : Prop where
  start_le : s.start ≤ s.stop
  stop_le : s.stop ≤ text.utf8ByteSize
  isValid_start : String.Pos.Raw.IsValid text ⟨s.start⟩
  isValid_stop : String.Pos.Raw.IsValid text ⟨s.stop⟩

/-- A declaration that is moved into a longer text stands at a later offset. -/
theorem span_within : (d.within seen rest).span offset = d.span (offset + byteCount seen) := by
  simp only [Declaration.span, Declaration.within, List.append_assoc, byteCount_append,
    Nat.add_assoc]

/-- The value of a declaration is what stands at its span. -/
theorem cut_span (h : text.toList = d.text) :
    cut text (d.span 0).start (d.span 0).stop = .ok (String.ofList d.value) := by
  simp only [Declaration.span, Nat.zero_add]
  exact cut_byteCount h

theorem fits_span (h : text.toList = d.text) : (d.span 0).Fits text := by
  have hstop := isValid_byteCount h
  refine ⟨?_, ?_, ?_, ?_⟩
  · simp only [Declaration.span, byteCount_append]
    omega
  · simpa only [Declaration.span, Nat.zero_add, String.byteIdx_rawEndPos] using
      String.Pos.Raw.le_iff.1 hstop.le_rawEndPos
  · simpa only [Declaration.span, Nat.zero_add] using
      isValid_byteCount (h.trans (List.append_assoc ..))
  · simpa only [Declaration.span, Nat.zero_add] using hstop

/-! ### The scan -/

section

variable {α β : Type} {note : Declaration → α} {found : Found α}

/-- What has been found, seen through a function. -/
def Found.map (g : α → β) (found : Found α) : Found β := fun f => (found f).map g

theorem Found.map_none (g : α → β) : Found.map g (fun _ => none) = fun _ => none := rfl

theorem addField_map (g : α → β) :
    addField keyPrefix line (g ∘ note) (found.map g) f =
      (addField keyPrefix line note found f).map (Found.map g) := by
  unfold addField Found.map
  cases declaration? (f.key keyPrefix).toList line with
  | none => rfl
  | some d =>
    cases found f with
    | some _ => rfl
    | none =>
      refine congrArg Except.ok (funext fun h => ?_)
      by_cases hh : h = f <;> simp [hh]

theorem foldlM_addField_map (g : α → β) :
    fs.foldlM (addField keyPrefix line (g ∘ note)) (found.map g) =
      (fs.foldlM (addField keyPrefix line note) found).map (Found.map g) := by
  induction fs generalizing found with
  | nil => rfl
  | cons f fs ih =>
    rw [List.foldlM_cons, List.foldlM_cons, addField_map]
    cases addField keyPrefix line note found f with
    | error e => rfl
    | ok found' => exact ih

end

variable {found : Found Declaration}

/-- **The scan by offsets finds the spans of the declarations** that the scan by pieces finds. -/
theorem Located.scan_eq :
    Located.scan keyPrefix (byteCount seen) (found.map (Declaration.span 0)) ls =
      (VersionFile.scan keyPrefix seen found ls).map (Found.map (Declaration.span 0)) := by
  induction ls generalizing seen found with
  | nil => rfl
  | cons line rest ih =>
    have hnote : Declaration.span (byteCount seen) =
        Declaration.span 0 ∘ (·.within seen rest.flatten) := by
      funext d
      rw [Function.comp_apply, span_within, Nat.zero_add]
    rw [Located.scan, VersionFile.scan, hnote, foldlM_addField_map]
    cases Field.all.foldlM (addField keyPrefix line (·.within seen rest.flatten)) found with
    | error e => rfl
    | ok found' =>
      rw [← byteCount_append]
      exact ih

/-- A declaration stands in the text that the lines make up. -/
theorem text_of_mem_declarations (hkey : ∃ c ∈ key, isBlank c = false)
    (h : d ∈ declarations key seen ls) : d.text = seen ++ ls.flatten := by
  induction ls generalizing seen with
  | nil => cases h
  | cons line rest ih =>
    rcases List.mem_append.1 h with h | h
    · obtain ⟨e, he, rfl⟩ := List.mem_map.1 h
      obtain ⟨rfl, -⟩ := (declaration?_eq_some_iff hkey).1 (Option.mem_toList.1 he)
      rw [Declaration.text_within, List.flatten_cons, List.append_assoc]
    · rw [ih h, List.flatten_cons, List.append_assoc]

/-- What has been found stands in the text. -/
theorem text_of_scan (h : VersionFile.scan keyPrefix [] (fun _ => none) (lines text.toList) =
    .ok found) (hd : found f = some d) : text.toList = d.text := by
  have hfound := scan_eq_ok_iff.1 h f
  rw [hd] at hfound
  have hmem : d ∈ declarations (f.key keyPrefix).toList [] (lines text.toList) := by
    rw [← List.nil_append (declarations _ _ _), ← Option.toList_none, ← hfound]
    exact List.mem_singleton_self d
  rw [text_of_mem_declarations (f.exists_not_isBlank keyPrefix) hmem, List.nil_append,
    flatten_lines]

/-! ### The file by offsets -/

/-- The file by offsets. -/
def located (file : VersionFile) : Located where
  text := file.text
  version := file.version
  patchSpan := Declaration.span 0 ⟨file.before, file.patchValue, file.after⟩

@[simp] theorem text_located : file.located.text = file.text := rfl

@[simp] theorem version_located : file.located.version = file.version := rfl

/-- **The span of a version file lies in its text and cuts no character.** -/
theorem fits_located : file.located.patchSpan.Fits file.located.text :=
  fits_span (String.toList_ofList ..)

namespace Located

theorem spanOf_map : spanOf keyPrefix (found.map (Declaration.span 0)) f =
    match found f with
    | none => .error (.missingField (f.key keyPrefix))
    | some d => .ok (d.span 0) := by
  unfold spanOf Found.map
  cases found f <;> rfl

theorem declared_eq (htext : ∀ d, found f = some d → text.toList = d.text) :
    declared text keyPrefix (found.map (Declaration.span 0)) f =
      returned ((VersionFile.declared keyPrefix found f).map (·.2)) := by
  rw [declared, VersionFile.declared, spanOf_map]
  cases hd : found f with
  | none => rfl
  | some d =>
    simp only [returned_ok, ok_bind, cut_span (htext d hd), String.toList_ofList]
    cases number? d.value <;> rfl

/-- **Reading by offsets gives what reading by pieces gives,** for every text; no cut breaks it
off. -/
theorem parse_eq : parse text keyPrefix =
    returned ((VersionFile.parse text keyPrefix).map located) := by
  have hscan : scan keyPrefix (byteCount []) (Found.map (Declaration.span 0) fun _ => none)
      (lines text.toList) = _ := scan_eq
  rw [byteCount_nil, Found.map_none] at hscan
  rw [parse, VersionFile.parse, hscan]
  cases hfound : VersionFile.scan keyPrefix [] (fun _ => none) (lines text.toList) with
  | error e => rfl
  | ok found =>
    have htext : ∀ f d, found f = some d → text.toList = d.text := fun f d =>
      text_of_scan hfound
    simp only [Except.map, returned_ok, ok_bind, declared_eq (htext _)]
    cases VersionFile.declared keyPrefix found .major with
    | error e => rfl
    | ok major =>
      cases VersionFile.declared keyPrefix found .minor with
      | error e => rfl
      | ok minor =>
        cases hpatch : VersionFile.declared keyPrefix found .patch with
        | error e => rfl
        | ok patch =>
          obtain ⟨hd, -⟩ := declared_eq_ok_iff.1 hpatch
          have hwhole : String.ofList patch.1.text = text := by
            rw [← htext _ _ hd, String.ofList_toList]
          simp only [returned_ok, ok_bind, spanOf_map, hd]
          exact congrArg (fun t => Except.ok (Located.mk t _ _)) hwhole.symm

theorem parse_eq_ok_iff {located : Located} : parse text keyPrefix = .ok located ↔
    ∃ file, VersionFile.parse text keyPrefix = .ok file ∧ file.located = located := by
  rw [parse_eq]
  cases VersionFile.parse text keyPrefix with
  | error e => exact iff_of_false nofun (by rintro ⟨_, ⟨⟩, _⟩)
  | ok file => simp [Except.map]

/-- **A bump by offsets gives what a bump by pieces gives;** no cut breaks it off. -/
theorem bumpPatch_eq : file.located.bumpPatch = returned file.bumpPatch := by
  have htext : file.text.toList = file.before ++ file.patchValue ++ file.after :=
    String.toList_ofList
  have hbefore : cut file.text 0 (byteCount file.before) = .ok (String.ofList file.before) :=
    cut_byteCount (a := []) (htext.trans (List.append_assoc ..))
  have hafter : cut file.text (byteCount (file.before ++ file.patchValue)) file.text.utf8ByteSize =
      .ok (String.ofList file.after) :=
    cut_byteCount (c := []) (htext.trans (List.append_nil _).symm)
  rw [bumpPatch, VersionFile.bumpPatch]
  cases hversion : file.version.bumpPatch with
  | error e => simp only [located, hversion]; rfl
  | ok version =>
    simp only [located, Declaration.span, Nat.zero_add, hversion, returned_ok, ok_bind, hbefore,
      hafter]
    refine congrArg (fun t => Except.ok (Bumped.mk t _ _)) ?_
    simp only [String.ofList_append, Text.Decimal.text]

end Located
end VersionFile
end NightlyRelease
