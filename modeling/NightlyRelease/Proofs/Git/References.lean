/-
# References after one was written

The file of a reference holds the name of a commit in hexadecimal digits, which are
read as the commit (`Reference.parse_commit`).  Writing a reference leads to the same
file as reading it, so the reference is read as the commit then; every other
reference that was there is read as before, or it shares the file and is read as the
commit, too (`Reference.lookup_of_write`).

So whatever chain of references led to the one that was written leads to the commit
now, and may even be shorter (`Reference.follow_of_write`, `Head.read_of_write`).
-/

import NightlyRelease.Git.Reference
import NightlyRelease.Proofs.FileSystem.Directories
import NightlyRelease.Proofs.Text.Encoding
import NightlyRelease.Proofs.Text.Hexadecimal

namespace NightlyRelease
namespace Git

open Text

variable {fs fs' : FileSystem} {directory : FileSystem.Location} {name : String} {id : CommitId}

namespace CommitId

theorem length_text (h : id < first) : (text id).toList.length = 40 := by
  have hfits : first + id < 16 ^ 40 := calc
    first + id < first + first := Nat.add_lt_add_left h first
    _ = 16 ^ 40 := by decide
  rw [text, String.toList_ofList, Hex.length_padded hfits (by decide)]

/-- **The text of a name is read as the name.** -/
theorem read?_text (h : id < first) : read? (text id).toList = some (some id) := by
  have hvalue : value? (text id).toList = some (first + id) := by
    rw [value?, if_pos (length_text h), text, String.toList_ofList]
    exact Hex.foldlM_padded 40 (first + id)
  rw [read?, hvalue, Option.map_some, if_pos (Nat.le_add_right _ _), Nat.add_sub_cancel_left]

/-- The text of a name is ASCII. -/
theorem ascii_of_mem_text {c : Char} (h : c ∈ (text id).toList) : c.toNat < 0x80 ∧ c ≠ 'r' := by
  rw [text, String.toList_ofList] at h
  have hdigit := Hex.isSome_value?_of_mem_padded h
  refine ⟨?_, ?_⟩
  · refine Nat.lt_of_not_le fun hc => ?_
    rw [Hex.value?, if_neg (by omega), if_neg (by omega), if_neg (by omega)] at hdigit
    cases hdigit
  · rintro rfl
    cases hdigit

end CommitId

namespace Reference

/-- ASCII characters survive the way to bytes and back. -/
theorem map_ofNat_of_ascii {s : List Char} (h : ∀ c ∈ s, c.toNat < 0x80) :
    (s.map fun c => UInt8.ofNat c.toNat).map (fun b => Char.ofNat b.toNat) = s := by
  rw [List.map_map]
  refine (List.map_congr_left fun c hc => ?_).trans (List.map_id s)
  have hbyte : (UInt8.ofNat c.toNat).toNat = c.toNat := by
    have := h c hc
    rw [UInt8.toNat_ofNat']
    omega
  rw [Function.comp_apply, hbyte, Char.ofNat_toNat, id_def]

/-- The digits of a name do not look like the start of another reference. -/
theorem isPrefixOf_mark {c : Char} (hascii : c.toNat < 0x80) (h : c ≠ 'r') (r : List UInt8) :
    mark.isPrefixOf (UInt8.ofNat c.toNat :: r) = false := by
  have hmark : mark = 114 :: mark.tail := by decide +kernel
  have hne : (114 : UInt8) ≠ UInt8.ofNat c.toNat := by
    intro heq
    have heq := congrArg UInt8.toNat heq
    rw [UInt8.toNat_ofNat'] at heq
    have hc : c.toNat = 114 := by
      have : (114 : UInt8).toNat = 114 := rfl
      omega
    exact h (by rw [← Char.ofNat_toNat c, hc])
  rw [hmark, List.isPrefixOf_cons_cons, beq_eq_false_iff_ne.2 hne, Bool.false_and]

/-- **The file that is written for a commit is read as the commit.** -/
theorem parse_commit (h : id < CommitId.first) (name : String) :
    parse name (Target.commit (some id)).file.toUTF8.toList = .ok (.commit (some id)) := by
  have hascii : ∀ c ∈ (CommitId.text id).toList, c.toNat < 0x80 := fun c hc =>
    (CommitId.ascii_of_mem_text hc).1
  have hfile : (Target.commit (some id)).file.toUTF8.toList =
      ((CommitId.text id).toList.map fun c => UInt8.ofNat c.toNat) ++ [10] := by
    rw [toList_toUTF8, bytes_eq_encode, Target.file, Option.getD_some, String.toList_append,
      encode_append, encode_of_ascii hascii]
    rfl
  have hlength : ((CommitId.text id).toList.map fun c => UInt8.ofNat c.toNat).length = 40 := by
    rw [List.length_map, CommitId.length_text h]
  have hmark : mark.isPrefixOf
      (((CommitId.text id).toList.map fun c => UInt8.ofNat c.toNat) ++ [10]) = false := by
    cases htext : (CommitId.text id).toList with
    | nil => rw [htext] at hlength; cases hlength
    | cons c r =>
      obtain ⟨hc, hr⟩ := CommitId.ascii_of_mem_text (htext ▸ List.mem_cons_self)
      exact isPrefixOf_mark hc hr _
  rw [hfile, parse, hmark, List.take_left' hlength, List.drop_left' hlength,
    map_ofNat_of_ascii hascii, CommitId.read?_text h]
  rfl

/-! ### Writing -/

/-- A reference is read as a commit. -/
def Holds (fs : FileSystem) (directory : FileSystem.Location) (name : String) (id : CommitId) :
    Prop :=
  lookup fs directory name = .ok (some (.commit (some id)))

theorem lookup_eq_some_iff {target : Target} :
    lookup fs directory name = .ok (some target) ↔
      ∃ content, fs.read (pathOf (location directory name)) = .ok content ∧
        parse name content.toList = .ok target := by
  unfold lookup
  cases hread : fs.read (pathOf (location directory name)) with
  | error fault => exact iff_of_false nofun fun ⟨_, h, _⟩ => nomatch h
  | ok content =>
    dsimp only
    constructor
    · intro h
      cases hparse : parse name content.toList with
      | error fault => rw [hparse] at h; cases h
      | ok t =>
        rw [hparse] at h
        cases h
        exact ⟨content, rfl, hparse⟩
    · rintro ⟨_, ⟨⟩, h⟩
      rw [h]
      rfl

/-- No way has to be made where no directory stands. -/
theorem eq_of_clear (hplace : fs.at? (location directory name) ≠ some .directory)
    (h : clear fs directory name = .ok fs') : fs' = fs := by
  unfold clear at h
  dsimp only at h
  split at h
  · cases h
  · cases h
    rfl

/-- Writing a reference is writing its file, after directories were made. -/
theorem writeText_of_write {target : Target}
    (hplace : fs.at? (location directory name) ≠ some .directory)
    (h : write fs directory name target = .ok fs') :
    ∃ fs₁, FileSystem.Extends fs fs₁ ∧
      fs₁.writeText (pathOf (location directory name)) target.file = .ok fs' := by
  unfold write at h
  obtain ⟨fs₁, hclear, hrest⟩ := bind_eq_ok_iff.1 h
  rw [eq_of_clear hplace hclear] at hrest
  obtain ⟨-, -, hwrite⟩ := bind_eq_ok_iff.1 hrest
  rw [mapError_eq_ok_iff] at hwrite
  refine ⟨_, ?_, hwrite⟩
  cases hmade : fs.makeDirectories (pathOf (location directory name).dropLast) with
  | error fault => exact .refl fs
  | ok made => exact FileSystem.extends_makeDirectories hmade

/-- **What references hold after one was written:** that one holds the commit, and each of the
others that were there holds what it held, or the commit. -/
theorem lookup_of_write (hid : id < CommitId.first)
    (hplace : fs.at? (location directory name) ≠ some .directory)
    (h : write fs directory name (.commit (some id)) = .ok fs') :
    Holds fs' directory name id ∧
      ∀ other target, lookup fs directory other = .ok (some target) →
        lookup fs' directory other = .ok (some target) ∨ Holds fs' directory other id := by
  obtain ⟨fs₁, hextends, hwrite⟩ := writeText_of_write hplace h
  refine ⟨lookup_eq_some_iff.2 ⟨_, FileSystem.read_write hwrite, parse_commit hid name⟩, ?_⟩
  intro other target hother
  obtain ⟨content, hread, hparse⟩ := lookup_eq_some_iff.1 hother
  obtain ⟨l, hl, hfile⟩ := FileSystem.read_eq_ok_iff.1 (hextends.read hread)
  by_cases hsame : fs₁.resolve true (pathOf (location directory name)) = .ok l
  · -- the two references share their file
    refine .inr (lookup_eq_some_iff.2 ⟨_, ?_, parse_commit hid other⟩)
    exact (FileSystem.read_write_eq_ok_iff hwrite).2 ⟨l, hl, .inl ⟨hsame, rfl⟩⟩
  · refine .inl (lookup_eq_some_iff.2 ⟨content, ?_, hparse⟩)
    exact (FileSystem.read_write_eq_ok_iff hwrite).2 ⟨l, hl, .inr ⟨hsame, hfile⟩⟩

/-! ### Following -/

theorem isName_of_resolve {start : String} {resolved : Option Resolved}
    (h : resolve fs directory start = .ok resolved) : isName start false true = true := by
  cases hvalid : isName start false true with
  | false =>
    rw [resolve, hvalid] at h
    cases h
  | true => rfl

theorem resolve_of_isName {start : String} (h : isName start false true = true) :
    resolve fs directory start = (do
      match ← lookup fs directory start with
      | none => return none
      | some (.commit id) => return some (.found start id)
      | some (.reference next) => some <$> follow fs directory chainLimit start next) := by
  rw [resolve, h]
  rfl

section

variable {before next : String} {depth : Nat} {id' : Option CommitId}
variable (hname : Holds fs' directory name id)
variable (hothers : ∀ other target, lookup fs directory other = .ok (some target) →
  lookup fs' directory other = .ok (some target) ∨ Holds fs' directory other id)

include hname hothers

/-- A chain of references that ended with the one that was written ends with the commit. -/
theorem follow_of_write (h : follow fs directory depth before next = .ok (.found name id')) :
    ∃ last, follow fs' directory depth before next = .ok (.found last (some id)) := by
  induction depth generalizing before next with
  | zero => cases h
  | succ depth ih =>
    have hend (hnext : Holds fs' directory next id) :
        follow fs' directory (depth + 1) before next = .ok (.found next (some id)) := by
      rw [follow, hnext]
      rfl
    rw [follow] at h
    obtain ⟨found, hlookup, h⟩ := bind_eq_ok_iff.1 h
    match found with
    | none => cases h
    | some (.commit _) =>
      cases h
      exact ⟨name, hend hname⟩
    | some (.reference further) =>
      rcases hothers next _ hlookup with hkept | hnext
      · obtain ⟨last, hlast⟩ := ih h
        exact ⟨last, by rw [follow, hkept]; exact hlast⟩
      · exact ⟨next, hend hnext⟩

/-- A reference that led to the one that was written, or was that one and not there, leads to the
commit. -/
theorem resolve_of_write {start : String} {resolved : Option Resolved}
    (h : resolve fs directory start = .ok resolved)
    (hend : resolved = none ∧ start = name ∨ ∃ id', resolved = some (.found name id')) :
    ∃ last, resolve fs' directory start = .ok (some (.found last (some id))) := by
  have hvalid := isName_of_resolve h
  rw [resolve_of_isName hvalid] at h
  have hhere (hstart : Holds fs' directory start id) :
      resolve fs' directory start = .ok (some (.found start (some id))) := by
    rw [resolve_of_isName hvalid, hstart]
    rfl
  obtain ⟨found, hlookup, h⟩ := bind_eq_ok_iff.1 h
  match found with
  | none =>
    cases h
    obtain ⟨-, rfl⟩ := hend.resolve_right nofun
    exact ⟨_, hhere hname⟩
  | some (.commit _) =>
    cases h
    obtain ⟨_, ⟨⟩⟩ := hend.resolve_left nofun
    exact ⟨_, hhere hname⟩
  | some (.reference next) =>
    rcases hothers start _ hlookup with hkept | hstart
    · dsimp only at h
      cases hfollow : follow fs directory chainLimit start next with
      | error fault =>
        rw [hfollow] at h
        cases h
      | ok chain =>
        rw [hfollow] at h
        cases h
        obtain ⟨_, ⟨⟩⟩ := hend.resolve_left nofun
        obtain ⟨last, hlast⟩ := follow_of_write hname hothers hfollow
        refine ⟨last, ?_⟩
        rw [resolve_of_isName hvalid, hkept, ok_bind]
        dsimp only
        rw [hlast]
        rfl
    · exact ⟨start, hhere hstart⟩

end

end Reference

/-- **What is checked out is the commit to which its reference was set.** -/
theorem Head.read_of_write {head : Head} (hread : Head.read fs directory = .ok head)
    (hwhole : ∀ name missing, head ≠ .broken name missing) (hid : id < CommitId.first)
    (hplace : fs.at? (Reference.location directory head.target) ≠ some .directory)
    (h : Reference.write fs directory head.target (.commit (some id)) = .ok fs') :
    ∃ name, Head.read fs' directory = .ok (.born name (some id)) := by
  obtain ⟨hname, hothers⟩ := Reference.lookup_of_write hid hplace h
  have hhere (hstart : Reference.Holds fs' directory "HEAD" id) :
      Head.read fs' directory = .ok (.born "HEAD" (some id)) := by
    rw [Head.read, hstart]
    rfl
  rw [Head.read] at hread
  obtain ⟨found, hlookup, hread⟩ := bind_eq_ok_iff.1 hread
  match found with
  | none =>
    cases hread
    exact ⟨_, hhere hname⟩
  | some (.commit _) =>
    cases hread
    exact ⟨_, hhere hname⟩
  | some (.reference start) =>
    rcases hothers "HEAD" _ hlookup with hkept | hstart
    · obtain ⟨resolved, hresolve, hread⟩ := bind_eq_ok_iff.1 hread
      have hgo {last : String} (hlast : Reference.resolve fs' directory start =
          .ok (some (.found last (some id)))) :
          Head.read fs' directory = .ok (.born last (some id)) := by
        rw [Head.read, hkept, ok_bind]
        dsimp only
        rw [hlast]
        rfl
      match resolved with
      | none =>
        cases hread
        obtain ⟨last, hlast⟩ :=
          Reference.resolve_of_write hname hothers hresolve (.inl ⟨rfl, rfl⟩)
        exact ⟨last, hgo hlast⟩
      | some (.found _ _) =>
        cases hread
        obtain ⟨last, hlast⟩ := Reference.resolve_of_write hname hothers hresolve (.inr ⟨_, rfl⟩)
        exact ⟨last, hgo hlast⟩
      | some (.dangling _ _) =>
        cases hread
        exact absurd rfl (hwhole _ _)
    · exact ⟨_, hhere hstart⟩

end Git
end NightlyRelease
