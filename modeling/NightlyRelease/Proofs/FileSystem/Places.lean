/-
# Spellings of one place

A path can be spelled in many ways: empty components and `.` lead nowhere, so
`a//b/./c` and `a/b/c` have the same names (`Path.names`).  Paths with the same
names, seen from the same directory, lead to the same location in every file
system in which they lead anywhere (`resolve_eq_of_place`).

The other way round, relative paths that name different places lead to different
locations, unless links or `..` are on the way (`place_eq_of_no_links`).  And of the
paths that are spelled with their names alone (`Path.IsBare`), no two name the same
place (`eq_of_isBare`).
-/

import NightlyRelease.Proofs.FileSystem.Writing

namespace NightlyRelease

namespace Path

variable {p q directory : Path} {n : String}

/-- Whether a component leads to another place than the one that it is followed from. -/
def leads (n : String) : Bool := n ≠ "" && n ≠ "."

/-- The components of a path that lead anywhere. -/
def names (p : Path) : List String := p.components.filter leads

/-- The place that a path names in a directory: whether it is looked for from the root, and by
which names. -/
def place (directory p : Path) : Bool × List String :=
  ((directory.join p).isAbsolute, (directory.join p).names)

/-- A path that is spelled with its names alone. -/
def IsBare (p : Path) : Prop := p.names = p.components

instance decidableIsBare (p : Path) : Decidable p.IsBare := inferInstanceAs (Decidable (_ = _))

/-! ### Components and names -/

/-- A path is known by its components. -/
theorem eq_of_components (h : p.components = q.components) : p = q := by
  have hparts : Text.splitOn '/' p.text.toList = Text.splitOn '/' q.text.toList :=
    (List.map_inj_right fun _ _ hab => String.ofList_injective hab).1 h
  have htext : p.text = q.text := String.toList_inj.1 (Text.splitOn_injective '/' hparts)
  cases p; cases q; cases htext; rfl

/-- Bare paths with the same names are spelled alike. -/
theorem eq_of_isBare (hp : p.IsBare) (hq : q.IsBare) (h : p.names = q.names) : p = q :=
  eq_of_components (hp.symm.trans (h.trans hq))

theorem names_empty : names ⟨""⟩ = [] := rfl

/-- A slash parts a path into two, which have their names on their own. -/
theorem names_slash (a b : String) : names ⟨a ++ "/" ++ b⟩ = names ⟨a⟩ ++ names ⟨b⟩ := by
  have hsplit : (a ++ "/" ++ b).toList = a.toList ++ '/' :: b.toList := by simp
  simp only [names, components, hsplit, Text.splitOn_append, List.map_append, List.filter_append]

/-- A bare path does not start at the root, since nothing stands before its first slash then. -/
theorem isAbsolute_of_isBare (h : p.IsBare) : p.isAbsolute = false := by
  rw [isAbsolute, beq_eq_false_iff_ne]
  intro hslash
  obtain ⟨r, hr⟩ := List.head?_eq_some_iff.1 hslash
  have hmem : "" ∈ p.components := by simp [components, hr, Text.splitOn]
  rw [← h, names, List.mem_filter] at hmem
  exact absurd hmem.2 (by decide)

/-! ### Paths in a directory -/

theorem isAbsolute_append {a : String} (ha : a ≠ "") (b : String) :
    isAbsolute ⟨a ++ b⟩ = isAbsolute ⟨a⟩ := by
  obtain ⟨c, r, hc⟩ := List.exists_cons_of_ne_nil (mt String.toList_eq_nil_iff.1 ha)
  simp [isAbsolute, hc]

/-- A relative path is followed from where the directory is, behind the names that lead there. -/
theorem place_of_relative (directory : Path) (h : p.isAbsolute = false) :
    directory.place p = (directory.isAbsolute, directory.names ++ p.names) := by
  obtain ⟨d⟩ := directory
  obtain ⟨s⟩ := p
  rw [place, join, if_neg (by simp [h])]
  by_cases hd : d = ""
  · subst hd
    rw [if_pos (.inl rfl), String.empty_append, names_empty, List.nil_append, h]
    rfl
  by_cases hslash : endsWithSlash ⟨d⟩ = true
  · -- the slash between the two is the one at the end of the directory
    obtain ⟨a, ha⟩ := List.getLast?_eq_some_iff.1 (beq_iff_eq.1 hslash)
    obtain rfl : d = String.ofList a ++ "/" := String.toList_inj.1 (by simpa using ha)
    have hnames : names ⟨String.ofList a ++ "/"⟩ = names ⟨String.ofList a⟩ := by
      simpa [names_empty] using names_slash (String.ofList a) ""
    rw [if_pos (.inr hslash), isAbsolute_append hd, names_slash, hnames]
  · rw [if_neg (by simp [hd, hslash]), String.append_assoc, isAbsolute_append hd,
      ← String.append_assoc, names_slash]

/-- Whether two relative paths name one place does not depend on the directory. -/
theorem place_eq_iff (directory : Path) (hp : p.isAbsolute = false) (hq : q.isAbsolute = false) :
    directory.place p = directory.place q ↔ p.names = q.names := by
  rw [place_of_relative directory hp, place_of_relative directory hq, Prod.mk.injEq,
    List.append_cancel_left_eq]
  exact and_iff_right rfl

end Path

namespace FileSystem

open NightlyRelease.Path

variable {fs : FileSystem} {p q directory : Path} {l m here : Location} {a b : List String}

/-! ### Names that are left out -/

/-- Some components that lead nowhere are left out. -/
inductive Shortens : List String → List String → Prop
  | nil : Shortens [] []
  | idle {n : String} {a b : List String} (hn : leads n = false) (h : Shortens a b) :
    Shortens (n :: a) b
  | keep {a b : List String} (n : String) (h : Shortens a b) : Shortens (n :: a) (n :: b)

/-- Names in front are kept. -/
theorem Shortens.append_left (h : Shortens a b) : ∀ c : List String, Shortens (c ++ a) (c ++ b)
  | [] => h
  | n :: c => .keep n (h.append_left c)

theorem shortens_filter : ∀ a : List String, Shortens a (a.filter leads)
  | [] => .nil
  | n :: a => by
    rw [List.filter_cons]
    split
    · exact .keep n (shortens_filter a)
    · next hn => exact .idle (by simpa using hn) (shortens_filter a)

theorem leads_eq_false_iff {n : String} : leads n = false ↔ n = "" ∨ n = "." := by
  simp only [leads, Bool.and_eq_false_iff, decide_eq_false_iff_not, Decidable.not_not]

/-- How far a walk comes with some components left out of what is to be followed. -/
inductive Progress.Shortens : Progress → Progress → Prop
  | arrived (l : Location) : Shortens (.arrived l) (.arrived l)
  | met (directory : Location) (target : Path) {a b : List String}
    (h : FileSystem.Shortens a b) : Shortens (.met directory target a) (.met directory target b)

/-- A walk that goes on comes as far without the components that lead nowhere. -/
theorem Shortens.advance (h : Shortens a b) {x : Progress}
    (hx : fs.advance true here a = .ok x) :
    ∃ y, fs.advance true here b = .ok y ∧ x.Shortens y := by
  induction h generalizing here with
  | nil =>
    cases hx
    exact ⟨_, rfl, .arrived here⟩
  | @idle n a b hn _ ih =>
    by_cases hd : fs.at? here = some .directory
    · rw [advance_of_directory hd, if_pos (leads_eq_false_iff.1 hn)] at hx
      exact ih hx
    · obtain ⟨e, he⟩ := advance_of_not_directory hd true n a
      rw [he] at hx
      cases hx
  | @keep a b n hab ih =>
    by_cases hd : fs.at? here = some .directory
    · rw [advance_of_directory hd] at hx ⊢
      cases hlink : fs.linkAt? (here ++ [n]) with
      | some target =>
        simp only [hlink, Bool.true_eq_false, and_false, if_false] at hx ⊢
        split_ifs at hx ⊢
        · exact ih hx
        · exact ih hx
        · cases hx
          exact ⟨_, rfl, .met here ⟨target⟩ hab⟩
      | none =>
        simp only [hlink] at hx ⊢
        split_ifs at hx ⊢
        all_goals exact ih hx
    · obtain ⟨e, he⟩ := advance_of_not_directory hd true n a
      rw [he] at hx
      cases hx

theorem Shortens.walk (h : Shortens a b) {links : Nat} (hl : fs.walk true links here a = .ok l) :
    fs.walk true links here b = .ok l := by
  induction links generalizing here a b with
  | zero =>
    unfold FileSystem.walk at hl ⊢
    obtain ⟨x, hx, hl⟩ := bind_eq_ok_iff.1 hl
    obtain ⟨y, hy, hxy⟩ := h.advance hx
    refine bind_eq_ok_iff.2 ⟨y, hy, ?_⟩
    cases hxy with
    | arrived => exact hl
    | met => cases hl
  | succ links ih =>
    unfold FileSystem.walk at hl ⊢
    obtain ⟨x, hx, hl⟩ := bind_eq_ok_iff.1 hl
    obtain ⟨y, hy, hxy⟩ := h.advance hx
    refine bind_eq_ok_iff.2 ⟨y, hy, ?_⟩
    cases hxy with
    | arrived => exact hl
    | met _ target hrest => exact ih (hrest.append_left target.components) hl

/-- **Paths that name the same place lead to the same location,** if they lead anywhere. -/
theorem resolve_eq_of_place (h : directory.place p = directory.place q)
    (hl : fs.resolve true (directory.join p) = .ok l)
    (hm : fs.resolve true (directory.join q) = .ok m) : l = m := by
  obtain ⟨hroot, hnames⟩ := Prod.mk.inj h
  obtain ⟨⟨⟩, -, hl⟩ := bind_eq_ok_iff.1 hl
  obtain ⟨⟨⟩, -, hm⟩ := bind_eq_ok_iff.1 hm
  have hl' := (shortens_filter (directory.join p).components).walk hl
  have hm' := (shortens_filter (directory.join q).components).walk hm
  rw [startOf, hroot] at hl'
  rw [names, names] at hnames
  rw [hnames] at hl'
  exact Except.ok.inj (hl'.symm.trans hm')

/-! ### Names that differ -/

/-- Without links and `..`, a walk goes down by the names that it follows. -/
theorem advance_of_no_links (hlinks : ∀ l, fs.linkAt? l = none) (ha : ".." ∉ a) {x : Progress}
    (hx : fs.advance true here a = .ok x) : x = .arrived (here ++ a.filter leads) := by
  induction a generalizing here with
  | nil => cases hx; simp
  | cons n a ih =>
    rw [List.mem_cons, not_or] at ha
    by_cases hd : fs.at? here = some .directory
    · rw [advance_of_directory hd, hlinks] at hx
      dsimp only at hx
      split_ifs at hx with hn hup
      · rw [ih ha.2 hx, List.filter_cons, if_neg (by simp [leads_eq_false_iff.2 hn])]
      · exact absurd hup.symm ha.1
      · have hlead : leads n = true := by
          rw [← Bool.not_eq_false, leads_eq_false_iff]
          exact hn
        rw [ih ha.2 hx, List.filter_cons, if_pos hlead, List.append_assoc, List.singleton_append]
    · obtain ⟨e, he⟩ := advance_of_not_directory hd true n a
      rw [he] at hx
      cases hx

/-- Without links and `..`, a path leads to the location with its names. -/
theorem resolve_of_no_links (hlinks : ∀ l, fs.linkAt? l = none) (hp : ".." ∉ p.names)
    (hl : fs.resolve true p = .ok l) : l = startOf fs.current p ++ p.names := by
  have hcomponents : ".." ∉ p.components := fun h => hp (List.mem_filter.2 ⟨h, by decide⟩)
  obtain ⟨⟨⟩, -, hl⟩ := bind_eq_ok_iff.1 hl
  rw [linkLimit, walk] at hl
  obtain ⟨x, hx, hl⟩ := bind_eq_ok_iff.1 hl
  obtain rfl := advance_of_no_links hlinks hcomponents hx
  exact (Except.ok.inj hl).symm

/-- **Without links and `..`, relative paths lead to the same location only if they name the same
place.** -/
theorem place_eq_of_no_links (hlinks : ∀ l, fs.linkAt? l = none) (hp : p.isAbsolute = false)
    (hq : q.isAbsolute = false) (hp' : ".." ∉ (directory.place p).2)
    (hq' : ".." ∉ (directory.place q).2) (hl : fs.resolve true (directory.join p) = .ok l)
    (hm : fs.resolve true (directory.join q) = .ok l) : directory.place p = directory.place q := by
  have hl' := resolve_of_no_links hlinks hp' hl
  have hm' := resolve_of_no_links hlinks hq' hm
  have hroot : (directory.join p).isAbsolute = (directory.join q).isAbsolute :=
    (congrArg Prod.fst (place_of_relative directory hp)).trans
      (congrArg Prod.fst (place_of_relative directory hq)).symm
  rw [hl', startOf, startOf, hroot] at hm'
  exact Prod.ext hroot (List.append_cancel_left hm')

end FileSystem

namespace Path

/-- Where paths lead that are seen from a directory is told by the places that they name. -/
structure PlacesTell (directory : Path) : Prop where
  /-- Where two paths with the same place lead anywhere, they lead to the same location. -/
  same : ∀ {fs : FileSystem} {p q l m}, directory.place p = directory.place q →
    fs.resolve true (directory.join p) = .ok l → fs.resolve true (directory.join q) = .ok m → l = m
  /-- Without links and `..`, relative paths with different places do not. -/
  other : ∀ {fs : FileSystem} {p q l}, (∀ l, fs.linkAt? l = none) → p.isAbsolute = false →
    q.isAbsolute = false → ".." ∉ (directory.place p).2 → ".." ∉ (directory.place q).2 →
    fs.resolve true (directory.join p) = .ok l → fs.resolve true (directory.join q) = .ok l →
    directory.place p = directory.place q

theorem placesTell (directory : Path) : directory.PlacesTell :=
  ⟨FileSystem.resolve_eq_of_place, FileSystem.place_eq_of_no_links⟩

end Path
end NightlyRelease
