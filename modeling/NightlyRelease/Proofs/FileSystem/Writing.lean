/-
# What a write does to a file system

A write puts a file where a file is or nothing is (`write_eq_ok_iff`), so no
directory and no link appears or goes away.  Every path therefore leads to the
same place as before (`resolve_write`), whatever links it goes through, and only
the content of one place is another one: a path that leads there reads what was
written, every other path reads what it read (`read_write_eq_ok_iff`).

A file that can be read can be written, too, and stays so after any other write
(`exists_writeText`).
-/

import NightlyRelease.FileSystem.Basic
import NightlyRelease.Proofs.Result
import NightlyRelease.Text.Lines
import Mathlib.Tactic.SplitIfs

namespace NightlyRelease
namespace FileSystem

variable {fs fs' : FileSystem} {p q : Path} {l m : Location} {c d : ByteArray} {s t : String}

/-- Nothing or a file stands at a location, so that a file can be put there. -/
def IsFree (fs : FileSystem) (l : Location) : Prop :=
  fs.at? l = none ∨ ∃ c, fs.at? l = some (.file c)

/-- The target of the link at a location, if there is one. -/
def linkAt? (fs : FileSystem) (l : Location) : Option String :=
  match fs.at? l with
  | some (.link target) => some target
  | _ => none

theorem IsFree.ne_nil (h : fs.IsFree l) : l ≠ [] := by
  rintro rfl
  rcases h with h | ⟨c, h⟩ <;> simp [at?] at h

theorem lookup_cons_eq (k : Location) (x : Node) (es : List (Location × Node)) (m : Location) :
    ((k, x) :: es).lookup m = if m = k then some x else es.lookup m := by
  by_cases h : m = k
  · simp [h]
  · have hb : (m == k) = false := beq_false_of_ne h
    simp [List.lookup_cons, hb, h]

/-- Replacing the entries of a location: it holds the new node if it held one. -/
theorem lookup_map_replace (es : List (Location × Node)) (l m : Location) (n : Node) :
    (es.map fun e => if e.1 = l then (l, n) else e).lookup m =
      if m = l then (es.lookup l).map fun _ => n else es.lookup m := by
  induction es with
  | nil => simp
  | cons e es ih =>
    obtain ⟨k, x⟩ := e
    by_cases hk : k = l
    · subst hk
      by_cases hm : m = k <;> simp [lookup_cons_eq, hm, ih]
    · simp only [List.map_cons, hk, if_false, lookup_cons_eq, ih, Ne.symm hk]
      by_cases hm : m = k
      · subst hm; simp [hk]
      · simp [hm]

/-- **Putting a node at a location changes what stands there and nothing else.** -/
theorem at?_set (fs : FileSystem) (n : Node) (hl : l ≠ []) (m : Location) :
    (fs.set l n).at? m = if m = l then some n else fs.at? m := by
  by_cases hm : m = []
  · subst hm; simp [at?, hl.symm]
  · unfold set
    split
    · next h =>
      obtain ⟨x, hx⟩ := Option.isSome_iff_exists.1 h
      simp [at?, hm, lookup_map_replace, hx]
    · next h =>
      have hnone : fs.entries.lookup l = none := Option.not_isSome_iff_eq_none.1 h
      by_cases hml : m = l
      · simp [at?, hl, hml, List.lookup_append, hnone]
      · simp [at?, hm, List.lookup_append, lookup_cons_eq, hml]

theorem current_set (fs : FileSystem) (l : Location) (n : Node) :
    (fs.set l n).current = fs.current := by
  unfold set; split <;> rfl

section

variable (hfree : fs.IsFree l)

include hfree

theorem at?_set_eq_directory_iff :
    (fs.set l (.file c)).at? m = some .directory ↔ fs.at? m = some .directory := by
  rw [at?_set fs _ hfree.ne_nil]
  split
  · next h => rcases hfree with h' | ⟨d, h'⟩ <;> simp [h, h']
  · rfl

theorem linkAt?_set : (fs.set l (.file c)).linkAt? m = fs.linkAt? m := by
  unfold linkAt?
  rw [at?_set fs _ hfree.ne_nil]
  by_cases h : m = l
  · rcases hfree with h' | ⟨d, h'⟩ <;> simp [h, h']
  · simp [h]

theorem isFree_set_iff : (fs.set l (.file c)).IsFree m ↔ fs.IsFree m := by
  unfold IsFree
  rw [at?_set fs _ hfree.ne_nil]
  split
  · next h =>
    subst h
    exact iff_of_true (Or.inr ⟨c, rfl⟩) hfree
  · rfl

end

/-! ### Paths lead where they led -/

theorem advance_of_not_directory {here : Location} (h : fs.at? here ≠ some .directory)
    (follow : Bool) (name : String) (rest : List String) :
    ∃ fault, fs.advance follow here (name :: rest) = .error fault := by
  unfold advance
  split
  · exact ⟨_, rfl⟩
  · contradiction
  · exact ⟨_, rfl⟩

/-- One step of a walk out of a directory. -/
theorem advance_of_directory {follow : Bool} {here : Location} {name : String}
    {rest : List String} (h : fs.at? here = some .directory) :
    fs.advance follow here (name :: rest) =
      if name = "" ∨ name = "." then fs.advance follow here rest
      else if name = ".." then fs.advance follow here.dropLast rest
      else if nameLimit < name.utf8ByteSize then .error .nameTooLong
      else match fs.linkAt? (here ++ [name]) with
        | some target =>
          if rest = [] ∧ follow = false then .ok (.arrived (here ++ [name]))
          else .ok (.met here ⟨target⟩ rest)
        | none => fs.advance follow (here ++ [name]) rest := by
  rw [advance, h]
  unfold linkAt?
  rcases fs.at? (here ++ [name]) with _ | (_ | _ | _) <;> rfl

/-- A file system has all directories of another one, and the same links. -/
structure Carries (fs fs' : FileSystem) : Prop where
  directory : ∀ {l}, fs.at? l = some .directory → fs'.at? l = some .directory
  linkAt?_eq : ∀ l, fs'.linkAt? l = fs.linkAt? l
  current_eq : fs'.current = fs.current

/-- A walk goes on through the same directories, and meets the same link. -/
theorem Carries.advance (h : Carries fs fs') {follow : Bool} {here : Location}
    {names : List String} {x : Progress} (hx : fs.advance follow here names = .ok x) :
    fs'.advance follow here names = .ok x := by
  induction names generalizing here with
  | nil => exact hx
  | cons name rest ih =>
    by_cases hd : fs.at? here = some .directory
    · rw [advance_of_directory hd] at hx
      rw [advance_of_directory (h.directory hd), h.linkAt?_eq]
      cases hlink : fs.linkAt? (here ++ [name]) with
      | some target =>
        rw [hlink] at hx
        dsimp only at hx ⊢
        split_ifs at hx ⊢
        · exact ih hx
        · exact ih hx
        all_goals exact hx
      | none =>
        rw [hlink] at hx
        dsimp only at hx ⊢
        split_ifs at hx ⊢
        · exact ih hx
        · exact ih hx
        · exact ih hx
    · obtain ⟨e, he⟩ := advance_of_not_directory hd follow name rest
      rw [he] at hx
      cases hx

/-- The links on the way are the same ones, too. -/
theorem Carries.walk (h : Carries fs fs') {follow : Bool} {links : Nat} {here : Location}
    {names : List String} (hm : fs.walk follow links here names = .ok m) :
    fs'.walk follow links here names = .ok m := by
  induction links generalizing here names with
  | zero =>
    unfold FileSystem.walk at hm ⊢
    obtain ⟨progress, hx, hm⟩ := bind_eq_ok_iff.1 hm
    exact bind_eq_ok_iff.2 ⟨progress, h.advance hx, hm⟩
  | succ links ih =>
    unfold FileSystem.walk at hm ⊢
    obtain ⟨progress, hx, hm⟩ := bind_eq_ok_iff.1 hm
    refine bind_eq_ok_iff.2 ⟨progress, h.advance hx, ?_⟩
    cases progress with
    | arrived => exact hm
    | met directory target rest => exact ih hm

/-- **A path leads where it led.** -/
theorem Carries.resolve (h : Carries fs fs') {follow : Bool}
    (hm : fs.resolve follow p = .ok m) : fs'.resolve follow p = .ok m := by
  obtain ⟨⟨⟩, haccept, hwalk⟩ := bind_eq_ok_iff.1 hm
  exact bind_eq_ok_iff.2 ⟨(), haccept, h.current_eq ▸ h.walk hwalk⟩

/-- A file takes the place of a file or of nothing, so directories and links are as they were. -/
theorem resolve_set_eq_ok_iff (hfree : fs.IsFree l) {follow : Bool} :
    (fs.set l (.file c)).resolve follow p = .ok m ↔ fs.resolve follow p = .ok m := by
  have hafter : Carries fs (fs.set l (.file c)) :=
    ⟨(at?_set_eq_directory_iff hfree).2, fun _ => linkAt?_set hfree, current_set fs l _⟩
  have hbefore : Carries (fs.set l (.file c)) fs :=
    ⟨(at?_set_eq_directory_iff hfree).1, fun _ => (linkAt?_set hfree).symm,
      (current_set fs l _).symm⟩
  exact ⟨hbefore.resolve, hafter.resolve⟩

/-! ### Reading and writing files -/

theorem read_eq_ok_iff :
    fs.read p = .ok c ↔ ∃ l, fs.resolve true p = .ok l ∧ fs.at? l = some (.file c) := by
  simp only [read, find, bind_eq_ok_iff]
  constructor
  · rintro ⟨⟨l, n⟩, ⟨l', hl, hfind⟩, hread⟩
    cases hn : fs.at? l' with
    | none => rw [hn] at hfind; cases hfind
    | some n' =>
      rw [hn] at hfind
      cases hfind
      cases n with
      | file d => cases hread; exact ⟨l, hl, hn⟩
      | directory => cases hread
      | link t => cases hread
  · rintro ⟨l, hl, hn⟩
    exact ⟨(l, .file c), ⟨l, hl, by rw [hn]; rfl⟩, rfl⟩

theorem target_eq_ok_iff :
    fs.target p = .ok l ↔
      p.endsWithSlash = false ∧ fs.resolve true p = .ok l ∧ fs.IsFree l := by
  unfold target
  cases hslash : p.endsWithSlash with
  | true =>
    simp only [if_true, bind_eq_ok_iff]
    refine iff_of_false ?_ (by simp)
    rintro ⟨_, _, _, _, _, h, _⟩
    cases h
  | false =>
    simp only [Bool.false_eq_true, if_false, bind_eq_ok_iff, true_and]
    constructor
    · rintro ⟨l', hl', h⟩
      cases hn : fs.at? l' with
      | none => rw [hn] at h; cases h; exact ⟨hl', .inl hn⟩
      | some n =>
        rw [hn] at h
        cases n with
        | file d => cases h; exact ⟨hl', .inr ⟨d, hn⟩⟩
        | directory => cases h
        | link t => cases h
    · rintro ⟨hl, hfree⟩
      refine ⟨l, hl, ?_⟩
      rcases hfree with h | ⟨d, h⟩ <;> rw [h] <;> rfl

theorem target_set_eq_ok_iff (hfree : fs.IsFree l) :
    (fs.set l (.file c)).target p = .ok m ↔ fs.target p = .ok m := by
  simp only [target_eq_ok_iff, resolve_set_eq_ok_iff hfree, isFree_set_iff hfree]

theorem write_eq_ok_iff :
    fs.write p c = .ok fs' ↔ ∃ l, fs.target p = .ok l ∧ fs.set l (.file c) = fs' := by
  simp only [write, bind_eq_ok_iff, pure_eq_ok_iff]

/-- **Every path leads where it led before a write.** -/
theorem resolve_write (h : fs.write p c = .ok fs') {follow : Bool} :
    fs'.resolve follow q = .ok m ↔ fs.resolve follow q = .ok m := by
  obtain ⟨l, hl, rfl⟩ := write_eq_ok_iff.1 h
  exact resolve_set_eq_ok_iff (target_eq_ok_iff.1 hl).2.2

/-- A path that can be written can be written after a write, too. -/
theorem target_write (h : fs.write p c = .ok fs') : fs'.target q = .ok m ↔ fs.target q = .ok m := by
  obtain ⟨l, hl, rfl⟩ := write_eq_ok_iff.1 h
  exact target_set_eq_ok_iff (target_eq_ok_iff.1 hl).2.2

/-- **What a path reads after a write:** what was written if it leads to the same place, and what
it read before if it leads to another one. -/
theorem read_write_eq_ok_iff (h : fs.write p c = .ok fs') :
    fs'.read q = .ok d ↔ ∃ m, fs.resolve true q = .ok m ∧
      (fs.resolve true p = .ok m ∧ c = d ∨
        fs.resolve true p ≠ .ok m ∧ fs.at? m = some (.file d)) := by
  obtain ⟨l, hl, rfl⟩ := write_eq_ok_iff.1 h
  obtain ⟨-, hp, hfree⟩ := target_eq_ok_iff.1 hl
  simp only [read_eq_ok_iff, resolve_set_eq_ok_iff hfree, at?_set fs _ hfree.ne_nil, hp,
    Except.ok.injEq]
  refine exists_congr fun m => and_congr_right fun _ => ?_
  by_cases hm : m = l
  · simp [hm]
  · simp [hm, Ne.symm hm]

/-- What was written can be read. -/
theorem read_write (h : fs.write p c = .ok fs') : fs'.read p = .ok c := by
  obtain ⟨l, hl, -⟩ := write_eq_ok_iff.1 h
  obtain ⟨-, hp, -⟩ := target_eq_ok_iff.1 hl
  exact (read_write_eq_ok_iff h).2 ⟨l, hp, .inl ⟨hp, rfl⟩⟩

/-! ### What can be read can be written -/

/-- A walk whose last name is empty ends in a directory, or meets a link before that name. -/
theorem advance_append_empty {follow : Bool} {here : Location} {names : List String} {x : Progress}
    (h : fs.advance follow here (names ++ [""]) = .ok x) :
    (∃ l, x = .arrived l ∧ fs.at? l = some .directory) ∨
      ∃ l t rest, x = .met l t (rest ++ [""]) := by
  induction names generalizing here with
  | nil =>
    by_cases hd : fs.at? here = some .directory
    · rw [List.nil_append, advance_of_directory hd] at h
      simp only [true_or, if_true, advance, Except.ok.injEq] at h
      exact .inl ⟨here, h.symm, hd⟩
    · obtain ⟨e, he⟩ := advance_of_not_directory hd follow "" []
      rw [List.nil_append, he] at h
      cases h
  | cons name names ih =>
    by_cases hd : fs.at? here = some .directory
    · rw [List.cons_append, advance_of_directory hd] at h
      cases hlink : fs.linkAt? (here ++ [name]) with
      | none =>
        simp only [hlink] at h
        split_ifs at h
        · exact ih h
        · exact ih h
        · exact ih h
      | some t =>
        simp only [hlink] at h
        split_ifs at h with _ _ _ hlast
        · exact ih h
        · exact ih h
        · exact absurd hlast.1 (by simp)
        · exact .inr ⟨here, ⟨t⟩, names, (Except.ok.inj h).symm⟩
    · obtain ⟨e, he⟩ := advance_of_not_directory hd follow name (names ++ [""])
      rw [List.cons_append, he] at h
      cases h

theorem walk_append_empty {follow : Bool} {links : Nat} {here : Location} {names : List String}
    (h : fs.walk follow links here (names ++ [""]) = .ok l) : fs.at? l = some .directory := by
  induction links generalizing here names with
  | zero =>
    unfold walk at h
    obtain ⟨x, hx, h⟩ := bind_eq_ok_iff.1 h
    rcases advance_append_empty hx with ⟨m, rfl, hm⟩ | ⟨m, t, rest, rfl⟩
    · cases h; exact hm
    · cases h
  | succ links ih =>
    unfold walk at h
    obtain ⟨x, hx, h⟩ := bind_eq_ok_iff.1 h
    rcases advance_append_empty hx with ⟨m, rfl, hm⟩ | ⟨m, t, rest, rfl⟩
    · cases h; exact hm
    · dsimp only at h
      rw [← List.append_assoc] at h
      exact ih h

/-- The name after a slash at the end is empty. -/
theorem components_of_endsWithSlash (h : p.endsWithSlash = true) :
    ∃ names, p.components = names ++ [""] := by
  simp only [Path.endsWithSlash, beq_iff_eq, List.getLast?_eq_some_iff] at h
  obtain ⟨s, hs⟩ := h
  refine ⟨(Text.splitOn '/' s).map String.ofList, ?_⟩
  rw [Path.components, hs, Text.splitOn_append_separator, List.map_append]
  rfl

/-- **A file that can be read can be written.** -/
theorem exists_target_of_read (h : fs.read p = .ok c) : ∃ l, fs.target p = .ok l := by
  obtain ⟨l, hl, hfile⟩ := read_eq_ok_iff.1 h
  refine ⟨l, target_eq_ok_iff.2 ⟨?_, hl, .inr ⟨c, hfile⟩⟩⟩
  cases hslash : p.endsWithSlash with
  | false => rfl
  | true =>
    obtain ⟨names, hnames⟩ := components_of_endsWithSlash hslash
    obtain ⟨-, -, hwalk⟩ := bind_eq_ok_iff.1 hl
    rw [hnames] at hwalk
    rw [walk_append_empty hwalk] at hfile
    cases hfile

/-! ### Texts -/

theorem fromUTF8?_eq_some_iff : String.fromUTF8? c = some s ↔ c = s.toUTF8 := by
  unfold String.fromUTF8?
  split
  · next h => simp [String.fromUTF8, ← String.toByteArray_inj]
  · next h =>
    refine iff_of_false (by simp) ?_
    rintro rfl
    exact h s.isValidUTF8

theorem readText_eq_ok_iff : fs.readText p = .ok s ↔ fs.read p = .ok s.toUTF8 := by
  simp only [readText, bind_eq_ok_iff]
  constructor
  · rintro ⟨c, hc, h⟩
    cases hs : String.fromUTF8? c with
    | none => rw [hs] at h; cases h
    | some s' =>
      rw [hs] at h
      cases h
      rw [hc, fromUTF8?_eq_some_iff.1 hs]
  · intro h
    exact ⟨_, h, by rw [fromUTF8?_eq_some_iff.2 rfl]; rfl⟩

/-- A text that was written can be read. -/
theorem readText_writeText (h : fs.writeText p s = .ok fs') : fs'.readText p = .ok s :=
  readText_eq_ok_iff.2 (read_write h)

/-- A file that can be read before a write can be read after it, and holds the same text, unless
the write went to the same place. -/
theorem readText_writeText_cases (h : fs.writeText p s = .ok fs') (hq : fs.readText q = .ok t) :
    fs'.readText q = .ok t ∨ fs'.readText q = .ok s ∧ fs.resolve true q = fs.resolve true p := by
  obtain ⟨m, hm, hfile⟩ := read_eq_ok_iff.1 (readText_eq_ok_iff.1 hq)
  simp only [readText_eq_ok_iff]
  by_cases hp : fs.resolve true p = .ok m
  · exact .inr ⟨(read_write_eq_ok_iff h).2 ⟨m, hm, .inl ⟨hp, rfl⟩⟩, hm.trans hp.symm⟩
  · exact .inl ((read_write_eq_ok_iff h).2 ⟨m, hm, .inr ⟨hp, hfile⟩⟩)

/-- **A file that can be read before a write can be written after it.** -/
theorem exists_writeText (h : fs.writeText p s = .ok fs') (hq : fs.readText q = .ok t)
    (u : String) : ∃ fs'', fs'.writeText q u = .ok fs'' := by
  obtain ⟨l, hl⟩ := exists_target_of_read (readText_eq_ok_iff.1 hq)
  exact ⟨_, write_eq_ok_iff.2 ⟨l, (target_write h).2 hl, rfl⟩⟩

/-- A text can be written at a path. -/
def Takes (fs : FileSystem) (p : Path) : Prop := ∃ l, fs.target p = .ok l

theorem takes_iff (s : String) : fs.Takes p ↔ ∃ fs', fs.writeText p s = .ok fs' := by
  simp only [Takes, writeText, write_eq_ok_iff]
  exact ⟨fun ⟨l, hl⟩ => ⟨_, l, hl, rfl⟩, fun ⟨_, l, hl, _⟩ => ⟨l, hl⟩⟩

/-- A write changes nothing about where texts can be written. -/
theorem takes_writeText (h : fs.writeText p s = .ok fs') : fs'.Takes q ↔ fs.Takes q :=
  exists_congr fun _ => target_write h

/-- Two paths that lead to one place read the same. -/
theorem readText_of_resolve_eq (hq : fs.readText q = .ok t)
    (h : fs.resolve true p = fs.resolve true q) : fs.readText p = .ok t := by
  rw [readText_eq_ok_iff, read_eq_ok_iff] at hq ⊢
  rwa [h]

end FileSystem
end NightlyRelease
