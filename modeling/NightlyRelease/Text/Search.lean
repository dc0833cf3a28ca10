/-
# Finding and cutting off fixed texts

`stripPrefix?` takes a fixed text off the start, `contains` looks for one
anywhere; the empty text stands at every place of every text.
-/

namespace NightlyRelease
namespace Text

/-- What follows `p`, if the text starts with it. -/
def stripPrefix? : (p s : List Char) → Option (List Char)
  | [], s => some s
  | _ :: _, [] => none
  | a :: p, b :: s => if a = b then stripPrefix? p s else none

theorem stripPrefix?_eq_some_iff {p s r : List Char} : stripPrefix? p s = some r ↔ s = p ++ r := by
  induction p generalizing s with
  | nil => simp [stripPrefix?, eq_comm]
  | cons a p ih =>
    cases s with
    | nil => simp [stripPrefix?]
    | cons b s =>
      by_cases h : a = b
      · simp [stripPrefix?, h, ih]
      · simp [stripPrefix?, h, Ne.symm h]

theorem stripPrefix?_eq_none_iff {p s : List Char} : stripPrefix? p s = none ↔ ¬ p <+: s := by
  rw [Option.eq_none_iff_forall_ne_some]
  simp only [ne_eq, stripPrefix?_eq_some_iff]
  exact ⟨fun h ⟨r, hr⟩ => h r hr.symm, fun h r hr => h ⟨r, hr.symm⟩⟩

/-- Whether `needle` stands somewhere in the text. -/
def contains (needle : List Char) : List Char → Bool
  | [] => needle.isEmpty
  | c :: r => (stripPrefix? needle (c :: r)).isSome || contains needle r

theorem contains_iff {needle s : List Char} :
    contains needle s = true ↔ ∃ a b, s = a ++ needle ++ b := by
  induction s with
  | nil =>
    simp [contains, List.isEmpty_iff]
  | cons c r ih =>
    rw [contains, Bool.or_eq_true, ih]
    constructor
    · rintro (h | ⟨a, b, rfl⟩)
      · obtain ⟨b, hb⟩ := Option.isSome_iff_exists.mp h
        exact ⟨[], b, by simpa using stripPrefix?_eq_some_iff.mp hb⟩
      · exact ⟨c :: a, b, by simp⟩
    · rintro ⟨a, b, h⟩
      cases a with
      | nil =>
        refine Or.inl (Option.isSome_iff_exists.mpr ⟨b, stripPrefix?_eq_some_iff.mpr ?_⟩)
        simpa using h
      | cons d a =>
        simp only [List.cons_append, List.cons.injEq] at h
        exact Or.inr ⟨a, b, h.2⟩

/-- Splits a text at the first place where `separator` stands. -/
def splitAt? (separator : List Char) : List Char → Option (List Char × List Char)
  | [] => (stripPrefix? separator []).map ([], ·)
  | c :: r => match stripPrefix? separator (c :: r) with
    | some rest => some ([], rest)
    | none => (splitAt? separator r).map fun (a, b) => (c :: a, b)

/-- Splits a text at every occurrence of one character. -/
def splitOn (separator : Char) : List Char → List (List Char)
  | [] => [[]]
  | c :: r =>
    if c = separator then [] :: splitOn separator r
    else match splitOn separator r with
      | [] => [[c]]
      | p :: ps => (c :: p) :: ps

end Text
end NightlyRelease
