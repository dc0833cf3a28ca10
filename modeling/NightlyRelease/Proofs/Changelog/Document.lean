/-
# Reading a changelog back

Entries stand in a document as they are: an entry may hold `<li>` or `</ul>` itself.
What parts them is that an entry is one line, and so ends at the first line
feed (`Items`).  A document therefore lists one sequence of entries at most
(`Lists.unique`), and since subjects are one line, a changelog of messages lists the
subjects from which it was made (`lists_render_iff`).

These are the subjects at the positions up to which no message has the marker, and
whose subject is long enough (`entries_ofMessages`).  Whether a position is kept
depends on the messages before it only, so more messages give more entries behind
those that were there (`entries_take_le`).
-/

import NightlyRelease.Changelog
import NightlyRelease.Proofs.Commit.Folding
import Mathlib.Data.Fin.Basic
import Mathlib.Data.List.FinRange
import Mathlib.Data.List.Infix

namespace NightlyRelease
namespace Changelog

variable {document : String} {entries entries' : List String} {s : List Char}

/-! ### What a document lists -/

/-- The written form of some entries, up to the end of the list. -/
inductive Items : List String → List Char → Prop
  | nil : Items [] "</ul>".toList
  /-- An entry goes on up to the first line feed. -/
  | cons {entry : String} {entries : List String} {s : List Char} (hentry : '\n' ∉ entry.toList)
    (h : Items entries s) :
    Items (entry :: entries) ("<li>".toList ++ (entry.toList ++ '\n' :: ("</li>".toList ++ s)))

/-- A document lists the entries that stand in it behind `<ul>`. -/
def Lists (document : String) (entries : List String) : Prop :=
  ∃ s, document.toList = "<ul>".toList ++ s ∧ Items entries s

/-- **A text is the written form of one sequence of entries at most.** -/
theorem Items.unique (h : Items entries s) (h' : Items entries' s) : entries = entries' := by
  -- the two ways to read `s` begin with the same tag, and their first entries end alike
  induction h generalizing entries' with
  | nil =>
    generalize hs : "</ul>".toList = s at h'
    cases h' with
    | nil => rfl
    | cons hentry hrest => simp at hs
  | cons hentry hrest ih =>
    generalize hs : "<li>".toList ++ _ = s at h'
    cases h' with
    | nil => simp at hs
    | cons hentry' hrest' =>
      obtain ⟨hsame, hafter⟩ :=
        Text.eq_of_append_separator hentry hentry' (List.append_cancel_left hs)
      rw [String.toList_inj.1 hsame, ih (List.append_cancel_left hafter ▸ hrest')]

theorem Lists.unique (h : Lists document entries) (h' : Lists document entries') :
    entries = entries' := by
  obtain ⟨s, hs, hitems⟩ := h
  obtain ⟨s', hs', hitems'⟩ := h'
  obtain rfl := List.append_cancel_left (hs.symm.trans hs')
  exact hitems.unique hitems'

/-! ### Documents of changelogs -/

theorem toList_renderEntry (entry : String) :
    (renderEntry entry).toList =
      "<li>".toList ++ (entry.toList ++ '\n' :: "</li>".toList) := by
  simp [renderEntry]

theorem toList_render (c : Changelog) :
    c.render.toList =
      "<ul>".toList ++ (c.entries.flatMap (fun e => (renderEntry e).toList) ++ "</ul>".toList) := by
  rw [render, String.toList_append, String.toList_append, String.toList_join, List.flatMap_map,
    List.append_assoc]

/-- Lines are listed by their written form. -/
theorem items_of_lines (h : ∀ e ∈ entries, '\n' ∉ e.toList) :
    Items entries (entries.flatMap (fun e => (renderEntry e).toList) ++ "</ul>".toList) := by
  induction entries with
  | nil => exact .nil
  | cons entry entries ih =>
    rw [List.forall_mem_cons] at h
    have hentry : (entry :: entries).flatMap (fun e => (renderEntry e).toList) ++ "</ul>".toList =
        "<li>".toList ++ (entry.toList ++ '\n' :: ("</li>".toList ++
          (entries.flatMap (fun e => (renderEntry e).toList) ++ "</ul>".toList))) := by
      rw [List.flatMap_cons, toList_renderEntry]
      simp only [List.append_assoc, List.cons_append]
    rw [hentry]
    exact .cons h.1 (ih h.2)

/-- **The document of a changelog of lines lists its entries and nothing else.** -/
theorem lists_render_iff {c : Changelog} (h : ∀ e ∈ c.entries, '\n' ∉ e.toList) :
    Lists c.render entries ↔ entries = c.entries := by
  have hlists : Lists c.render c.entries := ⟨_, toList_render c, items_of_lines h⟩
  constructor
  · exact fun hentries => hentries.unique hlists
  · rintro rfl
    exact hlists

/-! ### Which subjects are kept -/

/-- The changelog of some commits, newest first. -/
def ofMessages (messages : List String) (marker : String) (minimum : Nat) : Changelog :=
  ofSubjects (messages.map Subject.ofMessage) marker minimum

/-- The subject of the message at a position. -/
def subjectAt (messages : List String) (i : Fin messages.length) : String :=
  (Subject.ofMessage messages[i]).text

/-- No message up to the position has the marker in its subject, and the subject there is long
enough. -/
def IsKept (messages : List String) (marker : String) (minimum : Nat)
    (i : Fin messages.length) : Prop :=
  (∀ j ≤ i, ¬ marker.toList <:+: (subjectAt messages j).toList) ∧
    minimum < (subjectAt messages i).length

instance decidableIsKept (messages : List String) (marker : String) (minimum : Nat) :
    DecidablePred (IsKept messages marker minimum) := fun _ =>
  inferInstanceAs (Decidable (_ ∧ _))

/-- The subjects at the positions that are kept, in their order. -/
def keptSubjects (messages : List String) (marker : String) (minimum : Nat) : List String :=
  ((List.finRange messages.length).filter fun i => IsKept messages marker minimum i).map
    (subjectAt messages)

/-- What is filtered out of the first elements that pass a test stands at the positions up to which
all elements pass. -/
theorem filter_takeWhile_eq {α : Type} (p q : α → Bool) (l : List α) :
    (l.takeWhile p).filter q = ((List.finRange l.length).filter fun i =>
      (∀ j ≤ i, p l[j] = true) ∧ q l[i] = true).map fun i => l[i] := by
  -- position `i + 1` is kept if the first element passes and position `i` of the rest is kept
  induction l with
  | nil => rfl
  | cons a l ih =>
    have hrange : List.finRange (a :: l).length = 0 :: (List.finRange l.length).map Fin.succ :=
      List.finRange_succ
    have hzero : (∀ j ≤ (0 : Fin (a :: l).length), p (a :: l)[j] = true) ↔ p a = true := by
      simp
    have hsucc (i : Fin l.length) :
        (∀ j : Fin (a :: l).length, j ≤ i.succ → p (a :: l)[j] = true) ↔
          p a = true ∧ ∀ j ≤ i, p l[j] = true := by
      refine Fin.forall_fin_succ.trans (and_congr ?_ (forall_congr' fun j => ?_))
      · simp
      · simp
    rw [hrange, List.filter_cons, List.filter_map]
    simp only [Function.comp_def, hzero, hsucc]
    cases hp : p a with
    | true =>
      rw [List.takeWhile_cons_of_pos hp, List.filter_cons, ih]
      cases hq : q a with
      | true => simp [hq]
      | false => simp [hq]
    | false =>
      rw [List.takeWhile_cons_of_neg (by simp [hp])]
      simp

variable {messages : List String} {marker : String} {minimum : Nat}

/-- **A changelog has the subjects of the positions that are kept.** -/
theorem entries_ofMessages (messages : List String) (marker : String) (minimum : Nat) :
    (ofMessages messages marker minimum).entries = keptSubjects messages marker minimum := by
  rw [ofMessages, ofSubjects, List.takeWhile_map, List.filter_map, List.map_map,
    filter_takeWhile_eq, List.map_map, keptSubjects]
  refine congrArg (List.map (subjectAt messages)) (List.filter_congr fun i _ => ?_)
  simp only [IsKept, subjectAt, ← Subject.isAutomated_iff, Subject.isSubstantial,
    Function.comp_apply, Bool.not_eq_true', Bool.not_eq_true, decide_eq_true_eq]

theorem feed_not_mem_entries {e : String} (h : e ∈ (ofMessages messages marker minimum).entries) :
    '\n' ∉ e.toList := by
  rw [entries_ofMessages, keptSubjects] at h
  obtain ⟨i, -, rfl⟩ := List.mem_map.1 h
  exact Subject.feed_not_mem_ofMessage _

/-- **A smaller window shows the first entries of a larger one.** -/
theorem entries_take_le {m n : Nat} (h : m ≤ n) :
    (ofMessages (messages.take m) marker minimum).entries <+:
      (ofMessages (messages.take n) marker minimum).entries := by
  simp only [ofMessages, ofSubjects, List.map_take, ← List.take_takeWhile]
  exact ((List.take_prefix_take_left h).filter _).map _

/-- **A changelog document is read back as the subjects that were kept.** -/
theorem document_reads_back (messages : List String) (marker : String) (minimum : Nat) :
    (∀ entries, Lists (ofMessages messages marker minimum).render entries ↔
      entries = keptSubjects messages marker minimum) ∧
    (∀ messages' marker' minimum', (ofMessages messages marker minimum).render =
        (ofMessages messages' marker' minimum').render ↔
      keptSubjects messages marker minimum = keptSubjects messages' marker' minimum') ∧
    (∀ m n, m ≤ n → ∀ shorter longer,
      Lists (ofMessages (messages.take m) marker minimum).render shorter →
      Lists (ofMessages (messages.take n) marker minimum).render longer → shorter <+: longer) := by
  have hlists (messages : List String) (marker : String) (minimum : Nat) (entries : List String) :
      Lists (ofMessages messages marker minimum).render entries ↔
        entries = (ofMessages messages marker minimum).entries :=
    lists_render_iff fun _ => feed_not_mem_entries
  refine ⟨fun entries => ?_, fun messages' marker' minimum' => ?_, ?_⟩
  · rw [hlists, entries_ofMessages]
  · rw [← entries_ofMessages, ← entries_ofMessages]
    constructor
    · intro h
      rw [← hlists, ← h, hlists]
    · intro h
      rw [render, h, render]
  · intro m n hmn shorter longer hshorter hlonger
    rw [hlists] at hshorter hlonger
    rw [hshorter, hlonger]
    exact entries_take_le hmn

/-- Messages whose subjects hold the marks of a list, a short one, and two behind the marker. -/
def Sample.history : List String :=
  ["Keep </li></ul> as it is\r\n  in subjects\n\nSee the list.", "Typo", "\n <li>Start a list",
    "-- managed-build bump version number", "Add a first function"]

/-- Two subjects are read back from the five messages, and the first of them from two. -/
theorem document_reads_back_sample :
    (ofMessages Sample.history "-- managed-build" 4).render =
      "<ul><li>Keep </li></ul> as it is in subjects\n</li><li><li>Start a list\n</li></ul>" ∧
    Lists (ofMessages Sample.history "-- managed-build" 4).render
      ["Keep </li></ul> as it is in subjects", "<li>Start a list"] ∧
    Lists (ofMessages (Sample.history.take 2) "-- managed-build" 4).render
      ["Keep </li></ul> as it is in subjects"] ∧
    ["Keep </li></ul> as it is in subjects"] <+:
      ["Keep </li></ul> as it is in subjects", "<li>Start a list"] := by
  have hkept : keptSubjects Sample.history "-- managed-build" 4 =
      ["Keep </li></ul> as it is in subjects", "<li>Start a list"] := by decide +kernel
  have hfew : keptSubjects (Sample.history.take 2) "-- managed-build" 4 =
      ["Keep </li></ul> as it is in subjects"] := by decide +kernel
  have hlonger := ((document_reads_back Sample.history _ _).1 _).2 hkept.symm
  have hshorter := ((document_reads_back (Sample.history.take 2) _ _).1 _).2 hfew.symm
  have hlater := (document_reads_back Sample.history _ _).2.2 2 5 (by decide) _ _ hshorter hlonger
  exact ⟨by decide +kernel, hlonger, hshorter, hlater⟩

end Changelog
end NightlyRelease
