/-
# Changelogs

The subjects of the commits since the last nightly commit, newest first, without
those that are too short to tell anything. The written form is one flat list:

    <ul><li>newest
    </li><li>older
    </li></ul>
-/

import NightlyRelease.Commit.Subject

namespace NightlyRelease

/-- The entries of a changelog, newest first. -/
structure Changelog where
  entries : List String
  deriving DecidableEq, Repr

namespace Changelog

/-- Collects entries from subjects, newest first: up to the first automated one, and of these
the ones with more than `minimum` characters. -/
def ofSubjects (subjects : List Subject) (marker : String) (minimum : Nat) : Changelog :=
  ⟨((subjects.takeWhile fun s => !s.isAutomated marker).filter (·.isSubstantial minimum)).map
    (·.text)⟩

/-- How many entries there are. -/
def size (c : Changelog) : Nat := c.entries.length

/-- Whether there are no entries. -/
def isEmpty (c : Changelog) : Bool := c.entries.isEmpty

/-- The written form of one entry. -/
def renderEntry (entry : String) : String := "<li>" ++ entry ++ "\n</li>"

/-- The written form of a changelog. -/
def render (c : Changelog) : String := "<ul>" ++ String.join (c.entries.map renderEntry) ++ "</ul>"

end Changelog
end NightlyRelease
