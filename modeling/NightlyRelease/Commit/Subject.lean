/-
# Commit subjects

The subject of a commit is one line that stands for its message. Of a message it
is the first paragraph, its lines trimmed and joined by single spaces; blank
lines before the paragraph are skipped. `Git.Summary` builds subjects from
stored commits by a rule of its own.

A commit is automated if its subject holds the marker of nightly commits.
-/

import NightlyRelease.Text.Blank
import NightlyRelease.Text.Lines

namespace NightlyRelease

/-- The line that stands for a commit. -/
structure Subject where
  text : String
  deriving DecidableEq, Repr, Inhabited

namespace Subject

/-- The lines of the first paragraph, trimmed. -/
def paragraph (message : List Char) : List (List Char) :=
  (((Text.pieces message).map Text.trim).dropWhile List.isEmpty).takeWhile (!·.isEmpty)

/-- Joins lines by single spaces. -/
def joinLines : List (List Char) → List Char
  | [] => []
  | [l] => l
  | l :: m :: ls => l ++ ' ' :: joinLines (m :: ls)

/-- The subject of a message. -/
def ofMessage (message : String) : Subject :=
  ⟨String.ofList (joinLines (paragraph message.toList))⟩

/-- Whether the commit was made by a nightly run. -/
def isAutomated (s : Subject) (marker : String) : Bool :=
  Text.contains marker.toList s.text.toList

/-- Whether the subject is long enough for a changelog: it has more than `minimum`
characters. -/
def isSubstantial (s : Subject) (minimum : Nat) : Bool := minimum < s.text.length

end Subject
end NightlyRelease
