/-
# Lines for the terminal

What a run tells its user: progress and results on standard output, warnings and
errors on standard error, without colours. An `Output` keeps the two streams
apart, each in the order in which it was written.
-/

import NightlyRelease.Changelog
import NightlyRelease.Warning

namespace NightlyRelease

/-- What was written to the two output streams. -/
structure Output where
  stdout : String
  stderr : String
  deriving DecidableEq, Repr

namespace Output

/-- Nothing was written. -/
def empty : Output := ⟨"", ""⟩

/-- One output after another. -/
def append (a b : Output) : Output := ⟨a.stdout ++ b.stdout, a.stderr ++ b.stderr⟩

instance : Append Output := ⟨append⟩

/-- Outputs one after another. -/
def concat (outputs : List Output) : Output := outputs.foldl append empty

/-- One line on standard output. -/
def line (s : String) : Output := ⟨s ++ "\n", ""⟩

/-- One line on standard error. -/
def errorLine (s : String) : Output := ⟨"", s ++ "\n"⟩

end Output

namespace Terminal

/-- A failure. -/
def error (message : String) : Output := .errorLine ("ERROR: " ++ message)

/-- Something that was done, or would be. -/
def success (message : String) : Output := .line ("✓ " ++ message)

/-- Something to know while the run goes on. -/
def status (message : String) : Output := .line ("→ " ++ message)

/-- A warning. -/
def warning (w : Warning) : Output := .errorLine ("⚠ WARNING: " ++ w.message)

/-- Warnings in their order. -/
def warnings (ws : List Warning) : Output := .concat (ws.map warning)

/-- Why a run stops at a nightly commit. -/
def skipLine (subject : String) : String :=
  "Latest commit was made by the nightly build, aborting: " ++ subject

/-- The most entries of a changelog that are shown. -/
def shownEntries : Nat := 10

/-- The most characters of an entry that are shown. -/
def entryWidth : Nat := 72

/-- A text of at most `width` characters: a longer one loses its end to an ellipsis. -/
def truncate (s : String) (width : Nat) : String :=
  if s.length ≤ width then s else String.ofList (s.toList.take (width - 1) ++ ['…'])

/-- An entry with its number. -/
def entryLine (number : Nat) (entry : String) : Output :=
  .line ("  " ++ Text.Decimal.text number ++ ". " ++ truncate entry entryWidth)

/-- A preview of a changelog, cut off after the first entries. -/
def changelog (c : Changelog) : Output :=
  .line ("\nChangelog (" ++ Text.Decimal.text c.size ++ " entries):") ++
    .concat ((c.entries.take shownEntries).zipIdx.map fun (entry, i) => entryLine (i + 1) entry) ++
    if shownEntries < c.size then
      .line ("  ... and " ++ Text.Decimal.text (c.size - shownEntries) ++ " more")
    else .empty

end Terminal
end NightlyRelease
