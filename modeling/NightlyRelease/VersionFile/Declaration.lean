/-
# Declarations in a version file

A line declares a key if it starts with `set(`, the key, a value without blanks
and `)`, with blanks allowed before and between all of these and at least one
blank after the key:

    set( KEY value )

A `Declaration` keeps the whole text around its value, so that the value can be
replaced and nothing else.
-/

import NightlyRelease.Text.Blank
import NightlyRelease.Text.Search

namespace NightlyRelease
namespace VersionFile

/-- A declared value with the text before and after it. -/
structure Declaration where
  before : List Char
  value : List Char
  after : List Char
  deriving DecidableEq, Repr

namespace Declaration

/-- The text in which the declaration stands. -/
def text (d : Declaration) : List Char := d.before ++ d.value ++ d.after

/-- The declaration in a text that has more before and after it. -/
def within (d : Declaration) (before after : List Char) : Declaration :=
  { d with before := before ++ d.before, after := d.after ++ after }

end Declaration

/-- Whether a character can stand in a value. -/
def isValueChar (c : Char) : Bool := !(c == ')' || Text.isBlank c)

/-- Tries `p` at the end of the blanks that the text starts with, and then at every earlier
place among them. -/
def afterBlanks (p : List Char → Option Declaration) : List Char → Option Declaration
  | [] => p []
  | c :: r =>
    if Text.isBlank c then
      match afterBlanks p r with
      | some d => some (d.within [c] [])
      | none => p (c :: r)
    else p (c :: r)

/-- The value after a key: blanks, the value, blanks and a closing parenthesis. -/
def valueAfterKey? (s : List Char) : Option Declaration :=
  let blanks := s.takeWhile Text.isBlank
  let rest := s.dropWhile Text.isBlank
  let after := rest.dropWhile isValueChar
  if blanks = [] then none
  else match after.dropWhile Text.isBlank with
    | ')' :: _ => some ⟨blanks, rest.takeWhile isValueChar, after⟩
    | _ => none

/-- The key and its value. -/
def keyAndValue? (key s : List Char) : Option Declaration := do
  let rest ← Text.stripPrefix? key s
  let d ← valueAfterKey? rest
  return d.within key []

/-- The opening words of a declaration. -/
def opening : List Char := "set(".toList

/-- The declaration of `key` in a line, if there is one. -/
def declaration? (key line : List Char) : Option Declaration := do
  let indent := line.takeWhile Text.isBlank
  let rest ← Text.stripPrefix? opening (line.dropWhile Text.isBlank)
  let d ← afterBlanks (keyAndValue? key) rest
  return d.within (indent ++ opening) []

end VersionFile
end NightlyRelease
