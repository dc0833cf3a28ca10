/-
# Reading from the start of a text

A reader takes something off the start of a text and gives it with the rest, or
refuses. Blanks of TOML are space and tab; a line ends with a line feed, with a
carriage return before it or without; a comment runs from `#` to the end of its
line and holds no control characters except tabs.
-/

import NightlyRelease.Text.Search
import NightlyRelease.Toml.Value

namespace NightlyRelease
namespace Toml

/-- Takes something off the start of a text. -/
abbrev Reader (α : Type) := List Char → Option (α × List Char)

/-- How many bytes a text has. -/
def byteSize (s : List Char) : Nat := s.foldl (fun n c => n + c.utf8Size) 0

/-- The stretch between two rests of a text. -/
def spanOf (before after : List Char) : Span := ⟨byteSize before, byteSize after⟩

/-- Takes one given character. -/
def mark (c : Char) : List Char → Option (List Char)
  | [] => none
  | d :: r => if d = c then some r else none

/-- Whether a character is a blank within a line. -/
def isGap (c : Char) : Bool := c == ' ' || c == '\t'

/-- The text after the blanks of its first line. -/
def skipGaps (s : List Char) : List Char := s.dropWhile isGap

/-- Whether a character may stand in comments and strings. -/
def isVisible (c : Char) : Bool := c == '\t' || (0x20 ≤ c.toNat && c.toNat != 0x7F)

/-- The text after a line end. -/
def lineEnd? : List Char → Option (List Char)
  | '\n' :: r => some r
  | '\r' :: '\n' :: r => some r
  | _ => none

/-- The text after a comment, if one stands here; it stops before the line end. -/
def skipComment : List Char → List Char
  | '#' :: r => r.dropWhile isVisible
  | s => s

/-- The text after the rest of a line that holds nothing more: blanks, a comment, the end. -/
def restOfLine? (s : List Char) : Option (List Char) :=
  match skipComment (skipGaps s) with
  | [] => some []
  | r => lineEnd? r

theorem length_dropWhile_le (p : Char → Bool) (s : List Char) :
    (s.dropWhile p).length ≤ s.length := (List.dropWhile_sublist p).length_le

/-- The text after blanks, comments and line ends; a comment must be followed by a line end. -/
def skipTrivia (s : List Char) : Option (List Char) :=
  match _h : skipGaps s with
  | '\n' :: r => skipTrivia r
  | '\r' :: '\n' :: r => skipTrivia r
  | '#' :: r => match _h' : r.dropWhile isVisible with
    | '\n' :: t => skipTrivia t
    | '\r' :: '\n' :: t => skipTrivia t
    | _ => none
  | r => some r
termination_by s.length
decreasing_by
  all_goals
    have hs := length_dropWhile_le isGap s
    simp only [skipGaps] at _h
    rw [_h] at hs
    simp only [List.length_cons] at hs
  · omega
  · omega
  · have hr := length_dropWhile_le isVisible r
    rw [_h'] at hr
    simp only [List.length_cons] at hr
    omega
  · have hr := length_dropWhile_le isVisible r
    rw [_h'] at hr
    simp only [List.length_cons] at hr
    omega

/-- Takes as many characters of a class as there are. -/
def takeClass (p : Char → Bool) (s : List Char) : List Char × List Char :=
  (s.takeWhile p, s.dropWhile p)

end Toml
end NightlyRelease
