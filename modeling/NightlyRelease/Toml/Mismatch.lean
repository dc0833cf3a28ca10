/-
# Values that do not fit

A document may be TOML and yet not hold what its reader wants: a value of
another kind, a negative number, a table without a field that must be there. The
message shows the line where the value starts, with marks under the value:

    TOML parse error at line 2, column 6
      |
    2 | name=3
      |      ^
    invalid type: integer `3`, expected a string

Columns count characters. There are as many marks as the value has bytes, at
least one, and none past the end of the line.
-/

import NightlyRelease.Text.Lines
import NightlyRelease.Text.Quoted
import NightlyRelease.Toml.Reader

namespace NightlyRelease
namespace Toml

/-- What is wrong with a value. -/
inductive Fault where
  /-- It is of another kind than the one that is named. -/
  | kind (found : Node) (expected : String)
  /-- It is a number that cannot count anything. -/
  | negative (n : Int) (expected : String)
  /-- It lists too few parts of what is named. -/
  | length (found : Nat) (expected : String)
  /-- It lacks a field. -/
  | missing (field : String)

namespace Fault

/-- The kind of a value in words, with the value itself where it is short. -/
def describe : Node → String
  | .mk _ shape => match shape with
    | .text s => "string " ++ Text.Quoted.string s
    | .integer n => "integer `" ++ Text.Decimal.signed n ++ "`"
    | .float x => "floating point `" ++ x.text ++ "`"
    | .boolean b => "boolean `" ++ (if b then "true" else "false") ++ "`"
    | .array _ => "sequence"
    | .tables _ => "sequence"
    | .moment => "map"
    | .table _ _ => "map"

/-- What is wrong, in words. -/
def message : Fault → String
  | kind found expected => "invalid type: " ++ describe found ++ ", expected " ++ expected
  | negative n expected =>
    "invalid value: integer `" ++ Text.Decimal.signed n ++ "`, expected " ++ expected
  | length found expected =>
    "invalid length " ++ Text.Decimal.text found ++ ", expected " ++ expected
  | missing field => "missing field `" ++ field ++ "`"

end Fault

/-- A fault with the place of the value that has it, once that is known. -/
structure Mismatch where
  span : Option Span
  fault : Fault

namespace Mismatch

/-- The mismatch at a place, unless it has a closer one. -/
def within (place : Option Span) (m : Mismatch) : Mismatch := { m with span := m.span <|> place }

/-- The text up to where so many bytes are left, and the rest. -/
def splitBefore (left : Nat) : List Char → List Char × List Char
  | [] => ([], [])
  | c :: r =>
    if byteSize (c :: r) ≤ left then ([], c :: r)
    else
      let (before, after) := splitBefore left r
      (c :: before, after)

/-- Blanks in front of the bar that separates line numbers from lines. -/
def gutter (number : String) : String := String.ofList (List.replicate (number.length + 1) ' ')

/-- The line on which a place starts, with marks under it. -/
def excerpt (span : Span) (source : List Char) : String :=
  let (before, after) := splitBefore span.start source
  let lines := Text.pieces before
  let number := Text.Decimal.text lines.length
  let start := lines.getLast?.getD []
  let line := start ++ after.takeWhile (· ≠ '\n')
  let column := start.length
  let marks := max 1 (min (span.start - span.stop) (byteSize line - column))
  "TOML parse error at line " ++ number ++ ", column " ++ Text.Decimal.text (column + 1) ++ "\n" ++
    gutter number ++ "|\n" ++ number ++ " | " ++ String.ofList line ++ "\n" ++ gutter number ++
    "|" ++ String.ofList (List.replicate (column + 1) ' ' ++ List.replicate marks '^') ++ "\n"

/-- The message about a mismatch in a document. -/
def message (source : String) (m : Mismatch) : String :=
  (match m.span with
    | some span => excerpt span source.toList
    | none => "") ++ m.fault.message ++ "\n"

end Mismatch
end Toml
end NightlyRelease
