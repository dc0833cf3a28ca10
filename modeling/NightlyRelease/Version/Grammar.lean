/-
# The grammar of version texts

`MAJOR.MINOR.PATCH`, then optionally `-` and a pre-release, then optionally `+`
and build metadata. A number is `0` or starts with another digit, and fits in 64
bits. A pre-release and build metadata are segments of ASCII letters, digits and
`-`, joined by dots, none of them empty; a pre-release segment of several digits
alone does not start with `0`.

`Grammar.read` reports the first fault that it meets from the left.
-/

import NightlyRelease.Text.Decimal
import NightlyRelease.Text.Search
import NightlyRelease.Text.Quoted

namespace NightlyRelease
namespace Version
namespace Grammar

/-- The parts of a version text. -/
inductive Part where
  | major | minor | patch | preRelease | build
  deriving DecidableEq, Repr

/-- The name of a part in the text of a fault. -/
def Part.name : Part → String
  | major => "major version number"
  | minor => "minor version number"
  | patch => "patch version number"
  | preRelease => "pre-release identifier"
  | build => "build metadata"

/-- Why a text is no version. -/
inductive Fault where
  | empty
  /-- The text ends where the part, or the dot after it, is needed. -/
  | endOfText (part : Part)
  /-- A number starts with something else than a digit. -/
  | notADigit (part : Part) (c : Char)
  /-- Something stands after the part that cannot follow it. -/
  | strayAfter (part : Part) (c : Char)
  | leadingZero (part : Part)
  | tooLarge (part : Part)
  | emptySegment (part : Part)
  deriving DecidableEq, Repr

/-- The text of a fault. -/
def Fault.message : Fault → String
  | empty => "empty string, expected a semver version"
  | endOfText part => "unexpected end of input while parsing " ++ part.name
  | notADigit part c =>
    "unexpected character " ++ Text.Quoted.character c ++ " while parsing " ++ part.name
  | strayAfter part c =>
    "unexpected character " ++ Text.Quoted.character c ++ " after " ++ part.name
  | leadingZero part => "invalid leading zero in " ++ part.name
  | tooLarge part => "value of " ++ part.name ++ " exceeds u64::MAX"
  | emptySegment part => "empty identifier segment in " ++ part.name

/-- A version text taken apart. -/
structure Reading where
  major : Nat
  minor : Nat
  patch : Nat
  preRelease : List Char
  build : List Char
  deriving DecidableEq, Repr

/-- The bound below which a number must stay. -/
def numberBound : Nat := UInt64.size

/-- Reads a number: its value and the rest. -/
def number (part : Part) (s : List Char) : Except Fault (Nat × List Char) :=
  let run := s.takeWhile Text.Decimal.isDigit
  let rest := s.dropWhile Text.Decimal.isDigit
  match run with
  | [] => match s with
    | [] => .error (.endOfText part)
    | c :: _ => .error (.notADigit part c)
  | '0' :: _ :: _ => .error (.leadingZero part)
  | _ =>
    if Text.Decimal.value run < numberBound then .ok (Text.Decimal.value run, rest)
    else .error (.tooLarge part)

/-- Reads the dot after a number. -/
def dot (part : Part) : List Char → Except Fault (List Char)
  | [] => .error (.endOfText part)
  | c :: r => if c = '.' then .ok r else .error (.strayAfter part c)

/-- Whether a character can stand in a segment. -/
def isSegmentChar (c : Char) : Bool := c.isAlphanum || c == '-'

/-- Whether a segment may stand in the part. -/
def checkSegment (part : Part) (segment : List Char) : Except Fault Unit :=
  if segment = [] then .error (.emptySegment part)
  else if part = .preRelease ∧ 1 < segment.length ∧ segment.head? = some '0' ∧
      segment.all Text.Decimal.isDigit then .error (.leadingZero part)
  else .ok ()

/-- Reads the segments of a pre-release or of build metadata. -/
def identifier (part : Part) (s : List Char) : Except Fault (List Char × List Char) := do
  let inside c := isSegmentChar c || c == '.'
  let run := s.takeWhile inside
  (Text.splitOn '.' run).forM (checkSegment part)
  return (run, s.dropWhile inside)

/-- Reads what `mark` introduces, if the text goes on with `mark`; else the part is empty and
`last` stays the part that was read last. -/
def suffix (mark : Char) (part last : Part) (s : List Char) :
    Except Fault (List Char × Part × List Char) :=
  match s with
  | c :: r =>
    if c = mark then do
      let (run, rest) ← identifier part r
      return (run, part, rest)
    else .ok ([], last, c :: r)
  | [] => .ok ([], last, [])

/-- Takes a version text apart, or tells its first fault. -/
def read (s : List Char) : Except Fault Reading := do
  if s = [] then throw .empty
  let (major, s) ← number .major s
  let s ← dot .major s
  let (minor, s) ← number .minor s
  let s ← dot .minor s
  let (patch, s) ← number .patch s
  let (preRelease, last, s) ← suffix '-' .preRelease .patch s
  let (build, last, s) ← suffix '+' .build last s
  match s with
  | [] => return { major, minor, patch, preRelease, build }
  | c :: _ => throw (.strayAfter last c)

end Grammar
end Version
end NightlyRelease
