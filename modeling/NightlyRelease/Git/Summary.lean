/-
# The summary of a stored commit

A stored message is bytes. Its summary starts after the leading line feeds and
ends where the first paragraph does: at the end of the message, at a line feed
that is the last byte, or before a line that holds blanks only. A run of blanks
with a line feed in it becomes one space, any other run stays, and a run at the
end is dropped. Blanks are ASCII here, so the summary can differ from
`Subject.ofMessage`, which knows all blanks and trims every line.
-/

import NightlyRelease.Commit.Subject
import NightlyRelease.Text.Utf8

namespace NightlyRelease
namespace Git
namespace Summary

/-- A line feed. -/
def lineFeed : UInt8 := 10

/-- Whether a byte is a blank within a line: tab, vertical tab, form feed, carriage return or
space. -/
def isGap (b : UInt8) : Bool := b == 9 || b == 11 || b == 12 || b == 13 || b == 32

/-- Whether a byte is a blank. -/
def isBlank (b : UInt8) : Bool := isGap b || b == lineFeed

/-- Whether a paragraph ends at the line feed before these bytes. -/
def endsParagraph (rest : List UInt8) : Bool :=
  match rest.dropWhile isGap with
  | [] => true
  | b :: _ => b == lineFeed

/-- A run of blanks as it stands between two words. -/
def joint (run : List UInt8) : List UInt8 := if lineFeed ∈ run then [32] else run

/-- The rest of a summary after a run of blanks. -/
def fold (run : List UInt8) : List UInt8 → List UInt8
  | [] => []
  | b :: r =>
    if b == lineFeed && endsParagraph r then []
    else if isBlank b then fold (run ++ [b]) r
    else joint run ++ b :: fold [] r

/-- The summary of a message. -/
def ofBytes (message : List UInt8) : List UInt8 :=
  fold [] (message.dropWhile (· == lineFeed))

end Summary

/-- The subject of a stored message. -/
def subjectOf (message : List UInt8) : Subject :=
  ⟨String.ofList (Text.Utf8.lossy (Summary.ofBytes message))⟩

end Git
end NightlyRelease
