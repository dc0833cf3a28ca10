/-
# Strings and keys

Four kinds of strings: in double quotes with escapes, in single quotes without,
and both in triple quotes over several lines. A line end right after the opening
triple quotes is dropped, every other line end becomes a line feed, and a
backslash at the end of a line drops all blanks and line ends that follow. One
or two quotes may stand before the closing three.
-/

import NightlyRelease.Text.Hex
import NightlyRelease.Toml.Reader

namespace NightlyRelease
namespace Toml

/-- The character with a code point given by hexadecimal digits, if it is one. -/
def scalar? (digits : List Char) : Option Char := do
  let values ← digits.mapM Text.Hex.value?
  let n := values.foldl (fun n d => 16 * n + d) 0
  if n < 0xD800 ∨ (0xDFFF < n ∧ n ≤ 0x10FFFF) then some (Char.ofNat n) else none

/-- The character that a single letter after a backslash stands for. -/
def escaped? : Char → Option Char
  | 'b' => some '\x08'
  | 't' => some '\t'
  | 'n' => some '\n'
  | 'f' => some '\x0c'
  | 'r' => some '\r'
  | '"' => some '"'
  | '\\' => some '\\'
  | _ => none

/-- The rest of a string after its opening double quote. -/
def basicBody : Reader (List Char)
  | [] => none
  | '"' :: r => some ([], r)
  | '\\' :: 'u' :: a :: b :: c :: d :: r => do
    let x ← scalar? [a, b, c, d]
    let (s, r) ← basicBody r
    return (x :: s, r)
  | '\\' :: 'U' :: a :: b :: c :: d :: e :: f :: g :: h :: r => do
    let x ← scalar? [a, b, c, d, e, f, g, h]
    let (s, r) ← basicBody r
    return (x :: s, r)
  | '\\' :: c :: r => do
    let x ← escaped? c
    let (s, r) ← basicBody r
    return (x :: s, r)
  | c :: r =>
    if isVisible c ∧ c ≠ '\\' then do
      let (s, r) ← basicBody r
      return (c :: s, r)
    else none

/-- The quotes that stand before the closing three, and the rest after all of them; the text
starts after three quotes. -/
def closingQuotes (q : Char) : List Char → List Char × List Char
  | a :: b :: r =>
    if a = q ∧ b = q then ([q, q], r)
    else if a = q then ([q], b :: r)
    else ([], a :: b :: r)
  | [a] => if a = q then ([q], []) else ([], [a])
  | [] => ([], [])

/-- Whether nothing but blanks stands before the next line end. -/
def endsLine (s : List Char) : Bool := (lineEnd? (skipGaps s)).isSome

/-- The rest of a string after its opening three double quotes. While `folding`, blanks and
line ends are dropped. -/
def foldedBody (folding : Bool) : Reader (List Char)
  | [] => none
  | '"' :: '"' :: '"' :: r => some (closingQuotes '"' r)
  | '\\' :: 'u' :: a :: b :: c :: d :: r => do
    let x ← scalar? [a, b, c, d]
    let (s, r) ← foldedBody false r
    return (x :: s, r)
  | '\\' :: 'U' :: a :: b :: c :: d :: e :: f :: g :: h :: r => do
    let x ← scalar? [a, b, c, d, e, f, g, h]
    let (s, r) ← foldedBody false r
    return (x :: s, r)
  | '\\' :: c :: r =>
    if endsLine (c :: r) then foldedBody true (c :: r)
    else do
      let x ← escaped? c
      let (s, r) ← foldedBody false r
      return (x :: s, r)
  | '\r' :: '\n' :: r =>
    if folding then foldedBody true r
    else do
      let (s, r) ← foldedBody false r
      return ('\n' :: s, r)
  | c :: r =>
    if folding ∧ (isGap c ∨ c = '\n') then foldedBody true r
    else if (isVisible c ∨ c = '\n') ∧ c ≠ '\\' then do
      let (s, r) ← foldedBody false r
      return (c :: s, r)
    else none

/-- The rest of a string after its opening single quote. -/
def literalBody : Reader (List Char)
  | [] => none
  | c :: r =>
    if c = '\x27' then some ([], r)
    else if isVisible c then do
      let (s, r) ← literalBody r
      return (c :: s, r)
    else none

/-- The rest of a string after its opening three single quotes. -/
def verbatimBody : Reader (List Char)
  | [] => none
  | '\x27' :: '\x27' :: '\x27' :: r => some (closingQuotes '\x27' r)
  | '\r' :: '\n' :: r => do
    let (s, r) ← verbatimBody r
    return ('\n' :: s, r)
  | c :: r =>
    if isVisible c ∨ c = '\n' then do
      let (s, r) ← verbatimBody r
      return (c :: s, r)
    else none

/-- The text after a line end, if it starts with one. -/
def dropLineEnd (s : List Char) : List Char := (lineEnd? s).getD s

/-- A string on one line. -/
def shortString : Reader (List Char)
  | '"' :: r => basicBody r
  | '\x27' :: r => literalBody r
  | _ => none

/-- A string of any kind. -/
def string : Reader (List Char)
  | '"' :: '"' :: '"' :: r => foldedBody false (dropLineEnd r)
  | '\x27' :: '\x27' :: '\x27' :: r => verbatimBody (dropLineEnd r)
  | s => shortString s

/-- Whether a character may stand in a key without quotes. -/
def isBareKeyChar (c : Char) : Bool := c.isAlphanum || c == '-' || c == '_'

/-- One part of a key. -/
def simpleKey : Reader Key
  | [] => none
  | c :: r =>
    let s := c :: r
    if c = '"' ∨ c = '\x27' then do
      let (name, rest) ← shortString s
      return (⟨String.ofList name, spanOf s rest⟩, rest)
    else
      let (name, rest) := takeClass isBareKeyChar s
      if name = [] then none else some (⟨String.ofList name, spanOf s rest⟩, rest)

/-- The most parts of a key, and the most arrays and inline tables within each other. The bound is
one of the library that reads TOML, not of the format; a document at the bound itself has not been
compared with what the library makes of it. -/
def nestingLimit : Nat := 80

/-- The parts of a key after the first, each after a dot; blanks may stand around the dots. -/
def keyTail : Nat → Reader (List Key)
  | 0, _ => none
  | fuel + 1, s => match skipGaps s with
    | '.' :: r => do
      let (k, r) ← simpleKey (skipGaps r)
      let (ks, r) ← keyTail fuel r
      return (k :: ks, r)
    | r => some ([], r)

/-- A key with its parts, and the text after the blanks behind it. -/
def dottedKey : Reader (List Key) := fun s => do
  let (k, r) ← simpleKey (skipGaps s)
  let (ks, r) ← keyTail nestingLimit r
  return (k :: ks, r)

end Toml
end NightlyRelease
