/-
# Quoted characters and strings

A quoted text can be read back without doubt about what it holds: the quote and
the backslash are written with a backslash before them, `NUL`, tab, line feed
and carriage return as `\0`, `\t`, `\n` and `\r`, and every other character that
would not show, by its code point in braces, as in `\u{200b}`. A quote of the
other kind is written as it is.
-/

import NightlyRelease.Text.Hex
import NightlyRelease.Text.Hidden

namespace NightlyRelease
namespace Text
namespace Quoted

/-- A character given by its code point. -/
def codePoint (c : Char) : List Char :=
  ['\\', 'u', '\x7b'] ++ Hex.digits c.toNat ++ ['\x7d']

/-- How a character is written between two of `quote`. -/
def escape (quote c : Char) : List Char :=
  if c = '\x00' then ['\\', '0']
  else if c = '\t' then ['\\', 't']
  else if c = '\r' then ['\\', 'r']
  else if c = '\n' then ['\\', 'n']
  else if c = '\\' ∨ c = quote then ['\\', c]
  else if c.toNat < 0x20 ∨ c.toNat = 0x7F then codePoint c
  else if c.toNat < 0x7F then [c]
  else if isHidden c then codePoint c
  else [c]

/-- A character between single quotes. -/
def character (c : Char) : String := String.ofList ('\x27' :: escape '\x27' c ++ ['\x27'])

/-- A string between double quotes. -/
def string (s : String) : String := String.ofList ('"' :: s.toList.flatMap (escape '"') ++ ['"'])

end Quoted
end Text
end NightlyRelease
