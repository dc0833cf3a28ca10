/-
# Blanks and trimming

A blank is a character with the Unicode property `White_Space`:

| range | characters |
| --- | --- |
| `U+0009`–`U+000D`, `U+0020` | tab, line breaks, space |
| `U+0085`, `U+00A0`, `U+1680` | next line, no-break space, ogham space mark |
| `U+2000`–`U+200A` | spaces of a fixed width |
| `U+2028`, `U+2029`, `U+202F`, `U+205F`, `U+3000` | separators, narrow and wide spaces |

The zero width space `U+200B` and the byte order mark `U+FEFF` are not blank.
`trim` takes the blanks off both ends of a text and nothing else.
-/

namespace NightlyRelease
namespace Text

/-- Whether a character has the Unicode property `White_Space`. -/
def isBlank (c : Char) : Bool :=
  let n := c.toNat
  (9 ≤ n && n ≤ 13) || n == 0x20 || n == 0x85 || n == 0xA0 || n == 0x1680 ||
    (0x2000 ≤ n && n ≤ 0x200A) || n == 0x2028 || n == 0x2029 || n == 0x202F || n == 0x205F ||
    n == 0x3000

/-- Whether a text holds blanks only; the empty text does. -/
def isAllBlank (s : List Char) : Bool := s.all isBlank

/-- The text without the blanks that it starts with. -/
def trimStart (s : List Char) : List Char := s.dropWhile isBlank

/-- The text without the blanks that it ends with. -/
def trimEnd : List Char → List Char
  | [] => []
  | c :: r => match trimEnd r with
    | [] => if isBlank c then [] else [c]
    | d :: t => c :: d :: t

/-- The text without the blanks at its two ends. -/
def trim (s : List Char) : List Char := trimEnd (trimStart s)

@[simp] theorem trim_nil : trim [] = [] := rfl

/-- `trim` on strings. -/
def trimmed (s : String) : String := String.ofList (trim s.toList)

end Text
end NightlyRelease
