/-
# Percent encoding

The bytes of a text, each written as the character itself if it is unreserved
(an ASCII letter or digit, `-`, `.`, `_` or `~`), else as `%` and two upper case
hexadecimal digits. No character that has a meaning in a URL comes out, and
decoding gives the bytes back.
-/

import NightlyRelease.Text.Hex

namespace NightlyRelease
namespace Url
namespace Percent

/-- Whether a byte is written as the character that it is. -/
def isUnreserved (b : UInt8) : Bool :=
  let n := b.toNat
  (65 ≤ n && n ≤ 90) || (97 ≤ n && n ≤ 122) || (48 ≤ n && n ≤ 57) ||
    n == 45 || n == 46 || n == 95 || n == 126

/-- The written form of one byte. -/
def encodeByte (b : UInt8) : List Char :=
  if isUnreserved b then [Char.ofNat b.toNat] else '%' :: Text.Hex.upperByte b

/-- The written form of bytes. -/
def encode (s : List UInt8) : List Char := s.flatMap encodeByte

/-- The bytes that a written form stands for; `none` if a `%` has no two hexadecimal digits
after it or a character beyond ASCII stands in it. -/
def decode? : List Char → Option (List UInt8)
  | [] => some []
  | '%' :: a :: b :: r => do
    let hi ← Text.Hex.value? a
    let lo ← Text.Hex.value? b
    let rest ← decode? r
    return UInt8.ofNat (16 * hi + lo) :: rest
  | c :: r =>
    if c = '%' ∨ 128 ≤ c.toNat then none else (decode? r).map (UInt8.ofNat c.toNat :: ·)

end Percent
end Url
end NightlyRelease
