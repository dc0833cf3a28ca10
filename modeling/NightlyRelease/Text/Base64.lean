/-
# Base64

Three bytes are written as four characters of an alphabet of sixty-four, six
bits each; equals signs fill up the last group.
-/

namespace NightlyRelease
namespace Text
namespace Base64

/-- The character for six bits. -/
def digit (n : Nat) : Char :=
  if n < 26 then Char.ofNat (65 + n)
  else if n < 52 then Char.ofNat (71 + n)
  else if n < 62 then Char.ofNat (n - 4)
  else if n = 62 then '+'
  else '/'

/-- The six bits of a number that stand above so many others. -/
def sextet (n places : Nat) : Char := digit (n / Nat.pow 64 places % 64)

/-- The written form of bytes. -/
def encode : List UInt8 → List Char
  | a :: b :: c :: r =>
    let n := 65536 * a.toNat + 256 * b.toNat + c.toNat
    sextet n 3 :: sextet n 2 :: sextet n 1 :: sextet n 0 :: encode r
  | [a, b] =>
    let n := 65536 * a.toNat + 256 * b.toNat
    [sextet n 3, sextet n 2, sextet n 1, '=']
  | [a] =>
    let n := 65536 * a.toNat
    [sextet n 3, sextet n 2, '=', '=']
  | [] => []

end Base64
end Text
end NightlyRelease
