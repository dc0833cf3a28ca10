/-
# Reading bytes as UTF-8

`lossy` reads any bytes: each longest run of bytes that starts a character but
does not end one, and each byte that starts none, becomes one replacement
character `U+FFFD`.

| first byte | second byte | length |
| --- | --- | ---: |
| `00`–`7F` | | 1 |
| `C2`–`DF` | `80`–`BF` | 2 |
| `E0` / `E1`–`EC`, `EE`, `EF` / `ED` | `A0`–`BF` / `80`–`BF` / `80`–`9F` | 3 |
| `F0` / `F1`–`F3` / `F4` | `90`–`BF` / `80`–`BF` / `80`–`8F` | 4 |

All further bytes of a character are between `80` and `BF`.
-/

namespace NightlyRelease
namespace Text
namespace Utf8

/-- The character that stands for bytes that are none. -/
def replacement : Char := '\ufffd'

/-- The six bits of a byte after the first, if it is one. -/
def continuation? (b : UInt8) : Option Nat :=
  if 0x80 ≤ b.toNat ∧ b.toNat < 0xC0 then some (b.toNat - 0x80) else none

/-- How many bytes follow a first byte, its own bits, and the bounds of the second byte;
`none` for a byte that starts no character of several bytes. -/
def lead? (b : UInt8) : Option (Nat × Nat × Nat × Nat) :=
  let n := b.toNat
  if 0xC2 ≤ n ∧ n ≤ 0xDF then some (1, n - 0xC0, 0x80, 0xBF)
  else if n = 0xE0 then some (2, 0, 0xA0, 0xBF)
  else if n = 0xED then some (2, 0xD, 0x80, 0x9F)
  else if 0xE1 ≤ n ∧ n ≤ 0xEF then some (2, n - 0xE0, 0x80, 0xBF)
  else if n = 0xF0 then some (3, 0, 0x90, 0xBF)
  else if 0xF1 ≤ n ∧ n ≤ 0xF3 then some (3, n - 0xF0, 0x80, 0xBF)
  else if n = 0xF4 then some (3, 4, 0x80, 0x8F)
  else none

/-- Reads up to `more` continuation bytes after the bits `acc`: the bits if all are there, and
how many were read. -/
def continue? (more acc read : Nat) : List UInt8 → Option Nat × Nat
  | [] => (if more = 0 then some acc else none, read)
  | b :: r =>
    match more with
    | 0 => (some acc, read)
    | more + 1 => match continuation? b with
      | none => (none, read)
      | some bits => continue? more (64 * acc + bits) (read + 1) r

/-- The character that starts with byte `a`, and how many of the bytes after it belong to it
or to the broken character that it starts. -/
def next (a : UInt8) (r : List UInt8) : Char × Nat :=
  if a.toNat < 0x80 then (Char.ofNat a.toNat, 0)
  else match lead? a, r with
    | none, _ => (replacement, 0)
    | some _, [] => (replacement, 0)
    | some (more, bits, low, high), b :: _ =>
      if low ≤ b.toNat ∧ b.toNat ≤ high then
        match continue? more bits 0 r with
        | (some code, read) => (Char.ofNat code, read)
        | (none, read) => (replacement, read)
      else (replacement, 0)

/-- The text of any bytes, with replacement characters for what is not UTF-8. -/
def lossy (s : List UInt8) : List Char :=
  match s with
  | [] => []
  | a :: r =>
    let (c, more) := next a r
    c :: lossy (r.drop more)
termination_by s.length

end Utf8

/-- The bytes of a text in UTF-8. -/
def bytes (s : String) : List UInt8 := s.toUTF8.data.toList

end Text
end NightlyRelease
