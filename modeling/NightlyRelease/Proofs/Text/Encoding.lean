/-
# A text and its bytes

A character of a text is one byte if it is ASCII (`encodeChar_of_ascii`), and else
several bytes none of which is (`ascii_le_of_mem_encodeChar`).  So a byte below `80`
stands for itself wherever it is (`mem_encode_iff`), and can be found without decoding.

The first byte of a character tells how many bytes there are and what the second
one can be.  Reading goes through the four lengths (`next_encodeChar`), and any
reader gets back the text whose bytes it is given (`lossy_encode`).
-/

import NightlyRelease.Text.Utf8
import Mathlib.Tactic.SplitIfs

namespace NightlyRelease
namespace Text

variable {c : Char} {b : UInt8}

/-- The bytes of a character. -/
def encodeChar (c : Char) : List UInt8 := String.utf8EncodeChar c

/-- The bytes of characters. -/
def encode (s : List Char) : List UInt8 := s.flatMap encodeChar

theorem bytes_eq_encode (s : String) : bytes s = encode s.toList := by
  have hbytes : s.toByteArray = (String.ofList s.toList).toByteArray := by rw [String.ofList_toList]
  rw [bytes, String.toUTF8_eq_toByteArray, hbytes, String.toByteArray_ofList, List.utf8Encode,
    List.toList_data_toByteArray]
  rfl

/-- The bytes of a text one after the other. -/
theorem toList_toUTF8 (s : String) : s.toUTF8.toList = bytes s := by
  have hloop (b : ByteArray) (i : Nat) (r : List UInt8) :
      ByteArray.toList.loop b i r = r.reverse ++ b.data.toList.drop i := by
    fun_induction ByteArray.toList.loop b i r with
    | case1 i r h ih =>
      have hi : i < b.data.toList.length := by simpa using h
      rw [ih, List.drop_eq_getElem_cons hi]
      simp [ByteArray.get!, h]
    | case2 i r h =>
      rw [List.drop_eq_nil_of_le (by simpa using Nat.le_of_not_lt h), List.append_nil]
  rw [ByteArray.toList, hloop]
  rfl

@[simp] theorem encode_nil : encode [] = [] := rfl

@[simp] theorem encode_cons (c : Char) (s : List Char) :
    encode (c :: s) = encodeChar c ++ encode s := rfl

@[simp] theorem encode_append (s t : List Char) : encode (s ++ t) = encode s ++ encode t :=
  List.flatMap_append

theorem encodeChar_of_ascii (h : c.toNat < 0x80) : encodeChar c = [UInt8.ofNat c.toNat] := by
  have h : c.val.toNat ≤ 127 := Nat.le_of_lt_succ h
  simp only [encodeChar, String.utf8EncodeChar, h, if_true]
  rfl

theorem encode_of_ascii {s : List Char} (h : ∀ c ∈ s, c.toNat < 0x80) :
    encode s = s.map fun c => UInt8.ofNat c.toNat := by
  induction s with
  | nil => rfl
  | cons c s ih =>
    rw [encode_cons, encodeChar_of_ascii (h c List.mem_cons_self),
      ih fun d hd => h d (List.mem_cons_of_mem _ hd)]
    rfl

theorem ascii_le_of_mem_encodeChar (h : 0x80 ≤ c.toNat) (hb : b ∈ encodeChar c) :
    0x80 ≤ b.toNat := by
  have h : ¬ c.val.toNat ≤ 127 := Nat.not_le.2 h
  simp only [encodeChar, String.utf8EncodeChar, h, if_false] at hb
  split_ifs at hb <;> simp only [List.mem_cons, List.not_mem_nil, or_false] at hb
  · rcases hb with rfl | rfl <;> simp only [UInt8.toNat_ofNat'] <;> omega
  · rcases hb with rfl | rfl | rfl <;> simp only [UInt8.toNat_ofNat'] <;> omega
  · rcases hb with rfl | rfl | rfl | rfl <;> simp only [UInt8.toNat_ofNat'] <;> omega

theorem toNat_ofNat_of_ascii {n : Nat} (h : n < 0x80) : (Char.ofNat n).toNat = n := by
  have hvalid : n.isValidChar := .inl (by omega)
  rw [Char.ofNat, dif_pos hvalid]
  rfl

/-- **A byte below `80` stands for itself** wherever it is. -/
theorem mem_encodeChar_iff (h : b.toNat < 0x80) : b ∈ encodeChar c ↔ c = Char.ofNat b.toNat := by
  by_cases hascii : c.toNat < 0x80
  · rw [encodeChar_of_ascii hascii, List.mem_singleton]
    constructor
    · rintro rfl
      have hc : (UInt8.ofNat c.toNat).toNat = c.toNat := by rw [UInt8.toNat_ofNat']; omega
      rw [hc, Char.ofNat_toNat]
    · rintro rfl
      rw [toNat_ofNat_of_ascii h, UInt8.ofNat_toNat]
  · refine iff_of_false (fun hb => ?_) ?_
    · have := ascii_le_of_mem_encodeChar (Nat.not_lt.1 hascii) hb
      omega
    · rintro rfl
      exact hascii (by rwa [toNat_ofNat_of_ascii h])

theorem mem_encode_iff (h : b.toNat < 0x80) {s : List Char} :
    b ∈ encode s ↔ Char.ofNat b.toNat ∈ s := by
  simp only [encode, List.mem_flatMap, mem_encodeChar_iff h, exists_eq_right]

theorem encodeChar_ne_nil (c : Char) : encodeChar c ≠ [] := by
  rw [ne_eq, ← List.length_eq_zero_iff, encodeChar, String.length_utf8EncodeChar]
  exact Nat.ne_of_gt c.utf8Size_pos

namespace Utf8

/-- A byte after the first gives its six bits. -/
theorem continuation?_ofNat (n : Nat) :
    continuation? (UInt8.ofNat (n % 64 + 128)) = some (n % 64) := by
  have hn : (n % 64 + 128) % 256 = n % 64 + 128 := by omega
  rw [continuation?, UInt8.toNat_ofNat', hn, if_pos (by omega), Nat.add_sub_cancel]

theorem continue?_zero (acc read : Nat) (r : List UInt8) :
    continue? 0 acc read r = (some acc, read) := by
  cases r <;> rfl

/-- One byte after the first is read. -/
theorem continue?_succ (more acc read n : Nat) (r : List UInt8) :
    continue? (more + 1) acc read (UInt8.ofNat (n % 64 + 128) :: r) =
      continue? more (64 * acc + n % 64) (read + 1) r := by
  rw [continue?, continuation?_ofNat]

/-- The first byte of two. -/
theorem lead?_two {n : Nat} (h : 0x80 ≤ n) (h' : n ≤ 0x7FF) :
    lead? (UInt8.ofNat (n / 64 % 32 + 192)) = some (1, n / 64, 0x80, 0xBF) := by
  have hbyte : (n / 64 % 32 + 192) % 256 = n / 64 + 192 := by omega
  rw [lead?, UInt8.toNat_ofNat', hbyte, if_pos (by omega), Nat.add_sub_cancel]

/-- The first byte of three, and what it says about the second one. -/
theorem lead?_three {n : Nat} (h : 0x800 ≤ n) (h' : n ≤ 0xFFFF)
    (hvalid : n < 0xD800 ∨ 0xDFFF < n) :
    ∃ low high, lead? (UInt8.ofNat (n / 4096 % 16 + 224)) = some (2, n / 4096, low, high) ∧
      low ≤ n / 64 % 64 + 128 ∧ n / 64 % 64 + 128 ≤ high := by
  have hbyte : (n / 4096 % 16 + 224) % 256 = n / 4096 + 224 := by omega
  rw [lead?, UInt8.toNat_ofNat', hbyte, if_neg (by omega)]
  by_cases hfirst : n / 4096 = 0
  · rw [hfirst]
    exact ⟨0xA0, 0xBF, rfl, by omega, by omega⟩
  by_cases hsurrogates : n / 4096 = 13
  · rw [hsurrogates]
    exact ⟨0x80, 0x9F, rfl, by omega, by omega⟩
  rw [if_neg (by omega), if_neg (by omega), if_pos (by omega), Nat.add_sub_cancel]
  exact ⟨0x80, 0xBF, rfl, by omega, by omega⟩

/-- The first byte of four, and what it says about the second one. -/
theorem lead?_four {n : Nat} (h : 0x10000 ≤ n) (h' : n < 0x110000) :
    ∃ low high, lead? (UInt8.ofNat (n / 262144 % 8 + 240)) = some (3, n / 262144, low, high) ∧
      low ≤ n / 4096 % 64 + 128 ∧ n / 4096 % 64 + 128 ≤ high := by
  have hbyte : (n / 262144 % 8 + 240) % 256 = n / 262144 + 240 := by omega
  rw [lead?, UInt8.toNat_ofNat', hbyte, if_neg (by omega), if_neg (by omega), if_neg (by omega),
    if_neg (by omega)]
  by_cases hfirst : n / 262144 = 0
  · rw [hfirst]
    exact ⟨0x90, 0xBF, rfl, by omega, by omega⟩
  by_cases hlast : n / 262144 = 4
  · rw [hlast]
    exact ⟨0x80, 0x8F, rfl, by omega, by omega⟩
  rw [if_neg (by omega), if_pos (by omega), Nat.add_sub_cancel]
  exact ⟨0x80, 0xBF, rfl, by omega, by omega⟩

/-- A byte below `80` is a character. -/
theorem next_of_ascii {a : UInt8} (h : a.toNat < 0x80) (r : List UInt8) :
    next a r = (Char.ofNat a.toNat, 0) := by
  unfold next
  rw [if_pos h]

/-- A first byte is read with as many bytes as it calls for. -/
theorem next_of_lead {a b : UInt8} {r : List UInt8} {more bits low high code read : Nat}
    (ha : 0x80 ≤ a.toNat) (hlead : lead? a = some (more, bits, low, high))
    (hlow : low ≤ b.toNat) (hhigh : b.toNat ≤ high)
    (hcode : continue? more bits 0 (b :: r) = (some code, read)) :
    next a (b :: r) = (Char.ofNat code, read) := by
  unfold next
  rw [if_neg (Nat.not_lt.2 ha), hlead]
  dsimp only
  rw [if_pos ⟨hlow, hhigh⟩, hcode]

/-- **The bytes of a character are read as the character,** whatever follows. -/
theorem next_encodeChar (c : Char) (r : List UInt8) :
    ∃ a bs, encodeChar c = a :: bs ∧ next a (bs ++ r) = (c, bs.length) := by
  have hc : Char.ofNat c.val.toNat = c := Char.ofNat_toNat c
  have hvalid : c.val.toNat < 0xD800 ∨ 0xDFFF < c.val.toNat ∧ c.val.toNat < 0x110000 := c.valid
  simp only [encodeChar, String.utf8EncodeChar]
  generalize c.val.toNat = n at hc hvalid
  split_ifs with h₁ h₂ h₃
  · have hn : (UInt8.ofNat n).toNat = n := by rw [UInt8.toNat_ofNat']; omega
    exact ⟨_, [], rfl, by rw [next_of_ascii (by omega), hn, hc]; rfl⟩
  · have hbits : 64 * (n / 64) + n % 64 = n := by omega
    have hcode : continue? 1 (n / 64) 0 (UInt8.ofNat (n % 64 + 128) :: r) = (some n, 1) := by
      rw [continue?_succ, continue?_zero, hbits]
    refine ⟨_, [_], rfl, (next_of_lead ?_ (lead?_two (by omega) h₂) ?_ ?_ hcode).trans ?_⟩
    · rw [UInt8.toNat_ofNat']; omega
    · rw [UInt8.toNat_ofNat']; omega
    · rw [UInt8.toNat_ofNat']; omega
    · rw [hc]; rfl
  · have hbits : 64 * (64 * (n / 4096) + n / 64 % 64) + n % 64 = n := by omega
    have hcode : continue? 2 (n / 4096) 0 (UInt8.ofNat (n / 64 % 64 + 128) ::
        UInt8.ofNat (n % 64 + 128) :: r) = (some n, 2) := by
      rw [continue?_succ, continue?_succ, continue?_zero, hbits]
    obtain ⟨low, high, hlead, hlow, hhigh⟩ := lead?_three (n := n) (by omega) h₃ (by omega)
    refine ⟨_, [_, _], rfl, (next_of_lead ?_ hlead ?_ ?_ hcode).trans ?_⟩
    · rw [UInt8.toNat_ofNat']; omega
    · rw [UInt8.toNat_ofNat']; omega
    · rw [UInt8.toNat_ofNat']; omega
    · rw [hc]; rfl
  · have hbits : 64 * (64 * (64 * (n / 262144) + n / 4096 % 64) + n / 64 % 64) + n % 64 = n := by
      omega
    have hcode : continue? 3 (n / 262144) 0 (UInt8.ofNat (n / 4096 % 64 + 128) ::
        UInt8.ofNat (n / 64 % 64 + 128) :: UInt8.ofNat (n % 64 + 128) :: r) = (some n, 3) := by
      rw [continue?_succ, continue?_succ, continue?_succ, continue?_zero, hbits]
    obtain ⟨low, high, hlead, hlow, hhigh⟩ := lead?_four (n := n) (by omega) (by omega)
    refine ⟨_, [_, _, _], rfl, (next_of_lead ?_ hlead ?_ ?_ hcode).trans ?_⟩
    · rw [UInt8.toNat_ofNat']; omega
    · rw [UInt8.toNat_ofNat']; omega
    · rw [UInt8.toNat_ofNat']; omega
    · rw [hc]; rfl

/-- **The bytes of a text are read as the text.** -/
theorem lossy_encode (s : List Char) : lossy (encode s) = s := by
  induction s with
  | nil => rw [encode_nil, lossy]
  | cons c s ih =>
    obtain ⟨a, bs, hbytes, hnext⟩ := next_encodeChar c (encode s)
    rw [encode_cons, hbytes, List.cons_append, lossy, hnext]
    dsimp only
    rw [List.drop_left, ih]

end Utf8

/-- Texts with the same bytes are the same. -/
theorem bytes_injective {s t : String} (h : bytes s = bytes t) : s = t := by
  rw [bytes_eq_encode, bytes_eq_encode] at h
  rw [← String.toList_inj, ← Utf8.lossy_encode s.toList, h, Utf8.lossy_encode]

end Text
end NightlyRelease
