import Mathlib.Tactic.Common

/-!
# Rust strings

A Rust `str` is a sequence of bytes that is valid UTF-8; the standard library's string functions
used by the server (`starts_with`, `to_ascii_lowercase`, address parsing) work on these bytes.

* `fromUtf8` is `std::str::from_utf8`: the same bytes if they are well-formed UTF-8. The
  well-formed sequences are those of the standard library's validation (the byte ranges of
  RFC 3629: no overlong forms, no surrogates, nothing above U+10FFFF).
* `decimal` is the `Display` form of an unsigned integer.
-/

namespace ShrimpWisp

/-- The bytes of a Rust `str`. -/
abbrev Str := List UInt8

/-- An ASCII character as a byte. -/
def ch (c : Char) : UInt8 := c.toNat.toUInt8

/-- An ASCII string literal. -/
def lit (s : String) : Str := s.toList.map ch

namespace Utf8

/-- A range of bytes, both ends included. -/
abbrev Range := UInt8 × UInt8

/-- The continuation bytes. -/
def tail : Range := (0x80, 0xBF)

/-- The ranges of the bytes that follow the first byte `b` of a character. -/
def follow (b : UInt8) : Option (List Range) :=
  if b < 0x80 then some []
  else if b < 0xC2 then none
  else if b < 0xE0 then some [tail]
  else if b = 0xE0 then some [(0xA0, 0xBF), tail]
  else if b = 0xED then some [(0x80, 0x9F), tail]
  else if b < 0xF0 then some [tail, tail]
  else if b = 0xF0 then some [(0x90, 0xBF), tail, tail]
  else if b < 0xF4 then some [tail, tail, tail]
  else if b = 0xF4 then some [(0x80, 0x8F), tail, tail]
  else none

/-- Well-formed UTF-8 after the first bytes of a character that `rs` have to follow. -/
def validFrom : List Range → List UInt8 → Bool
  | [], [] => true
  | _ :: _, [] => false
  | [], b :: s =>
    match follow b with
    | some rs => validFrom rs s
    | none => false
  | r :: rs, b :: s => r.1 ≤ b && b ≤ r.2 && validFrom rs s

/-- Well-formed UTF-8. -/
def valid (s : List UInt8) : Bool := validFrom [] s

end Utf8

/-- `std::str::from_utf8`. -/
def fromUtf8 (bytes : List UInt8) : Option Str := if Utf8.valid bytes then some bytes else none

/-- `u8::to_ascii_lowercase`. -/
def asciiLower (b : UInt8) : UInt8 := if ch 'A' ≤ b && b ≤ ch 'Z' then b + 0x20 else b

/-- `str::to_ascii_lowercase`. -/
def toAsciiLowercase (s : Str) : Str := s.map asciiLower

/-- The decimal digits of `n`, without leading zeros. -/
def decimal (n : Nat) : Str := (Nat.toDigits 10 n).map ch

/-- `u32::from_le_bytes`. -/
def le32 (a b c d : UInt8) : UInt32 :=
  (a.toNat + 0x100 * b.toNat + 0x10000 * c.toNat + 0x1000000 * d.toNat).toUInt32

/-- `u16::from_le_bytes`. -/
def le16 (a b : UInt8) : UInt16 := (a.toNat + 0x100 * b.toNat).toUInt16

/-- `u32::to_le_bytes`. -/
def toLe32 (n : UInt32) : List UInt8 :=
  [n.toNat.toUInt8, (n.toNat / 0x100).toUInt8, (n.toNat / 0x10000).toUInt8,
    (n.toNat / 0x1000000).toUInt8]

/-- `u16::to_le_bytes`. -/
def toLe16 (n : UInt16) : List UInt8 := [n.toNat.toUInt8, (n.toNat / 0x100).toUInt8]

theorem le16_toLe16 (n : UInt16) :
    le16 n.toNat.toUInt8 (n.toNat / 0x100).toUInt8 = n := by
  apply UInt16.toNat_inj.mp
  have := n.toNat_lt
  simp only [le16, Nat.toUInt8, Nat.toUInt16, UInt8.toNat_ofNat', UInt16.toNat_ofNat']
  omega

theorem le32_toLe32 (n : UInt32) :
    le32 n.toNat.toUInt8 (n.toNat / 0x100).toUInt8 (n.toNat / 0x10000).toUInt8
      (n.toNat / 0x1000000).toUInt8 = n := by
  apply UInt32.toNat_inj.mp
  have := n.toNat_lt
  simp only [le32, Nat.toUInt8, Nat.toUInt32, UInt8.toNat_ofNat', UInt32.toNat_ofNat']
  omega

theorem toLe16_le16 (a b : UInt8) : toLe16 (le16 a b) = [a, b] := by
  have ha := a.toNat_lt
  have hb := b.toNat_lt
  have hn : (le16 a b).toNat = a.toNat + 0x100 * b.toNat := by
    simp only [le16, Nat.toUInt16, UInt16.toNat_ofNat']
    omega
  simp only [toLe16, hn, List.cons.injEq, and_true, ← UInt8.toNat_inj, Nat.toUInt8,
    UInt8.toNat_ofNat']
  omega

theorem toLe32_le32 (a b c d : UInt8) : toLe32 (le32 a b c d) = [a, b, c, d] := by
  have ha := a.toNat_lt
  have hb := b.toNat_lt
  have hc := c.toNat_lt
  have hd := d.toNat_lt
  have hn : (le32 a b c d).toNat =
      a.toNat + 0x100 * b.toNat + 0x10000 * c.toNat + 0x1000000 * d.toNat := by
    simp only [le32, Nat.toUInt32, UInt32.toNat_ofNat']
    omega
  simp only [toLe32, hn, List.cons.injEq, and_true, ← UInt8.toNat_inj, Nat.toUInt8,
    UInt8.toNat_ofNat']
  omega

/-- A decimal digit's value. -/
def digit10 (b : UInt8) : Option Nat :=
  if ch '0' ≤ b ∧ b ≤ ch '9' then some (b.toNat - 48) else none

theorem digit10_ch {c : Char} (h : c.isDigit = true) :
    digit10 (ch c) = some (c.toNat - 48) := by
  simp only [Char.isDigit, Bool.and_eq_true, decide_eq_true_eq] at h
  obtain ⟨h₁, h₂⟩ := h
  have h₁ : 48 ≤ c.toNat := h₁
  have h₂ : c.toNat ≤ 57 := h₂
  have e : (ch c).toNat = c.toNat := by
    simp only [ch, Nat.toUInt8, UInt8.toNat_ofNat']
    omega
  simp only [digit10, UInt8.le_iff_toNat_le, e, show (ch '0').toNat = 48 from rfl,
    show (ch '9').toNat = 57 from rfl, h₁, h₂, and_self, if_true]

/-- Every byte of a printed number is a digit. -/
theorem digit10_decimal {n : Nat} {b : UInt8} (h : b ∈ decimal n) : (digit10 b).isSome := by
  simp only [decimal, List.mem_map] at h
  obtain ⟨c, hc, rfl⟩ := h
  rw [digit10_ch (Nat.isDigit_of_mem_toDigits (by decide) (by decide) hc)]
  rfl

end ShrimpWisp
