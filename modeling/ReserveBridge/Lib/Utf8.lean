-- SUMMARY: Lossy UTF-8: the decoder that replaces what is no character, its reading of ASCII bytes, and the texts whose encoding it gives back.
import Mathlib.Data.List.Basic
import Mathlib.Tactic.SplitIfs

/-!
# Lossy UTF-8

A decoder of byte strings that refuses none. A sequence of bytes is given up at the
first byte that cannot continue it, and what was read of it becomes one replacement
character.
-/

namespace Utf8

/-! ## The decoder -/

/-- What was read of a character: its bits, how many bytes it needs after the next
one, and the range of the next one. -/
structure Sequence where
  bits : ℕ
  left : ℕ
  low : ℕ
  high : ℕ

/-- The sequence that a leading byte begins. -/
def leading (b : ℕ) : Option Sequence :=
  if b < 0xc2 then none
  else if b < 0xe0 then some ⟨b - 0xc0, 0, 0x80, 0xbf⟩
  else if b < 0xf0 then
    some ⟨b - 0xe0, 1, if b = 0xe0 then 0xa0 else 0x80, if b = 0xed then 0x9f else 0xbf⟩
  else if b < 0xf5 then
    some ⟨b - 0xf0, 2, if b = 0xf0 then 0x90 else 0x80, if b = 0xf4 then 0x8f else 0xbf⟩
  else none

def replacement : Char := Char.ofNat 0xfffd

/-- A byte that continues no sequence. -/
def start (b : ℕ) : List Char × Option Sequence :=
  if b < 0x80 then ([Char.ofNat b], none)
  else match leading b with
    | some s => ([], some s)
    | none => ([replacement], none)

/-- A byte after what was read of a sequence. -/
def feed (b : ℕ) : Option Sequence → List Char × Option Sequence
  | none => start b
  | some s =>
    if s.low ≤ b ∧ b ≤ s.high then
      let bits := 64 * s.bits + (b - 0x80)
      match s.left with
      | 0 => ([Char.ofNat bits], none)
      | left + 1 => ([], some ⟨bits, left, 0x80, 0xbf⟩)
    else (replacement :: (start b).1, (start b).2)

def decodeFrom : Option Sequence → List UInt8 → List Char
  | none, [] => []
  | some _, [] => [replacement]
  | pending, b :: bytes =>
    (feed b.toNat pending).1 ++ decodeFrom (feed b.toNat pending).2 bytes

/-- The text of a byte string. -/
def decodeLossy (bytes : List UInt8) : List Char := decodeFrom none bytes

/-! ## ASCII -/

theorem decodeFrom_cons (pending : Option Sequence) (b : UInt8) (bytes : List UInt8) :
    decodeFrom pending (b :: bytes) =
      (feed b.toNat pending).1 ++ decodeFrom (feed b.toNat pending).2 bytes := by
  cases pending <;> rfl

theorem feed_none {b : ℕ} (h : b < 0x80) : feed b none = ([Char.ofNat b], none) := if_pos h

/-- ASCII bytes are their characters. -/
theorem decodeLossy_ascii {bytes : List UInt8} (h : ∀ b ∈ bytes, b.toNat < 0x80) :
    decodeLossy bytes = bytes.map fun b => Char.ofNat b.toNat := by
  induction bytes with
  | nil => rfl
  | cons b bytes ih =>
    obtain ⟨hb, hbytes⟩ := List.forall_mem_cons.mp h
    rw [decodeLossy, decodeFrom_cons, feed_none hb]
    exact congrArg (Char.ofNat b.toNat :: ·) (ih hbytes)

/-! ## Encoded texts -/

theorem decodeFrom_ofNat {n : ℕ} (hn : n < 256) (pending : Option Sequence) (bytes : List UInt8) :
    decodeFrom pending (UInt8.ofNat n :: bytes) =
      (feed n pending).1 ++ decodeFrom (feed n pending).2 bytes := by
  rw [decodeFrom_cons, UInt8.toNat_ofNat', Nat.mod_eq_of_lt hn]

section Sequences

variable {b k bits left low high : ℕ}

/-- A byte in the range of a sequence that needs no more. -/
theorem feed_last (hlow : low ≤ b) (hhigh : b ≤ high) :
    feed b (some ⟨bits, 0, low, high⟩) = ([Char.ofNat (64 * bits + (b - 0x80))], none) :=
  if_pos ⟨hlow, hhigh⟩

/-- A byte in the range of a sequence that needs more. -/
theorem feed_next (hlow : low ≤ b) (hhigh : b ≤ high) :
    feed b (some ⟨bits, left + 1, low, high⟩) =
      ([], some ⟨64 * bits + (b - 0x80), left, 0x80, 0xbf⟩) :=
  if_pos ⟨hlow, hhigh⟩

theorem feed_leading {s : Sequence} (hb : 0x80 ≤ b) (h : leading b = some s) :
    feed b none = ([], some s) := by
  rw [feed, start, if_neg (by omega), h]

theorem leading_two (hlow : 2 ≤ k) (hhigh : k < 32) :
    leading (k + 0xc0) = some ⟨k, 0, 0x80, 0xbf⟩ := by
  rw [leading, if_neg (by omega), if_pos (by omega), Nat.add_sub_cancel]

theorem leading_three (h : k < 16) :
    leading (k + 0xe0) =
      some ⟨k, 1, if k = 0 then 0xa0 else 0x80, if k = 13 then 0x9f else 0xbf⟩ := by
  rw [leading, if_neg (by omega), if_neg (by omega), if_pos (by omega), Nat.add_sub_cancel]
  simp only [Nat.add_eq_right, Nat.reduceEqDiff]

theorem leading_four (h : k < 5) :
    leading (k + 0xf0) =
      some ⟨k, 2, if k = 0 then 0x90 else 0x80, if k = 4 then 0x8f else 0xbf⟩ := by
  rw [leading, if_neg (by omega), if_neg (by omega), if_neg (by omega), if_pos (by omega),
    Nat.add_sub_cancel]
  simp only [Nat.add_eq_right, Nat.reduceEqDiff]

end Sequences

/-- The bytes of a character are read back, whatever follows. -/
theorem decodeFrom_utf8EncodeChar (c : Char) (bytes : List UInt8) :
    decodeFrom none (String.utf8EncodeChar c ++ bytes) = c :: decodeFrom none bytes := by
  have hvalid : c.toNat < 0xd800 ∨ (0xdfff < c.toNat ∧ c.toNat < 0x110000) := c.valid
  have hc : Char.ofNat c.toNat = c := Char.ofNat_toNat c
  have hval : c.val.toNat = c.toNat := rfl
  unfold String.utf8EncodeChar
  simp only [hval]
  generalize c.toNat = v at hvalid hc
  -- the bits of the bytes are the digits of the number
  split_ifs with h₁ h₂ h₃
  · rw [List.singleton_append, decodeFrom_ofNat (by omega), feed_none (by omega), hc]
    rfl
  · have hbits : 64 * (v / 64 % 32) + (v % 64 + 0x80 - 0x80) = v := by omega
    rw [List.cons_append, decodeFrom_ofNat (by omega),
      feed_leading (by omega) (leading_two (by omega) (by omega)), List.singleton_append,
      decodeFrom_ofNat (by omega), feed_last (by omega) (by omega), hbits, hc]
    rfl
  · have hbits : 64 * (64 * (v / 4096 % 16) + (v / 64 % 64 + 0x80 - 0x80)) +
        (v % 64 + 0x80 - 0x80) = v := by omega
    rw [List.cons_append, decodeFrom_ofNat (by omega),
      feed_leading (by omega) (leading_three (by omega)), List.cons_append,
      decodeFrom_ofNat (by omega), feed_next (by split_ifs <;> omega) (by split_ifs <;> omega),
      List.singleton_append, decodeFrom_ofNat (by omega), feed_last (by omega) (by omega), hbits, hc]
    rfl
  · have hbits : 64 * (64 * (64 * (v / 262144 % 8) + (v / 4096 % 64 + 0x80 - 0x80)) +
        (v / 64 % 64 + 0x80 - 0x80)) + (v % 64 + 0x80 - 0x80) = v := by omega
    rw [List.cons_append, decodeFrom_ofNat (by omega),
      feed_leading (by omega) (leading_four (by omega)), List.cons_append,
      decodeFrom_ofNat (by omega), feed_next (by split_ifs <;> omega) (by split_ifs <;> omega),
      List.cons_append, decodeFrom_ofNat (by omega), feed_next (by omega) (by omega),
      List.singleton_append, decodeFrom_ofNat (by omega), feed_last (by omega) (by omega), hbits, hc]
    rfl

/-- The encoding of a text is read back. -/
theorem decodeLossy_encode (text : List Char) :
    decodeLossy (text.flatMap String.utf8EncodeChar) = text := by
  induction text with
  | nil => rfl
  | cons c text ih =>
    rw [List.flatMap_cons, decodeLossy, decodeFrom_utf8EncodeChar]
    exact congrArg (c :: ·) ih

end Utf8
