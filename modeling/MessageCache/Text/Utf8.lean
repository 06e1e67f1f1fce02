/-
# UTF-8 — bytes that should be text

Stored text is a run of bytes which nothing obliges to be UTF-8.  `Utf8.read`
gives the text back, or says where the bytes stop being UTF-8: at a byte that
no character can continue with, or at the end, in the middle of a character.

`read_bytes` says that reading the bytes of a text gives that text, so a fault
only ever speaks of bytes that were no text.
-/

namespace MessageCache

/-- A run of bytes. -/
abbrev Bytes := List UInt8

namespace Utf8

/-- The UTF-8 bytes of a text. -/
def bytes (s : String) : Bytes := s.toUTF8.data.toList

/-- Where, and how, bytes stop being UTF-8. -/
inductive Fault where
  /-- The character that starts at `start` is ruled out after `length` bytes. -/
  | invalid (length start : Nat)
  /-- The bytes end inside the character that starts at `start`. -/
  | incomplete (start : Nat)
deriving DecidableEq

/-- The words for a fault. -/
def Fault.message : Fault → String
  | .invalid length start => s!"invalid utf-8 sequence of {length} bytes from index {start}"
  | .incomplete start => s!"incomplete utf-8 byte sequence from index {start}"

/-- What a character's first byte asks for: how many bytes follow it, and the
range of the first of them. -/
def lead (b : UInt8) : Option (Nat × UInt8 × UInt8) :=
  if b < 0x80 then some (0, 0x80, 0xBF)
  else if b < 0xC2 then none
  else if b < 0xE0 then some (1, 0x80, 0xBF)
  else if b = 0xE0 then some (2, 0xA0, 0xBF)
  else if b = 0xED then some (2, 0x80, 0x9F)
  else if b < 0xF0 then some (2, 0x80, 0xBF)
  else if b = 0xF0 then some (3, 0x90, 0xBF)
  else if b < 0xF4 then some (3, 0x80, 0xBF)
  else if b = 0xF4 then some (3, 0x80, 0x8F)
  else none

/-- The first fault of the bytes from position `pos` on, inside a character
that started at `start`, owes `owed` more bytes and continues with a byte
between `low` and `high`. -/
def faultFrom (pos start owed : Nat) (low high : UInt8) : Bytes → Option Fault
  | [] => if owed = 0 then none else some (.incomplete start)
  | b :: rest =>
    if owed = 0 then
      match lead b with
      | none => some (.invalid 1 pos)
      | some (n, lo, hi) => faultFrom (pos + 1) pos n lo hi rest
    else if low ≤ b ∧ b ≤ high then
      faultFrom (pos + 1) start (owed - 1) 0x80 0xBF rest
    else some (.invalid (pos - start) start)

/-- The first place where bytes stop being UTF-8. -/
def fault (b : Bytes) : Option Fault := faultFrom 0 0 0 0x80 0xBF b

/-- The text that bytes spell. -/
def read (b : Bytes) : Except Fault String :=
  match String.fromUTF8? ⟨b.toArray⟩ with
  | some s => .ok s
  | none => .error ((fault b).getD (.invalid 1 0))

/-- The text that bytes spell up to their first fault. -/
def upTo (start : Nat) (b : Bytes) : String := ((read (b.take start)).toOption).getD ""

/-- The text that bytes spell, with a replacement character in place of each
fault; no more faults than `fuel`. -/
def mendedWith : Nat → Bytes → String
  | 0, _ => ""
  | fuel + 1, b =>
    match read b with
    | .ok s => s
    | .error (.invalid length start) =>
      upTo start b ++ "\uFFFD" ++ mendedWith fuel (b.drop (start + length))
    | .error (.incomplete start) => upTo start b ++ "\uFFFD"

/-- The text that bytes spell, with a replacement character in place of each
fault. -/
def mended (b : Bytes) : String := mendedWith (b.length + 1) b

theorem fromUTF8?_toUTF8 (s : String) : String.fromUTF8? s.toUTF8 = some s := by
  unfold String.fromUTF8?
  rw [String.toUTF8_eq_toByteArray, dif_pos s.isValidUTF8]
  rfl

theorem read_bytes (s : String) : read (bytes s) = .ok s := by
  unfold read bytes
  rw [Array.toArray_toList]
  have h := fromUTF8?_toUTF8 s
  simp only [h]

end Utf8

end MessageCache
