/-
Bytes read as UTF-8 without giving up at the first fault.

`decode` lists the characters that a sequence of bytes spells and puts `none` for every byte that
is part of none. A reader that only looks at ASCII characters outside of some regions can thus read
a text whose faults lie inside those regions.
-/
set_option autoImplicit false

namespace Graft.Utf8

/-- Whether a byte continues a character. -/
def isTail (b : UInt8) : Bool := 0x80 ≤ b && b ≤ 0xBF

/-- The range of the second byte after a given first byte of three or four: it excludes spellings
that are too long, surrogates, and numbers past the last code point. -/
def isSecond (first second : UInt8) : Bool :=
  (if first = 0xE0 then 0xA0 else if first = 0xF0 then 0x90 else 0x80) ≤ second &&
    second ≤ (if first = 0xED then 0x9F else if first = 0xF4 then 0x8F else 0xBF)

/-- The six low bits that a continuing byte adds. -/
def tailBits (b : UInt8) : Nat := b.toNat % 64

/-- The character at the head of a sequence of bytes and the number of bytes after the first that
it takes. -/
def leading? : List UInt8 → Option (Char × Nat)
  | [] => none
  | b :: rest =>
    if b < 0x80 then some (Char.ofNat b.toNat, 0)
    else match rest with
      | c :: d :: e :: _ =>
        if 0xC2 ≤ b && b ≤ 0xDF && isTail c then two b c
        else if 0xE0 ≤ b && b ≤ 0xEF && isSecond b c && isTail d then three b c d
        else if 0xF0 ≤ b && b ≤ 0xF4 && isSecond b c && isTail d && isTail e then
          some (Char.ofNat
            (((b.toNat % 8 * 64 + tailBits c) * 64 + tailBits d) * 64 + tailBits e), 3)
        else none
      | [c, d] =>
        if 0xC2 ≤ b && b ≤ 0xDF && isTail c then two b c
        else if 0xE0 ≤ b && b ≤ 0xEF && isSecond b c && isTail d then three b c d
        else none
      | [c] => if 0xC2 ≤ b && b ≤ 0xDF && isTail c then two b c else none
      | [] => none
where
  two (b c : UInt8) : Option (Char × Nat) :=
    some (Char.ofNat (b.toNat % 32 * 64 + tailBits c), 1)
  three (b c d : UInt8) : Option (Char × Nat) :=
    some (Char.ofNat ((b.toNat % 16 * 64 + tailBits c) * 64 + tailBits d), 2)

/-- The characters that the bytes spell, where the first `skip` bytes belong to a character that
was listed before; `none` for every byte that is part of no character. -/
def decode (skip : Nat) : List UInt8 → List (Option Char)
  | [] => []
  | b :: rest =>
    if 0 < skip then decode (skip - 1) rest
    else match leading? (b :: rest) with
      | some (c, more) => some c :: decode more rest
      | none => none :: decode 0 rest

/-- The characters of a sequence of bytes: those of the text where the bytes are one, and
otherwise as much as can be read. -/
def characters (bytes : ByteArray) : List (Option Char) :=
  match String.fromUTF8? bytes with
  | some text => text.toList.map some
  | none => decode 0 bytes.data.toList

theorem fromUTF8?_toUTF8 (text : String) : String.fromUTF8? text.toUTF8 = some text := by
  simp only [String.fromUTF8?]
  split
  · rfl
  · next h => exact absurd (by simpa using text.isValidUTF8) h

/-- The bytes of a text spell the characters of that text. -/
@[simp] theorem characters_toUTF8 (text : String) :
    characters text.toUTF8 = text.toList.map some := by
  simp only [characters, fromUTF8?_toUTF8]

end Graft.Utf8
