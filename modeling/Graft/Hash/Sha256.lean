/-
The digest SHA-256 of FIPS 180-4, and its text in lowercase hexadecimal.

A message is padded with one set bit, zeros and its length in bits to a whole number of
sixty-four-byte blocks; each block is stretched to sixty-four words and mixed into eight words of
state. The state is a structure of eight fields, so a digest has thirty-two bytes, and its text
sixty-four digits, whatever the message.
-/
import Graft.Text.Hex

set_option autoImplicit false

namespace Graft.Sha256

/-! ## 1. Constants and word functions -/

/-- The first thirty-two bits of the fractional parts of the cube roots of the first sixty-four
primes. -/
def roundConstants : List UInt32 := [
  0x428a2f98, 0x71374491, 0xb5c0fbcf, 0xe9b5dba5, 0x3956c25b, 0x59f111f1, 0x923f82a4, 0xab1c5ed5,
  0xd807aa98, 0x12835b01, 0x243185be, 0x550c7dc3, 0x72be5d74, 0x80deb1fe, 0x9bdc06a7, 0xc19bf174,
  0xe49b69c1, 0xefbe4786, 0x0fc19dc6, 0x240ca1cc, 0x2de92c6f, 0x4a7484aa, 0x5cb0a9dc, 0x76f988da,
  0x983e5152, 0xa831c66d, 0xb00327c8, 0xbf597fc7, 0xc6e00bf3, 0xd5a79147, 0x06ca6351, 0x14292967,
  0x27b70a85, 0x2e1b2138, 0x4d2c6dfc, 0x53380d13, 0x650a7354, 0x766a0abb, 0x81c2c92e, 0x92722c85,
  0xa2bfe8a1, 0xa81a664b, 0xc24b8b70, 0xc76c51a3, 0xd192e819, 0xd6990624, 0xf40e3585, 0x106aa070,
  0x19a4c116, 0x1e376c08, 0x2748774c, 0x34b0bcb5, 0x391c0cb3, 0x4ed8aa4a, 0x5b9cca4f, 0x682e6ff3,
  0x748f82ee, 0x78a5636f, 0x84c87814, 0x8cc70208, 0x90befffa, 0xa4506ceb, 0xbef9a3f7, 0xc67178f2]

/-- Rotation of a word to the right. -/
def rotateRight (x : UInt32) (n : UInt32) : UInt32 := (x >>> n) ||| (x <<< (32 - n))

def smallSigma0 (x : UInt32) : UInt32 := rotateRight x 7 ^^^ rotateRight x 18 ^^^ (x >>> 3)
def smallSigma1 (x : UInt32) : UInt32 := rotateRight x 17 ^^^ rotateRight x 19 ^^^ (x >>> 10)
def bigSigma0 (x : UInt32) : UInt32 := rotateRight x 2 ^^^ rotateRight x 13 ^^^ rotateRight x 22
def bigSigma1 (x : UInt32) : UInt32 := rotateRight x 6 ^^^ rotateRight x 11 ^^^ rotateRight x 25
def choose (x y z : UInt32) : UInt32 := (x &&& y) ^^^ (~~~x &&& z)
def majority (x y z : UInt32) : UInt32 := (x &&& y) ^^^ (x &&& z) ^^^ (y &&& z)

/-! ## 2. The state and its rounds -/

/-- The eight words that a digest is made of. -/
structure State where
  a : UInt32
  b : UInt32
  c : UInt32
  d : UInt32
  e : UInt32
  f : UInt32
  g : UInt32
  h : UInt32

/-- The first thirty-two bits of the fractional parts of the square roots of the first eight
primes. -/
def State.initial : State where
  a := 0x6a09e667
  b := 0xbb67ae85
  c := 0x3c6ef372
  d := 0xa54ff53a
  e := 0x510e527f
  f := 0x9b05688c
  g := 0x1f83d9ab
  h := 0x5be0cd19

/-- One round: a word of the stretched block and its constant are mixed in. -/
def State.round (s : State) (constant word : UInt32) : State :=
  let t1 := s.h + bigSigma1 s.e + choose s.e s.f s.g + constant + word
  let t2 := bigSigma0 s.a + majority s.a s.b s.c
  { a := t1 + t2, b := s.a, c := s.b, d := s.c, e := s.d + t1, f := s.e, g := s.f, h := s.g }

/-- Sum of two states, word by word. -/
def State.add (s t : State) : State where
  a := s.a + t.a
  b := s.b + t.b
  c := s.c + t.c
  d := s.d + t.d
  e := s.e + t.e
  f := s.f + t.f
  g := s.g + t.g
  h := s.h + t.h

def State.words (s : State) : List UInt32 := [s.a, s.b, s.c, s.d, s.e, s.f, s.g, s.h]

/-- Stretches the sixteen words of a block to sixty-four. -/
def stretch (block : Array UInt32) : Array UInt32 :=
  (List.range 48).foldl (fun words i =>
    words.push (smallSigma1 (words.getD (i + 14) 0) + words.getD (i + 9) 0 +
      smallSigma0 (words.getD (i + 1) 0) + words.getD i 0)) block

/-- Mixes one block into the state. -/
def State.absorb (s : State) (block : Array UInt32) : State :=
  s.add ((roundConstants.zip (stretch block).toList).foldl (fun t kw => t.round kw.1 kw.2) s)

/-! ## 3. Messages -/

/-- The eight bytes of a number, highest first. -/
def bytes64 (n : Nat) : List UInt8 :=
  [56, 48, 40, 32, 24, 16, 8, 0].map (fun shift => UInt8.ofNat (n >>> shift))

/-- The four bytes of a word, highest first. -/
def bytes32 (w : UInt32) : List UInt8 :=
  [(w >>> 24).toUInt8, (w >>> 16).toUInt8, (w >>> 8).toUInt8, w.toUInt8]

/-- The word that four bytes spell, highest first. -/
def word (b0 b1 b2 b3 : UInt8) : UInt32 :=
  (b0.toUInt32 <<< 24) ||| (b1.toUInt32 <<< 16) ||| (b2.toUInt32 <<< 8) ||| b3.toUInt32

/-- The zeros between the closing bit and the length: as few as complete a block. -/
def paddingZeros (size : Nat) : Nat := (119 - size % 64) % 64

/-- The message with its closing bit, zeros and length. -/
def pad (message : ByteArray) : ByteArray :=
  message ++ (0x80 :: List.replicate (paddingZeros message.size) 0 ++
    bytes64 (8 * message.size)).toByteArray

/-- The sixteen words of the block that starts at a byte. -/
def blockAt (message : ByteArray) (start : Nat) : Array UInt32 :=
  Array.ofFn (n := 16) (fun i =>
    let at' := start + 4 * i.val
    word (message.data.getD at' 0) (message.data.getD (at' + 1) 0)
      (message.data.getD (at' + 2) 0) (message.data.getD (at' + 3) 0))

/-- The thirty-two bytes of the digest. -/
def digest (message : ByteArray) : List UInt8 :=
  let padded := pad message
  let final := (List.range (padded.size / 64)).foldl
    (fun s i => s.absorb (blockAt padded (64 * i))) State.initial
  final.words.flatMap bytes32

/-- The digest as sixty-four lowercase hexadecimal digits. -/
def hexDigest (message : ByteArray) : String := Hex.ofBytes (digest message)

/-- The digest of a text, taken of its UTF-8 bytes. -/
def hexOfText (text : String) : String := hexDigest text.toUTF8

/-- The first sixteen digits of the digest of a text, enough to tell names apart. -/
def shortHexOfText (text : String) : String := String.ofList ((hexOfText text).toList.take 16)

/-! ## 4. Lengths -/

theorem length_digest (message : ByteArray) : (digest message).length = 32 := by
  simp [digest, State.words, bytes32]

/-- The text of a digest has sixty-four digits, whatever the message. -/
theorem length_hexDigest (message : ByteArray) : (hexDigest message).length = 64 := by
  have h (bytes : List UInt8) : (bytes.flatMap Hex.ofByte).length = 2 * bytes.length := by
    induction bytes with
    | nil => rfl
    | cons b rest ih => simp only [List.flatMap_cons, List.length_append, ih, Hex.ofByte,
        List.length_cons, List.length_nil]; omega
  simp [hexDigest, Hex.ofBytes, h, length_digest]

/-- The start of a digest always has sixteen digits. -/
theorem length_toList_shortHexOfText (text : String) :
    (shortHexOfText text).toList.length = 16 := by
  have h : (hexOfText text).toList.length = 64 := by
    rw [String.length_toList]
    exact length_hexDigest text.toUTF8
  simp [shortHexOfText, h]

/-- A digest is written in letters and figures. -/
theorem isAlphanum_of_mem_hexDigest {message : ByteArray} {c : Char}
    (h : c ∈ (hexDigest message).toList) : c.isAlphanum = true :=
  Hex.isAlphanum_of_mem_ofBytes h

end Graft.Sha256
