import ExtensionAudit.Bytes

namespace ExtensionAudit.Digest

/-- The fractions of the cube roots of the first 64 primes. -/
def roundConstants : List UInt32 :=
  [
    0x428A2F98, 0x71374491, 0xB5C0FBCF, 0xE9B5DBA5, 0x3956C25B, 0x59F111F1, 0x923F82A4, 0xAB1C5ED5,
    0xD807AA98, 0x12835B01, 0x243185BE, 0x550C7DC3, 0x72BE5D74, 0x80DEB1FE, 0x9BDC06A7, 0xC19BF174,
    0xE49B69C1, 0xEFBE4786, 0x0FC19DC6, 0x240CA1CC, 0x2DE92C6F, 0x4A7484AA, 0x5CB0A9DC, 0x76F988DA,
    0x983E5152, 0xA831C66D, 0xB00327C8, 0xBF597FC7, 0xC6E00BF3, 0xD5A79147, 0x06CA6351, 0x14292967,
    0x27B70A85, 0x2E1B2138, 0x4D2C6DFC, 0x53380D13, 0x650A7354, 0x766A0ABB, 0x81C2C92E, 0x92722C85,
    0xA2BFE8A1, 0xA81A664B, 0xC24B8B70, 0xC76C51A3, 0xD192E819, 0xD6990624, 0xF40E3585, 0x106AA070,
    0x19A4C116, 0x1E376C08, 0x2748774C, 0x34B0BCB5, 0x391C0CB3, 0x4ED8AA4A, 0x5B9CCA4F, 0x682E6FF3,
    0x748F82EE, 0x78A5636F, 0x84C87814, 0x8CC70208, 0x90BEFFFA, 0xA4506CEB, 0xBEF9A3F7, 0xC67178F2]

structure State where
  a : UInt32
  b : UInt32
  c : UInt32
  d : UInt32
  e : UInt32
  f : UInt32
  g : UInt32
  h : UInt32

/-- The fractions of the square roots of the first eight primes. -/
def initial : State :=
  ⟨0x6A09E667, 0xBB67AE85, 0x3C6EF372, 0xA54FF53A, 0x510E527F,
    0x9B05688C, 0x1F83D9AB, 0x5BE0CD19⟩

def rotate (x n : UInt32) : UInt32 :=
  (x >>> n) ||| (x <<< (32 - n))

/-- The next word of a schedule from the sixteen words before it. -/
def nextWord (words : Array UInt32) : UInt32 :=
  let before (n : Nat) : UInt32 := words.getD (words.size - n) 0
  let x := before 15
  let y := before 2
  before 16 + (rotate x 7 ^^^ rotate x 18 ^^^ (x >>> 3)) + before 7 +
    (rotate y 17 ^^^ rotate y 19 ^^^ (y >>> 10))

def extend : Nat → Array UInt32 → Array UInt32
  | 0, words => words
  | count + 1, words => extend count (words.push (nextWord words))

def round (s : State) (constant word : UInt32) : State :=
  let sum := rotate s.e 6 ^^^ rotate s.e 11 ^^^ rotate s.e 25
  let choice := (s.e &&& s.f) ^^^ ((~~~ s.e) &&& s.g)
  let first := s.h + sum + choice + constant + word
  let majority := (s.a &&& s.b) ^^^ (s.a &&& s.c) ^^^ (s.b &&& s.c)
  let second := (rotate s.a 2 ^^^ rotate s.a 13 ^^^ rotate s.a 22) + majority
  ⟨first + second, s.a, s.b, s.c, s.d + first, s.e, s.f, s.g⟩

/-- The word of four bytes at an offset, the highest byte first. -/
def wordAt (data : ByteArray) (offset : Nat) : UInt32 :=
  (Bytes.window data offset 4).foldl (fun word b => (word <<< 8) ||| b.toUInt32) 0

def block (data : ByteArray) (s : State) (offset : Nat) : State :=
  let first := (List.range 16).map fun n => wordAt data (offset + 4 * n)
  let words := extend 48 first.toArray
  let t := (roundConstants.zip words.toList).foldl (fun t (k, w) => round t k w) s
  ⟨s.a + t.a, s.b + t.b, s.c + t.c, s.d + t.d, s.e + t.e, s.f + t.f, s.g + t.g, s.h + t.h⟩

/-- The bytes behind the data: a one bit, zeros, and the number of bits in eight bytes. -/
def padding (size : Nat) : List UInt8 :=
  0x80 :: List.replicate ((119 - size % 64) % 64) 0 ++ (Bytes.littleEndianOf 8 (8 * size)).reverse

def blocks (data : ByteArray) : Nat → Nat → State → State
  | 0, _, s => s
  | count + 1, offset, s => blocks data count (offset + 64) (block data s offset)

def words (s : State) : List UInt32 :=
  [s.a, s.b, s.c, s.d, s.e, s.f, s.g, s.h]

/-- The digest of the bytes as 64 hexadecimal digits. -/
def hex (bytes : ByteArray) : String :=
  let data := bytes ++ Bytes.ofList (padding bytes.size)
  let s := blocks data (data.size / 64) 0 initial
  Bytes.hexText ((words s).flatMap fun w => (Bytes.littleEndianOf 4 w.toNat).reverse)

end ExtensionAudit.Digest
