import Switchboard.Text.Utf8

set_option autoImplicit false

/-! # MD5

The MD5 digest of a byte sequence. The state takes one byte at a time, so the digest depends only
on the sequence and not on the chunks in which it arrives (`Md5.update_append`).
-/

namespace Switchboard

open Text (Bytes)

/-- The four words that a block is mixed into. -/
structure Md5Words where
  a : UInt32 := 0x67452301
  b : UInt32 := 0xefcdab89
  c : UInt32 := 0x98badcfe
  d : UInt32 := 0x10325476
deriving DecidableEq, Repr

/-- The digest of the bytes so far. -/
structure Md5 where
  words : Md5Words := {}
  /-- The bytes since the last full block, the latest first. -/
  pending : Bytes := []
  length : Nat := 0

namespace Md5

/-- How far each of four steps in a row rotates, by round. -/
def rotations : List (List UInt32) :=
  [[7, 12, 17, 22], [5, 9, 14, 20], [4, 11, 16, 23], [6, 10, 15, 21]]

/-- The additive constants: the first 32 bits after the point of the sine of 1 to 64. -/
def sines : List UInt32 :=
  [0xd76aa478, 0xe8c7b756, 0x242070db, 0xc1bdceee, 0xf57c0faf, 0x4787c62a, 0xa8304613, 0xfd469501,
   0x698098d8, 0x8b44f7af, 0xffff5bb1, 0x895cd7be, 0x6b901122, 0xfd987193, 0xa679438e, 0x49b40821,
   0xf61e2562, 0xc040b340, 0x265e5a51, 0xe9b6c7aa, 0xd62f105d, 0x02441453, 0xd8a1e681, 0xe7d3fbc8,
   0x21e1cde6, 0xc33707d6, 0xf4d50d87, 0x455a14ed, 0xa9e3e905, 0xfcefa3f8, 0x676f02d9, 0x8d2a4c8a,
   0xfffa3942, 0x8771f681, 0x6d9d6122, 0xfde5380c, 0xa4beea44, 0x4bdecfa9, 0xf6bb4b60, 0xbebfbc70,
   0x289b7ec6, 0xeaa127fa, 0xd4ef3085, 0x04881d05, 0xd9d4d039, 0xe6db99e5, 0x1fa27cf8, 0xc4ac5665,
   0xf4292244, 0x432aff97, 0xab9423a7, 0xfc93a039, 0x655b59c3, 0x8f0ccc92, 0xffeff47d, 0x85845dd1,
   0x6fa87e4f, 0xfe2ce6e0, 0xa3014314, 0x4e0811a1, 0xf7537e82, 0xbd3af235, 0x2ad7d2bb, 0xeb86d391]

def rotateLeft (x n : UInt32) : UInt32 := (x <<< n) ||| (x >>> (32 - n))

/-- The mixing function of a round. -/
def mix (round : Nat) (b c d : UInt32) : UInt32 :=
  match round with
  | 0 => (b &&& c) ||| (~~~b &&& d)
  | 1 => (d &&& b) ||| (~~~d &&& c)
  | 2 => b ^^^ c ^^^ d
  | _ => c ^^^ (b ||| ~~~d)

/-- The word of a block that a step uses. -/
def wordIndex (round i : Nat) : Nat :=
  match round with
  | 0 => i % 16
  | 1 => (5 * i + 1) % 16
  | 2 => (3 * i + 5) % 16
  | _ => (7 * i) % 16

/-- The words of a block, each of four bytes, the lowest first. -/
def blockWords : Bytes → List UInt32
  | a :: b :: c :: d :: bs =>
    (a.toUInt32 ||| b.toUInt32 <<< 8 ||| c.toUInt32 <<< 16 ||| d.toUInt32 <<< 24) :: blockWords bs
  | _ => []

/-- One of the 64 steps, with its additive constant. -/
def step (words : Array UInt32) (w : Md5Words) (i : Nat) (sine : UInt32) : Md5Words :=
  let round := i / 16
  let rotation := ((rotations[round]?).bind (·[i % 4]?)).getD 0
  let sum := w.a + mix round w.b w.c w.d + sine + words.getD (wordIndex round i) 0
  { a := w.d, b := w.b + rotateLeft sum rotation, c := w.b, d := w.c }

/-- Mixes a block of 64 bytes in. -/
def mixBlock (w : Md5Words) (block : Bytes) : Md5Words :=
  let words := (blockWords block).toArray
  let r := (sines.zipIdx).foldl (fun w s => step words w s.2 s.1) w
  ⟨w.a + r.a, w.b + r.b, w.c + r.c, w.d + r.d⟩

/-- Takes one more byte. -/
def push (s : Md5) (b : UInt8) : Md5 :=
  let pending := b :: s.pending
  if pending.length = 64 then
    { words := mixBlock s.words pending.reverse, pending := [], length := s.length + 1 }
  else { s with pending, length := s.length + 1 }

/-- Takes more bytes. -/
def update (s : Md5) (bs : Bytes) : Md5 := bs.foldl push s

theorem update_append (s : Md5) (as bs : Bytes) : s.update (as ++ bs) = (s.update as).update bs :=
  List.foldl_append

/-- The bytes of a number, the lowest first. -/
def lowBytes (count n : Nat) : Bytes := (List.range count).map fun i => (n / Nat.pow 256 i).toUInt8

/-- The sixteen bytes of the digest. The input is closed by a one bit, zeros up to eight bytes
before the end of a block, and its length in bits. -/
def finish (s : Md5) : Bytes :=
  -- with the one bit and the length this fills a block exactly
  let zeros := (119 - s.length % 64) % 64
  let w := (s.update (0x80 :: (List.replicate zeros 0 ++ lowBytes 8 (s.length * 8)))).words
  [w.a, w.b, w.c, w.d].flatMap fun x => lowBytes 4 x.toNat

/-- The digest of a byte sequence. -/
def digest (bs : Bytes) : Bytes := (update {} bs).finish

end Md5

end Switchboard
