import OssSdk.Foundation.BlockDigest
import Mathlib.Data.Nat.NthRoot.Defs
import Mathlib.Data.Nat.Prime.Defs

/-!
# MD5, SHA-1 and SHA-256

The three digests as their standards define them: one round, repeated with the constants
and the words of a schedule.  The constants of the two younger ones are the first bits of
roots.
-/

namespace OssSdk
namespace Foundation

abbrev Word := BitVec 32

namespace Word

def ofBytes (p : ByteString) : Word := BitVec.ofNat 32 (BigEndian.value p)

def fourBytes (block : ByteString) (i : Nat) : ByteString :=
  (List.range 4).map fun k => block.getD (4 * i + k) 0

/-- Word `i` of a block, the byte that counts most in front. -/
def bigEndianAt (block : ByteString) (i : Nat) : Word := ofBytes (fourBytes block i)

def littleEndianAt (block : ByteString) (i : Nat) : Word := ofBytes (fourBytes block i).reverse

def bigEndian (x : Word) : ByteString := BigEndian.encode 4 x.toNat

def littleEndian (x : Word) : ByteString := x.bigEndian.reverse

/-! # Mixing -/

def choose (x y z : Word) : Word := (x &&& y) ^^^ (~~~x &&& z)

def parity (x y z : Word) : Word := x ^^^ y ^^^ z

def majority (x y z : Word) : Word := (x &&& y) ^^^ (x &&& z) ^^^ (y &&& z)

end Word

open Word

/-! # MD5 -/

namespace Md5

structure State where
  a : Word
  b : Word
  c : Word
  d : Word
deriving DecidableEq

def initial : State := ⟨0x67452301, 0xefcdab89, 0x98badcfe, 0x10325476⟩

/-- The sines of the first numbers, without sign and as fractions of `2 ^ 32`. -/
def sines : List Word := [
  0xd76aa478, 0xe8c7b756, 0x242070db, 0xc1bdceee, 0xf57c0faf, 0x4787c62a, 0xa8304613,
  0xfd469501, 0x698098d8, 0x8b44f7af, 0xffff5bb1, 0x895cd7be, 0x6b901122, 0xfd987193,
  0xa679438e, 0x49b40821, 0xf61e2562, 0xc040b340, 0x265e5a51, 0xe9b6c7aa, 0xd62f105d,
  0x02441453, 0xd8a1e681, 0xe7d3fbc8, 0x21e1cde6, 0xc33707d6, 0xf4d50d87, 0x455a14ed,
  0xa9e3e905, 0xfcefa3f8, 0x676f02d9, 0x8d2a4c8a, 0xfffa3942, 0x8771f681, 0x6d9d6122,
  0xfde5380c, 0xa4beea44, 0x4bdecfa9, 0xf6bb4b60, 0xbebfbc70, 0x289b7ec6, 0xeaa127fa,
  0xd4ef3085, 0x04881d05, 0xd9d4d039, 0xe6db99e5, 0x1fa27cf8, 0xc4ac5665, 0xf4292244,
  0x432aff97, 0xab9423a7, 0xfc93a039, 0x655b59c3, 0x8f0ccc92, 0xffeff47d, 0x85845dd1,
  0x6fa87e4f, 0xfe2ce6e0, 0xa3014314, 0x4e0811a1, 0xf7537e82, 0xbd3af235, 0x2ad7d2bb,
  0xeb86d391]

def mix (i : Nat) (b c d : Word) : Word :=
  match i / 16 with
  | 0 => (b &&& c) ||| (~~~b &&& d)
  | 1 => (b &&& d) ||| (c &&& ~~~d)
  | 2 => b ^^^ c ^^^ d
  | _ => c ^^^ (b ||| ~~~d)

/-- The word of the block that a round takes. -/
def place (i : Nat) : Nat :=
  match i / 16 with
  | 0 => i
  | 1 => (5 * i + 1) % 16
  | 2 => (3 * i + 5) % 16
  | _ => 7 * i % 16

def turn (i : Nat) : Nat :=
  let turns := match i / 16 with
    | 0 => [7, 12, 17, 22]
    | 1 => [5, 9, 14, 20]
    | 2 => [4, 11, 16, 23]
    | _ => [6, 10, 15, 21]
  turns.getD (i % 4) 0

def round (block : ByteString) (s : State) (i : Nat) : State :=
  let sum := s.a + mix i s.b s.c s.d + littleEndianAt block (place i) + sines.getD i 0
  ⟨s.d, s.b + sum.rotateLeft (turn i), s.b, s.c⟩

def compress (s : State) (block : ByteString) : State :=
  let t := (List.range 64).foldl (round block) s
  ⟨s.a + t.a, s.b + t.b, s.c + t.c, s.d + t.d⟩

def standard : BlockDigest State where
  initial := initial
  compress := compress
  lengthBytes bits := (BigEndian.encode 8 bits.toNat).reverse
  length_lengthBytes bits := by
    rw [List.length_reverse, BigEndian.length_encode]
  output s := s.a.littleEndian ++ s.b.littleEndian ++ s.c.littleEndian ++ s.d.littleEndian

end Md5

/-- A schedule goes on from its first words by a recurrence on its last sixteen. -/
def extendSchedule (next : (Nat -> Word) -> Word) : Nat -> List Word -> List Word
  | 0, words => words
  | k + 1, words =>
      extendSchedule next k
        (words ++ [next fun back => words.getD (words.length - back) 0])

/-! # SHA-1 -/

namespace Sha1

structure State where
  a : Word
  b : Word
  c : Word
  d : Word
  e : Word
deriving DecidableEq

def initial : State := ⟨0x67452301, 0xefcdab89, 0x98badcfe, 0x10325476, 0xc3d2e1f0⟩

/-- The first thirty-two bits of the square roots of 2, 3, 5 and 10. -/
def constant (i : Nat) : Word :=
  BitVec.ofNat 32 (Nat.nthRoot 2 ([2, 3, 5, 10].getD (i / 20) 0 * 2 ^ 60))

def mix (i : Nat) : Word -> Word -> Word -> Word :=
  match i / 20 with
  | 0 => choose
  | 2 => majority
  | _ => parity

def nextWord (word : Nat -> Word) : Word :=
  (word 3 ^^^ word 8 ^^^ word 14 ^^^ word 16).rotateLeft 1

def schedule (block : ByteString) : List Word :=
  extendSchedule nextWord 64 ((List.range 16).map (bigEndianAt block))

def round (words : List Word) (s : State) (i : Nat) : State :=
  let sum := s.a.rotateLeft 5 + mix i s.b s.c s.d + s.e + constant i + words.getD i 0
  ⟨sum, s.a, s.b.rotateLeft 30, s.c, s.d⟩

def compress (s : State) (block : ByteString) : State :=
  let t := (List.range 80).foldl (round (schedule block)) s
  ⟨s.a + t.a, s.b + t.b, s.c + t.c, s.d + t.d, s.e + t.e⟩

def standard : BlockDigest State where
  initial := initial
  compress := compress
  lengthBytes bits := BigEndian.encode 8 bits.toNat
  length_lengthBytes bits := BigEndian.length_encode 8 bits.toNat
  output s := s.a.bigEndian ++ s.b.bigEndian ++ s.c.bigEndian ++ s.d.bigEndian ++
    s.e.bigEndian

end Sha1

/-! # SHA-256 -/

namespace Sha256

structure State where
  a : Word
  b : Word
  c : Word
  d : Word
  e : Word
  f : Word
  g : Word
  h : Word
deriving DecidableEq

/-- The first thirty-two bits of the fraction of a root of a prime number. -/
def primeRoots (k count : Nat) : List Word :=
  ((List.range 312).filter fun p => decide (Nat.Prime p)).take count |>.map fun p =>
    BitVec.ofNat 32 (Nat.nthRoot k (p * 2 ^ (32 * k)))

/-- From the square roots of the first eight primes. -/
def initial : State :=
  match primeRoots 2 8 with
  | [a, b, c, d, e, f, g, h] => ⟨a, b, c, d, e, f, g, h⟩
  | _ => ⟨0, 0, 0, 0, 0, 0, 0, 0⟩

/-- From the cube roots of the first sixty-four primes. -/
def constants : List Word := primeRoots 3 64

def bigSigma0 (x : Word) : Word := x.rotateRight 2 ^^^ x.rotateRight 13 ^^^ x.rotateRight 22

def bigSigma1 (x : Word) : Word := x.rotateRight 6 ^^^ x.rotateRight 11 ^^^ x.rotateRight 25

def smallSigma0 (x : Word) : Word := x.rotateRight 7 ^^^ x.rotateRight 18 ^^^ (x >>> 3)

def smallSigma1 (x : Word) : Word := x.rotateRight 17 ^^^ x.rotateRight 19 ^^^ (x >>> 10)

def nextWord (word : Nat -> Word) : Word :=
  smallSigma1 (word 2) + word 7 + smallSigma0 (word 15) + word 16

def schedule (block : ByteString) : List Word :=
  extendSchedule nextWord 48 ((List.range 16).map (bigEndianAt block))

def round (words : List Word) (s : State) (i : Nat) : State :=
  let sum1 := s.h + bigSigma1 s.e + choose s.e s.f s.g + constants.getD i 0 + words.getD i 0
  let sum2 := bigSigma0 s.a + majority s.a s.b s.c
  ⟨sum1 + sum2, s.a, s.b, s.c, s.d + sum1, s.e, s.f, s.g⟩

def compress (s : State) (block : ByteString) : State :=
  let t := (List.range 64).foldl (round (schedule block)) s
  ⟨s.a + t.a, s.b + t.b, s.c + t.c, s.d + t.d, s.e + t.e, s.f + t.f, s.g + t.g, s.h + t.h⟩

def standard : BlockDigest State where
  initial := initial
  compress := compress
  lengthBytes bits := BigEndian.encode 8 bits.toNat
  length_lengthBytes bits := BigEndian.length_encode 8 bits.toNat
  output s := s.a.bigEndian ++ s.b.bigEndian ++ s.c.bigEndian ++ s.d.bigEndian ++
    s.e.bigEndian ++ s.f.bigEndian ++ s.g.bigEndian ++ s.h.bigEndian

end Sha256

end Foundation
end OssSdk
