import OssSdk.Hash.HashWords
import OssSdk.Hash.Streaming

/-!
# MD5

The four rounds are written out in the source, with the variables in other places from one
line to the next; after four lines they are where they were.
-/

namespace OssSdk
namespace Hash
namespace MD5

open Foundation

def f1 (b c d : Word) : Word := d ^^^ (b &&& (c ^^^ d))

def f2 (b c d : Word) : Word := c ^^^ (d &&& (b ^^^ c))

def f3 (b c d : Word) : Word := b ^^^ c ^^^ d

def f4 (b c d : Word) : Word := c ^^^ (b ||| ~~~d)

def rotate (a : Word) (c : Nat) : Word := (a <<< c) ||| (a >>> (32 - c))

/-- What differs from one line of a round to the next. -/
structure Line where
  word : Nat
  constant : Word
  turn : Nat
deriving DecidableEq

abbrev Paragraph := Line × Line × Line × Line

def firstRound : List Paragraph := [
  (⟨0, 0xd76aa478, 7⟩, ⟨1, 0xe8c7b756, 12⟩, ⟨2, 0x242070db, 17⟩, ⟨3, 0xc1bdceee, 22⟩),
  (⟨4, 0xf57c0faf, 7⟩, ⟨5, 0x4787c62a, 12⟩, ⟨6, 0xa8304613, 17⟩, ⟨7, 0xfd469501, 22⟩),
  (⟨8, 0x698098d8, 7⟩, ⟨9, 0x8b44f7af, 12⟩, ⟨10, 0xffff5bb1, 17⟩, ⟨11, 0x895cd7be, 22⟩),
  (⟨12, 0x6b901122, 7⟩, ⟨13, 0xfd987193, 12⟩, ⟨14, 0xa679438e, 17⟩, ⟨15, 0x49b40821, 22⟩)]

def secondRound : List Paragraph := [
  (⟨1, 0xf61e2562, 5⟩, ⟨6, 0xc040b340, 9⟩, ⟨11, 0x265e5a51, 14⟩, ⟨0, 0xe9b6c7aa, 20⟩),
  (⟨5, 0xd62f105d, 5⟩, ⟨10, 0x02441453, 9⟩, ⟨15, 0xd8a1e681, 14⟩, ⟨4, 0xe7d3fbc8, 20⟩),
  (⟨9, 0x21e1cde6, 5⟩, ⟨14, 0xc33707d6, 9⟩, ⟨3, 0xf4d50d87, 14⟩, ⟨8, 0x455a14ed, 20⟩),
  (⟨13, 0xa9e3e905, 5⟩, ⟨2, 0xfcefa3f8, 9⟩, ⟨7, 0x676f02d9, 14⟩, ⟨12, 0x8d2a4c8a, 20⟩)]

def thirdRound : List Paragraph := [
  (⟨5, 0xfffa3942, 4⟩, ⟨8, 0x8771f681, 11⟩, ⟨11, 0x6d9d6122, 16⟩, ⟨14, 0xfde5380c, 23⟩),
  (⟨1, 0xa4beea44, 4⟩, ⟨4, 0x4bdecfa9, 11⟩, ⟨7, 0xf6bb4b60, 16⟩, ⟨10, 0xbebfbc70, 23⟩),
  (⟨13, 0x289b7ec6, 4⟩, ⟨0, 0xeaa127fa, 11⟩, ⟨3, 0xd4ef3085, 16⟩, ⟨6, 0x04881d05, 23⟩),
  (⟨9, 0xd9d4d039, 4⟩, ⟨12, 0xe6db99e5, 11⟩, ⟨15, 0x1fa27cf8, 16⟩, ⟨2, 0xc4ac5665, 23⟩)]

def fourthRound : List Paragraph := [
  (⟨0, 0xf4292244, 6⟩, ⟨7, 0x432aff97, 10⟩, ⟨14, 0xab9423a7, 15⟩, ⟨5, 0xfc93a039, 21⟩),
  (⟨12, 0x655b59c3, 6⟩, ⟨3, 0x8f0ccc92, 10⟩, ⟨10, 0xffeff47d, 15⟩, ⟨1, 0x85845dd1, 21⟩),
  (⟨8, 0x6fa87e4f, 6⟩, ⟨15, 0xfe2ce6e0, 10⟩, ⟨6, 0xa3014314, 15⟩, ⟨13, 0x4e0811a1, 21⟩),
  (⟨4, 0xf7537e82, 6⟩, ⟨11, 0xbd3af235, 10⟩, ⟨2, 0x2ad7d2bb, 15⟩, ⟨9, 0xeb86d391, 21⟩)]

def fourLines (f : Word -> Word -> Word -> Word) (word : Nat -> Word) (v : Md5.State) :
    Paragraph -> Md5.State
  | (l0, l1, l2, l3) =>
      let a := rotate (v.a + f v.b v.c v.d + word l0.word + l0.constant) l0.turn + v.b
      let d := rotate (v.d + f a v.b v.c + word l1.word + l1.constant) l1.turn + a
      let c := rotate (v.c + f d a v.b + word l2.word + l2.constant) l2.turn + d
      let b := rotate (v.b + f c d a + word l3.word + l3.constant) l3.turn + c
      ⟨a, b, c, d⟩

def rounds (word : Nat -> Word) (v : Md5.State) : Md5.State :=
  let v := firstRound.foldl (fourLines f1 word) v
  let v := secondRound.foldl (fourLines f2 word) v
  let v := thirdRound.foldl (fourLines f3 word) v
  fourthRound.foldl (fourLines f4 word) v

def processBlock (host : ByteOrder) (hash : Md5.State) (data : ByteString) : Md5.State :=
  let v := rounds (fun i => littleEndian host (loadWord host data i)) hash
  ⟨hash.a + v.a, hash.b + v.b, hash.c + v.c, hash.d + v.d⟩

/-- The class, on a machine of either byte order. -/
def method (host : ByteOrder) : BlockDigest Md5.State where
  initial := ⟨0x67452301, 0xefcdab89, 0x98badcfe, 0x10325476⟩
  compress := processBlock host
  lengthBytes := littleBytes 8
  length_lengthBytes bits := by
    rw [littleBytes_eq, List.length_reverse, BigEndian.length_encode]
  output s := littleWord s.a ++ littleWord s.b ++ littleWord s.c ++ littleWord s.d

/-! # The standard -/

theorem f1_eq (b c d : Word) : f1 b c d = (b &&& c) ||| (~~~b &&& d) := by
  apply BitVec.eq_of_getLsbD_eq
  intro i hi
  simp only [f1, BitVec.getLsbD_xor, BitVec.getLsbD_and, BitVec.getLsbD_or,
    BitVec.getLsbD_not, hi, decide_true, Bool.true_and]
  cases b.getLsbD i <;> cases c.getLsbD i <;> cases d.getLsbD i <;> rfl

theorem f2_eq (b c d : Word) : f2 b c d = (b &&& d) ||| (c &&& ~~~d) := by
  apply BitVec.eq_of_getLsbD_eq
  intro i hi
  simp only [f2, BitVec.getLsbD_xor, BitVec.getLsbD_and, BitVec.getLsbD_or,
    BitVec.getLsbD_not, hi, decide_true, Bool.true_and]
  cases b.getLsbD i <;> cases c.getLsbD i <;> cases d.getLsbD i <;> rfl

def lineOf (i : Nat) : Line := ⟨Md5.place i, Md5.sines.getD i 0, Md5.turn i⟩

def paragraphOf (i : Nat) : Paragraph :=
  (lineOf i, lineOf (i + 1), lineOf (i + 2), lineOf (i + 3))

theorem turn_lt (i : Nat) : Md5.turn i < 32 := by
  have hall : forall turns : List Nat, turns ∈ [[7, 12, 17, 22], [5, 9, 14, 20],
      [4, 11, 16, 23], [6, 10, 15, 21]] -> forall k, k < 4 -> turns.getD k 0 < 32 := by decide
  have hk : i % 4 < 4 := Nat.mod_lt _ (by decide)
  unfold Md5.turn
  split
  · exact hall _ (by decide) _ hk
  · exact hall _ (by decide) _ hk
  · exact hall _ (by decide) _ hk
  · exact hall _ (by decide) _ hk

section Rounds

variable {f : Word -> Word -> Word -> Word} {block : ByteString} {word : Nat -> Word}

/-- A line of the source is a round of the standard, after which the variables turn. -/
theorem round_eq (hword : forall i, word i = Word.littleEndianAt block i) {i : Nat}
    (hf : Md5.mix i = f) (a b c d : Word) :
    Md5.round block ⟨a, b, c, d⟩ i =
      ⟨d, rotate (a + f b c d + word (lineOf i).word + (lineOf i).constant) (lineOf i).turn + b,
        b, c⟩ := by
  have hturn : (lineOf i).turn < 32 := turn_lt i
  rw [hword, rotate, rotateLeft_eq _ hturn, BitVec.add_comm _ b, ← hf]
  rfl

theorem fourLines_eq (hword : forall i, word i = Word.littleEndianAt block i) {i : Nat}
    (hf : forall r, r < 4 -> Md5.mix (i + r) = f) (v : Md5.State) :
    fourLines f word v (paragraphOf i) =
      (List.range 4).foldl (fun v r => Md5.round block v (i + r)) v := by
  show _ = Md5.round block (Md5.round block (Md5.round block (Md5.round block v i) (i + 1))
    (i + 2)) (i + 3)
  have h0 : Md5.mix i = f := hf 0 (by decide)
  cases v with
  | mk a b c d =>
      rw [round_eq hword h0, round_eq hword (hf 1 (by decide)),
        round_eq hword (hf 2 (by decide)), round_eq hword (hf 3 (by decide))]
      rfl

theorem foldl_fourLines (hword : forall i, word i = Word.littleEndianAt block i) {k : Nat}
    (hf : forall r, r < 16 -> Md5.mix (16 * k + r) = f) {table : List Paragraph}
    (htable : table = (List.range 4).map fun q => paragraphOf (16 * k + 4 * q))
    (v : Md5.State) :
    table.foldl (fourLines f word) v =
      (List.range 16).foldl (fun v r => Md5.round block v (16 * k + r)) v := by
  rw [htable, List.foldl_map, foldl_range_mul _ 4 4]
  refine List.foldl_ext _ _ v fun v q hq => ?_
  have hless := List.mem_range.mp hq
  rw [fourLines_eq hword fun r hr => ?_]
  · simp only [Nat.add_assoc]
  · rw [Nat.add_assoc]
    exact hf (4 * q + r) (by omega)

end Rounds

theorem mix_eq {k : Nat} (hk : k < 4) {r : Nat} (hr : r < 16) :
    Md5.mix (16 * k + r) = [f1, f2, f3, f4].getD k f4 := by
  have hdiv : (16 * k + r) / 16 = k := by omega
  funext b c d
  rw [Md5.mix, hdiv]
  have hround : k = 0 ∨ k = 1 ∨ k = 2 ∨ k = 3 := by omega
  rcases hround with h | h | h | h
  · rw [h]
    exact (f1_eq b c d).symm
  · rw [h]
    exact (f2_eq b c d).symm
  · rw [h]
    rfl
  · rw [h]
    rfl

theorem rounds_eq {block : ByteString} {word : Nat -> Word}
    (hword : forall i, word i = Word.littleEndianAt block i) (v : Md5.State) :
    rounds word v = (List.range 64).foldl (Md5.round block) v := by
  have hround (k : Nat) (hk : k < 4) (table : List Paragraph)
      (htable : table = (List.range 4).map fun q => paragraphOf (16 * k + 4 * q))
      (u : Md5.State) :=
    foldl_fourLines hword (fun r hr => mix_eq hk hr) htable u
  have hfirst : forall u, firstRound.foldl (fourLines f1 word) u = _ :=
    hround 0 (by decide) firstRound (by decide +kernel)
  have hsecond : forall u, secondRound.foldl (fourLines f2 word) u = _ :=
    hround 1 (by decide) secondRound (by decide +kernel)
  have hthird : forall u, thirdRound.foldl (fourLines f3 word) u = _ :=
    hround 2 (by decide) thirdRound (by decide +kernel)
  have hfourth : forall u, fourthRound.foldl (fourLines f4 word) u = _ :=
    hround 3 (by decide) fourthRound (by decide +kernel)
  have hfour : List.range 4 = [0, 1, 2, 3] := rfl
  rw [rounds, show 64 = 16 * 4 from rfl, foldl_range_mul, hfour]
  simp only [hfirst, hsecond, hthird, hfourth, List.foldl_cons, List.foldl_nil]

theorem processBlock_eq (host : ByteOrder) (hash : Md5.State) (data : ByteString) :
    processBlock host hash data = Md5.compress hash data := by
  rw [processBlock, rounds_eq (littleEndian_loadWord host data)]
  rfl

theorem method_eq (host : ByteOrder) : method host = Md5.standard := by
  have hcompress : (method host).compress = Md5.standard.compress :=
    funext fun s => funext fun data => processBlock_eq host s data
  have hlength : (method host).lengthBytes = Md5.standard.lengthBytes :=
    funext fun bits => littleBytes_eq 8 bits
  have houtput : (method host).output = Md5.standard.output := by
    funext s
    simp only [method, Md5.standard, littleWord_eq]
  exact BlockDigest.ext rfl hcompress hlength houtput

/-- However the text comes in, on either byte order, the answers are MD5. -/
theorem MD5_run (host : ByteOrder) (memory : Memory Md5.State) (calls : List Call) :
    (memory.hasher.construct (method host)).serveAll (method host) calls =
      some (digests Md5.standard [] calls) := by
  rw [method_eq]
  exact serveAll_construct Md5.standard memory calls

end MD5
end Hash
end OssSdk
