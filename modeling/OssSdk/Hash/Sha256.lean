import OssSdk.Hash.HashWords
import OssSdk.Hash.Streaming

/-!
# SHA-256

The eight rounds are written out in the source, each as eight lines, with the variables in
other places from one line to the next.  The words are extended between the rounds, as far
as the next one needs.
-/

namespace OssSdk
namespace Hash
namespace SHA256

open Foundation

def rotate (a : Word) (c : Nat) : Word := (a >>> c) ||| (a <<< (32 - c))

def f1 (e f g : Word) : Word :=
  let term1 := rotate e 6 ^^^ rotate e 11 ^^^ rotate e 25
  let term2 := (e &&& f) ^^^ (~~~e &&& g)
  term1 + term2

def f2 (a b c : Word) : Word :=
  let term1 := rotate a 2 ^^^ rotate a 13 ^^^ rotate a 22
  let term2 := ((a ||| b) &&& c) ||| (a &&& b)
  term1 + term2

/-- The constants of the sixty-four lines. -/
def constants : List Word := [
  0x428a2f98, 0x71374491, 0xb5c0fbcf, 0xe9b5dba5, 0x3956c25b, 0x59f111f1,
  0x923f82a4, 0xab1c5ed5, 0xd807aa98, 0x12835b01, 0x243185be, 0x550c7dc3,
  0x72be5d74, 0x80deb1fe, 0x9bdc06a7, 0xc19bf174, 0xe49b69c1, 0xefbe4786,
  0x0fc19dc6, 0x240ca1cc, 0x2de92c6f, 0x4a7484aa, 0x5cb0a9dc, 0x76f988da,
  0x983e5152, 0xa831c66d, 0xb00327c8, 0xbf597fc7, 0xc6e00bf3, 0xd5a79147,
  0x06ca6351, 0x14292967, 0x27b70a85, 0x2e1b2138, 0x4d2c6dfc, 0x53380d13,
  0x650a7354, 0x766a0abb, 0x81c2c92e, 0x92722c85, 0xa2bfe8a1, 0xa81a664b,
  0xc24b8b70, 0xc76c51a3, 0xd192e819, 0xd6990624, 0xf40e3585, 0x106aa070,
  0x19a4c116, 0x1e376c08, 0x2748774c, 0x34b0bcb5, 0x391c0cb3, 0x4ed8aa4a,
  0x5b9cca4f, 0x682e6ff3, 0x748f82ee, 0x78a5636f, 0x84c87814, 0x8cc70208,
  0x90befffa, 0xa4506ceb, 0xbef9a3f7, 0xc67178f2]

/-- The loop that extends the words; those that are there are the ones it has reached. -/
def extend : Nat -> List Word -> List Word
  | 0, words => words
  | k + 1, words =>
      let i := words.length
      let word j := words.getD j 0
      extend k (words ++ [word (i - 16) +
        (rotate (word (i - 15)) 7 ^^^ rotate (word (i - 15)) 18 ^^^ (word (i - 15) >>> 3)) +
        word (i - 7) +
        (rotate (word (i - 2)) 17 ^^^ rotate (word (i - 2)) 19 ^^^ (word (i - 2) >>> 10))])

/-- A line, which sets the fourth and the last of its variables. -/
def line (a b c d e f g h constant word : Word) : Word × Word :=
  let x := h + f1 e f g + constant + word
  let y := f2 a b c
  (d + x, x + y)

/-- The lines of round `q`, which takes the words from `8 * q` on. -/
def eightLines (words : List Word) (v : Sha256.State) (q : Nat) : Sha256.State :=
  let ⟨a, b, c, d, e, f, g, h⟩ := v
  let constant j := constants.getD (8 * q + j) 0
  let word j := words.getD (8 * q + j) 0
  let (d, h) := line a b c d e f g h (constant 0) (word 0)
  let (c, g) := line h a b c d e f g (constant 1) (word 1)
  let (b, f) := line g h a b c d e f (constant 2) (word 2)
  let (a, e) := line f g h a b c d e (constant 3) (word 3)
  let (h, d) := line e f g h a b c d (constant 4) (word 4)
  let (g, c) := line d e f g h a b c (constant 5) (word 5)
  let (f, b) := line c d e f g h a b (constant 6) (word 6)
  let (e, a) := line b c d e f g h a (constant 7) (word 7)
  ⟨a, b, c, d, e, f, g, h⟩

def rounds (words : List Word) (v : Sha256.State) : Sha256.State :=
  let v := eightLines words v 0
  let v := eightLines words v 1
  let words := extend (24 - words.length) words
  let v := eightLines words v 2
  let words := extend (32 - words.length) words
  let v := eightLines words v 3
  let words := extend (40 - words.length) words
  let v := eightLines words v 4
  let words := extend (48 - words.length) words
  let v := eightLines words v 5
  let words := extend (56 - words.length) words
  let v := eightLines words v 6
  let words := extend (64 - words.length) words
  eightLines words v 7

def processBlock (host : ByteOrder) (hash : Sha256.State) (data : ByteString) :
    Sha256.State :=
  let words := (List.range 16).map fun i => bigEndian host (loadWord host data i)
  let v := rounds words hash
  ⟨hash.a + v.a, hash.b + v.b, hash.c + v.c, hash.d + v.d, hash.e + v.e, hash.f + v.f,
    hash.g + v.g, hash.h + v.h⟩

/-- The class, on a machine of either byte order. -/
def method (host : ByteOrder) : BlockDigest Sha256.State where
  initial := ⟨0x6a09e667, 0xbb67ae85, 0x3c6ef372, 0xa54ff53a, 0x510e527f, 0x9b05688c,
    0x1f83d9ab, 0x5be0cd19⟩
  compress := processBlock host
  lengthBytes := bigLength
  length_lengthBytes := length_bigLength
  output s := bigWord s.a ++ bigWord s.b ++ bigWord s.c ++ bigWord s.d ++ bigWord s.e ++
    bigWord s.f ++ bigWord s.g ++ bigWord s.h

/-! # The standard -/

theorem rotate_eq (x : Word) {c : Nat} (hc : c < 32) : rotate x c = x.rotateRight c :=
  rotateRight_eq x hc

theorem f1_eq (e f g : Word) : f1 e f g = Sha256.bigSigma1 e + Word.choose e f g := by
  rw [f1, rotate_eq _ (by decide), rotate_eq _ (by decide), rotate_eq _ (by decide)]
  rfl

theorem f2_eq (a b c : Word) : f2 a b c = Sha256.bigSigma0 a + Word.majority a b c := by
  have hmajority : ((a ||| b) &&& c) ||| (a &&& b) = Word.majority a b c := by
    apply BitVec.eq_of_getLsbD_eq
    intro i hi
    simp only [Word.majority, BitVec.getLsbD_xor, BitVec.getLsbD_and, BitVec.getLsbD_or]
    cases a.getLsbD i <;> cases b.getLsbD i <;> cases c.getLsbD i <;> rfl
  rw [f2, rotate_eq _ (by decide), rotate_eq _ (by decide), rotate_eq _ (by decide)]
  rw [← hmajority]
  rfl

/-- The constants in the source are the roots they are said to be. -/
theorem constants_eq : constants = Sha256.constants := by decide +kernel

theorem extend_eq (k : Nat) (words : List Word) :
    extend k words = extendSchedule Sha256.nextWord k words := by
  induction k generalizing words with
  | zero => rfl
  | succ k ih =>
      have hturn (x : Word) {c : Nat} (hc : c < 32) := rotate_eq x hc
      rw [extend, ih, extendSchedule]
      congr 3
      simp only [Sha256.nextWord, Sha256.smallSigma0, Sha256.smallSigma1,
        rotate_eq _ (show 7 < 32 by decide), rotate_eq _ (show 18 < 32 by decide),
        rotate_eq _ (show 17 < 32 by decide), rotate_eq _ (show 19 < 32 by decide)]
      ac_rfl

section Rounds

variable {words : List Word}

/-- A line of the source is a round of the standard, after which the variables turn. -/
theorem round_of_line {i : Nat} {a b c d e f g h x y : Word}
    (hline : line a b c d e f g h (constants.getD i 0) (words.getD i 0) = (x, y)) :
    Sha256.round words ⟨a, b, c, d, e, f, g, h⟩ i = ⟨y, a, b, c, x, e, f, g⟩ := by
  rw [line, f1_eq, f2_eq, constants_eq, ← BitVec.add_assoc h, Prod.mk.injEq] at hline
  rw [← hline.1, ← hline.2]
  rfl

theorem eightLines_eq (v : Sha256.State) (q : Nat) :
    eightLines words v q =
      (List.range 8).foldl (fun v r => Sha256.round words v (8 * q + r)) v := by
  have height : List.range 8 = [0, 1, 2, 3, 4, 5, 6, 7] := rfl
  rw [height]
  simp only [List.foldl_cons, List.foldl_nil]
  cases v with
  | mk a b c d e f g h =>
      rcases hp0 : line a b c d e f g h (constants.getD (8 * q + 0) 0)
        (words.getD (8 * q + 0) 0) with ⟨d1, h1⟩
      rcases hp1 : line h1 a b c d1 e f g (constants.getD (8 * q + 1) 0)
        (words.getD (8 * q + 1) 0) with ⟨c1, g1⟩
      rcases hp2 : line g1 h1 a b c1 d1 e f (constants.getD (8 * q + 2) 0)
        (words.getD (8 * q + 2) 0) with ⟨b1, f1⟩
      rcases hp3 : line f1 g1 h1 a b1 c1 d1 e (constants.getD (8 * q + 3) 0)
        (words.getD (8 * q + 3) 0) with ⟨a1, e1⟩
      rcases hp4 : line e1 f1 g1 h1 a1 b1 c1 d1 (constants.getD (8 * q + 4) 0)
        (words.getD (8 * q + 4) 0) with ⟨h2, d2⟩
      rcases hp5 : line d2 e1 f1 g1 h2 a1 b1 c1 (constants.getD (8 * q + 5) 0)
        (words.getD (8 * q + 5) 0) with ⟨g2, c2⟩
      rcases hp6 : line c2 d2 e1 f1 g2 h2 a1 b1 (constants.getD (8 * q + 6) 0)
        (words.getD (8 * q + 6) 0) with ⟨f2, b2⟩
      rcases hp7 : line b2 c2 d2 e1 f2 g2 h2 a1 (constants.getD (8 * q + 7) 0)
        (words.getD (8 * q + 7) 0) with ⟨e2, a2⟩
      rw [round_of_line hp0, round_of_line hp1, round_of_line hp2, round_of_line hp3,
        round_of_line hp4, round_of_line hp5, round_of_line hp6, round_of_line hp7]
      simp only [eightLines, hp0, hp1, hp2, hp3, hp4, hp5, hp6, hp7]

theorem round_congr {others : List Word} {i : Nat}
    (hsame : words.getD i 0 = others.getD i 0) (v : Sha256.State) :
    Sha256.round words v i = Sha256.round others v i := by
  rw [Sha256.round, Sha256.round, hsame]

theorem eightLines_congr {others : List Word} {q : Nat}
    (hsame : forall r, r < 8 -> words.getD (8 * q + r) 0 = others.getD (8 * q + r) 0)
    (v : Sha256.State) : eightLines words v q = eightLines others v q := by
  rw [eightLines_eq, eightLines_eq]
  exact List.foldl_ext _ _ v fun u r hr =>
    round_congr (hsame r (List.mem_range.mp hr)) u

end Rounds

/-! # The words between the rounds -/

theorem extend_add (j k : Nat) (words : List Word) :
    extend k (extend j words) = extend (j + k) words := by
  induction j generalizing words with
  | zero =>
      rw [Nat.zero_add]
      rfl
  | succ j ih =>
      rw [extend, ih, Nat.succ_add]
      rfl

theorem length_extend (k : Nat) (words : List Word) :
    (extend k words).length = words.length + k := by
  induction k generalizing words with
  | zero => rfl
  | succ k ih =>
      rw [extend, ih, List.length_append, List.length_singleton]
      omega

theorem getD_extend (k : Nat) {words : List Word} {i : Nat} (hi : i < words.length) :
    (extend k words).getD i 0 = words.getD i 0 := by
  induction k generalizing words with
  | zero => rfl
  | succ k ih =>
      rw [extend, ih (by rw [List.length_append]; omega), List.getD_append _ _ _ _ hi]

/-- A round needs no words but its own. -/
theorem eightLines_extend {words : List Word} (hwords : words.length = 16) {j q : Nat}
    (hj : j <= 48) (hq : 8 * q + 8 <= 16 + j) (v : Sha256.State) :
    eightLines (extend j words) v q = eightLines (extend 48 words) v q := by
  refine eightLines_congr (fun r hr => ?_) v
  have hin : 8 * q + r < (extend j words).length := by
    rw [length_extend]
    omega
  have hsplit : 48 = j + (48 - j) := by omega
  rw [hsplit, ← extend_add, getD_extend _ hin]

theorem rounds_eq {words : List Word} (hwords : words.length = 16) (v : Sha256.State) :
    rounds words v = (List.range 64).foldl (Sha256.round (extend 48 words)) v := by
  have hnone : eightLines words = eightLines (extend 0 words) := rfl
  have hunroll (f : Sha256.State -> Nat -> Sha256.State) : (List.range 8).foldl f v =
      f (f (f (f (f (f (f (f v 0) 1) 2) 3) 4) 5) 6) 7 := rfl
  have hround (j q : Nat) (hj : j <= 48) (hq : 8 * q + 8 <= 16 + j) (u : Sha256.State) :
      eightLines (extend j words) u q =
        (List.range 8).foldl (fun v r => Sha256.round (extend 48 words) v (8 * q + r)) u := by
    rw [eightLines_extend hwords hj hq, eightLines_eq]
  rw [show 64 = 8 * 8 from rfl, foldl_range_mul, hunroll fun u q => (List.range 8).foldl
    (fun u r => Sha256.round (extend 48 words) u (8 * q + r)) u]
  simp only [rounds, length_extend, hwords, Nat.reduceSub,
    Nat.reduceAdd, extend_add, hnone]
  rw [hround 0 0 (by decide) (by decide), hround 0 1 (by decide) (by decide),
    hround 8 2 (by decide) (by decide), hround 16 3 (by decide) (by decide),
    hround 24 4 (by decide) (by decide), hround 32 5 (by decide) (by decide),
    hround 40 6 (by decide) (by decide), hround 48 7 (by decide) (by decide)]

theorem processBlock_eq (host : ByteOrder) (hash : Sha256.State) (data : ByteString) :
    processBlock host hash data = Sha256.compress hash data := by
  have hwords : (List.range 16).map (fun i => bigEndian host (loadWord host data i)) =
      (List.range 16).map (Word.bigEndianAt data) := by
    simp only [bigEndian_loadWord]
  rw [processBlock, hwords, rounds_eq (by rw [List.length_map, List.length_range]), extend_eq]
  rfl

theorem initial_eq (host : ByteOrder) : (method host).initial = Sha256.standard.initial := by
  show (⟨0x6a09e667, 0xbb67ae85, 0x3c6ef372, 0xa54ff53a, 0x510e527f, 0x9b05688c, 0x1f83d9ab,
    0x5be0cd19⟩ : Sha256.State) = Sha256.initial
  decide +kernel

theorem method_eq (host : ByteOrder) : method host = Sha256.standard := by
  have hcompress : (method host).compress = Sha256.standard.compress :=
    funext fun s => funext fun data => processBlock_eq host s data
  have hlength : (method host).lengthBytes = Sha256.standard.lengthBytes :=
    funext fun bits => bigLength_eq bits
  have houtput : (method host).output = Sha256.standard.output := by
    funext s
    simp only [method, Sha256.standard, bigWord_eq]
  exact BlockDigest.ext (initial_eq host) hcompress hlength houtput

/-- However the text comes in, on either byte order, the answers are SHA-256. -/
theorem SHA256_run (host : ByteOrder) (memory : Memory Sha256.State) (calls : List Call) :
    (memory.hasher.construct (method host)).serveAll (method host) calls =
      some (digests Sha256.standard [] calls) := by
  rw [method_eq]
  exact serveAll_construct Sha256.standard memory calls

end SHA256
end Hash
end OssSdk
