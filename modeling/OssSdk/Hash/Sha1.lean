import OssSdk.Hash.HashWords
import OssSdk.Hash.Streaming

/-!
# SHA-1

Each turn of the four loops is five lines, with the variables in other places from one line
to the next.
-/

namespace OssSdk
namespace Hash
namespace SHA1

open Foundation

def f1 (b c d : Word) : Word := d ^^^ (b &&& (c ^^^ d))

def f2 (b c d : Word) : Word := b ^^^ c ^^^ d

def f3 (b c d : Word) : Word := (b &&& c) ||| (b &&& d) ||| (c &&& d)

def rotate (a : Word) (c : Nat) : Word := (a <<< c) ||| (a >>> (32 - c))

/-- The loop that extends the words; those that are there are the ones it has reached. -/
def extend : Nat -> List Word -> List Word
  | 0, words => words
  | k + 1, words =>
      let i := words.length
      let word j := words.getD j 0
      extend k (words ++
        [rotate (word (i - 3) ^^^ word (i - 8) ^^^ word (i - 14) ^^^ word (i - 16)) 1])

def fiveLines (f : Word -> Word -> Word -> Word) (constant : Word) (words : List Word)
    (v : Sha1.State) (i : Nat) : Sha1.State :=
  let ⟨a, b, c, d, e⟩ := v
  let offset := 5 * i
  let word j := words.getD (offset + j) 0
  let e := e + (rotate a 5 + f b c d + word 0 + constant)
  let b := rotate b 30
  let d := d + (rotate e 5 + f a b c + word 1 + constant)
  let a := rotate a 30
  let c := c + (rotate d 5 + f e a b + word 2 + constant)
  let e := rotate e 30
  let b := b + (rotate c 5 + f d e a + word 3 + constant)
  let d := rotate d 30
  let a := a + (rotate b 5 + f c d e + word 4 + constant)
  let c := rotate c 30
  ⟨a, b, c, d, e⟩

def rounds (words : List Word) (v : Sha1.State) : Sha1.State :=
  let v := [0, 1, 2, 3].foldl (fiveLines f1 0x5a827999 words) v
  let v := [4, 5, 6, 7].foldl (fiveLines f2 0x6ed9eba1 words) v
  let v := [8, 9, 10, 11].foldl (fiveLines f3 0x8f1bbcdc words) v
  [12, 13, 14, 15].foldl (fiveLines f2 0xca62c1d6 words) v

def processBlock (host : ByteOrder) (hash : Sha1.State) (data : ByteString) : Sha1.State :=
  let words := (List.range 16).map fun i => bigEndian host (loadWord host data i)
  let v := rounds (extend 64 words) hash
  ⟨hash.a + v.a, hash.b + v.b, hash.c + v.c, hash.d + v.d, hash.e + v.e⟩

/-- The class, on a machine of either byte order. -/
def method (host : ByteOrder) : BlockDigest Sha1.State where
  initial := ⟨0x67452301, 0xefcdab89, 0x98badcfe, 0x10325476, 0xc3d2e1f0⟩
  compress := processBlock host
  lengthBytes := bigLength
  length_lengthBytes := length_bigLength
  output s := bigWord s.a ++ bigWord s.b ++ bigWord s.c ++ bigWord s.d ++ bigWord s.e

/-! # The standard -/

theorem f1_eq (b c d : Word) : f1 b c d = Word.choose b c d := by
  apply BitVec.eq_of_getLsbD_eq
  intro i hi
  simp only [f1, Word.choose, BitVec.getLsbD_xor, BitVec.getLsbD_and, BitVec.getLsbD_not, hi,
    decide_true, Bool.true_and]
  cases b.getLsbD i <;> cases c.getLsbD i <;> cases d.getLsbD i <;> rfl

theorem f3_eq (b c d : Word) : f3 b c d = Word.majority b c d := by
  apply BitVec.eq_of_getLsbD_eq
  intro i hi
  simp only [f3, Word.majority, BitVec.getLsbD_xor, BitVec.getLsbD_and, BitVec.getLsbD_or]
  cases b.getLsbD i <;> cases c.getLsbD i <;> cases d.getLsbD i <;> rfl

theorem extend_eq (k : Nat) (words : List Word) :
    extend k words = extendSchedule Sha1.nextWord k words := by
  induction k generalizing words with
  | zero => rfl
  | succ k ih =>
      rw [extend, ih, extendSchedule]
      simp only [Sha1.nextWord, rotate, rotateLeft_eq _ (show 1 < 32 by decide)]

section Rounds

variable {f : Word -> Word -> Word -> Word} {constant : Word} {words : List Word}

theorem round_eq {i : Nat} (hf : Sha1.mix i = f) (hconstant : Sha1.constant i = constant)
    (a b c d e : Word) :
    Sha1.round words ⟨a, b, c, d, e⟩ i =
      ⟨e + (rotate a 5 + f b c d + words.getD i 0 + constant), a, rotate b 30, c, d⟩ := by
  have hsum : a.rotateLeft 5 + Sha1.mix i b c d + e + Sha1.constant i + words.getD i 0 =
      e + (rotate a 5 + f b c d + words.getD i 0 + constant) := by
    rw [rotate, rotateLeft_eq _ (by decide), hf, hconstant]
    ac_rfl
  have hturn : rotate b 30 = b.rotateLeft 30 := rotateLeft_eq b (by decide)
  rw [hturn, ← hsum]
  rfl

theorem fiveLines_eq {q : Nat}
    (hmix : forall r, r < 5 -> Sha1.mix (5 * q + r) = f ∧ Sha1.constant (5 * q + r) = constant)
    (v : Sha1.State) :
    fiveLines f constant words v q =
      (List.range 5).foldl (fun v r => Sha1.round words v (5 * q + r)) v := by
  have hround (r : Nat) (hr : r < 5) :=
    @round_eq _ _ words _ (hmix r hr).1 (hmix r hr).2
  show _ = Sha1.round words (Sha1.round words (Sha1.round words (Sha1.round words
    (Sha1.round words v (5 * q + 0)) (5 * q + 1)) (5 * q + 2)) (5 * q + 3)) (5 * q + 4)
  cases v with
  | mk a b c d e =>
      rw [hround 0 (by decide), hround 1 (by decide), hround 2 (by decide),
        hround 3 (by decide), hround 4 (by decide)]
      rfl

theorem foldl_fiveLines {first : Nat}
    (hmix : forall r, r < 20 ->
      Sha1.mix (5 * first + r) = f ∧ Sha1.constant (5 * first + r) = constant)
    (v : Sha1.State) :
    [first, first + 1, first + 2, first + 3].foldl (fiveLines f constant words) v =
      (List.range 20).foldl (fun v r => Sha1.round words v (5 * first + r)) v := by
  have hstep (q : Nat) (hq : q < 4) (u : Sha1.State) :
      fiveLines f constant words u (first + q) =
        (List.range 5).foldl (fun v r => Sha1.round words v (5 * first + (5 * q + r))) u := by
    have hplace (r : Nat) : 5 * (first + q) + r = 5 * first + (5 * q + r) := by omega
    rw [fiveLines_eq fun r hr => by rw [hplace]; exact hmix _ (by omega)]
    simp only [hplace]
  have hfour : List.range 4 = [0, 1, 2, 3] := rfl
  rw [show 20 = 5 * 4 from rfl, foldl_range_mul, hfour]
  simp only [List.foldl_cons, List.foldl_nil]
  rw [← hstep 3 (by decide), ← hstep 2 (by decide), ← hstep 1 (by decide),
    ← hstep 0 (by decide)]
  rfl

end Rounds

theorem constant_eq : forall k, k < 4 -> Sha1.constant (20 * k) =
    [0x5a827999, 0x6ed9eba1, 0x8f1bbcdc, 0xca62c1d6].getD k 0 := by decide +kernel

theorem constant_of_div {i k : Nat} (hi : i / 20 = k) :
    Sha1.constant i = Sha1.constant (20 * k) := by
  rw [Sha1.constant, Sha1.constant, hi, Nat.mul_div_cancel_left k (by decide)]

theorem mix_eq {i k : Nat} (hk : k < 4) (hi : i / 20 = k) :
    Sha1.mix i = [f1, f2, f3, f2].getD k f2 := by
  funext b c d
  rw [Sha1.mix, hi]
  have hround : k = 0 ∨ k = 1 ∨ k = 2 ∨ k = 3 := by omega
  rcases hround with h | h | h | h
  · rw [h]
    exact (f1_eq b c d).symm
  · rw [h]
    rfl
  · rw [h]
    exact (f3_eq b c d).symm
  · rw [h]
    rfl

theorem rounds_eq (words : List Word) (v : Sha1.State) :
    rounds words v = (List.range 80).foldl (Sha1.round words) v := by
  have hround (k : Nat) (hk : k < 4) (u : Sha1.State) :
      [4 * k, 4 * k + 1, 4 * k + 2, 4 * k + 3].foldl
          (fiveLines ([f1, f2, f3, f2].getD k f2)
            ([0x5a827999, 0x6ed9eba1, 0x8f1bbcdc, 0xca62c1d6].getD k 0) words) u =
        (List.range 20).foldl (fun v r => Sha1.round words v (20 * k + r)) u := by
    have hplace : 20 * k = 5 * (4 * k) := by omega
    rw [hplace]
    refine foldl_fiveLines (fun r hr => ?_) u
    have hdiv : (5 * (4 * k) + r) / 20 = k := by omega
    exact ⟨mix_eq hk hdiv, (constant_of_div hdiv).trans (constant_eq k hk)⟩
  have hfirst : forall u, [0, 1, 2, 3].foldl (fiveLines f1 0x5a827999 words) u = _ :=
    hround 0 (by decide)
  have hsecond : forall u, [4, 5, 6, 7].foldl (fiveLines f2 0x6ed9eba1 words) u = _ :=
    hround 1 (by decide)
  have hthird : forall u, [8, 9, 10, 11].foldl (fiveLines f3 0x8f1bbcdc words) u = _ :=
    hround 2 (by decide)
  have hfourth : forall u, [12, 13, 14, 15].foldl (fiveLines f2 0xca62c1d6 words) u = _ :=
    hround 3 (by decide)
  have hfour : List.range 4 = [0, 1, 2, 3] := rfl
  rw [rounds, hfirst, hsecond, hthird, hfourth, show 80 = 20 * 4 from rfl, foldl_range_mul,
    hfour]
  simp only [List.foldl_cons, List.foldl_nil]

theorem processBlock_eq (host : ByteOrder) (hash : Sha1.State) (data : ByteString) :
    processBlock host hash data = Sha1.compress hash data := by
  have hwords : (List.range 16).map (fun i => bigEndian host (loadWord host data i)) =
      (List.range 16).map (Word.bigEndianAt data) := by
    simp only [bigEndian_loadWord]
  rw [processBlock, hwords, extend_eq, rounds_eq]
  rfl

theorem method_eq (host : ByteOrder) : method host = Sha1.standard := by
  have hcompress : (method host).compress = Sha1.standard.compress :=
    funext fun s => funext fun data => processBlock_eq host s data
  have hlength : (method host).lengthBytes = Sha1.standard.lengthBytes :=
    funext fun bits => bigLength_eq bits
  have houtput : (method host).output = Sha1.standard.output := by
    funext s
    simp only [method, Sha1.standard, bigWord_eq]
  exact BlockDigest.ext rfl hcompress hlength houtput

/-- However the text comes in, on either byte order, the answers are SHA-1. -/
theorem SHA1_run (host : ByteOrder) (memory : Memory Sha1.State) (calls : List Call) :
    (memory.hasher.construct (method host)).serveAll (method host) calls =
      some (digests Sha1.standard [] calls) := by
  rw [method_eq]
  exact serveAll_construct Sha1.standard memory calls

end SHA1
end Hash
end OssSdk
