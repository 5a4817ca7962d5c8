import OssSdk.Foundation.DigestStandards
import Mathlib.Data.List.GetD

/-!
# Words of the hash classes

How the classes read a block as an array of words, on a machine of either byte order, and
how they write words out.
-/

namespace OssSdk
namespace Hash

open Foundation

inductive ByteOrder where
  | little
  | big

/-- An element of the array of words that a block is in memory. -/
def loadWord (host : ByteOrder) (block : ByteString) (i : Nat) : Word :=
  match host with
  | .little => Word.littleEndianAt block i
  | .big => Word.bigEndianAt block i

def swap (x : Word) : Word :=
  (x >>> 24) ||| ((x >>> 8) &&& 0x0000FF00#32) ||| ((x <<< 8) &&& 0x00FF0000#32) |||
    (x <<< 24)

/-- A word that is little-endian in memory. -/
def littleEndian (host : ByteOrder) (x : Word) : Word :=
  match host with
  | .little => x
  | .big => swap x

/-- A word that is big-endian in memory. -/
def bigEndian (host : ByteOrder) (x : Word) : Word :=
  match host with
  | .little => swap x
  | .big => x

/-- The conversion to `unsigned char` of the lower byte of a number. -/
def lowByte {w : Nat} (x : BitVec w) : UInt8 := UInt8.ofNat (x &&& 0xFF#w).toNat

def littleBytes {w : Nat} : Nat -> BitVec w -> ByteString
  | 0, _ => []
  | k + 1, x => lowByte x :: littleBytes k (x >>> 8)

def bigBytes {w : Nat} (shifts : List Nat) (x : BitVec w) : ByteString :=
  shifts.map fun s => lowByte (x >>> s)

/-- The number of bits as `add` of the two younger classes appends it. -/
def bigLength (msgBits : BitVec 64) : ByteString :=
  bigBytes [56, 48, 40, 32, 24, 16, 8, 0] msgBits

def bigWord (x : Word) : ByteString := bigBytes [24, 16, 8, 0] x

def littleWord (x : Word) : ByteString :=
  [lowByte x, lowByte (x >>> 8), lowByte (x >>> 16), lowByte (x >>> 24)]

/-! # Bits of words -/

theorem testBit_value (p : ByteString) {i : Nat} (hi : i < 8 * p.length) :
    (BigEndian.value p).testBit i =
      (p.getD (p.length - 1 - i / 8) 0).toNat.testBit (i % 8) := by
  induction p using List.reverseRecOn generalizing i with
  | nil => cases hi
  | append_singleton p b ih =>
      rw [List.length_append, List.length_singleton] at hi ⊢
      rw [BigEndian.value_push, Nat.mul_comm, show 256 = 2 ^ 8 from rfl,
        Nat.testBit_two_pow_mul_add _ b.toNat_lt]
      by_cases hlow : i < 8
      · rw [if_pos hlow, Nat.div_eq_of_lt hlow, Nat.mod_eq_of_lt hlow,
          List.getD_append_right _ _ _ _ (by omega)]
        simp
      · have hdiv : i / 8 = (i - 8) / 8 + 1 := by omega
        have hmod : i % 8 = (i - 8) % 8 := by omega
        have hplace : p.length + 1 - 1 - i / 8 = p.length - 1 - (i - 8) / 8 := by omega
        rw [if_neg hlow, ih (by omega), hmod, hplace, List.getD_append _ _ _ _ (by omega)]

theorem getLsbD_ofBytes {p : ByteString} (hp : p.length = 4) {i : Nat} (hi : i < 32) :
    (Word.ofBytes p).getLsbD i = (p.getD (3 - i / 8) 0).toNat.testBit (i % 8) := by
  rw [Word.ofBytes, BitVec.getLsbD_ofNat, decide_eq_true hi, Bool.true_and,
    testBit_value p (by omega), hp]

theorem getLsbD_swap32 (x : Word) {i : Nat} (hi : i < 32) :
    (swap x).getLsbD i = x.getLsbD (8 * (3 - i / 8) + i % 8) := by
  have hsecond : forall j, j < 32 ->
      (0x0000FF00#32).getLsbD j = decide (j / 8 = 1) := by decide +kernel
  have hthird : forall j, j < 32 ->
      (0x00FF0000#32).getLsbD j = decide (j / 8 = 2) := by decide +kernel
  unfold swap
  rw [BitVec.getLsbD_or, BitVec.getLsbD_or, BitVec.getLsbD_or, BitVec.getLsbD_and,
    BitVec.getLsbD_and, hsecond i hi, hthird i hi, BitVec.getLsbD_ushiftRight,
    BitVec.getLsbD_ushiftRight, BitVec.getLsbD_shiftLeft, BitVec.getLsbD_shiftLeft]
  have hbyte : i / 8 = 0 ∨ i / 8 = 1 ∨ i / 8 = 2 ∨ i / 8 = 3 := by omega
  rcases hbyte with h | h | h | h
  · have hplace : 24 + i = 8 * (3 - i / 8) + i % 8 := by omega
    rw [← hplace]
    simp [h, show i < 8 by omega, show i < 24 by omega]
  · have hplace : 8 + i = 8 * (3 - i / 8) + i % 8 := by omega
    have hhigh : x.getLsbD (24 + i) = false := BitVec.getLsbD_of_ge _ _ (by omega)
    rw [← hplace]
    simp [h, hhigh, show i < 24 by omega]
  · have hplace : i - 8 = 8 * (3 - i / 8) + i % 8 := by omega
    have hhigh : x.getLsbD (24 + i) = false := BitVec.getLsbD_of_ge _ _ (by omega)
    rw [← hplace]
    simp [h, hhigh, hi, show i < 24 by omega, show ¬ i < 8 by omega]
  · have hplace : i - 24 = 8 * (3 - i / 8) + i % 8 := by omega
    have hhigh : x.getLsbD (24 + i) = false := BitVec.getLsbD_of_ge _ _ (by omega)
    rw [← hplace]
    simp [h, hhigh, hi, show ¬ i < 24 by omega]

theorem length_fourBytes (block : ByteString) (i : Nat) :
    (Word.fourBytes block i).length = 4 := by
  rw [Word.fourBytes, List.length_map, List.length_range]

theorem getD_reverse_four {p : ByteString} (hp : p.length = 4) {k : Nat} (hk : k < 4) :
    p.reverse.getD (3 - k) 0 = p.getD k 0 := by
  rw [List.getD_eq_getElem _ _ (by rw [List.length_reverse]; omega),
    List.getD_eq_getElem _ _ (by omega), List.getElem_reverse]
  congr 1
  omega

theorem swap_ofBytes {p : ByteString} (hp : p.length = 4) :
    swap (Word.ofBytes p.reverse) = Word.ofBytes p := by
  have hreverse : p.reverse.length = 4 := by rw [List.length_reverse, hp]
  apply BitVec.eq_of_getLsbD_eq
  intro i hi
  have hk : 3 - i / 8 < 4 := by omega
  have hdiv : (8 * (3 - i / 8) + i % 8) / 8 = 3 - i / 8 := by omega
  have hmod : (8 * (3 - i / 8) + i % 8) % 8 = i % 8 := by omega
  rw [getLsbD_swap32 _ hi, getLsbD_ofBytes hreverse (by omega), getLsbD_ofBytes hp hi, hdiv,
    hmod, getD_reverse_four hp hk]

theorem bigEndian_loadWord (host : ByteOrder) (block : ByteString) (i : Nat) :
    bigEndian host (loadWord host block i) = Word.bigEndianAt block i := by
  cases host with
  | little => exact swap_ofBytes (length_fourBytes block i)
  | big => rfl

theorem littleEndian_loadWord (host : ByteOrder) (block : ByteString) (i : Nat) :
    littleEndian host (loadWord host block i) = Word.littleEndianAt block i := by
  cases host with
  | little => rfl
  | big =>
      have hswap := swap_ofBytes (p := (Word.fourBytes block i).reverse) (by
        rw [List.length_reverse, length_fourBytes])
      rwa [List.reverse_reverse] at hswap

/-! # Bytes of words -/

theorem lowByte_eq {w : Nat} (x : BitVec w) : lowByte x = UInt8.ofNat x.toNat := by
  have hmask : forall i, i < 8 -> (255).testBit i = true := by decide
  apply UInt8.toNat_inj.mp
  show (x &&& 0xFF#w).toNat % 2 ^ 8 = x.toNat % 2 ^ 8
  apply Nat.eq_of_testBit_eq
  intro i
  rw [Nat.testBit_mod_two_pow, Nat.testBit_mod_two_pow, BitVec.toNat_and, Nat.testBit_and,
    BitVec.toNat_ofNat, Nat.testBit_mod_two_pow]
  by_cases hi : i < 8
  · by_cases hw : i < w
    · simp [hi, hw, hmask i hi]
    · have hhigh : x.toNat.testBit i = false := by
        rw [BitVec.testBit_toNat, BitVec.getLsbD_of_ge x i (Nat.not_lt.mp hw)]
      rw [hhigh, Bool.false_and]
  · simp [hi]

theorem lowByte_shift {w : Nat} (x : BitVec w) (s : Nat) :
    lowByte (x >>> s) = UInt8.ofNat (x.toNat / 2 ^ s) := by
  rw [lowByte_eq, BitVec.toNat_ushiftRight, Nat.shiftRight_eq_div_pow]

theorem bigWord_eq (x : Word) : bigWord x = x.bigEndian := by
  simp only [bigWord, bigBytes, List.map_cons, List.map_nil, lowByte_shift, Word.bigEndian,
    BigEndian.encode, List.nil_append, List.cons_append, Nat.div_div_eq_div_mul,
    Nat.pow_zero, Nat.div_one]
  rfl

theorem littleWord_eq (x : Word) : littleWord x = x.littleEndian := by
  rw [Word.littleEndian, ← bigWord_eq]
  show _ = [lowByte (x >>> 0), lowByte (x >>> 8), lowByte (x >>> 16), lowByte (x >>> 24)]
  rw [BitVec.ushiftRight_zero]
  rfl

theorem bigLength_eq (msgBits : BitVec 64) :
    bigLength msgBits = BigEndian.encode 8 msgBits.toNat := by
  simp only [bigLength, bigBytes, List.map_cons, List.map_nil, lowByte_shift,
    BigEndian.encode, List.nil_append, List.cons_append, Nat.div_div_eq_div_mul,
    Nat.pow_zero, Nat.div_one]
  rfl

theorem length_bigLength (msgBits : BitVec 64) : (bigLength msgBits).length = 8 := by
  rw [bigLength_eq, BigEndian.length_encode]

theorem littleBytes_eq {w : Nat} (k : Nat) (x : BitVec w) :
    littleBytes k x = (BigEndian.encode k x.toNat).reverse := by
  induction k generalizing x with
  | zero => rfl
  | succ k ih =>
      rw [littleBytes, ih, BigEndian.encode, List.reverse_append, lowByte_eq,
        BitVec.toNat_ushiftRight, Nat.shiftRight_eq_div_pow]
      rfl

/-! # Rotating and mixing -/

theorem rotateLeft_eq (x : Word) {c : Nat} (hc : c < 32) :
    (x <<< c) ||| (x >>> (32 - c)) = x.rotateLeft c := by
  rw [BitVec.rotateLeft_def, Nat.mod_eq_of_lt hc]

theorem rotateRight_eq (x : Word) {c : Nat} (hc : c < 32) :
    (x >>> c) ||| (x <<< (32 - c)) = x.rotateRight c := by
  rw [BitVec.rotateRight_def, Nat.mod_eq_of_lt hc]

end Hash
end OssSdk
