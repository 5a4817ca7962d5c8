import OssSdk.Foundation.XorLinear
import OssSdk.Utils.CRC64Utils

/-!
# Eight bytes of a checksum at a time

The checksum is made from whole words of memory, and byte by byte only before the first
word that is aligned and after the last one.  Which table a byte of a word is looked up in
depends on the order of the bytes in memory.
-/

namespace OssSdk
namespace Utils

open Foundation

def byteWord (b : UInt8) : BitVec 64 := BitVec.ofNat 64 b.toNat

/-! # The tables -/

/-- Table `k` is for a byte that `k` zeros follow. -/
def crc64_init : Nat -> Nat -> BitVec 64
  | 0, n => crc64_table n
  | k + 1, n =>
      let crc := crc64_init k n
      crc64_table (crc.toNat % 256) ^^^ (crc >>> 8)

def rev8 (a : BitVec 64) : BitVec 64 :=
  let m := 0x00ff00ff00ff00ff#64
  let a := ((a >>> 8) &&& m) ||| ((a &&& m) <<< 8)
  let m := 0x0000ffff0000ffff#64
  let a := ((a >>> 16) &&& m) ||| ((a &&& m) <<< 16)
  (a >>> 32) ||| (a <<< 32)

/-! # The loops -/

section Loops

variable (byteStep : BitVec 64 -> UInt8 -> BitVec 64)
variable (wordStep : BitVec 64 -> ByteString -> BitVec 64)

/-- The bytes before an address that is a multiple of eight. -/
def alignLoop : Nat -> BitVec 64 -> ByteString -> BitVec 64 × ByteString
  | _, crc, [] => (crc, [])
  | next, crc, b :: rest =>
      if next % 8 ≠ 0 then alignLoop (next + 1) (byteStep crc b) rest
      else (crc, b :: rest)

def wordLoop (crc : BitVec 64) (buf : ByteString) : BitVec 64 × ByteString :=
  if 8 ≤ buf.length then wordLoop (wordStep crc (buf.take 8)) (buf.drop 8)
  else (crc, buf)
termination_by buf.length
decreasing_by
  rw [List.length_drop]
  omega

def crc64_loops (next : Nat) (crc : BitVec 64) (buf : ByteString) : BitVec 64 :=
  let (crc, buf) := alignLoop byteStep next crc buf
  let (crc, buf) := wordLoop wordStep crc buf
  buf.foldl byteStep crc

end Loops

/-! # The two orders of bytes -/

/-- A word that is read from memory where the lowest byte comes first. -/
def littleWord : ByteString -> BitVec 64
  | [] => 0#64
  | b :: rest => byteWord b ^^^ (littleWord rest) <<< 8

/-- A word that is read from memory where the highest byte comes first. -/
def bigWord (bs : ByteString) : BitVec 64 := littleWord bs.reverse

def littleStep (crc : BitVec 64) (b : UInt8) : BitVec 64 :=
  crc64_init 0 ((crc.toNat ^^^ b.toNat) % 256) ^^^ (crc >>> 8)

def littleWordStep (crc : BitVec 64) (bs : ByteString) : BitVec 64 :=
  let crc := crc ^^^ littleWord bs
  crc64_init 7 (crc.toNat % 256) ^^^ crc64_init 6 ((crc >>> 8).toNat % 256) ^^^
    crc64_init 5 ((crc >>> 16).toNat % 256) ^^^ crc64_init 4 ((crc >>> 24).toNat % 256) ^^^
    crc64_init 3 ((crc >>> 32).toNat % 256) ^^^ crc64_init 2 ((crc >>> 40).toNat % 256) ^^^
    crc64_init 1 ((crc >>> 48).toNat % 256) ^^^ crc64_init 0 (crc >>> 56).toNat

def crc64_little (crc : BitVec 64) (next : Nat) (buf : ByteString) : BitVec 64 :=
  ~~~ crc64_loops littleStep littleWordStep next (~~~ crc) buf

/-- The tables of the other order have their entries reversed. -/
def crc64_big_init (k n : Nat) : BitVec 64 := rev8 (crc64_init k n)

def bigStep (crc : BitVec 64) (b : UInt8) : BitVec 64 :=
  crc64_big_init 0 ((crc >>> 56).toNat ^^^ b.toNat) ^^^ (crc <<< 8)

def bigWordStep (crc : BitVec 64) (bs : ByteString) : BitVec 64 :=
  let crc := crc ^^^ bigWord bs
  crc64_big_init 0 (crc.toNat % 256) ^^^ crc64_big_init 1 ((crc >>> 8).toNat % 256) ^^^
    crc64_big_init 2 ((crc >>> 16).toNat % 256) ^^^
    crc64_big_init 3 ((crc >>> 24).toNat % 256) ^^^
    crc64_big_init 4 ((crc >>> 32).toNat % 256) ^^^
    crc64_big_init 5 ((crc >>> 40).toNat % 256) ^^^
    crc64_big_init 6 ((crc >>> 48).toNat % 256) ^^^ crc64_big_init 7 (crc >>> 56).toNat

def crc64_big (crc : BitVec 64) (next : Nat) (buf : ByteString) : BitVec 64 :=
  ~~~ rev8 (crc64_loops bigStep bigWordStep next (~~~ rev8 crc) buf)

/-! # One bit at a time -/

/-- The bits of a byte, the lowest one first. -/
def byteBits (b : UInt8) : List Bool := (List.range 8).map fun i => b.toNat.testBit i

/-- The checksum as it is defined: complemented, fed with every bit, complemented again. -/
def crc64Serial (crc : BitVec 64) (buf : ByteString) : BitVec 64 :=
  ~~~ (buf.flatMap byteBits).foldl (feedBit POLY) (~~~ crc)

/-! # Eight bits are one byte -/

/-- What eight zero bits do. -/
def zeroByte (crc : BitVec 64) : BitVec 64 := (shiftStep POLY)^[8] crc

theorem zeroByte_xorLinear : XorLinear zeroByte := (shiftStep_xorLinear POLY).iterate 8

theorem crc64Bits_eq (k : Nat) (crc : BitVec 64) :
    crc64Bits k crc = (shiftStep POLY)^[k] crc := by
  induction k generalizing crc with
  | zero => rfl
  | succ k ih =>
      rw [crc64Bits, ih, Function.iterate_succ_apply]
      rfl

theorem crc64_table_eq (n : Nat) : crc64_table n = zeroByte (BitVec.ofNat 64 n) :=
  crc64Bits_eq 8 _

theorem zeroByte_eq (x : BitVec 64) :
    zeroByte x = crc64_table (x.toNat % 256) ^^^ (x >>> 8) := by
  rw [crc64_table_eq]
  exact shiftStep_iterate_eq POLY (by decide) x

theorem byteWord_shiftRight (b : UInt8) : byteWord b >>> 8 = 0#64 := by
  have hb := b.toNat_lt
  apply BitVec.eq_of_toNat_eq
  rw [BitVec.toNat_ushiftRight, byteWord, BitVec.toNat_ofNat, Nat.shiftRight_eq_div_pow]
  show b.toNat % 2 ^ 64 / 2 ^ 8 = 0
  omega

theorem toNat_xor_byteWord (crc : BitVec 64) (b : UInt8) :
    (crc ^^^ byteWord b).toNat = crc.toNat ^^^ b.toNat := by
  have hb := b.toNat_lt
  rw [BitVec.toNat_xor, byteWord, BitVec.toNat_ofNat, Nat.mod_eq_of_lt (by omega)]

theorem zeroByte_xor_byteWord (crc : BitVec 64) (b : UInt8) :
    zeroByte (crc ^^^ byteWord b) =
      crc64_table ((crc.toNat ^^^ b.toNat) % 256) ^^^ (crc >>> 8) := by
  rw [zeroByte_eq, toNat_xor_byteWord, BitVec.ushiftRight_xor_distrib, byteWord_shiftRight,
    BitVec.xor_zero]

theorem littleStep_eq (crc : BitVec 64) (b : UInt8) :
    littleStep crc b = zeroByte (crc ^^^ byteWord b) :=
  (zeroByte_xor_byteWord crc b).symm

theorem crc64_step_eq (crc : BitVec 64) (b : UInt8) : crc64.step crc b = littleStep crc b :=
  BitVec.xor_comm _ _

theorem feedByte_eq (crc : BitVec 64) (b : UInt8) :
    (byteBits b).foldl (feedBit POLY) crc = littleStep crc b := by
  have hbits : byteBits b = (List.range 8).map (byteWord b).getLsbD := by
    apply List.map_congr_left
    intro i hi
    have hi' : i < 64 := Nat.lt_trans (List.mem_range.mp hi) (by decide)
    rw [byteWord, BitVec.getLsbD_ofNat, decide_eq_true hi', Bool.true_and]
  have hlow : lowBits 8 (byteWord b) = byteWord b := lowBits_ofNat b.toNat_lt
  rw [hbits, feedBits_eq POLY crc (byteWord b) (by decide), hlow, littleStep_eq]
  rfl

theorem foldl_feedBit (crc : BitVec 64) (buf : ByteString) :
    (buf.flatMap byteBits).foldl (feedBit POLY) crc = buf.foldl littleStep crc := by
  induction buf generalizing crc with
  | nil => rfl
  | cons b rest ih =>
      rw [List.flatMap_cons, List.foldl_append, feedByte_eq, ih, List.foldl_cons]

/-- A byte at a time makes the checksum that the bits make. -/
theorem CalcCRC64_eq_serial (crc : BitVec 64) (buf : ByteString) :
    CalcCRC64 crc buf = crc64Serial crc buf := by
  have hnot : forall x : BitVec 64, ~~~ x = x ^^^ BitVec.allOnes 64 := by
    intro x
    rw [BitVec.xor_allOnes]
  have hstep : crc64.step = littleStep := by
    funext c b
    exact crc64_step_eq c b
  rw [crc64Serial, foldl_feedBit, hnot, hnot]
  show buf.foldl crc64.step _ ^^^ _ = _
  rw [hstep]
  rfl

/-! # Eight bytes are one word -/

theorem littleWord_toNat_lt {bs : ByteString} {k : Nat} (hbs : bs.length ≤ k) (hk : k ≤ 8) :
    (littleWord bs).toNat < 2 ^ (8 * k) := by
  induction bs generalizing k with
  | nil => exact Nat.two_pow_pos _
  | cons b rest ih =>
      obtain ⟨j, rfl⟩ : exists j, k = j + 1 := Nat.exists_eq_add_one.mpr (by
        rw [List.length_cons] at hbs
        omega)
      have hrest := @ih j (Nat.le_of_succ_le_succ hbs) (Nat.le_of_succ_le hk)
      have hb := b.toNat_lt
      rw [littleWord, BitVec.toNat_xor]
      apply Nat.xor_lt_two_pow
      · rw [byteWord, BitVec.toNat_ofNat]
        refine Nat.lt_of_le_of_lt (Nat.mod_le _ _) (Nat.lt_of_lt_of_le hb ?_)
        exact Nat.pow_le_pow_right (by decide) (by omega)
      · rw [BitVec.toNat_shiftLeft, Nat.shiftLeft_eq]
        refine Nat.lt_of_le_of_lt (Nat.mod_le _ _) ?_
        rw [show 8 * (j + 1) = 8 * j + 8 by omega, Nat.pow_add]
        exact Nat.mul_lt_mul_of_pos_right hrest (by decide)

/-- Bytes that are taken in one after the other, or put on the register at once. -/
theorem foldl_littleStep {bs : ByteString} (hbs : bs.length ≤ 8) (crc : BitVec 64) :
    bs.foldl littleStep crc = zeroByte^[bs.length] (crc ^^^ littleWord bs) := by
  induction bs generalizing crc with
  | nil => exact BitVec.xor_zero.symm
  | cons b rest ih =>
      rw [List.length_cons] at hbs
      have hsmall : (littleWord rest).toNat < 2 ^ (64 - 8) :=
        littleWord_toNat_lt (k := 7) (Nat.le_of_succ_le_succ hbs) (by decide)
      have hdown : zeroByte (littleWord rest <<< 8) = littleWord rest :=
        shiftStep_iterate_shiftLeft POLY hsmall (by decide)
      rw [List.foldl_cons, ih (Nat.le_of_succ_le hbs), List.length_cons,
        Function.iterate_succ_apply, littleWord, ← BitVec.xor_assoc, zeroByte_xorLinear,
        hdown, littleStep_eq]

theorem crc64_init_eq (k n : Nat) :
    crc64_init k n = zeroByte^[k + 1] (BitVec.ofNat 64 n) := by
  induction k with
  | zero => exact crc64_table_eq n
  | succ k ih =>
      rw [Function.iterate_succ_apply', ← ih, zeroByte_eq]
      rfl

/-- The lowest byte of a word is looked up, and the others come down. -/
theorem zeroByte_iterate_succ (k : Nat) (x : BitVec 64) :
    zeroByte^[k + 1] x = crc64_init k (x.toNat % 256) ^^^ zeroByte^[k] (x >>> 8) := by
  rw [crc64_init_eq, Function.iterate_succ_apply,
    Function.iterate_succ_apply, zeroByte_eq, ← crc64_table_eq,
    zeroByte_xorLinear.iterate k]

theorem toNat_shiftRight_56 (x : BitVec 64) : (x >>> 56).toNat = (x >>> 56).toNat % 256 := by
  have hx := x.isLt
  rw [BitVec.toNat_ushiftRight, Nat.shiftRight_eq_div_pow]
  omega

theorem littleWordStep_eq {bs : ByteString} (hbs : bs.length = 8) (crc : BitVec 64) :
    littleWordStep crc bs = bs.foldl littleStep crc := by
  rw [foldl_littleStep (Nat.le_of_eq hbs), hbs]
  generalize hword : crc ^^^ littleWord bs = x
  have hgone : x >>> 64 = 0#64 := BitVec.ushiftRight_eq_zero (Nat.le_refl 64)
  rw [littleWordStep, hword, toNat_shiftRight_56]
  simp only [zeroByte_iterate_succ, ← BitVec.shiftRight_add, hgone, Function.iterate_zero,
    id_eq, BitVec.xor_zero, BitVec.xor_assoc, Nat.reduceAdd]

/-! # The loops take every byte in -/

section Loops

variable {byteStep : BitVec 64 -> UInt8 -> BitVec 64}
variable {wordStep : BitVec 64 -> ByteString -> BitVec 64}

theorem alignLoop_eq (next : Nat) (crc : BitVec 64) (buf : ByteString) :
    (alignLoop byteStep next crc buf).2.foldl byteStep (alignLoop byteStep next crc buf).1 =
      buf.foldl byteStep crc := by
  induction buf generalizing next crc with
  | nil => rfl
  | cons b rest ih =>
      rw [alignLoop]
      split
      · exact ih (next + 1) (byteStep crc b)
      · rfl

theorem wordLoop_eq
    (hword : forall crc bs, bs.length = 8 -> wordStep crc bs = bs.foldl byteStep crc)
    (crc : BitVec 64) (buf : ByteString) :
    (wordLoop wordStep crc buf).2.foldl byteStep (wordLoop wordStep crc buf).1 =
      buf.foldl byteStep crc := by
  induction crc, buf using wordLoop.induct wordStep with
  | case1 crc buf hlong ih =>
      have hfirst : (buf.take 8).length = 8 := by
        rw [List.length_take]
        exact Nat.min_eq_left hlong
      rw [wordLoop, if_pos hlong, ih, hword crc _ hfirst, ← List.foldl_append,
        List.take_append_drop]
  | case2 crc buf hshort =>
      rw [wordLoop, if_neg hshort]

theorem crc64_loops_eq
    (hword : forall crc bs, bs.length = 8 -> wordStep crc bs = bs.foldl byteStep crc)
    (next : Nat) (crc : BitVec 64) (buf : ByteString) :
    crc64_loops byteStep wordStep next crc buf = buf.foldl byteStep crc := by
  unfold crc64_loops
  dsimp only
  rw [wordLoop_eq hword, alignLoop_eq]

end Loops

/-- Wherever the bytes are in memory, their words make the checksum that their bits make. -/
theorem crc64_little_eq_serial (crc : BitVec 64) (next : Nat) (buf : ByteString) :
    crc64_little crc next buf = crc64Serial crc buf := by
  rw [crc64_little, crc64_loops_eq (fun c bs hbs => littleWordStep_eq hbs c), crc64Serial,
    foldl_feedBit]

/-! # The bytes of a word in the other order -/

/-- Two neighbours of `k` bits each change places. -/
theorem getLsbD_swap {k i : Nat} {m : BitVec 64}
    (hm : forall j, j < 64 -> m.getLsbD j = decide (j / k % 2 = 0)) (hk : 0 < k)
    (x : BitVec 64) (hi : i < 64) :
    (((x >>> k) &&& m) ||| ((x &&& m) <<< k)).getLsbD i =
      x.getLsbD (if i / k % 2 = 0 then i + k else i - k) := by
  rw [BitVec.getLsbD_or, BitVec.getLsbD_and, BitVec.getLsbD_ushiftRight,
    BitVec.getLsbD_shiftLeft, BitVec.getLsbD_and, hm i hi, hm (i - k) (by omega)]
  by_cases hlow : i < k
  · have heven : i / k % 2 = 0 := by rw [Nat.div_eq_of_lt hlow]
    simp [heven, hlow, Nat.add_comm]
  · obtain ⟨j, rfl⟩ := Nat.exists_eq_add_of_le (Nat.not_lt.mp hlow)
    have hdiv : (k + j) / k = j / k + 1 := Nat.add_div_left j hk
    rw [Nat.add_sub_cancel_left, hdiv]
    by_cases hodd : j / k % 2 = 0
    · have hne : (j / k + 1) % 2 ≠ 0 := by omega
      simp [hi, hodd, hne]
    · have heven : (j / k + 1) % 2 = 0 := by omega
      simp [hodd, heven, Nat.add_comm]

theorem getLsbD_rev8 (x : BitVec 64) {i : Nat} (hi : i < 64) :
    (rev8 x).getLsbD i = x.getLsbD (8 * (7 - i / 8) + i % 8) := by
  have hbytes : forall j, j < 64 ->
      (0x00ff00ff00ff00ff#64).getLsbD j = decide (j / 8 % 2 = 0) := by decide +kernel
  have hpairs : forall j, j < 64 ->
      (0x0000ffff0000ffff#64).getLsbD j = decide (j / 16 % 2 = 0) := by decide +kernel
  unfold rev8
  dsimp only
  rw [BitVec.getLsbD_or, BitVec.getLsbD_ushiftRight, BitVec.getLsbD_shiftLeft]
  by_cases hlow : i < 32
  · rw [decide_eq_true hlow, getLsbD_swap hpairs (by decide) _ (by omega),
      getLsbD_swap hbytes (by decide) _ (by split <;> omega)]
    simp only [Bool.not_true, Bool.and_false, Bool.false_and, Bool.or_false]
    congr 1
    split <;> split <;> omega
  · rw [decide_eq_false hlow, BitVec.getLsbD_of_ge _ (32 + i) (by omega),
      getLsbD_swap hpairs (by decide) _ (by omega),
      getLsbD_swap hbytes (by decide) _ (by split <;> omega)]
    simp only [hi, decide_true, Bool.not_false, Bool.true_and, Bool.false_or]
    congr 1
    split <;> split <;> omega

theorem rev8_xorLinear : XorLinear rev8 := by
  intro x y
  apply BitVec.eq_of_getLsbD_eq
  intro i hi
  rw [getLsbD_rev8 _ hi, BitVec.getLsbD_xor, BitVec.getLsbD_xor, getLsbD_rev8 x hi,
    getLsbD_rev8 y hi]

theorem rev8_rev8 (x : BitVec 64) : rev8 (rev8 x) = x := by
  apply BitVec.eq_of_getLsbD_eq
  intro i hi
  rw [getLsbD_rev8 _ hi, getLsbD_rev8 _ (by omega)]
  congr 1
  omega

theorem rev8_not (x : BitVec 64) : rev8 (~~~ x) = ~~~ rev8 x := by
  apply BitVec.eq_of_getLsbD_eq
  intro i hi
  rw [getLsbD_rev8 _ hi, BitVec.getLsbD_not, BitVec.getLsbD_not, getLsbD_rev8 _ hi,
    decide_eq_true hi, decide_eq_true (by omega)]

theorem rev8_shiftRight (x : BitVec 64) : rev8 (x >>> 8) = rev8 x <<< 8 := by
  apply BitVec.eq_of_getLsbD_eq
  intro i hi
  rw [getLsbD_rev8 _ hi, BitVec.getLsbD_ushiftRight, BitVec.getLsbD_shiftLeft]
  by_cases hlow : i < 8
  · rw [BitVec.getLsbD_of_ge _ _ (by omega)]
    simp [hlow]
  · rw [getLsbD_rev8 _ (by omega)]
    simp only [hi, hlow, decide_true, decide_false, Bool.not_false, Bool.and_self,
      Bool.true_and]
    congr 1
    omega

/-- The byte with one number is the byte with another one. -/
theorem lowBits_rev8 (x : BitVec 64) {j : Nat} (hj : j ≤ 7) :
    lowBits 8 (rev8 x >>> (8 * j)) = lowBits 8 (x >>> (8 * (7 - j))) := by
  apply BitVec.eq_of_getLsbD_eq
  intro i hi
  rw [getLsbD_lowBits, getLsbD_lowBits, BitVec.getLsbD_ushiftRight,
    BitVec.getLsbD_ushiftRight]
  by_cases hlow : i < 8
  · rw [getLsbD_rev8 _ (by omega), show 8 * (7 - (8 * j + i) / 8) + (8 * j + i) % 8 =
      8 * (7 - j) + i by omega]
  · rw [decide_eq_false hlow, Bool.false_and, Bool.false_and]

theorem toNat_mod_256 (x : BitVec 64) : x.toNat % 256 = (lowBits 8 x).toNat := by
  rw [lowBits, BitVec.toNat_ofNat]
  omega

theorem byte_rev8 (x : BitVec 64) {j : Nat} (hj : j ≤ 7) :
    (rev8 x >>> (8 * j)).toNat % 256 = (x >>> (8 * (7 - j))).toNat % 256 := by
  rw [toNat_mod_256, toNat_mod_256, lowBits_rev8 x hj]

theorem getLsbD_littleWord (bs : ByteString) {i : Nat} (hi : i < 64) :
    (littleWord bs).getLsbD i = (bs.getD (i / 8) 0).toNat.testBit (i % 8) := by
  induction bs generalizing i with
  | nil =>
      rw [List.getD_nil]
      simp [littleWord]
  | cons b rest ih =>
      rw [littleWord, BitVec.getLsbD_xor, BitVec.getLsbD_shiftLeft, byteWord,
        BitVec.getLsbD_ofNat, decide_eq_true hi, Bool.true_and, Bool.true_and]
      by_cases hlow : i < 8
      · rw [Nat.div_eq_of_lt hlow, Nat.mod_eq_of_lt hlow, decide_eq_true hlow]
        simp
      · have hbit : b.toNat.testBit i = false :=
          Nat.testBit_lt_two_pow (Nat.lt_of_lt_of_le b.toNat_lt
            (Nat.pow_le_pow_right (by decide) (Nat.not_lt.mp hlow)))
        rw [hbit, decide_eq_false hlow, ih (by omega), show i / 8 = (i - 8) / 8 + 1 by omega,
          show (i - 8) % 8 = i % 8 by omega]
        simp

theorem rev8_littleWord {bs : ByteString} (hbs : bs.length = 8) :
    rev8 (littleWord bs) = bigWord bs := by
  apply BitVec.eq_of_getLsbD_eq
  intro i hi
  have hplace : i / 8 < bs.reverse.length := by
    rw [List.length_reverse]
    omega
  have hindex : (8 * (7 - i / 8) + i % 8) / 8 = bs.length - 1 - i / 8 := by omega
  have hbit : (8 * (7 - i / 8) + i % 8) % 8 = i % 8 := by omega
  rw [getLsbD_rev8 _ hi, bigWord, getLsbD_littleWord _ (by omega), getLsbD_littleWord _ hi,
    List.getD_eq_getElem _ _ hplace, List.getElem_reverse, hindex, hbit,
    List.getD_eq_getElem _ _ (by omega)]

/-! # The other order makes the same checksum -/

theorem bigStep_rev8 (crc : BitVec 64) (b : UInt8) :
    bigStep (rev8 crc) b = rev8 (littleStep crc b) := by
  have htop : (rev8 crc >>> 56).toNat = crc.toNat % 256 :=
    (toNat_shiftRight_56 _).trans (byte_rev8 crc (j := 7) (Nat.le_refl 7))
  have hindex : (crc.toNat ^^^ b.toNat) % 256 = crc.toNat % 256 ^^^ b.toNat := by
    have hmod := Nat.xor_mod_two_pow (a := crc.toNat) (b := b.toNat) (n := 8)
    rw [hmod, Nat.mod_eq_of_lt (a := b.toNat) b.toNat_lt]
  rw [bigStep, littleStep, htop, rev8_xorLinear, rev8_shiftRight, hindex]
  rfl

theorem bigWordStep_rev8 {bs : ByteString} (hbs : bs.length = 8) (crc : BitVec 64) :
    bigWordStep (rev8 crc) bs = rev8 (littleWordStep crc bs) := by
  rw [bigWordStep, littleWordStep, ← rev8_littleWord hbs, ← rev8_xorLinear]
  generalize crc ^^^ littleWord bs = x
  have h0 : (rev8 x).toNat % 256 = (x >>> 56).toNat % 256 := byte_rev8 x (j := 0) (by decide)
  have h1 : (rev8 x >>> 8).toNat % 256 = (x >>> 48).toNat % 256 :=
    byte_rev8 x (j := 1) (by decide)
  have h2 : (rev8 x >>> 16).toNat % 256 = (x >>> 40).toNat % 256 :=
    byte_rev8 x (j := 2) (by decide)
  have h3 : (rev8 x >>> 24).toNat % 256 = (x >>> 32).toNat % 256 :=
    byte_rev8 x (j := 3) (by decide)
  have h4 : (rev8 x >>> 32).toNat % 256 = (x >>> 24).toNat % 256 :=
    byte_rev8 x (j := 4) (by decide)
  have h5 : (rev8 x >>> 40).toNat % 256 = (x >>> 16).toNat % 256 :=
    byte_rev8 x (j := 5) (by decide)
  have h6 : (rev8 x >>> 48).toNat % 256 = (x >>> 8).toNat % 256 :=
    byte_rev8 x (j := 6) (by decide)
  have h7 : (rev8 x >>> 56).toNat % 256 = x.toNat % 256 := byte_rev8 x (j := 7) (by decide)
  rw [toNat_shiftRight_56 (rev8 x), toNat_shiftRight_56 x, h0, h1, h2, h3, h4, h5, h6, h7]
  simp only [crc64_big_init, rev8_xorLinear _ _]
  ac_rfl

theorem foldl_bigStep (crc : BitVec 64) (buf : ByteString) :
    buf.foldl bigStep (rev8 crc) = rev8 (buf.foldl littleStep crc) := by
  induction buf generalizing crc with
  | nil => rfl
  | cons b rest ih => rw [List.foldl_cons, bigStep_rev8, ih, List.foldl_cons]

theorem bigWordStep_eq {bs : ByteString} (hbs : bs.length = 8) (crc : BitVec 64) :
    bigWordStep crc bs = bs.foldl bigStep crc := by
  have hstep := bigWordStep_rev8 hbs (rev8 crc)
  rw [littleWordStep_eq hbs, ← foldl_bigStep, rev8_rev8] at hstep
  exact hstep

/-- A machine of the other order of bytes makes the checksum that the bits make. -/
theorem crc64_big_eq_serial (crc : BitVec 64) (next : Nat) (buf : ByteString) :
    crc64_big crc next buf = crc64Serial crc buf := by
  rw [crc64_big, crc64_loops_eq (fun c bs hbs => bigWordStep_eq hbs c), ← rev8_not crc,
    foldl_bigStep, rev8_rev8, crc64Serial, foldl_feedBit]

end Utils
end OssSdk
