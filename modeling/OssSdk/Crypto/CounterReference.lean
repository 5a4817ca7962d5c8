import OssSdk.Crypto.AesCtrCipher
import Mathlib.Data.List.GetD

/-!
# The reference of counter mode

A text is masked with the blocks that the vector, the vector plus one and so on are
encrypted to, the vector being a big-endian number of 128 bits.  `AesCtrCipher` is given
the text in calls of any sizes, and keeps what is left of a block from one call to the
next.
-/

namespace OssSdk
namespace Crypto

open Foundation
open StreamCipher

/-- The vector, `i` blocks on. -/
def counterBlock (iv : ByteString) (i : Nat) : ByteString :=
  BigEndian.encode 16 ((BigEndian.value iv + i) % 2 ^ 128)

/-- The first blocks of the keystream. -/
def referenceStream (E : ByteString -> ByteString) (iv : ByteString) (blocks : Nat) :
    ByteString :=
  (List.range blocks).flatMap fun i => E (counterBlock iv i)

/-- The text with as many blocks of the keystream as it takes. -/
def reference (E : ByteString -> ByteString) (iv data : ByteString) : ByteString :=
  List.zipWith (· ^^^ ·) data (referenceStream E iv ((data.length + 15) / 16))

/-- What successive calls of `process` put into their buffers. -/
def AesCtrCipher.processCalls (aes : BlockCipher) :
    List ByteString -> AesCtrCipher -> List ByteString
  | [], _ => []
  | data :: rest, cipher =>
      let (out, cipher) := cipher.process aes data
      out :: processCalls aes rest cipher

theorem length_counterBlock (iv : ByteString) (i : Nat) :
    (counterBlock iv i).length = 16 := BigEndian.length_encode _ _

/-- The carry runs through all of the bytes, and out of the first one. -/
theorem incrementCounter_iterate {iv : ByteString} (hiv : iv.length = 16) (i : Nat) :
    incrementCounter^[i] iv = counterBlock iv i := by
  have hlength : (incrementCounter^[i] iv).length = (counterBlock iv i).length := by
    rw [length_incrementCounter_iterate, hiv, length_counterBlock]
  apply BigEndian.value_injective hlength
  have hsize : (256 : Nat) ^ 16 = 2 ^ 128 := by norm_num
  rw [value_incrementCounter_iterate, hiv, counterBlock, BigEndian.value_encode, hsize,
    Nat.mod_mod]

section Reference

variable {E : ByteString -> ByteString} {iv : ByteString}

theorem referenceStream_succ (blocks : Nat) :
    referenceStream E iv (blocks + 1) =
      referenceStream E iv blocks ++ E (counterBlock iv blocks) := by
  unfold referenceStream
  rw [List.range_succ, List.flatMap_append, List.flatMap_singleton]

theorem length_referenceStream (hE : forall i, (E (counterBlock iv i)).length = 16)
    (blocks : Nat) : (referenceStream E iv blocks).length = blocks * 16 := by
  induction blocks with
  | zero => rfl
  | succ blocks ih =>
      rw [referenceStream_succ, List.length_append, ih, hE, Nat.succ_mul]

theorem referenceStream_getD (hE : forall i, (E (counterBlock iv i)).length = 16)
    {blocks p : Nat} (hp : p < blocks * 16) :
    (referenceStream E iv blocks).getD p 0 =
      (E (counterBlock iv (p / 16))).getD (p % 16) 0 := by
  induction blocks with
  | zero => exact absurd hp (by omega)
  | succ blocks ih =>
      have hlength := length_referenceStream hE blocks
      rw [referenceStream_succ]
      by_cases hbefore : p < blocks * 16
      · rw [List.getD_append _ _ _ _ (hlength ▸ hbefore)]
        exact ih hbefore
      · have hblock : p / 16 = blocks := by omega
        have hrest : p - blocks * 16 = p % 16 := by omega
        rw [List.getD_append_right _ _ _ _ (hlength ▸ Nat.le_of_not_lt hbefore), hlength,
          hrest, hblock]

end Reference

variable {aes : BlockCipher} {key iv : ByteString}

/-- The keystream of the context is the one of the reference. -/
theorem mask_keystream (hworks : aes.Works key) (hiv : iv.length = 16)
    (data : ByteString) :
    mask (aes.keystream key iv) 0 data = reference (aes.block key) iv data := by
  have hE : forall i, (aes.block key (counterBlock iv i)).length = 16 :=
    fun i => hworks.length_block (length_counterBlock iv i)
  have hlength := length_referenceStream hE ((data.length + 15) / 16)
  unfold reference
  apply mask_eq_zipWith
  · rw [hlength]
    omega
  · intro p hp
    rw [referenceStream_getD hE (by omega), Nat.zero_add, ← incrementCounter_iterate hiv]
    rfl

theorem AesCtrCipher.At.processCalls (hworks : aes.Works key) (hiv : iv.length = 16)
    {p : Nat} {cipher : AesCtrCipher} (hat : AesCtrCipher.At aes key iv p cipher)
    (calls : List ByteString) :
    cipher.processCalls aes calls = maskChunks (aes.keystream key iv) p calls := by
  induction calls generalizing p cipher with
  | nil => rfl
  | cons data rest ih =>
      rcases hat.process hworks hiv data with ⟨hout, hend⟩
      have hrest := ih hend
      change (cipher.process aes data).1 ::
        AesCtrCipher.processCalls aes rest (cipher.process aes data).2 = _
      rw [hout, hrest, maskChunks]

theorem map_length_maskChunks (ks : Keystream) (p : Nat) (chunks : List ByteString) :
    (maskChunks ks p chunks).map List.length = chunks.map List.length := by
  induction chunks generalizing p with
  | nil => rfl
  | cons chunk rest ih => rw [maskChunks, List.map_cons, length_mask, ih, List.map_cons]

/-- Of a longer vector the constructor takes the first sixteen bytes. -/
theorem AesCtrCipher.create_take (hvalid : validKeyIV key iv = true) :
    (iv.take 16).length = 16 ∧ validKeyIV key (iv.take 16) = true ∧
      AesCtrCipher.create aes key iv = AesCtrCipher.create aes key (iv.take 16) := by
  have hparts := hvalid
  unfold validKeyIV at hparts
  rw [Bool.and_eq_true, decide_eq_true_eq] at hparts
  have hlength : (iv.take 16).length = 16 := List.length_take_of_le hparts.2
  have hvalid' : validKeyIV key (iv.take 16) = true := by
    unfold validKeyIV
    rw [hparts.1, hlength]
    rfl
  refine ⟨hlength, hvalid', ?_⟩
  unfold AesCtrCipher.create
  rw [hvalid, hvalid', List.take_take, min_self]

theorem AesCtrCipher.create_processCalls (hworks : aes.Works key)
    (hvalid : validKeyIV key iv = true) (calls : List ByteString) :
    (AesCtrCipher.create aes key iv).processCalls aes calls =
      maskChunks (aes.keystream key (iv.take 16)) 0 calls := by
  rcases @create_take aes _ _ hvalid with ⟨hlength, hvalid', hcreate⟩
  rw [hcreate]
  exact (create_at hworks hlength hvalid').processCalls hworks hlength calls

/--
Every call processes all that it is given, all calls together give what the reference
makes of the text, and a cipher for the same key and vector takes it back, whatever the
calls are that either is given its text in.
-/
theorem AesCtrCipher.streams_reference (hworks : aes.Works key)
    (hvalid : validKeyIV key iv = true)
    {data : ByteString} {calls : List ByteString} (hcalls : calls.flatten = data) :
    ((AesCtrCipher.create aes key iv).processCalls aes calls).map List.length =
        calls.map List.length ∧
      ((AesCtrCipher.create aes key iv).processCalls aes calls).flatten =
        reference (aes.block key) (iv.take 16) data ∧
      (forall calls', calls'.flatten = data ->
        ((AesCtrCipher.create aes key iv).processCalls aes calls').flatten =
          ((AesCtrCipher.create aes key iv).processCalls aes calls).flatten) ∧
      forall again,
        again.flatten =
          ((AesCtrCipher.create aes key iv).processCalls aes calls).flatten ->
        ((AesCtrCipher.create aes key iv).processCalls aes again).flatten = data := by
  have hflatten : forall calls : List ByteString,
      ((AesCtrCipher.create aes key iv).processCalls aes calls).flatten =
        mask (aes.keystream key (iv.take 16)) 0 calls.flatten := by
    intro calls
    rw [create_processCalls hworks hvalid, flatten_maskChunks]
  have hlength := (@create_take aes _ _ hvalid).1
  refine ⟨?_, ?_, ?_, ?_⟩
  · rw [create_processCalls hworks hvalid, map_length_maskChunks]
  · rw [hflatten, hcalls]
    exact mask_keystream hworks hlength data
  · intro calls' hcalls'
    rw [hflatten, hflatten, hcalls, hcalls']
  · intro again hagain
    rw [hflatten, hagain, hflatten, mask_mask, hcalls]

/-- Calls with 5, 0, 11 and 2 bytes, across the end of a block and of the low half. -/
theorem AesCtrCipher.streams_reference_eighteen :
    ((AesCtrCipher.create zeroKeyAes zeroKey lastLowIV).processCalls zeroKeyAes
      [[1, 2, 3, 4, 5], [], [6, 7, 8, 9, 10, 11, 12, 13, 14, 15, 16], [17, 18]]).flatten =
      [84, 239, 117, 144, 136, 46, 129, 183, 246, 90, 232, 57, 38, 240, 59, 237] ++
        [228, 135] := by
  have hstreams := @AesCtrCipher.streams_reference zeroKeyAes zeroKey lastLowIV
    zeroKeyAes_works (by decide) _
    [[1, 2, 3, 4, 5], [], [6, 7, 8, 9, 10, 11, 12, 13, 14, 15, 16], [17, 18]] rfl
  rw [hstreams.2.1]
  decide +kernel

end Crypto
end OssSdk
