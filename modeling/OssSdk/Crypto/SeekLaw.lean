import OssSdk.Crypto.AesCtrContentCipher

/-!
# Seeking in the keystream

A cipher that has been sought to an offset should go on as one that has come there
byte by byte.  It does as long as the low half of its vector does not wrap around.
-/

namespace OssSdk
namespace Crypto

open Foundation
open StreamCipher

variable {σ : Type}

namespace AesCtrContentCipher

/-- What a stream holds that these chunks have been decrypted into. -/
def decrypted (aes : BlockCipher) (cc : AesCtrContentCipher)
    (chunks : List ByteString) : ByteString :=
  let (writer, w) := cc.decryptContent aes Cell.fst Cell.snd
    (OStreamWriter stringstream) (DecryptingWriter.init aes [] [], [])
  (writer.writes chunks w).2

/--
Beginning at the offset gives what is left of beginning at the start, when the first
bytes are dropped: of what is sent, and of what is written.
-/
structure SeekLaw (aes : BlockCipher) (cc : AesCtrContentCipher) (offset : UInt64)
    (data : ByteString) : Prop where
  encrypt : forall (body whole : ByteContent Unit) (counts counts' : List Nat),
    body.data = data -> data.length ≤ counts.sum ->
    whole.data.drop offset.toNat = data -> offset.toNat ≤ whole.data.length ->
    whole.data.length ≤ counts'.sum ->
    ((cc.seekTo offset).encryptContent body).sent aes counts =
      ((cc.encryptContent whole).sent aes counts').drop offset.toNat
  decrypt : forall chunks chunks' : List ByteString,
    (forall chunk, chunk ∈ chunks -> chunk ≠ []) -> chunks.flatten = data ->
    (forall chunk, chunk ∈ chunks' -> chunk ≠ []) ->
    chunks'.flatten.drop offset.toNat = data ->
    offset.toNat ≤ chunks'.flatten.length ->
    (cc.seekTo offset).decrypted aes chunks =
      (cc.decrypted aes chunks').drop offset.toNat

/-!
# What comes of a cipher
-/

def keystream (aes : BlockCipher) (cc : AesCtrContentCipher) : Keystream :=
  aes.keystream cc.cipherData.key cc.cipherData.iv

/-- The key and the vector are of lengths that the cipher takes. -/
def Valid (cc : AesCtrContentCipher) : Prop :=
  validKeyIV cc.cipherData.key cc.cipherData.iv = true

section Valid

variable {aes : BlockCipher} {cc : AesCtrContentCipher}

theorem sent_eq (hworks : aes.Works cc.cipherData.key)
    (hiv : cc.cipherData.iv.length = 16)
    (hvalid : cc.Valid)
    (body : ByteContent σ)
    {counts : List Nat}
    (hcounts : body.data.length ≤ counts.sum) :
    (cc.encryptContent body).sent aes counts = mask (cc.keystream aes) 0 body.data := by
  have hsent := @CryptoByteContent.sent_eq _ _ (cc.encryptContent body) hworks hiv
      hvalid counts
  rw [hsent]
  exact congrArg _ (List.take_of_length_le hcounts)

theorem decrypted_eq (hworks : aes.Works cc.cipherData.key)
    (hiv : cc.cipherData.iv.length = 16)
    (hvalid : cc.Valid)
    {chunks : List ByteString}
    (hchunks : forall chunk, chunk ∈ chunks -> chunk ≠ []) :
    cc.decrypted aes chunks = mask (cc.keystream aes) 0 chunks.flatten := by
  have hinit := DecryptingWriter.init_decryptsAt hworks hiv hvalid
  have hwrites := @DecryptingWriter.writes_eq _ _ _ _ _ _ _
      (OStreamWriter stringstream) _
      (DecryptingWriter.init aes cc.cipherData.key cc.cipherData.iv, []) hworks hiv
      Cell.fst_apart_snd hinit _ hchunks
  refine Eq.trans hwrites ?_
  change (OStreamWriter stringstream).writes _ [] = _
  rw [stringstream_writes, flatten_maskChunks]
  rfl

/-- Without a context nothing is sent or written. -/
theorem create_of_invalid {key iv : ByteString} (hinvalid : ¬ validKeyIV key iv = true) :
    AesCtrCipher.create aes key iv = none := by
  unfold AesCtrCipher.create
  rw [Bool.eq_false_of_not_eq_true hinvalid]
  rfl

theorem processAll_none {input : ByteString} (hinput : input ≠ []) :
    AesCtrCipher.processAll aes input none = (none, none) := by
  have hlength : ¬ (0 = input.length) := by
    intro hzero
    exact hinput (List.length_eq_zero_iff.mp hzero.symm)
  simp only [AesCtrCipher.processAll, AesCtrCipher.process, List.length_nil, hlength,
    if_false]

theorem sent_of_invalid (hinvalid : ¬ cc.Valid) (body : ByteContent σ)
    (counts : List Nat) : (cc.encryptContent body).sent aes counts = [] := by
  have hnone := @create_of_invalid aes _ _ hinvalid
  have hreads : forall (counts : List Nat)
      (s : CryptoByteSourceState MemoryByteSourceState), s.cipher = none ->
      ((CryptoByteSource aes (MemoryByteSource body.data)).reads counts s).1 = [] := by
    intro counts
    induction counts with
    | nil => exact fun _ _ => rfl
    | cons count counts ih =>
        intro s hs
        rcases hread : (MemoryByteSource body.data).read count s.inner with
          ⟨buffer, r⟩
        by_cases hbuffer : buffer = []
        · have hpiece : (CryptoByteSource aes (MemoryByteSource body.data)).read
              count s = ([], { s with inner := r, cipher := none }) := by
            unfold ByteSource.read CryptoByteSource
            simp only [hread, hs, hbuffer]
            rfl
          simp only [ByteSource.reads, hpiece, List.nil_append]
          exact ih _ rfl
        · have hpiece : (CryptoByteSource aes (MemoryByteSource body.data)).read
              count s = ([], ⟨r, none, true⟩) := by
            unfold ByteSource.read CryptoByteSource
            simp only [hread, hs, processAll_none hbuffer]
          simp only [ByteSource.reads, hpiece, List.nil_append]
          exact ih _ rfl
  exact hreads counts _ hnone

theorem decrypted_of_invalid (hinvalid : ¬ cc.Valid)
    {chunks : List ByteString}
    (hchunks : forall chunk, chunk ∈ chunks -> chunk ≠ []) :
    cc.decrypted aes chunks = [] := by
  have hnone := @create_of_invalid aes _ _ hinvalid
  have hwrites : forall (chunks : List ByteString) (w : DecryptingWriterState ×
      ByteString), (forall chunk, chunk ∈ chunks -> chunk ≠ []) ->
      w.1.cipher = none ->
      ((DecryptingWriter aes Cell.fst Cell.snd
        (OStreamWriter stringstream)).writes chunks w).2 = w.2 := by
    intro chunks
    induction chunks with
    | nil => exact fun _ _ _ => rfl
    | cons chunk rest ih =>
        intro w hrest hw
        have hchunk := hrest chunk List.mem_cons_self
        have hempty : chunk.isEmpty = false := by simpa using hchunk
        have hpiece : ((DecryptingWriter aes Cell.fst Cell.snd
            (OStreamWriter stringstream)).write chunk w).2 = (⟨none, true⟩, w.2) := by
          simp only [ByteWriter.write, DecryptingWriter, hempty, Cell.fst, hw,
            processAll_none hchunk, Bool.false_eq_true, if_false]
        rw [ByteWriter.writes, hpiece]
        exact ih _ (fun c hc => hrest c (List.mem_cons_of_mem _ hc)) rfl
  exact hwrites chunks _ hchunks hnone

/-!
# When the law holds
-/

theorem seekTo_valid (hiv : cc.cipherData.iv.length = 16) (offset : UInt64) :
    (cc.seekTo offset).Valid ↔ cc.Valid := by
  unfold Valid validKeyIV
  change (_ && decide (16 ≤ (seekIV cc.cipherData.iv offset).length)) = true ↔ _
  rw [length_seekIV hiv, hiv]
  rfl

/-- The law is about one text, at two places of two keystreams. -/
theorem seekLaw_iff_mask (hworks : aes.Works cc.cipherData.key)
    (hiv : cc.cipherData.iv.length = 16)
    (hvalid : cc.Valid)
    (offset : UInt64) (data : ByteString) :
    SeekLaw aes cc offset data ↔
      mask ((cc.seekTo offset).keystream aes) 0 data =
        mask (cc.keystream aes) offset.toNat data := by
  have hworks' : aes.Works (cc.seekTo offset).cipherData.key := hworks
  have hiv' : (cc.seekTo offset).cipherData.iv.length = 16 := length_seekIV hiv offset
  have hvalid' := (seekTo_valid hiv offset).mpr hvalid
  constructor
  · intro hlaw
    let whole := List.replicate offset.toNat 0 ++ data
    have hlength : whole.length = offset.toNat + data.length := by
      rw [List.length_append, List.length_replicate]
    have hdrop : whole.drop offset.toNat = data :=
      List.drop_left' List.length_replicate
    have hsame := hlaw.encrypt (.content false none data) (.content false none whole)
      [data.length] [whole.length] rfl (Nat.le_of_eq List.sum_singleton.symm) hdrop
      (hlength ▸ Nat.le_add_right _ _) (Nat.le_of_eq List.sum_singleton.symm)
    have hsent := @sent_eq Unit aes _ hworks' hiv' hvalid' (.content false none data)
      [data.length] (Nat.le_of_eq List.sum_singleton.symm)
    have hwhole := @sent_eq Unit aes _ hworks hiv hvalid (.content false none whole)
      [whole.length] (Nat.le_of_eq List.sum_singleton.symm)
    rw [hsent, hwhole, mask_drop, Nat.zero_add] at hsame
    change mask _ 0 data = mask _ _ (whole.drop offset.toNat) at hsame
    rw [hdrop] at hsame
    exact hsame
  · intro hsame
    constructor
    · intro body whole counts counts' hbody hcounts hwhole _ hcounts'
      rw [← hbody] at hcounts
      rw [sent_eq hworks' hiv' hvalid' body hcounts,
        sent_eq hworks hiv hvalid whole hcounts', mask_drop, Nat.zero_add, hwhole,
        hbody, hsame]
    · intro chunks chunks' hchunks hdata hchunks' hdata' _
      rw [decrypted_eq hworks' hiv' hvalid' hchunks,
        decrypted_eq hworks hiv hvalid hchunks', mask_drop, Nat.zero_add, hdata',
        hdata, hsame]

theorem seekLaw_of_invalid (hiv : cc.cipherData.iv.length = 16)
    (hinvalid : ¬ cc.Valid)
    (offset : UInt64) (data : ByteString) : SeekLaw aes cc offset data := by
  have hinvalid' := mt (seekTo_valid hiv offset).mp hinvalid
  constructor
  · intro body whole counts counts' _ _ _ _ _
    rw [sent_of_invalid hinvalid', sent_of_invalid hinvalid, List.drop_nil]
  · intro chunks chunks' hchunks _ hchunks' _ _
    rw [decrypted_of_invalid hinvalid' hchunks, decrypted_of_invalid hinvalid hchunks',
      List.drop_nil]

/-- A vector that has been counted on gives the rest of the keystream. -/
theorem keystream_of_counted {key iv iv' : ByteString} {offset : Nat}
    (haligned : offset % 16 = 0)
    (hcounted : iv' = incrementCounter^[offset / 16] iv)
    (i : Nat) :
    aes.keystream key iv' i = aes.keystream key iv (offset + i) := by
  have hseek := counterMode_seek incrementCounter (aes.block key)
    (Nat.zero_lt_succ 15) iv (offset / 16) i
  have hoffset : 16 * (offset / 16) = offset :=
    Nat.mul_div_cancel' (Nat.dvd_of_mod_eq_zero haligned)
  rw [hoffset] at hseek
  rw [hcounted]
  exact hseek

/-- The first block of a keystream tells the vector. -/
theorem counted_of_keystream {key iv iv' : ByteString} {offset : Nat}
    (hworks : aes.Works key)
    (hpermutes : aes.Permutes key)
    (hiv : iv.length = 16)
    (hiv' : iv'.length = 16)
    (haligned : offset % 16 = 0)
    (hsame : forall i, i < 16 ->
      aes.keystream key iv' i = aes.keystream key iv (offset + i)) :
    iv' = incrementCounter^[offset / 16] iv := by
  have hcounted := (length_incrementCounter_iterate (offset / 16) iv).trans hiv
  refine hpermutes _ _ hiv' hcounted ?_
  rw [hworks.encrypt_eq hiv', hworks.encrypt_eq hcounted]
  refine congrArg some (List.ext_getElem ?_ ?_)
  · rw [hworks.length_block hiv', hworks.length_block hcounted]
  · intro i hi hi'
    have hless : i < 16 := by
      rw [hworks.length_block hiv'] at hi
      exact hi
    have hbyte := hsame i hless
    rw [← keystream_of_counted haligned rfl] at hbyte
    unfold BlockCipher.keystream counterMode at hbyte
    rw [Nat.div_eq_of_lt hless, Nat.mod_eq_of_lt hless] at hbyte
    simp only [Function.iterate_zero, id_eq] at hbyte
    rw [List.getD_eq_getElem?_getD, List.getD_eq_getElem?_getD,
      List.getElem?_eq_getElem hi, List.getElem?_eq_getElem hi'] at hbyte
    exact hbyte

end Valid

/--
The law holds for every text if and only if the low half of the vector does not wrap
around before the offset, or the key is of no use.  One block of text shows it.
-/
theorem seekLaw_iff (aes : BlockCipher) (cc : AesCtrContentCipher) (offset : UInt64)
    (hiv : cc.cipherData.iv.length = 16)
    (haligned : offset.toNat % 16 = 0)
    (hworks : cc.Valid -> aes.Works cc.cipherData.key)
    (hpermutes : cc.Valid -> aes.Permutes cc.cipherData.key) :
    ((forall data, SeekLaw aes cc offset data) ↔
      (cc.Valid -> NoWrap cc.cipherData.iv offset.toNat)) ∧
    forall data : ByteString, 16 ≤ data.length ->
      (SeekLaw aes cc offset data ↔
        (cc.Valid -> NoWrap cc.cipherData.iv offset.toNat)) := by
  have hiv' : (cc.seekTo offset).cipherData.iv.length = 16 := length_seekIV hiv offset
  have henough : (cc.Valid -> NoWrap cc.cipherData.iv offset.toNat) ->
      forall data, SeekLaw aes cc offset data := by
    intro hnowrap data
    by_cases hvalid : cc.Valid
    · rw [seekLaw_iff_mask (hworks hvalid) hiv hvalid]
      refine mask_congr fun i _ => ?_
      rw [Nat.zero_add]
      exact keystream_of_counted haligned
        ((seekIV_eq_iff hiv offset).mpr (hnowrap hvalid)) i
    · exact seekLaw_of_invalid hiv hvalid offset data
  have hneeded : forall data : ByteString, 16 ≤ data.length ->
      SeekLaw aes cc offset data ->
        (cc.Valid -> NoWrap cc.cipherData.iv offset.toNat) := by
    intro data hlength hlaw hvalid
    rw [seekLaw_iff_mask (hworks hvalid) hiv hvalid] at hlaw
    refine (seekIV_eq_iff hiv offset).mp ?_
    refine counted_of_keystream (hworks hvalid) (hpermutes hvalid) hiv hiv' haligned ?_
    intro i hi
    have hbyte := mask_injective hlaw (Nat.lt_of_lt_of_le hi hlength)
    rw [Nat.zero_add] at hbyte
    exact hbyte
  refine ⟨⟨fun hlaw => ?_, henough⟩, fun data hlength => ⟨hneeded data hlength, ?_⟩⟩
  · exact hneeded (List.replicate 16 0) (Nat.le_of_eq List.length_replicate.symm)
      (hlaw _)
  · exact fun hnowrap => henough hnowrap data

/-- A cipher with the key of zeros. -/
def ofZeroKey (iv : ByteString) : AesCtrContentCipher := ⟨⟨zeroKey, iv, [], []⟩⟩

theorem seekLaw_iff_second_block :
    SeekLaw zeroKeyAes (ofZeroKey zeroBlock) 16 (List.replicate 20 7) :=
  (seekLaw_iff zeroKeyAes (ofZeroKey zeroBlock) 16 rfl rfl
    (fun _ => BlockCipher.ofTable_works _ _ _)
    (fun _ => BlockCipher.ofTable_permutes _ _ _)).1.mpr
    (fun _ => by
      unfold NoWrap
      decide)
    (List.replicate 20 7)

/-- The second block of an object whose vector is about to wrap around. -/
theorem not_seekLaw_lastLowIV :
    zeroKeyAes.Works zeroKey ∧ zeroKeyAes.Permutes zeroKey ∧
      (ofZeroKey lastLowIV).cipherData.iv.length = 16 ∧
      (16 : UInt64).toNat % 16 = 0 ∧
      ¬ SeekLaw zeroKeyAes (ofZeroKey lastLowIV) 16 zeroBlock := by
  refine ⟨BlockCipher.ofTable_works _ _ _, BlockCipher.ofTable_permutes _ _ _, rfl,
    rfl, fun hlaw => ?_⟩
  have hsame := hlaw.encrypt (.content false none zeroBlock)
    (.content false none (zeroBlock ++ zeroBlock)) [16] [32] rfl (by decide) (by decide)
    (by decide) (by decide)
  revert hsame
  decide +kernel

end AesCtrContentCipher

end Crypto
end OssSdk
