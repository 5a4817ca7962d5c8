import OssSdk.Crypto.AesCtrCipher
import OssSdk.Io.ByteStream

/-!
# The content cipher

A content cipher holds the key and the initialization vector of one object.  What it
encrypts and decrypts goes through a cipher that begins at its own vector, one for
each source and each writer.
-/

namespace OssSdk
namespace Crypto

open Foundation
open StreamCipher

variable {ρ σ τ : Type}

/-- Key material of one object: in the clear, and encrypted by the master cipher. -/
structure CipherData where
  key : ByteString
  iv : ByteString
  encryptedKey : ByteString
  encryptedIV : ByteString
deriving DecidableEq

/-!
# Sources
-/

structure CryptoByteSourceState (ρ : Type) where
  inner : ρ
  cipher : AesCtrCipher
  cipherError : Bool

def CryptoByteSource (aes : BlockCipher) (inner : ByteSource ρ) :
    ByteSource (CryptoByteSourceState ρ) where
  onRead count s :=
    let (buffer, r) := inner.read count s.inner
    match s.cipher.processAll aes buffer with
    | (some out, cipher) => (out, { s with inner := r, cipher := cipher })
    | (none, cipher) => ([], { inner := r, cipher := cipher, cipherError := true })
  iostate s := if s.cipherError then ⟨false, false, true⟩ else inner.iostate s.inner
  onRead_le count s := by
    have hbuffer := inner.onRead_le count s.inner
    simp only
    split
    · rename_i hall
      rw [AesCtrCipher.length_processAll (congrArg Prod.fst hall)]
      exact hbuffer
    · exact Nat.zero_le count

structure CryptoByteContent (σ : Type) where
  inner : ByteContent σ
  key : ByteString
  iv : ByteString

namespace CryptoByteContent

def length (content : CryptoByteContent σ) : Option Nat := content.inner.length

def isOneShot (content : CryptoByteContent σ) : Bool := content.inner.isOneShot

/-- The state of the source that `spanSource` gives. -/
def span (aes : BlockCipher) (content : CryptoByteContent σ) :
    CryptoByteSourceState MemoryByteSourceState where
  inner := MemoryByteSource.init
  cipher := AesCtrCipher.create aes content.key content.iv
  cipherError := false

def spanSource (aes : BlockCipher) (content : CryptoByteContent σ) :
    ByteSource (CryptoByteSourceState MemoryByteSourceState) :=
  CryptoByteSource aes (MemoryByteSource content.inner.data)

/-- What an attempt sends that reads the content into buffers of these sizes. -/
def sent (aes : BlockCipher) (content : CryptoByteContent σ) (counts : List Nat) :
    ByteString :=
  ((content.spanSource aes).reads counts (content.span aes)).1

end CryptoByteContent

/-!
# Writers
-/

structure DecryptingWriterState where
  cipher : AesCtrCipher
  cipherError : Bool

/-- A writer that keeps its state in `own`; its inner writer works on `sink`. -/
def DecryptingWriter (aes : BlockCipher) (own : Cell τ DecryptingWriterState)
    (sink : Cell τ ρ) (inner : ByteWriter ρ) : ByteWriter τ where
  onWrite data w :=
    if data.isEmpty then (0, w)
    else
      let s := own.get w
      match s.cipher.processAll aes data with
      | (some buffer, cipher) =>
          let (written, r) := inner.write buffer (sink.get w)
          (written, sink.set r (own.set { s with cipher := cipher } w))
      | (none, cipher) => (0, own.set { cipher := cipher, cipherError := true } w)
  iostate w :=
    if (own.get w).cipherError then ⟨false, false, true⟩
    else inner.iostate (sink.get w)
  onWrite_le data w := by
    simp only
    split
    · exact Nat.zero_le data.length
    · split
      · rename_i hall
        rw [← AesCtrCipher.length_processAll (congrArg Prod.fst hall)]
        exact inner.onWrite_le _ _
      · exact Nat.zero_le data.length

def DecryptingWriter.init (aes : BlockCipher) (key iv : ByteString) :
    DecryptingWriterState :=
  ⟨AesCtrCipher.create aes key iv, false⟩

/-!
# Seeking
-/

def shiftIn (counter : UInt64) (b : UInt8) : UInt64 := (counter <<< 8) ||| b.toUInt64

/-- The number in the bytes from 8 to 15. -/
def readCounter (iv : ByteString) : UInt64 := ((iv.drop 8).take 8).foldl shiftIn 0

def writeCounter : Nat -> UInt64 -> ByteString
  | 0, _ => []
  | n + 1, counter =>
      writeCounter n (counter >>> 8) ++ [(counter &&& 0xFF).toUInt8]

def seekIV (iv : ByteString) (offset : UInt64) : ByteString :=
  if iv.length < 16 then iv
  else
    let blockIndex := offset / 16
    iv.take 8 ++ writeCounter 8 (readCounter iv + blockIndex) ++ iv.drop 16

structure AesCtrContentCipher where
  cipherData : CipherData
deriving DecidableEq

namespace AesCtrContentCipher

def encryptContent (cc : AesCtrContentCipher) (body : ByteContent σ) :
    CryptoByteContent σ :=
  ⟨body, cc.cipherData.key, cc.cipherData.iv⟩

/-- The writer, and the state that it begins with. -/
def decryptContent (aes : BlockCipher) (cc : AesCtrContentCipher)
    (own : Cell τ DecryptingWriterState) (sink : Cell τ ρ) (writer : ByteWriter ρ)
    (w : τ) : ByteWriter τ × τ :=
  (DecryptingWriter aes own sink writer,
    own.set (DecryptingWriter.init aes cc.cipherData.key cc.cipherData.iv) w)

def getEncryptedLen (_ : AesCtrContentCipher) (plainLen : Int) : Int := plainLen

def seekTo (cc : AesCtrContentCipher) (offset : UInt64) : AesCtrContentCipher :=
  { cc with cipherData := { cc.cipherData with iv := seekIV cc.cipherData.iv offset } }

def getAlignLen (_ : AesCtrContentCipher) : Int := 16

end AesCtrContentCipher

/-!
# What is read and written through a cipher
-/

section Cipher

variable {aes : BlockCipher} {key iv : ByteString}

/-- The bytes that are read are those of the inner source, masked. -/
theorem CryptoByteSource.reads_eq (hworks : aes.Works key)
    (hiv : iv.length = 16)
    (inner : ByteSource ρ) (counts : List Nat)
    {s : CryptoByteSourceState ρ} {p : Nat}
    (hat : AesCtrCipher.At aes key iv p s.cipher) :
    ((CryptoByteSource aes inner).reads counts s).1 =
      mask (aes.keystream key iv) p (inner.reads counts s.inner).1 := by
  induction counts generalizing s p with
  | nil => rfl
  | cons count counts ih =>
      rcases hread : inner.read count s.inner with ⟨buffer, r⟩
      rcases hat.processAll hworks hiv buffer with ⟨cipher, hall, hnext⟩
      have hpiece : (CryptoByteSource aes inner).read count s =
          (mask (aes.keystream key iv) p buffer,
            { s with inner := r, cipher := cipher }) := by
        unfold ByteSource.read CryptoByteSource
        simp only [hread, hall]
      have hrest := @ih { s with inner := r, cipher := cipher } _ hnext
      simp only [ByteSource.reads, hpiece, hread]
      rw [hrest, mask_append]

theorem CryptoByteContent.sent_eq {content : CryptoByteContent σ}
    (hworks : aes.Works content.key)
    (hiv : content.iv.length = 16)
    (hvalid : validKeyIV content.key content.iv = true)
    (counts : List Nat) :
    content.sent aes counts =
      mask (aes.keystream content.key content.iv) 0
        (content.inner.data.take counts.sum) := by
  have hat := AesCtrCipher.create_at hworks hiv hvalid
  have hreads := CryptoByteSource.reads_eq hworks hiv
    (MemoryByteSource content.inner.data) counts (s := content.span aes) hat
  rw [CryptoByteContent.sent, CryptoByteContent.spanSource, hreads]
  exact congrArg _ (MemoryByteSource.reads_eq _ _ MemoryByteSource.init)

/-- A decrypting writer that has taken in the bytes up to the position `p`. -/
structure DecryptsAt (aes : BlockCipher) (key iv : ByteString) (p : Nat)
    (s : DecryptingWriterState) : Prop where
  cipher : AesCtrCipher.At aes key iv p s.cipher
  cipherError : s.cipherError = false

theorem DecryptingWriter.init_decryptsAt (hworks : aes.Works key)
    (hiv : iv.length = 16)
    (hvalid : validKeyIV key iv = true) :
    DecryptsAt aes key iv 0 (DecryptingWriter.init aes key iv) :=
  ⟨AesCtrCipher.create_at hworks hiv hvalid, rfl⟩

section Writer

variable {own : Cell τ DecryptingWriterState} {sink : Cell τ ρ}
variable {inner : ByteWriter ρ} {p : Nat} {w : τ}

theorem DecryptingWriter.write_eq (hworks : aes.Works key)
    (hiv : iv.length = 16)
    (hapart : own.Apart sink)
    (hdecrypts : DecryptsAt aes key iv p (own.get w))
    {data : ByteString}
    (hdata : data ≠ []) :
    let next := ((DecryptingWriter aes own sink inner).write data w).2
    sink.get next =
        (inner.write (mask (aes.keystream key iv) p data) (sink.get w)).2 ∧
      DecryptsAt aes key iv (p + data.length) (own.get next) := by
  intro next
  have hnonempty : data.isEmpty = false := by simpa using hdata
  rcases hdecrypts.cipher.processAll hworks hiv data with ⟨cipher, hall, hnext⟩
  simp only [next, ByteWriter.write, DecryptingWriter, hnonempty, hall,
    Bool.false_eq_true, if_false, Cell.get_set, hapart.get_set_right]
  exact ⟨trivial, hnext, hdecrypts.cipherError⟩

/-- The inner writer is offered the bytes that come in, masked. -/
theorem DecryptingWriter.writes_eq (hworks : aes.Works key)
    (hiv : iv.length = 16)
    (hapart : own.Apart sink)
    (hdecrypts : DecryptsAt aes key iv p (own.get w))
    {chunks : List ByteString}
    (hchunks : forall chunk, chunk ∈ chunks -> chunk ≠ []) :
    sink.get ((DecryptingWriter aes own sink inner).writes chunks w) =
      inner.writes (maskChunks (aes.keystream key iv) p chunks) (sink.get w) := by
  induction chunks generalizing p w with
  | nil => rfl
  | cons chunk rest ih =>
      rcases @DecryptingWriter.write_eq _ _ _ _ _ _ _ inner _ _ hworks hiv hapart
          hdecrypts _ (hchunks chunk List.mem_cons_self) with ⟨hsink, hnext⟩
      have hrest := ih hnext fun c hc => hchunks c (List.mem_cons_of_mem _ hc)
      rw [ByteWriter.writes, hrest, maskChunks, ByteWriter.writes, hsink]

end Writer

end Cipher

/-!
# The counter after seeking
-/

/-- A number that is cast to an offset. -/
theorem toNat_ofInt {n : Nat} (hn : n < 2 ^ 64) : (UInt64.ofInt n).toNat = n := by
  have hmod : ((n : Int) % 2 ^ 64).toNat = n := by omega
  unfold UInt64.ofInt
  rw [hmod]
  exact UInt64.toNat_ofNat_of_lt' hn

theorem shiftIn_toNat {counter : UInt64}
    (hcounter : counter.toNat < 2 ^ 56)
    (b : UInt8) : (shiftIn counter b).toNat = counter.toNat * 256 + b.toNat := by
  have hb : b.toNat < 2 ^ 8 := b.toNat_lt
  have hshift : (counter <<< 8).toNat = counter.toNat <<< 8 := by
    rw [UInt64.toNat_shiftLeft]
    refine Nat.mod_eq_of_lt ?_
    change counter.toNat <<< 8 < 2 ^ 64
    rw [Nat.shiftLeft_eq]
    omega
  rw [shiftIn, UInt64.toNat_or, hshift, UInt8.toNat_toUInt64,
    ← Nat.shiftLeft_add_eq_or_of_lt hb, Nat.shiftLeft_eq]

theorem readBytes_toNat {bs : ByteString} (hlength : bs.length ≤ 8) :
    (bs.foldl shiftIn 0).toNat = BigEndian.value bs := by
  induction bs using List.reverseRecOn with
  | nil => rfl
  | append_singleton bs b ih =>
      rw [List.length_append, List.length_singleton] at hlength
      have hvalue := ih (Nat.le_of_succ_le hlength)
      have hbound := BigEndian.value_lt bs
      have hpower : 256 ^ bs.length ≤ 256 ^ 7 :=
        Nat.pow_le_pow_right (by decide) (Nat.le_of_succ_le_succ hlength)
      rw [List.foldl_append, BigEndian.value_push, ← hvalue]
      refine shiftIn_toNat ?_ b
      rw [hvalue]
      exact lt_of_lt_of_le hbound hpower

theorem writeCounter_eq (n : Nat) (counter : UInt64) :
    writeCounter n counter = BigEndian.encode n counter.toNat := by
  induction n generalizing counter with
  | zero => rfl
  | succ n ih =>
      have hshift : (counter >>> 8).toNat = counter.toNat / 256 := by
        rw [UInt64.toNat_shiftRight]
        exact Nat.shiftRight_eq_div_pow _ 8
      have hlast : (counter &&& 0xFF).toUInt8 = UInt8.ofNat counter.toNat := by
        rw [← UInt8.toNat_inj, UInt64.toNat_toUInt8, UInt64.toNat_and]
        change (counter.toNat &&& (2 ^ 8 - 1)) % 256 = counter.toNat % 256
        rw [Nat.and_two_pow_sub_one_eq_mod]
        exact Nat.mod_mod _ _
      rw [writeCounter, ih, hshift, hlast, BigEndian.encode]

/-- The part of the vector that seeking counts in. -/
def lowCounter (iv : ByteString) : Nat := BigEndian.value (iv.drop 8)

theorem readCounter_toNat {iv : ByteString} (hiv : iv.length = 16) :
    (readCounter iv).toNat = lowCounter iv := by
  have hlow : (iv.drop 8).length = 8 := by rw [List.length_drop, hiv]
  have hall : (iv.drop 8).take 8 = iv.drop 8 :=
    List.take_of_length_le (Nat.le_of_eq hlow)
  unfold readCounter lowCounter
  rw [hall]
  exact readBytes_toNat (Nat.le_of_eq hlow)

theorem length_seekIV {iv : ByteString} (hiv : iv.length = 16) (offset : UInt64) :
    (seekIV iv offset).length = 16 := by
  unfold seekIV
  rw [if_neg (by rw [hiv]; decide), List.length_append, List.length_append,
    writeCounter_eq, BigEndian.length_encode, List.length_take, List.length_drop, hiv]
  rfl

theorem value_eq_high_low {iv : ByteString} (hiv : iv.length = 16) :
    BigEndian.value iv = BigEndian.value (iv.take 8) * 2 ^ 64 + lowCounter iv := by
  have happend := BigEndian.value_append (iv.take 8) (iv.drop 8)
  rw [List.take_append_drop, List.length_drop, hiv] at happend
  exact happend

/-- Seeking counts in the low half, and carries nothing into the high half. -/
theorem value_seekIV {iv : ByteString} (hiv : iv.length = 16) (offset : UInt64) :
    BigEndian.value (seekIV iv offset) =
      BigEndian.value (iv.take 8) * 2 ^ 64 +
        (lowCounter iv + offset.toNat / 16) % 2 ^ 64 := by
  have hnone : iv.drop 16 = [] := List.drop_eq_nil_of_le (Nat.le_of_eq hiv)
  have hsum : (readCounter iv + offset / 16).toNat =
      (lowCounter iv + offset.toNat / 16) % 2 ^ 64 := by
    rw [UInt64.toNat_add, readCounter_toNat hiv, UInt64.toNat_div]
    rfl
  unfold seekIV
  rw [if_neg (by rw [hiv]; decide), hnone, List.append_nil, BigEndian.value_append,
    writeCounter_eq, BigEndian.length_encode, hsum, BigEndian.value_encode]
  congr 1
  exact Nat.mod_mod _ _

/-- The low half of the vector does not wrap around before this offset. -/
def NoWrap (iv : ByteString) (offset : Nat) : Prop :=
  lowCounter iv + offset / 16 < 2 ^ 64

/-- The low half of the vector does not wrap around in a text of this length. -/
def NoWrapOver (iv : ByteString) (length : Nat) : Prop :=
  forall p, p < length -> NoWrap iv p

theorem seekIV_eq_iff {iv : ByteString} (hiv : iv.length = 16) (offset : UInt64) :
    seekIV iv offset = incrementCounter^[offset.toNat / 16] iv ↔
      NoWrap iv offset.toNat := by
  have hlow : lowCounter iv < 2 ^ 64 := by
    have hbound := BigEndian.value_lt (iv.drop 8)
    rw [List.length_drop, hiv] at hbound
    exact hbound
  have hhigh : BigEndian.value (iv.take 8) < 2 ^ 64 := by
    have hbound := BigEndian.value_lt (iv.take 8)
    rw [List.length_take, hiv] at hbound
    exact hbound
  have hseek := value_seekIV hiv offset
  have hcount := value_incrementCounter_iterate (offset.toNat / 16) iv
  have hvalue := value_eq_high_low hiv
  have hoffset := offset.toNat_lt
  rw [hiv] at hcount
  unfold NoWrap
  constructor
  · intro hsame
    rw [hsame, hcount, hvalue] at hseek
    omega
  · intro hless
    refine BigEndian.value_injective ?_ ?_
    · rw [length_seekIV hiv, length_incrementCounter_iterate, hiv]
    · rw [hseek, hcount, hvalue]
      omega

end Crypto
end OssSdk
