import OssSdk.Crypto.AesCtrContentCipher
import OssSdk.Utils.Base64Utils

/-!
# Content ciphers and their envelopes

The builder makes content ciphers: from new key material, and from the envelope that
the metadata of an object holds.
-/

namespace OssSdk
namespace Crypto

open Foundation
open Utils

variable {σ : Type}

inductive CryptoErrorCode where
  | EncryptFailed
  | DecryptFailed
  | InvalidKey
  | RandomGenerationFailed
  | EmptyKeyOrIV
  | InvalidKeyOrIV
deriving DecidableEq

def CryptoErrorCode.message : CryptoErrorCode -> ByteString
  | .EncryptFailed => bytes "encryption failed"
  | .DecryptFailed => bytes "decryption failed"
  | .InvalidKey => bytes "invalid key"
  | .RandomGenerationFailed => bytes "random key/iv generation failed"
  | .EmptyKeyOrIV => bytes "decrypted key or iv is empty"
  | .InvalidKeyOrIV => bytes "decrypted key or iv has invalid length"

/-- The master key: an error is known by its message. -/
structure MasterCipher where
  encrypt : ByteString -> Except ByteString ByteString
  decrypt : ByteString -> Except ByteString ByteString
  getWrapAlgorithm : ByteString
  getMatDesc : ByteString

structure CipherMetadata where
  wrapAlgorithm : ByteString
  cekAlgorithm : ByteString
  matDesc : ByteString

structure Envelope where
  iv : ByteString
  cipherKey : ByteString
  matDesc : ByteString
  wrapAlg : ByteString
  cekAlg : ByteString
deriving DecidableEq

/-- The builder, with the source of its key material: it fills a buffer of this size. -/
structure AesCtrCipherBuilder (σ : Type) where
  masterCipher : MasterCipher
  RandomBytes : Nat -> σ -> Option ByteString × σ
  length_RandomBytes : forall {n env out}, (RandomBytes n env).1 = some out ->
    out.length = n

namespace AesCtrCipherBuilder

def getCipherMetadata (b : AesCtrCipherBuilder σ) : CipherMetadata where
  wrapAlgorithm := b.masterCipher.getWrapAlgorithm
  cekAlgorithm := bytes "AES/CTR/NoPadding"
  matDesc := b.masterCipher.getMatDesc

def getAlignLen (_ : AesCtrCipherBuilder σ) : Int := 16

/-- The second buffer is filled only if the first one was. -/
def randomKeyIV (b : AesCtrCipherBuilder σ) (keyLen ivLen : Nat) (env : σ) :
    Option (ByteString × ByteString) × σ :=
  match b.RandomBytes keyLen env with
  | (none, env) => (none, env)
  | (some key, env) =>
      match b.RandomBytes ivLen env with
      | (none, env) => (none, env)
      | (some iv, env) => (some (key, iv), env)

def create (b : AesCtrCipherBuilder σ) (env : σ) :
    Except ByteString AesCtrContentCipher × σ :=
  match b.randomKeyIV 32 16 env with
  | (none, env) => (.error CryptoErrorCode.RandomGenerationFailed.message, env)
  | (some (key, iv), env) =>
      (do
        let encryptedKey <- b.masterCipher.encrypt key
        let encryptedIV <- b.masterCipher.encrypt iv
        return ⟨⟨key, iv, encryptedKey, encryptedIV⟩⟩,
        env)

def fromEnvelope (b : AesCtrCipherBuilder σ) (envelope : Envelope) :
    Except ByteString AesCtrContentCipher :=
  if envelope.cipherKey.isEmpty || envelope.iv.isEmpty then
    .error CryptoErrorCode.EmptyKeyOrIV.message
  else do
    let key <- b.masterCipher.decrypt (Base64Decode envelope.cipherKey)
    let iv <- b.masterCipher.decrypt (Base64Decode envelope.iv)
    if key.length ≠ 32 ∨ iv.length ≠ 16 then
      .error CryptoErrorCode.InvalidKeyOrIV.message
    else return ⟨⟨key, iv, envelope.cipherKey, envelope.iv⟩⟩

end AesCtrCipherBuilder

/--
What is expected of a master cipher: what it has encrypted comes back, no text is
encrypted into nothing, and its algorithm has a name.
-/
structure MasterCipher.Faithful (cipher : MasterCipher) : Prop where
  decrypt : forall {text out}, text ≠ [] -> cipher.encrypt text = .ok out ->
    cipher.decrypt out = .ok text
  encrypted : forall {text out}, text ≠ [] -> cipher.encrypt text = .ok out -> out ≠ []
  wrapAlgorithm : cipher.getWrapAlgorithm ≠ []

/-- Key material that the builder has made, or would take from an envelope. -/
structure CipherData.Made (cd : CipherData) : Prop where
  key : cd.key.length = 32
  iv : cd.iv.length = 16

theorem CipherData.Made.valid {cd : CipherData} (hmade : cd.Made) :
    validKeyIV cd.key cd.iv = true := by
  unfold validKeyIV
  rw [hmade.key, hmade.iv]
  rfl

/-- What `create` gives, with what the master cipher has made of it. -/
theorem AesCtrCipherBuilder.create_made {b : AesCtrCipherBuilder σ} {env : σ}
    {cc : AesCtrContentCipher}
    (hcreate : (b.create env).1 = .ok cc) :
    cc.cipherData.Made ∧
      b.masterCipher.encrypt cc.cipherData.key = .ok cc.cipherData.encryptedKey ∧
      b.masterCipher.encrypt cc.cipherData.iv = .ok cc.cipherData.encryptedIV := by
  unfold AesCtrCipherBuilder.create AesCtrCipherBuilder.randomKeyIV at hcreate
  rcases hkey : b.RandomBytes 32 env with ⟨key, env1⟩
  rw [hkey] at hcreate
  cases key with
  | none => cases hcreate
  | some key =>
      rcases hiv : b.RandomBytes 16 env1 with ⟨iv, env2⟩
      simp only [hiv] at hcreate
      cases iv with
      | none => cases hcreate
      | some iv =>
          cases hencryptedKey : b.masterCipher.encrypt key with
          | error e =>
              simp only [hencryptedKey] at hcreate
              cases hcreate
          | ok encryptedKey =>
              cases hencryptedIV : b.masterCipher.encrypt iv with
              | error e =>
                  simp only [hencryptedKey, hencryptedIV] at hcreate
                  cases hcreate
              | ok encryptedIV =>
                  simp only [hencryptedKey, hencryptedIV] at hcreate
                  cases hcreate
                  refine ⟨⟨?_, ?_⟩, hencryptedKey, hencryptedIV⟩
                  · exact b.length_RandomBytes (congrArg Prod.fst hkey)
                  · exact b.length_RandomBytes (congrArg Prod.fst hiv)

/-- An envelope of what has been made leads back to the same key and vector. -/
theorem AesCtrCipherBuilder.fromEnvelope_made {b : AesCtrCipherBuilder σ}
    (hfaithful : b.masterCipher.Faithful)
    {cd : CipherData} {envelope : Envelope}
    (hmade : cd.Made)
    (hkey : b.masterCipher.encrypt cd.key = .ok cd.encryptedKey)
    (hiv : b.masterCipher.encrypt cd.iv = .ok cd.encryptedIV)
    (hcipherKey : envelope.cipherKey = Base64Encode cd.encryptedKey)
    (hcipherIV : envelope.iv = Base64Encode cd.encryptedIV) :
    exists cc, b.fromEnvelope envelope = .ok cc ∧ cc.cipherData.key = cd.key ∧
      cc.cipherData.iv = cd.iv := by
  have hkeyText := List.ne_nil_of_length_eq_add_one hmade.key
  have hivText := List.ne_nil_of_length_eq_add_one hmade.iv
  have hkeyEncoded := Base64Encode_ne_nil (hfaithful.encrypted hkeyText hkey)
  have hivEncoded := Base64Encode_ne_nil (hfaithful.encrypted hivText hiv)
  have hnonempty : (envelope.cipherKey.isEmpty || envelope.iv.isEmpty) = false := by
    rw [hcipherKey, hcipherIV]
    simp [hkeyEncoded, hivEncoded]
  unfold AesCtrCipherBuilder.fromEnvelope
  rw [hnonempty, hcipherKey, hcipherIV, Base64Decode_encode, Base64Decode_encode,
    hfaithful.decrypt hkeyText hkey, hfaithful.decrypt hivText hiv]
  refine ⟨⟨⟨cd.key, cd.iv, Base64Encode cd.encryptedKey,
    Base64Encode cd.encryptedIV⟩⟩, ?_, rfl, rfl⟩
  simp only [Bool.false_eq_true, if_false, bind, Except.bind, hmade.key, hmade.iv,
    ne_eq, not_true_eq_false, or_self]
  rfl

/-!
# A builder that is not secret
-/

/-- The master cipher of the tests. -/
def xorMasterCipher : MasterCipher where
  encrypt plaintext := .ok (plaintext.map (· ^^^ 0x42))
  decrypt ciphertext := .ok (ciphertext.map (· ^^^ 0x42))
  getWrapAlgorithm := bytes "RSA/NONE/PKCS1Padding"
  getMatDesc := bytes "\x7b\"desc\":\"test\"\x7d"

theorem xorMasterCipher_faithful : xorMasterCipher.Faithful where
  decrypt := by
    intro text out _ hout
    cases hout
    refine congrArg Except.ok ?_
    rw [List.map_map]
    refine (List.map_congr_left fun b _ => ?_).trans (List.map_id text)
    rw [Function.comp_apply, UInt8.xor_assoc, UInt8.xor_self, UInt8.xor_zero]
    rfl
  encrypted := by
    intro text out htext hout
    cases hout
    exact fun hnil => htext (List.map_eq_nil_iff.mp hnil)
  wrapAlgorithm := by decide

/-- Every key and every vector is made of zeros. -/
def zeroBuilder (σ : Type) : AesCtrCipherBuilder σ where
  masterCipher := xorMasterCipher
  RandomBytes n env := (some (List.replicate n 0), env)
  length_RandomBytes := by
    intro n env out hout
    cases hout
    exact List.length_replicate

end Crypto
end OssSdk
