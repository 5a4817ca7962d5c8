import OssSdk.Hash.Md5
import OssSdk.Hash.Sha1
import OssSdk.Hash.Sha256
import OssSdk.Signer.SignerUtils
import OssSdk.Utils.Base64Utils

/-!
# The hash functions of the library's own build

The keyed hashes, which the signers call, and the checksum of a body, on top of the classes.
Every local object and array starts out with whatever is in its memory.
-/

namespace OssSdk
namespace Hash

open Foundation
open Utils

variable {hash : Type}

/-- A local hasher that is given some texts in turn and then asked. -/
def hashOf (method : BlockDigest hash) (memory : Memory hash) (texts : List ByteString) :
    Option ByteString := do
  let h <- texts.foldlM (fun h text => h.add method text) (memory.hasher.construct method)
  let (_, answer) <- h.getHash method memory.extra.toList
  some answer

/-- The key in an array of zeros, or its hash when the array has no room for it. -/
def usedKey (method : BlockDigest hash) (keyHasher : Memory hash) (key : ByteString) :
    Option ByteString :=
  if key.length <= BlockSize then store (List.replicate BlockSize 0) 0 key
  else do
    let shortened <- hashOf method keyHasher [key]
    store (List.replicate BlockSize 0) 0 shortened

def hmac (method : BlockDigest hash) (keyHasher insideHasher finalHasher : Memory hash)
    (data key : ByteString) : Option ByteString := do
  let usedKey <- usedKey method keyHasher key
  let usedKey := usedKey.map fun b => b ^^^ 0x36
  let inside <- hashOf method insideHasher [usedKey, data]
  let usedKey := usedKey.map fun b => b ^^^ (0x5c ^^^ 0x36)
  hashOf method finalHasher [usedKey, inside]

def HmacSha1 (host : ByteOrder) (keyHasher insideHasher finalHasher : Memory Sha1.State)
    (data key : ByteString) : Option ByteString :=
  hmac (SHA1.method host) keyHasher insideHasher finalHasher data key

def HmacSh256 (host : ByteOrder) (keyHasher insideHasher finalHasher : Memory Sha256.State)
    (data key : ByteString) : Option ByteString :=
  hmac (SHA256.method host) keyHasher insideHasher finalHasher data key

def dec2hex (d : UInt8) : UInt8 := (bytes "0123456789abcdef").getD (d &&& 15).toNat 0

/-- The answer of a hasher in hexadecimal. -/
def toHex (rawHash : ByteString) : ByteString :=
  rawHash.flatMap fun b : UInt8 => [dec2hex (b >>> 4), dec2hex b]

def HashSh256 (host : ByteOrder) (memory : Memory Sha256.State) (data : ByteString) :
    Option ByteString :=
  (hashOf (SHA256.method host) memory [data]).map toHex

def CalcContentMD5 (host : ByteOrder) (memory : Memory Md5.State) (data : ByteString) :
    Option ByteString :=
  (hashOf (MD5.method host) memory [data]).map Base64Encode

/-! # The answers -/

theorem foldlM_add (method : BlockDigest hash) {h : Hasher hash} {p : Progress hash}
    (hp : Refines h p) (texts : List ByteString) :
    exists h', texts.foldlM (fun h text => h.add method text) h = some h' ∧
      Refines h' (p.absorb method texts.flatten) := by
  induction texts generalizing h p with
  | nil =>
      refine ⟨h, rfl, ?_⟩
      rw [List.flatten_nil, Progress.absorb_nil]
      exact hp
  | cons text texts ih =>
      obtain ⟨h1, hadd, hp1⟩ := hp.add method text
      obtain ⟨h2, hfold, hp2⟩ := ih hp1
      refine ⟨h2, ?_, ?_⟩
      · rw [List.foldlM_cons, hadd]
        exact hfold
      · rw [List.flatten_cons, Progress.absorb_append]
        exact hp2

theorem hashOf_eq (method : BlockDigest hash) (memory : Memory hash)
    (texts : List ByteString) :
    hashOf method memory texts = some (method.digest texts.flatten) := by
  obtain ⟨h1, hfold, hp1⟩ :=
    foldlM_add method (Refines.reset method memory.cells) texts
  obtain ⟨h2, hget, _⟩ := hp1.getHash method memory.extra.length_toList
  rw [Progress.answer_absorb] at hget
  rw [hashOf, show memory.hasher.construct method = memory.hasher.reset method from rfl, hfold]
  show (h1.getHash method memory.extra.toList).bind (fun answer => some answer.2) = _
  rw [hget]
  rfl

theorem store_replicate {n : Nat} {data : ByteString} (hdata : data.length <= n) :
    store (List.replicate n 0) 0 data = some (data ++ List.replicate (n - data.length) 0) := by
  rw [store_eq (by rw [Nat.zero_add, List.length_replicate]; exact hdata), List.take_zero,
    List.nil_append, Nat.zero_add, List.drop_replicate]

theorem xor_masks (b : UInt8) : (b ^^^ 0x36) ^^^ (0x5c ^^^ 0x36) = b ^^^ 0x5c := by
  rw [UInt8.xor_assoc, UInt8.xor_comm 0x5c, ← UInt8.xor_assoc 0x36 0x36, UInt8.xor_self,
    UInt8.zero_xor]

section Keyed

variable {method : BlockDigest hash}
variable (houtput : forall s, (method.output s).length <= BlockSize)

include houtput in
theorem usedKey_eq (keyHasher : Memory hash) (key : ByteString) :
    usedKey method keyHasher key = some (method.blockKey key) := by
  rw [usedKey, BlockDigest.blockKey]
  by_cases hshort : key.length <= BlockSize
  · have hless : key.length <= 64 := hshort
    rw [if_pos hshort, if_pos hless]
    exact store_replicate hshort
  · have hmore : Not (key.length <= 64) := hshort
    rw [if_neg hshort, if_neg hmore, hashOf_eq]
    show store (List.replicate BlockSize 0) 0 (method.digest (key ++ [])) = _
    rw [List.append_nil]
    exact store_replicate (houtput _)

theorem unmask (key : ByteString) : (method.maskedKey 0x36 key).map
    (fun b => b ^^^ (0x5c ^^^ 0x36)) = method.maskedKey 0x5c key := by
  rw [BlockDigest.maskedKey, List.map_map, BlockDigest.maskedKey]
  exact List.map_congr_left fun b _ => xor_masks b

include houtput in
/-- The array of the key is masked in place, and the first mask taken off with the second. -/
theorem hmac_eq (keyHasher insideHasher finalHasher : Memory hash) (data key : ByteString) :
    hmac method keyHasher insideHasher finalHasher data key =
      some (method.hmac data key) := by
  rw [hmac, usedKey_eq houtput]
  show (hashOf method insideHasher [method.maskedKey 0x36 key, data]).bind (fun inside =>
    hashOf method finalHasher [(method.maskedKey 0x36 key).map
      (fun b => b ^^^ (0x5c ^^^ 0x36)), inside]) = _
  rw [hashOf_eq, Option.bind_some, hashOf_eq, unmask]
  simp only [List.flatten_cons, List.flatten_nil, List.append_nil]
  rfl

end Keyed

/-! # The functions of the library -/

theorem length_bigEndian (x : Word) : x.bigEndian.length = 4 := BigEndian.length_encode 4 _

theorem length_sha1 (s : Sha1.State) : (Sha1.standard.output s).length = 20 := by
  simp only [Sha1.standard, List.length_append, length_bigEndian]

theorem length_sha256 (s : Sha256.State) : (Sha256.standard.output s).length = 32 := by
  simp only [Sha256.standard, List.length_append, length_bigEndian]

theorem HmacSha1_eq (host : ByteOrder) (keyHasher insideHasher finalHasher : Memory Sha1.State)
    (data key : ByteString) :
    HmacSha1 host keyHasher insideHasher finalHasher data key =
      some (Sha1.standard.hmac data key) := by
  rw [HmacSha1, SHA1.method_eq]
  refine hmac_eq (fun s => ?_) keyHasher insideHasher finalHasher data key
  rw [length_sha1]
  decide

theorem HmacSh256_eq (host : ByteOrder)
    (keyHasher insideHasher finalHasher : Memory Sha256.State) (data key : ByteString) :
    HmacSh256 host keyHasher insideHasher finalHasher data key =
      some (Sha256.standard.hmac data key) := by
  rw [HmacSh256, SHA256.method_eq]
  refine hmac_eq (fun s => ?_) keyHasher insideHasher finalHasher data key
  rw [length_sha256]
  decide

theorem toHex_eq (rawHash : ByteString) : toHex rawHash = Signer.LowerHexToString rawHash := by
  have hall : forall n : Fin 256, [dec2hex (UInt8.ofNat n >>> 4), dec2hex (UInt8.ofNat n)] =
      [Signer.lowerHexDigit ((UInt8.ofNat n).toNat / 16),
        Signer.lowerHexDigit ((UInt8.ofNat n).toNat % 16)] := by decide +kernel
  have hbyte : (fun b : UInt8 => [dec2hex (b >>> 4), dec2hex b]) = fun b =>
      [Signer.lowerHexDigit (b.toNat / 16), Signer.lowerHexDigit (b.toNat % 16)] := by
    funext b
    exact forall_byte (P := fun b : UInt8 => [dec2hex (b >>> 4), dec2hex b] =
      [Signer.lowerHexDigit (b.toNat / 16), Signer.lowerHexDigit (b.toNat % 16)]) hall b
  rw [toHex, hbyte, Signer.LowerHexToString]

theorem HashSh256_eq (host : ByteOrder) (memory : Memory Sha256.State) (data : ByteString) :
    HashSh256 host memory data =
      some (Signer.LowerHexToString (Sha256.standard.digest data)) := by
  rw [HashSh256, SHA256.method_eq, hashOf_eq, Option.map_some, toHex_eq, List.flatten_cons,
    List.flatten_nil, List.append_nil]

theorem CalcContentMD5_eq (host : ByteOrder) (memory : Memory Md5.State) (data : ByteString) :
    CalcContentMD5 host memory data = some (Base64Encode (Md5.standard.digest data)) := by
  rw [CalcContentMD5, MD5.method_eq, hashOf_eq, Option.map_some, List.flatten_cons,
    List.flatten_nil, List.append_nil]

/-! # The signers on these functions -/

theorem length_digest_sha256 (text : ByteString) :
    (Sha256.standard.digest text).toArray.size = 32 := length_sha256 _

theorem length_hmac_sha256 (data key : ByteString) :
    (Sha256.standard.hmac data key).toArray.size = 32 := length_sha256 _

theorem length_hmac_sha1 (data key : ByteString) :
    (Sha1.standard.hmac data key).toArray.size = 20 := length_sha1 _

/-- What the signers call when no other library is selected. -/
def bundledPlatform {σ : Type} (time : σ -> Int) : Signer.Platform σ where
  time := time
  sha256 data := ⟨(Sha256.standard.digest data).toArray, length_digest_sha256 data⟩
  hmacSha256 data key := ⟨(Sha256.standard.hmac data key).toArray, length_hmac_sha256 data key⟩
  hmacSha1 data key := ⟨(Sha1.standard.hmac data key).toArray, length_hmac_sha1 data key⟩

theorem bundledPlatform_calls {σ : Type} (time : σ -> Int) (host : ByteOrder)
    (m0 m1 m2 : Memory Sha256.State) (n0 n1 n2 : Memory Sha1.State) (data key : ByteString) :
    HashSh256 host m0 data = some ((bundledPlatform time).HashSh256 data) ∧
      HmacSh256 host m0 m1 m2 data key =
        some ((bundledPlatform time).hmacSha256 data key).toList ∧
      HmacSha1 host n0 n1 n2 data key =
        some ((bundledPlatform time).hmacSha1 data key).toList :=
  ⟨HashSh256_eq host m0 data, HmacSh256_eq host m0 m1 m2 data key,
    HmacSha1_eq host n0 n1 n2 data key⟩

end Hash
end OssSdk
