import OssSdk.Foundation.Blocks
import OssSdk.Foundation.BigEndian

/-!
# Digests of padded texts

A text is padded to full blocks of sixty-four bytes, the last eight of which are its length
in bits, and the state after these blocks is the digest.
-/

namespace OssSdk
namespace Foundation

@[ext]
structure BlockDigest (state : Type) where
  initial : state
  compress : state -> ByteString -> state
  lengthBytes : BitVec 64 -> ByteString
  length_lengthBytes (bits : BitVec 64) : (lengthBytes bits).length = 8
  output : state -> ByteString

namespace BlockDigest

variable {state : Type} (d : BlockDigest state)

/-- A set bit, as few zeros as make room for the length, and the length. -/
def padding (count : Nat) : ByteString :=
  0x80 :: List.replicate ((119 - count % 64) % 64) 0 ++
    d.lengthBytes (BitVec.ofNat 64 (8 * count))

def digest (text : ByteString) : ByteString :=
  d.output (fullBlocks 64 d.compress d.initial (text ++ d.padding text.length))

/-- The full blocks of a text may be taken before its length is known. -/
theorem digest_eq (text : ByteString) :
    d.digest text = d.output (fullBlocks 64 d.compress
      (fullBlocks 64 d.compress d.initial text)
      (leftOver 64 text ++ d.padding text.length)) := by
  rw [digest, fullBlocks_append (by decide)]

/-! # Keyed digests -/

/-- A key that is longer than a block is replaced by its digest. -/
def blockKey (key : ByteString) : ByteString :=
  let short := if key.length <= 64 then key else d.digest key
  short ++ List.replicate (64 - short.length) 0

def maskedKey (mask : UInt8) (key : ByteString) : ByteString :=
  (d.blockKey key).map fun b => b ^^^ mask

def hmac (text key : ByteString) : ByteString :=
  d.digest (d.maskedKey 0x5c key ++ d.digest (d.maskedKey 0x36 key ++ text))

end BlockDigest

end Foundation
end OssSdk
