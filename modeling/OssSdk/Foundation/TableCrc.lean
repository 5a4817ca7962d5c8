import OssSdk.Foundation.Bytes

/-!
# Cyclic checksums from a table

A checksum is carried on a byte at a time, and is masked before and after.  The
mask cancels between two runs, so that a checksum may be carried on from piece to
piece.
-/

namespace OssSdk
namespace Foundation

structure TableCrc (w : Nat) where
  mask : BitVec w
  table : Nat -> BitVec w

namespace TableCrc

variable {w : Nat} (T : TableCrc w)

def step (crc : BitVec w) (b : UInt8) : BitVec w :=
  (crc >>> 8) ^^^ T.table ((crc.toNat ^^^ b.toNat) % 256)

def update (crc : BitVec w) (data : ByteString) : BitVec w :=
  data.foldl T.step (crc ^^^ T.mask) ^^^ T.mask

theorem update_nil (crc : BitVec w) : T.update crc [] = crc := by
  unfold update
  rw [List.foldl_nil, BitVec.xor_assoc, BitVec.xor_self, BitVec.xor_zero]

/-- The checksum of two pieces is that of the second carried on from the first. -/
theorem update_append (crc : BitVec w) (as bs : ByteString) :
    T.update crc (as ++ bs) = T.update (T.update crc as) bs := by
  unfold update
  rw [List.foldl_append, BitVec.xor_assoc _ T.mask T.mask, BitVec.xor_self,
    BitVec.xor_zero]

end TableCrc
end Foundation
end OssSdk
