import OssSdk.Foundation.TableCrc

/-!
# CRC-64

The polynomial is that of ECMA-182, with its bits reversed; the checksum is
complemented before and after.
-/

namespace OssSdk
namespace Utils

open Foundation

def POLY : BitVec 64 := 0xc96c5795d7870f42

def crc64Bit (crc : BitVec 64) : BitVec 64 :=
  if crc.getLsbD 0 then POLY ^^^ (crc >>> 1) else crc >>> 1

def crc64Bits : Nat -> BitVec 64 -> BitVec 64
  | 0, crc => crc
  | k + 1, crc => crc64Bits k (crc64Bit crc)

/-- The checksum of the sequence of a single byte, as `crc64_init` fills it in. -/
def crc64_table (n : Nat) : BitVec 64 := crc64Bits 8 (BitVec.ofNat 64 n)

def crc64 : TableCrc 64 where
  mask := BitVec.allOnes 64
  table := crc64_table

def CalcCRC64 (crc : BitVec 64) (buf : ByteString) : BitVec 64 :=
  crc64.update crc buf

example : CalcCRC64 0 (bytes "123456789") = 0x995dc9bbdf1939fa := by decide +kernel

end Utils
end OssSdk
