import OssSdk.Foundation.BlockDigest

/-!
# The hash classes

What the classes for MD5, SHA-1 and SHA-256 have in common: bytes wait in a buffer until
there is a block, and the padding is written behind those that are left.  A write outside
an array has no result.
-/

namespace OssSdk
namespace Hash

open Foundation

def BlockSize : Nat := 64

/-- Bytes written to an array from a place on. -/
def store (cells : ByteString) (i : Nat) : ByteString -> Option ByteString
  | [] => some cells
  | b :: rest => if i < cells.length then store (cells.set i b) (i + 1) rest else none

structure Hasher (hash : Type) where
  /-- size of processed data in bytes -/
  numBytes : BitVec 64
  /-- valid bytes in the buffer -/
  bufferSize : Nat
  buffer : ByteString
  hash : hash

namespace Hasher

variable {hash : Type} (method : BlockDigest hash)

def reset (h : Hasher hash) : Hasher hash :=
  { h with numBytes := 0#64, bufferSize := 0, hash := method.initial }

def put (h : Hasher hash) (b : UInt8) : Option (Hasher hash) := do
  let buffer <- store h.buffer h.bufferSize [b]
  some { h with buffer := buffer, bufferSize := h.bufferSize + 1 }

/-- The first loop of `add`, which ends when the buffer is full or the data used up. -/
def fill (h : Hasher hash) : ByteString -> Option (Hasher hash × ByteString)
  | [] => some (h, [])
  | b :: rest =>
      if h.bufferSize < BlockSize then (h.put b).bind fun h => h.fill rest
      else some (h, b :: rest)

def processFullBuffer (h : Hasher hash) : Hasher hash :=
  if h.bufferSize = BlockSize then
    { h with
      hash := method.compress h.hash h.buffer
      numBytes := h.numBytes + BitVec.ofNat 64 BlockSize
      bufferSize := 0 }
  else h

/-- The second loop of `add`. -/
def processBlocks (h : Hasher hash) (data : ByteString) : Hasher hash × ByteString :=
  if BlockSize <= data.length then
    processBlocks
      { h with
        hash := method.compress h.hash (data.take BlockSize)
        numBytes := h.numBytes + BitVec.ofNat 64 BlockSize }
      (data.drop BlockSize)
  else (h, data)
termination_by data.length
decreasing_by
  rw [List.length_drop]
  have hblock : 0 < BlockSize := by decide
  omega

/-- The third loop of `add`. -/
def keep (h : Hasher hash) : ByteString -> Option (Hasher hash)
  | [] => some h
  | b :: rest => (h.put b).bind fun h => h.keep rest

/-- What is done with the data that did not go to a buffer in use. -/
def addRest (h : Hasher hash) (rest : ByteString) : Option (Hasher hash) :=
  if rest.isEmpty then some h
  else
    let (h, rest) := h.processBlocks method rest
    h.keep rest

def add (h : Hasher hash) (data : ByteString) : Option (Hasher hash) := do
  let (h, rest) <- if 0 < h.bufferSize then h.fill data else some (h, data)
  (h.processFullBuffer method).addRest method rest

/-- The length of the padded text in bytes, without the eight of the number of bits. -/
def paddedLength (bufferSize : Nat) : Nat :=
  let bits := bufferSize * 8 + 1
  let lower11Bits := bits &&& 511
  let bits := if lower11Bits <= 448 then bits + (448 - lower11Bits)
    else bits + (512 + 448 - lower11Bits)
  bits / 8

def msgBits (h : Hasher hash) : BitVec 64 :=
  8#64 * (h.numBytes + BitVec.ofNat 64 h.bufferSize)

/--
The buffer and the array for a second block, padded.  The second array is new, and what is
in it is not known.
-/
def pad (h : Hasher hash) (extra : ByteString) : Option (ByteString × ByteString) := do
  let paddedLength := paddedLength h.bufferSize
  let buffer <- if h.bufferSize < BlockSize then store h.buffer h.bufferSize [128]
    else some h.buffer
  let extra <- if h.bufferSize < BlockSize then some extra else store extra 0 [128]
  let i := h.bufferSize + 1
  let buffer <- store buffer i (List.replicate (BlockSize - i) 0)
  let i := max i BlockSize
  let extra <- store extra (i - BlockSize) (List.replicate (paddedLength - i) 0)
  if paddedLength < BlockSize then
    let buffer <- store buffer paddedLength (method.lengthBytes h.msgBits)
    some (buffer, extra)
  else
    let extra <- store extra (paddedLength - BlockSize) (method.lengthBytes h.msgBits)
    some (buffer, extra)

def processBuffer (h : Hasher hash) (extra : ByteString) : Option (Hasher hash) := do
  let (buffer, extra) <- h.pad method extra
  let hash := method.compress h.hash buffer
  let hash := if BlockSize < paddedLength h.bufferSize then method.compress hash extra
    else hash
  some { h with buffer := buffer, hash := hash }

/-- The hash is put back, so that more bytes can be added. -/
def getHash (h : Hasher hash) (extra : ByteString) : Option (Hasher hash × ByteString) := do
  let oldHash := h.hash
  let h <- h.processBuffer method extra
  some ({ h with hash := oldHash }, method.output h.hash)

end Hasher

/-! # Storing -/

theorem store_cons (cells : ByteString) (i : Nat) (b : UInt8) (rest : ByteString) :
    store cells i (b :: rest) =
      if i < cells.length then store (cells.set i b) (i + 1) rest else none := rfl

theorem take_set_succ {cells : ByteString} {i : Nat} (hi : i < cells.length) (b : UInt8) :
    (cells.set i b).take (i + 1) = cells.take i ++ [b] := by
  rw [List.take_succ_eq_append_getElem (by rwa [List.length_set]), List.getElem_set_self,
    List.take_set_of_le (Nat.le_refl i)]

theorem drop_set_after (cells : ByteString) {i k : Nat} (hi : i < k) (b : UInt8) :
    (cells.set i b).drop k = cells.drop k := by
  rw [List.drop_set, if_pos hi]

theorem store_eq {cells data : ByteString} {i : Nat} (hroom : i + data.length <= cells.length) :
    store cells i data = some (cells.take i ++ data ++ cells.drop (i + data.length)) := by
  induction data generalizing cells i with
  | nil =>
      rw [List.length_nil, Nat.add_zero, List.append_nil, List.take_append_drop]
      rfl
  | cons b rest ih =>
      rw [List.length_cons] at hroom
      have hi : i < cells.length := by omega
      have hnext : i + 1 + rest.length <= (cells.set i b).length := by
        rw [List.length_set]
        omega
      have hcount : i + 1 + rest.length = i + (b :: rest).length := by
        rw [List.length_cons]
        omega
      rw [store_cons, if_pos hi, ih hnext, take_set_succ hi,
        drop_set_after cells (by omega) b, hcount]
      simp only [List.append_assoc, List.singleton_append]

/-! # What a hasher has taken in -/

/-- The state of the digest after the full blocks, and the bytes that wait for one. -/
structure Progress (hash : Type) where
  hash : hash
  numBytes : BitVec 64
  waiting : ByteString
  short : waiting.length < BlockSize

variable {hash : Type} (method : BlockDigest hash)

theorem leftOver_short (text : ByteString) : (leftOver BlockSize text).length < BlockSize := by
  rw [leftOver_length]
  exact Nat.mod_lt _ (by decide)

namespace Progress

def start : Progress hash := ⟨method.initial, 0#64, [], by decide⟩

def countBlocks (text : ByteString) : BitVec 64 :=
  BitVec.ofNat 64 (BlockSize * (text.length / BlockSize))

def absorb (p : Progress hash) (data : ByteString) : Progress hash where
  hash := fullBlocks BlockSize method.compress p.hash (p.waiting ++ data)
  numBytes := p.numBytes + countBlocks (p.waiting ++ data)
  waiting := leftOver BlockSize (p.waiting ++ data)
  short := leftOver_short (p.waiting ++ data)

def answer (p : Progress hash) : ByteString :=
  method.output (fullBlocks BlockSize method.compress p.hash
    (p.waiting ++ 0x80 :: List.replicate ((119 - p.waiting.length) % 64) 0 ++
      method.lengthBytes (8#64 * (p.numBytes + BitVec.ofNat 64 p.waiting.length))))

theorem countBlocks_append (text more : ByteString) :
    countBlocks (text ++ more) =
      countBlocks text + countBlocks (leftOver BlockSize text ++ more) := by
  rw [countBlocks, blocks_append (by decide), Nat.mul_add, BitVec.ofNat_add]
  rfl

theorem absorb_append (p : Progress hash) (data more : ByteString) :
    p.absorb method (data ++ more) = (p.absorb method data).absorb method more := by
  have hblock : 0 < BlockSize := by decide
  unfold absorb
  congr 1
  · rw [← List.append_assoc, fullBlocks_append hblock]
  · rw [← List.append_assoc, countBlocks_append, BitVec.add_assoc]
  · rw [← List.append_assoc, leftOver_append hblock]

theorem absorb_nil (p : Progress hash) : p.absorb method [] = p := by
  have hzero : countBlocks p.waiting = 0#64 := by
    rw [countBlocks, Nat.div_eq_of_lt p.short, Nat.mul_zero]
  cases p with
  | mk s count waiting short =>
      unfold absorb
      congr 1
      · rw [List.append_nil, fullBlocks_of_short short]
      · show count + countBlocks (waiting ++ []) = count
        rw [List.append_nil, hzero, BitVec.add_zero]
      · rw [List.append_nil, leftOver_of_short short]

/-- What is answered about a text is its digest. -/
theorem answer_absorb (text : ByteString) :
    ((start method).absorb method text).answer method = method.digest text := by
  have hcount : countBlocks text + BitVec.ofNat 64 (leftOver BlockSize text).length =
      BitVec.ofNat 64 text.length := by
    rw [countBlocks, leftOver_length, ← BitVec.ofNat_add, Nat.div_add_mod]
  have hbits : 8#64 * BitVec.ofNat 64 text.length = BitVec.ofNat 64 (8 * text.length) := by
    rw [BitVec.ofNat_mul]
  rw [BlockDigest.digest_eq]
  show method.output (fullBlocks BlockSize method.compress
    (fullBlocks BlockSize method.compress method.initial text)
    (leftOver BlockSize text ++ 0x80 ::
        List.replicate ((119 - (leftOver BlockSize text).length) % 64) 0 ++
      method.lengthBytes (8#64 * (0#64 + countBlocks text +
        BitVec.ofNat 64 (leftOver BlockSize text).length)))) = _
  rw [BitVec.zero_add, hcount, hbits, leftOver_length, BlockDigest.padding, List.append_assoc]
  rfl

end Progress

end Hash
end OssSdk
