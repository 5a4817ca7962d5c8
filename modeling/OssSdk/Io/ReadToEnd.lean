import OssSdk.Io.SpanSource

/-!
# Reading a source to its end

A vector is made longer by one chunk at a time, and cut to what has been read into it.
-/

namespace OssSdk

open Foundation

variable {ρ : Type}

namespace ByteSource

/-- `resize` of a vector: new bytes are zero. -/
def resize (buffer : ByteString) (size : Nat) : ByteString :=
  buffer.take size ++ List.replicate (size - buffer.length) 0

/-- Some bytes of a buffer are written over. -/
def put (buffer : ByteString) (off : Nat) (data : ByteString) : ByteString :=
  buffer.take off ++ data ++ buffer.drop (off + data.length)

def chunkSize : Nat := 1024 * 8

/-- The loop of `readToEnd`, for so many turns at most. -/
def readChunks (source : ByteSource ρ) : Nat -> Nat -> ByteString -> ρ ->
    Option (ByteString × ρ)
  | 0, _, _, _ => none
  | turns + 1, chunkNumber, buffer, r =>
      let (data, r) := source.readToCount chunkSize r
      let buffer :=
        put (resize buffer ((chunkNumber + 1) * chunkSize)) (chunkNumber * chunkSize) data
      if data.length < chunkSize then
        some (resize buffer (chunkNumber * chunkSize + data.length), r)
      else readChunks source turns (chunkNumber + 1) buffer r

def readToEnd (source : ByteSource ρ) (turns : Nat) (r : ρ) : Option (ByteString × ρ) :=
  source.readChunks turns 0 [] r

/-!
# Vectors
-/

theorem resize_longer (buffer : ByteString) (n : Nat) :
    resize buffer (buffer.length + n) = buffer ++ List.replicate n 0 := by
  unfold resize
  rw [List.take_of_length_le (Nat.le_add_right _ _), Nat.add_sub_cancel_left]

theorem resize_shorter (buffer rest : ByteString) :
    resize (buffer ++ rest) buffer.length = buffer := by
  unfold resize
  rw [List.take_left, List.length_append, Nat.sub_eq_zero_of_le (Nat.le_add_right _ _)]
  exact List.append_nil buffer

/-- A chunk is put behind what there is. -/
theorem put_zeros (buffer data : ByteString) (n : Nat) :
    put (buffer ++ List.replicate n 0) buffer.length data =
      buffer ++ data ++ List.replicate (n - data.length) 0 := by
  unfold put
  rw [List.take_left, List.drop_append, List.drop_of_length_le (Nat.le_add_right _ _),
    Nat.add_sub_cancel_left, List.drop_replicate]
  rfl

/-!
# Reads
-/

theorem readTurns_length_le (source : ByteSource ρ) (turns count : Nat) (r : ρ) :
    (source.readTurns turns count r).1.length ≤ count := by
  induction turns generalizing count r with
  | zero => exact Nat.zero_le count
  | succ turns ih =>
      have hread : (source.read count r).1.length ≤ count := source.onRead_le count r
      by_cases hlast : (source.read count r).1.length = count ∨ (source.read count r).1 = []
      · rw [readTurns_last turns hlast]
        exact hread
      · rw [readTurns_again turns hlast, List.length_append]
        have hrest := ih (count - (source.read count r).1.length) (source.read count r).2
        omega

theorem readChunks_last {source : ByteSource ρ} {r : ρ} {chunkNumber : Nat}
    {buffer : ByteString} (turns : Nat) (hbuffer : buffer.length = chunkNumber * chunkSize)
    (hshort : (source.readToCount chunkSize r).1.length < chunkSize) :
    source.readChunks (turns + 1) chunkNumber buffer r =
      some (buffer ++ (source.readToCount chunkSize r).1,
        (source.readToCount chunkSize r).2) := by
  unfold readChunks
  simp only [if_pos hshort]
  rw [← hbuffer, Nat.succ_mul, ← hbuffer, resize_longer, put_zeros,
    ← List.length_append, resize_shorter]

theorem readChunks_again {source : ByteSource ρ} {r : ρ} {chunkNumber : Nat}
    {buffer : ByteString} (turns : Nat) (hbuffer : buffer.length = chunkNumber * chunkSize)
    (hfull : (source.readToCount chunkSize r).1.length = chunkSize) :
    source.readChunks (turns + 1) chunkNumber buffer r =
      source.readChunks turns (chunkNumber + 1)
        (buffer ++ (source.readToCount chunkSize r).1)
        (source.readToCount chunkSize r).2 := by
  rw [readChunks]
  simp only [if_neg (Nat.not_lt_of_le (Nat.le_of_eq hfull.symm))]
  rw [← hbuffer, Nat.succ_mul, ← hbuffer, resize_longer, put_zeros,
    hfull, Nat.sub_self, List.replicate_zero, List.append_nil]

theorem readChunks_spans {source : ByteSource ρ} {left : ρ -> ByteString}
    (hspans : source.Spans left) {turns chunkNumber : Nat} {buffer : ByteString} {r : ρ}
    (hbuffer : buffer.length = chunkNumber * chunkSize)
    (hturns : (left r).length < turns * chunkSize) :
    exists r', source.readChunks turns chunkNumber buffer r = some (buffer ++ left r, r') ∧
      left r' = [] := by
  induction turns generalizing chunkNumber buffer r with
  | zero => exact absurd hturns (by rw [Nat.zero_mul]; exact Nat.not_lt_zero _)
  | succ turns ih =>
      rcases readToCount_spans hspans chunkSize r with ⟨hsplit, hended⟩
      by_cases hshort : (source.readToCount chunkSize r).1.length < chunkSize
      · have hnone := hended hshort
        rw [hnone, List.append_nil] at hsplit
        rw [readChunks_last turns hbuffer hshort, ← hsplit]
        exact ⟨_, rfl, hnone⟩
      · have hfull : (source.readToCount chunkSize r).1.length = chunkSize :=
          Nat.le_antisymm (readTurns_length_le source chunkSize chunkSize r) (Nat.not_lt.mp hshort)
        have hless : (left (source.readToCount chunkSize r).2).length < turns * chunkSize := by
          rw [hsplit, List.length_append, hfull, Nat.succ_mul] at hturns
          omega
        have hlonger : (buffer ++ (source.readToCount chunkSize r).1).length =
            (chunkNumber + 1) * chunkSize := by
          rw [List.length_append, hbuffer, hfull, Nat.succ_mul]
        rcases ih hlonger hless with ⟨r', hread, hleft⟩
        refine ⟨r', ?_, hleft⟩
        rw [readChunks_again turns hbuffer hfull, hread, List.append_assoc, ← hsplit]

/-- The vector is what was left of the source, and nothing is left. -/
theorem readToEnd_left {source : ByteSource ρ} {left : ρ -> ByteString}
    (hspans : source.Spans left) {turns : Nat} {r : ρ}
    (hturns : (left r).length < turns * chunkSize) :
    exists r', source.readToEnd turns r = some (left r, r') ∧ left r' = [] :=
  readChunks_spans hspans (Nat.zero_mul chunkSize).symm hturns

theorem readToEnd_left_memory :
    exists r', (MemoryByteSource (bytes "oss")).readToEnd 1 MemoryByteSource.init =
      some (bytes "oss", r') :=
  (readToEnd_left (MemoryByteSource.fills (bytes "oss")).spans (by decide)).imp
    fun _ hread => hread.1

end ByteSource

end OssSdk
