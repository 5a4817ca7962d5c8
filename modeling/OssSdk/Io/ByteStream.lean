import OssSdk.Transport.HttpTypes
import Mathlib.Algebra.GroupWithZero.Nat

/-!
# Byte sources

A source is read from the front to the back, some bytes at a time.  Every attempt to
send a body reads a source of its own.
-/

namespace OssSdk

open Foundation

variable {ρ σ : Type}

/-- `onRead` gives the bytes that are put into a buffer of this size. -/
structure ByteSource (ρ : Type) where
  onRead : Nat -> ρ -> ByteString × ρ
  iostate : ρ -> IoState
  onRead_le : forall count r, (onRead count r).1.length ≤ count

namespace ByteSource

def read (source : ByteSource ρ) (count : Nat) (r : ρ) : ByteString × ρ :=
  source.onRead count r

/-- What a transport reads in turn, into buffers of these sizes. -/
def reads (source : ByteSource ρ) : List Nat -> ρ -> ByteString × ρ
  | [], r => ([], r)
  | count :: counts, r =>
      let (piece, r) := source.read count r
      let (rest, r) := reads source counts r
      (piece ++ rest, r)

/-- Of what is left a read takes as much as its buffer holds. -/
structure Fills (source : ByteSource ρ) (left : ρ -> ByteString) : Prop where
  read : forall count r, (source.read count r).1 = (left r).take count
  rest : forall count r, left (source.read count r).2 = (left r).drop count

/-- The source gives these bytes, into buffers of whatever sizes. -/
def Yields (source : ByteSource ρ) (r : ρ) (body : ByteString) : Prop :=
  forall counts, (source.reads counts r).1 = body.take counts.sum

theorem Fills.yields {source : ByteSource ρ} {left : ρ -> ByteString}
    (hfills : source.Fills left) (r : ρ) : source.Yields r (left r) := by
  intro counts
  induction counts generalizing r with
  | nil => rfl
  | cons count counts ih =>
      change (source.read count r).1 ++ (source.reads counts (source.read count r).2).1 = _
      rw [ih, hfills.read, hfills.rest, List.sum_cons, List.take_add]

end ByteSource

/-- `offset_` and `state` of a `MemoryByteSource`. -/
structure MemoryByteSourceState where
  offset : Nat
  state : IoState
deriving DecidableEq

def MemoryByteSource (data : ByteString) : ByteSource MemoryByteSourceState where
  onRead count r :=
    let copyLength := min count (data.length - r.offset)
    ((data.drop r.offset).take copyLength,
      { offset := r.offset + copyLength
        state :=
          if data.length < r.offset + count then ⟨true, true, false⟩ else r.state })
  iostate r := r.state
  onRead_le count r := by
    rw [List.length_take]
    exact le_trans (min_le_left _ _) (min_le_left _ _)

def MemoryByteSource.init : MemoryByteSourceState := ⟨0, IoState.goodbit⟩

theorem MemoryByteSource.fills (data : ByteString) :
    (MemoryByteSource data).Fills fun r => data.drop r.offset where
  read count r := by
    change (data.drop r.offset).take (min count (data.length - r.offset)) = _
    rw [← List.length_drop, ← List.take_eq_take_min]
  rest count r := by
    change data.drop (r.offset + min count (data.length - r.offset)) = _
    rw [List.drop_drop]
    by_cases hcount : count ≤ data.length - r.offset
    · rw [min_eq_left hcount]
    · rw [List.drop_eq_nil_of_le (by omega), List.drop_eq_nil_of_le (by omega)]

/-- Buffers that are large enough together are filled with what is left. -/
theorem MemoryByteSource.reads_eq (data : ByteString) (counts : List Nat)
    (r : MemoryByteSourceState) :
    ((MemoryByteSource data).reads counts r).1 =
      (data.drop r.offset).take counts.sum :=
  (MemoryByteSource.fills data).yields r counts

/-- The bytes of a content, without those who look on. -/
def ByteContent.data : ByteContent σ -> ByteString
  | .content _ _ data => data
  | .tee source _ => source.data

def ByteContent.length : ByteContent σ -> Option Nat
  | .content _ length _ => length
  | .tee source _ => source.length

end OssSdk
