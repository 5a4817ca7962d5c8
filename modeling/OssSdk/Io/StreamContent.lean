import OssSdk.Io.SpanSource
import Mathlib.Algebra.Group.Int.Defs

/-!
# Bodies that are read from streams

A stream is read from its position, and fails once it has been read past its end.  A file
is opened anew each time that it is sent, and read to its end.
-/

namespace OssSdk

open Foundation

/-- `std::istream`; a pipe cannot be sought in. -/
structure IStream where
  content : ByteString
  pos : Nat
  state : IoState
  canSeek : Bool
deriving DecidableEq

namespace IStream

def good (is : IStream) : Bool := !is.state.eof && !is.state.fail

/-- `read` and `gcount`. -/
def read (is : IStream) (count : Nat) : ByteString × IStream :=
  if is.good then
    let piece := (is.content.drop is.pos).take count
    (piece,
      { is with
        pos := is.pos + piece.length
        state := if piece.length < count then ⟨true, true, false⟩ else is.state })
  else ([], { is with state := { is.state with failbit := true } })

def setFailbit (is : IStream) : IStream :=
  { is with state := { is.state with failbit := true } }

def clear (is : IStream) : IStream := { is with state := IoState.goodbit }

/-- It is -1 where the stream is not good, which also makes it fail. -/
def tellg (is : IStream) : Int × IStream :=
  if is.good then (if is.canSeek then is.pos else -1, is) else (-1, is.setFailbit)

/-- Seeking takes the `eofbit` off first. -/
def seekTo (is : IStream) (target : Option Nat) : IStream :=
  let is := { is with state := { is.state with eof := false } }
  match target with
  | some pos =>
      if !is.state.fail && is.canSeek then { is with pos := pos } else is.setFailbit
  | none => is.setFailbit

/-- `seekg(pos, std::ios::beg)`; there is no place in front of the first byte. -/
def seekg (is : IStream) (pos : Int) : IStream :=
  is.seekTo (if 0 ≤ pos then some pos.toNat else none)

/-- `seekg(0, std::ios::end)`. -/
def seekEnd (is : IStream) : IStream := is.seekTo (some is.content.length)

/-- What is still to be read. -/
def left (is : IStream) : ByteString := if is.good then is.content.drop is.pos else []

end IStream

def StreamSource : ByteSource IStream where
  onRead count is := if is.state.fail then ([], is) else is.read count
  iostate is := is.state
  onRead_le count is := by
    split
    · exact Nat.zero_le _
    · unfold IStream.read
      split
      · exact List.length_take_le _ _
      · exact Nat.zero_le _

/-- A source without a stream. -/
def nullStream : IStream := ⟨[], 0, ⟨false, false, true⟩, false⟩

namespace IStream

theorem left_good {is : IStream} (hgood : is.good = true) :
    is.left = is.content.drop is.pos := by
  unfold left
  rw [hgood, if_pos rfl]

theorem left_bad {is : IStream} (hgood : is.good = false) : is.left = [] := by
  unfold left
  rw [hgood, if_neg Bool.false_ne_true]

theorem fail_of_good {is : IStream} (hgood : is.good = true) : is.state.fail = false := by
  unfold good at hgood
  rw [Bool.and_eq_true, Bool.not_eq_true'] at hgood
  rw [Bool.not_eq_true'] at hgood
  exact hgood.2

end IStream

theorem StreamSource.read_good {is : IStream} (hgood : is.good = true) (count : Nat) :
    StreamSource.read count is =
      ((is.content.drop is.pos).take count,
        { is with
          pos := is.pos + ((is.content.drop is.pos).take count).length
          state :=
            if ((is.content.drop is.pos).take count).length < count then
              ⟨true, true, false⟩
            else is.state }) := by
  change (if is.state.fail then ([], is) else is.read count) = _
  rw [IStream.fail_of_good hgood, if_neg Bool.false_ne_true]
  unfold IStream.read
  rw [hgood, if_pos rfl]

/-- A stream that is not good stays so, and gives nothing. -/
theorem StreamSource.read_bad {is : IStream} (hgood : is.good = false) (count : Nat) :
    (StreamSource.read count is).1 = [] ∧ (StreamSource.read count is).2.good = false := by
  change (if is.state.fail then ([], is) else is.read count).1 = [] ∧
    (if is.state.fail then ([], is) else is.read count).2.good = false
  cases hfail : is.state.fail with
  | true => exact ⟨rfl, hgood⟩
  | false =>
      rw [if_neg Bool.false_ne_true]
      unfold IStream.read
      rw [hgood, if_neg Bool.false_ne_true]
      refine ⟨rfl, ?_⟩
      unfold IStream.good IoState.fail
      rw [Bool.or_true, Bool.not_true, Bool.and_false]

theorem StreamSource.fills : StreamSource.Fills IStream.left where
  read count is := by
    cases hgood : is.good with
    | false =>
        rw [(read_bad hgood count).1, IStream.left_bad hgood, List.take_nil]
    | true => rw [read_good hgood, IStream.left_good hgood]
  rest count is := by
    cases hgood : is.good with
    | false =>
        rw [IStream.left_bad (read_bad hgood count).2, IStream.left_bad hgood,
          List.drop_nil]
    | true =>
        rw [read_good hgood, IStream.left_good hgood, List.drop_drop]
        by_cases hshort : ((is.content.drop is.pos).take count).length < count
        · rw [List.length_take, List.length_drop] at hshort
          rw [if_pos (by rw [List.length_take, List.length_drop]; exact hshort),
            IStream.left_bad rfl, List.drop_eq_nil_of_le (by omega)]
        · have hfull : ((is.content.drop is.pos).take count).length = count :=
            Nat.le_antisymm (List.length_take_le _ _) (Nat.le_of_not_lt hshort)
          rw [if_neg hshort, hfull]
          exact IStream.left_good hgood

theorem StreamSource.spans : StreamSource.Spans IStream.left := StreamSource.fills.spans

/-!
# Files
-/

/-- `length` is taken when the content is made, from the file as it then is. -/
structure FileContent where
  off : Nat
  length : Option Nat
deriving DecidableEq

/-- There is no size where there is no file. -/
def FileContent.init (file : Option ByteString) (off : Nat) (length : Option Nat) :
    FileContent :=
  match file with
  | none => { off := 0, length := none }
  | some content =>
      let off := if content.length < off then content.length else off
      { off := off
        length :=
          match length with
          | some length => some (min (content.length - off) length)
          | none => some (content.length - off) }

def FileContent.spanSource (c : FileContent) (file : Option ByteString) :
    ByteSource IStream × IStream :=
  match file with
  | none => (StreamSource, ⟨[], 0, ⟨false, true, false⟩, true⟩)
  | some content => (StreamSource, ⟨content, c.off, IoState.goodbit, true⟩)

/-- The body, for a file that is as it was when the content was made. -/
def FileContent.body (file : Option ByteString) (off : Nat) (length : Option Nat) :
    SpanContent IStream :=
  let c := FileContent.init file off length
  { length := c.length, spanSource := some (c.spanSource file) }

/-!
# Streams
-/

/-- `pos_` is -1 where it is not known. -/
structure StreamContent where
  content : Option IStream
  length : Option Nat
  pos : Int
  seekable : Bool
  spanned : Bool
deriving DecidableEq

/-- The constructor that finds the length by seeking to the end and back. -/
def StreamContent.init (content : Option IStream) : StreamContent :=
  match content with
  | none => ⟨none, some 0, -1, true, false⟩
  | some is =>
      if is.state.fail then ⟨some is, none, -1, false, false⟩
      else
        let (pos, is) := is.tellg
        if pos = -1 then ⟨some is, none, -1, false, false⟩
        else
          let is := is.seekEnd
          if is.state.fail then ⟨some (is.clear.seekg pos), none, pos, false, false⟩
          else
            let (lastPos, is) := is.tellg
            ⟨some (is.seekg pos), some ((lastPos - pos) % 2 ^ 64).toNat, pos, true, false⟩

/-- The constructor that is told. -/
def StreamContent.told (content : Option IStream) (seekable : Bool) (length : Option Nat) :
    StreamContent :=
  ⟨content, length, -1, seekable, false⟩

/--
From the second source on, a seekable stream is set back to `pos_`.  There is nothing
where a stream that is missing would be.
-/
def StreamContent.spanSource (c : StreamContent) : Option StreamContent :=
  if c.spanned && c.seekable then
    c.content.map fun is =>
      { c with content := some (is.clear.seekg c.pos), spanned := true }
  else some { c with spanned := true }

end OssSdk
