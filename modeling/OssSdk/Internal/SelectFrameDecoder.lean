import OssSdk.Internal.FrameStream
import OssSdk.Io.ByteWriter

/-!
# The decoder of a select result and the parser of a meta result

The decoder hands the payload of data frames on to a writer and reads the status
of an end frame.  The parser reads the fields of the frames that end a meta
result, and of an end frame.
-/

namespace OssSdk
namespace Internal

open Foundation

variable {τ σ : Type}

/-- What the decoder finds out, and nobody asks it for. -/
structure DecodedResult where
  endStatus : Int
  errorMessage : ByteString
deriving DecidableEq

/-- To write to a decoder without an inner writer is undefined; here it fails. -/
def passData (inner : Option (ByteWriter σ)) (frameType : Nat)
    (piece : ByteString) (env : σ) : Bool × σ :=
  if frameType = FRAME_TYPE_DATA then
    match inner with
    | none => (false, env)
    | some inner =>
        let (written, env) := inner.write piece env
        (!(written == 0 && inner.fail env), env)
  else (true, env)

namespace SelectFrameDecodingWriter

def actions (inner : Option (ByteWriter σ)) : FrameActions DecodedResult σ where
  keeps frameType := frameType == FRAME_TYPE_END
  pass := passData inner
  extract frame out :=
    if frame.frameType = FRAME_TYPE_END ∧ 12 ≤ frame.endFrameData.length then
      { out with endStatus := readBE32Signed (frame.endFrameData.drop 8) }
    else out
  mismatch out := { out with errorMessage := bytes "CRC32 checksum mismatch" }
  clears := false

def init : FrameParser DecodedResult := FrameParser.init ⟨0, []⟩

def onWrite (inner : Option (ByteWriter σ)) (data : ByteString)
    (d : FrameParser DecodedResult) (env : σ) :
    Nat × FrameParser DecodedResult × σ :=
  (actions inner).onWrite data d env

def iostate (inner : Option (ByteWriter σ)) (d : FrameParser DecodedResult)
    (env : σ) : IoState :=
  if d.error then ⟨false, true, false⟩
  else
    match inner with
    | some inner => inner.iostate env
    | none => IoState.goodbit

theorem onWrite_le (inner : Option (ByteWriter σ)) (data : ByteString)
    (d : FrameParser DecodedResult) (env : σ) :
    (onWrite inner data d env).1 ≤ data.length := by
  unfold onWrite FrameActions.onWrite
  split
  · exact Nat.zero_le _
  · simp only
    split
    · exact Nat.zero_le _
    · exact Nat.le_refl _

end SelectFrameDecodingWriter

/-- The decoder behind a pointer, over a writer on another part of the state. -/
def SelectFrameDecodingWriter (decoder : Cell τ (FrameParser DecodedResult))
    (user : Cell τ σ) (inner : Option (ByteWriter σ)) : ByteWriter τ where
  onWrite data w :=
    let (n, d, env) :=
      SelectFrameDecodingWriter.onWrite inner data (decoder.get w) (user.get w)
    (n, decoder.set d (user.set env w))
  iostate w :=
    SelectFrameDecodingWriter.iostate inner (decoder.get w) (user.get w)
  onWrite_le _ _ := SelectFrameDecodingWriter.onWrite_le inner _ _ _

/-- The fields of a meta result, as the parser finds them and the result has them. -/
structure SelectObjectMeta where
  offset : Int
  totalScanned : Int
  status : Int
  splitsCount : Int
  rowsCount : Int
  columnsCount : Int
  errorMessage : ByteString
deriving DecidableEq

def SelectObjectMeta.empty : SelectObjectMeta := ⟨0, 0, 0, 0, 0, 0, []⟩

namespace SelectMetaFrameParser

def keeps (frameType : Nat) : Bool :=
  frameType == FRAME_TYPE_CSV_META_END ||
    frameType == FRAME_TYPE_JSON_META_END || frameType == FRAME_TYPE_END

/-- The fields that the meta end frames have in common. -/
def readCommon (data : ByteString) (out : SelectObjectMeta) : SelectObjectMeta :=
  { out with
    totalScanned := readBE64Signed data
    status := readBE32Signed (data.drop 8)
    splitsCount := readBE32Signed (data.drop 12)
    rowsCount := readBE64Signed (data.drop 16) }

/-- A message that is empty leaves the last one in its place. -/
def readMessage (message : ByteString) (out : SelectObjectMeta) : SelectObjectMeta :=
  if message.isEmpty then out else { out with errorMessage := message }

def extract (frame : FrameState) (out : SelectObjectMeta) : SelectObjectMeta :=
  let out := { out with offset := readBE64Signed (frame.header.drop 12) }
  let data := frame.endFrameData
  if frame.frameType = FRAME_TYPE_CSV_META_END ∧ 28 ≤ data.length then
    readMessage (data.drop 28)
      { readCommon data out with
        columnsCount := readBE32Signed (data.drop 24) }
  else if (frame.frameType = FRAME_TYPE_JSON_META_END ∨
      frame.frameType = FRAME_TYPE_END) ∧ 24 ≤ data.length then
    readMessage (data.drop 24) (readCommon data out)
  else out

def actions : FrameActions SelectObjectMeta Unit where
  keeps := keeps
  pass _ _ env := (true, env)
  extract := extract
  mismatch out := { out with errorMessage := bytes "CRC32 checksum mismatch" }
  clears := true

def init : FrameParser SelectObjectMeta := FrameParser.init SelectObjectMeta.empty

def onWrite (data : ByteString) (d : FrameParser SelectObjectMeta) :
    Nat × FrameParser SelectObjectMeta :=
  let (n, d, _) := actions.onWrite data d ()
  (n, d)

def iostate (d : FrameParser SelectObjectMeta) : IoState :=
  if d.error then ⟨false, true, false⟩ else IoState.goodbit

end SelectMetaFrameParser

/-!
# Frames that a result is made of
-/

namespace SelectFrame

/-- The status field of an end frame that is long enough to have one. -/
def endStatus (f : ByteString) : Option Int :=
  if type f = FRAME_TYPE_END ∧ 12 ≤ (payload f).length then
    some (readBE32Signed ((payload f).drop 8))
  else none

def endsWell (f : ByteString) : Bool :=
  match endStatus f with
  | some status => status.tdiv 100 == 2
  | none => false

/-- A meta end frame that holds all the fields that are read from it. -/
def isMetaEnd (f : ByteString) : Bool :=
  (type f == FRAME_TYPE_CSV_META_END && decide (28 ≤ (payload f).length)) ||
    (type f == FRAME_TYPE_JSON_META_END && decide (24 ≤ (payload f).length))

end SelectFrame

end Internal
end OssSdk
