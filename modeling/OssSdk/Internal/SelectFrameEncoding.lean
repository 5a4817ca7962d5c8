import OssSdk.Foundation.BigEndian
import OssSdk.Foundation.LastWord
import OssSdk.Internal.SelectFrameChunks

/-!
# Building a select result

The encoder that the decoder is the inverse of.  The checksum may be left out, and
the one of the header is not looked at.
-/

namespace OssSdk
namespace Internal

open Foundation

variable {σ : Type}

/-- `fits` keeps the length field within what an `int32_t` holds. -/
structure Frame where
  version : UInt8
  frameType : BitVec 24
  headerChecksum : BitVec 32
  offset : BitVec 64
  payload : ByteString
  checked : Bool
  fits : payload.length + 8 < 2 ^ 31

namespace Frame

variable (f : Frame)

def header : ByteString :=
  [f.version] ++ BigEndian.encode 3 f.frameType.toNat ++
    BigEndian.encode 4 (f.payload.length + 8) ++
    BigEndian.encode 4 f.headerChecksum.toNat ++
    BigEndian.encode 8 f.offset.toNat

def checksum : BitVec 32 :=
  if f.checked then calcCRC32 0 ((f.header ++ f.payload).drop 12) else 0

def build : ByteString :=
  f.header ++ f.payload ++ BigEndian.encode 4 f.checksum.toNat

def isData : Bool := f.frameType.toNat == FRAME_TYPE_DATA

/-- An end frame that is long enough to have a status. -/
def hasStatus : Bool :=
  f.frameType.toNat == FRAME_TYPE_END && decide (12 ≤ f.payload.length)

def status : Int := readBE32Signed (f.payload.drop 8)

end Frame

/-!
# The fields of a frame that was built
-/

namespace Frame

variable (f : Frame)

theorem length_header : f.header.length = FRAME_HEADER_LEN := by
  simp only [header, List.length_append, BigEndian.length_encode,
    List.length_singleton, FRAME_HEADER_LEN]

theorem readBE32_encode (v : BitVec 32) (rest : ByteString) :
    readBE32 (BigEndian.encode 4 v.toNat ++ rest) = v := by
  have htake : (BigEndian.encode 4 v.toNat ++ rest).take 4 =
      BigEndian.encode 4 v.toNat :=
    List.take_left' (BigEndian.length_encode 4 v.toNat)
  have hvalue : readBE (BigEndian.encode 4 v.toNat) = v.toNat :=
    BigEndian.value_encode_of_lt v.isLt
  rw [readBE32, htake, hvalue, BitVec.ofNat_toNat, BitVec.setWidth_eq]

theorem frameTypeOf_header : frameTypeOf f.header = f.frameType.toNat := by
  have hfield : (f.header.drop 1).take 3 =
      BigEndian.encode 3 f.frameType.toNat := by
    simp only [header, List.append_assoc, List.singleton_append]
    exact List.take_left' (BigEndian.length_encode 3 f.frameType.toNat)
  rw [frameTypeOf, hfield]
  exact BigEndian.value_encode_of_lt f.frameType.isLt

theorem payloadRemainsOf_header :
    payloadRemainsOf f.header = f.payload.length := by
  have hfits := f.fits
  have hfield : readBE32 (f.header.drop 4) =
      BitVec.ofNat 32 (f.payload.length + 8) := by
    have hdrop : f.header.drop 4 =
        BigEndian.encode 4 (BitVec.ofNat 32 (f.payload.length + 8)).toNat ++
          (BigEndian.encode 4 f.headerChecksum.toNat ++
            BigEndian.encode 8 f.offset.toNat) := by
      rw [BitVec.toNat_ofNat, Nat.mod_eq_of_lt (by omega)]
      simp only [header, List.append_assoc]
      rw [← List.append_assoc]
      exact List.drop_left' (by
        rw [List.length_append, BigEndian.length_encode, List.length_singleton])
    rw [hdrop, readBE32_encode]
  have hsub : BitVec.ofNat 32 (f.payload.length + 8) - 8 =
      BitVec.ofNat 32 f.payload.length := by
    rw [BitVec.ofNat_add]
    exact BitVec.add_sub_cancel _ _
  have hnat : (BitVec.ofNat 32 f.payload.length).toNat = f.payload.length := by
    rw [BitVec.toNat_ofNat, Nat.mod_eq_of_lt (by omega)]
  rw [payloadRemainsOf, hfield, hsub, BitVec.toInt_eq_toNat_of_lt (by omega), hnat]

theorem header_build : SelectFrame.header f.build = f.header := by
  unfold SelectFrame.header build
  rw [List.append_assoc]
  exact List.take_left' f.length_header

theorem type_build : SelectFrame.type f.build = f.frameType.toNat := by
  rw [SelectFrame.type, header_build, frameTypeOf_header]

theorem tailOffset_build :
    SelectFrame.tailOffset f.build = (f.header ++ f.payload).length := by
  rw [SelectFrame.tailOffset, SelectFrame.payloadSize, header_build,
    payloadRemainsOf_header, Int.toNat_natCast, List.length_append, length_header]

theorem take_tailOffset_build :
    f.build.take (SelectFrame.tailOffset f.build) = f.header ++ f.payload := by
  rw [tailOffset_build]
  exact List.take_left

theorem payload_build : SelectFrame.payload f.build = f.payload := by
  unfold SelectFrame.payload
  rw [take_tailOffset_build]
  exact List.drop_left' f.length_header

theorem whole_build : SelectFraming.Whole f.build := by
  have hlength : f.build.length = (f.header ++ f.payload).length + 4 := by
    unfold build
    rw [List.length_append, BigEndian.length_encode]
  have hheader : FRAME_HEADER_LEN ≤ f.build.length := by
    rw [hlength, List.length_append, length_header]
    omega
  unfold Framing.Whole
  rw [SelectFrame.length_eq hheader, tailOffset_build, hlength]

/-- The checksum is left out, or is that of the bytes it is taken over. -/
theorem checksumHolds_build : SelectFrame.checksumHolds f.build = true := by
  have htail : readBE32 (SelectFrame.tail f.build) = f.checksum := by
    have hdrop : SelectFrame.tail f.build =
        BigEndian.encode 4 f.checksum.toNat ++ [] := by
      unfold SelectFrame.tail
      rw [tailOffset_build, List.append_nil]
      exact List.drop_left
    rw [hdrop, readBE32_encode]
  unfold SelectFrame.checksumHolds SelectFrame.covered
  rw [htail, take_tailOffset_build]
  unfold checksum
  cases f.checked <;> simp

end Frame

/-!
# Decoding what was built
-/

open SelectFrameDecodingWriter

/-- Frames that were built are taken in one after the other. -/
theorem FrameActions.Accepts.takeIn_build {ω : Type} {A : FrameActions ω σ}
    {log : Nat -> ByteString -> σ -> σ} (haccepts : A.Accepts log) (frames : List Frame)
    (w : σ) :
    A.takeIn (Deframer.init w) (frames.map Frame.build).flatten =
      { Deframer.init w with
        frames := frames.map Frame.build
        env := (frames.map Frame.build).foldl (fun w f => log (SelectFrame.type f)
          (SelectFrame.payload f) w) w } := by
  have hwhole : forall p, p ∈ frames.map Frame.build -> SelectFraming.Whole p := by
    intro p hp
    rcases List.mem_map.mp hp with ⟨f, _, hf⟩
    rw [← hf]
    exact f.whole_build
  have hholds : forall p, p ∈ frames.map Frame.build ->
      SelectFrame.checksumHolds p = true := by
    intro p hp
    rcases List.mem_map.mp hp with ⟨f, _, hf⟩
    rw [← hf]
    exact f.checksumHolds_build
  exact haccepts.takeIn_frames hwhole hholds rfl rfl

/-- The end frames are looked at one after the other, and the last one stays. -/
theorem outOf_build (frames : List Frame) (out : DecodedResult) :
    recording.outOf out (frames.map Frame.build) =
      { out with
        endStatus := (((frames.filter Frame.hasStatus).getLast?).map
          Frame.status).getD out.endStatus } := by
  induction frames generalizing out with
  | nil => rfl
  | cons f rest ih =>
      have hextract : recording.extract (FrameState.of recording.keeps f.build) out =
          if f.hasStatus then { out with endStatus := f.status } else out := by
        simp only [recording, actions, FrameState.of, Frame.type_build,
          Frame.payload_build, Frame.hasStatus, Frame.status, beq_iff_eq,
          Bool.and_eq_true, decide_eq_true_eq]
        by_cases hend : f.frameType.toNat = FRAME_TYPE_END
        · simp only [hend, if_true]
        · simp only [hend, false_and, if_false]
      have hstep : recording.outOf out ((f :: rest).map Frame.build) =
          recording.outOf
            (recording.extract (FrameState.of recording.keeps f.build) out)
            (rest.map Frame.build) := rfl
      have hlast := @lastWord_cons _ _ Frame.hasStatus Frame.status f rest out.endStatus
      unfold lastWord at hlast
      rw [hstep, ih, hextract, hlast]
      cases f.hasStatus with
      | false => rfl
      | true => rfl

theorem dataLog_build (frames : List Frame) (content : ByteString) :
    (frames.map Frame.build).foldl (fun w f =>
        dataLog (SelectFrame.type f) (SelectFrame.payload f) w) content =
      content ++ ((frames.filter Frame.isData).map Frame.payload).flatten := by
  induction frames generalizing content with
  | nil => exact (List.append_nil content).symm
  | cons f rest ih =>
      rw [List.map_cons, List.foldl_cons, ih, Frame.type_build,
        Frame.payload_build]
      unfold dataLog
      by_cases hdata : f.frameType.toNat = FRAME_TYPE_DATA
      · have hfilter : f.isData = true := by
          unfold Frame.isData
          rw [hdata, beq_self_eq_true]
        rw [if_pos hdata, List.filter_cons_of_pos hfilter, List.map_cons,
          List.flatten_cons, List.append_assoc]
      · have hfilter : ¬ f.isData = true := by
          unfold Frame.isData
          rw [beq_iff_eq]
          exact hdata
        rw [if_neg hdata, List.filter_cons_of_neg hfilter]

/-- Decoding undoes encoding, in whatever chunks the result comes. -/
theorem decode_build (inner : ByteWriter σ) (w : σ) (frames : List Frame)
    (chunks : List ByteString)
    (haccepts : inner.AcceptsAll)
    (hchunks : chunks.flatten = (frames.map Frame.build).flatten) :
    let r := decode inner w chunks
    r.2.2 = ((frames.filter Frame.isData).map Frame.payload).flatten ∧
      r.1.error = false ∧ r.1.out.errorMessage = [] ∧
      r.1.out.endStatus =
        (((frames.filter Frame.hasStatus).getLast?).map Frame.status).getD 0 := by
  intro r
  rcases decode_stream haccepts w chunks with ⟨herror, hout, hseen⟩
  rw [hchunks, recording_accepts.takeIn_build] at herror hout hseen
  have htold : r.1.out = recording.outOf ⟨0, []⟩ (frames.map Frame.build) := hout
  rw [outOf_build] at htold
  refine ⟨?_, herror, ?_, ?_⟩
  · exact hseen.trans (dataLog_build frames [])
  · rw [htold]
  · rw [htold]

/-- A data frame and an end frame, of which the last four bytes come alone. -/
theorem decode_build_two :
    let inner := OStreamWriter stringstream
    let data : Frame := ⟨1, 0x800001, 0, 0, [104, 105], true, by decide⟩
    let last : Frame :=
      ⟨1, 0x800005, 0, 2, [0, 0, 0, 0, 0, 0, 0, 2, 0, 0, 0, 200], false, by decide⟩
    let stream := data.build ++ last.build
    (decode inner [] [stream.take 54, stream.drop 54]).1.out.endStatus = 200 := by
  intro inner data last stream
  have hstream : [stream.take 54, stream.drop 54].flatten =
      ([data, last].map Frame.build).flatten := by
    simp [stream]
  exact (decode_build inner [] [data, last] [stream.take 54, stream.drop 54]
    stringstream_acceptsAll hstream).2.2.2

end Internal
end OssSdk
