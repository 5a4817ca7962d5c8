import OssSdk.Foundation.LastWord
import OssSdk.Internal.SelectFrameEncoding
import OssSdk.Transform.SerdeObjectSelect
import Mathlib.Data.List.Induction

/-!
# The frames that a meta result is made of

The parser keeps each field until a frame sets it again.  Every frame sets the offset, an
end frame sets what a meta end frame of json does, and that one leaves the columns.
-/

namespace OssSdk
namespace Internal

open Foundation

/-!
# What a frame tells of a meta result
-/

namespace Frame

variable (f : Frame)

def isCsvMetaEnd : Bool :=
  f.frameType.toNat == FRAME_TYPE_CSV_META_END && decide (28 ≤ f.payload.length)

def isJsonMetaEnd : Bool :=
  f.frameType.toNat == FRAME_TYPE_JSON_META_END && decide (24 ≤ f.payload.length)

/-- A meta end frame that is complete has all the fields of its kind. -/
def isMetaEnd : Bool := f.isCsvMetaEnd || f.isJsonMetaEnd

/-- An end frame that is read like a meta end frame of json. -/
def isEndReport : Bool :=
  f.frameType.toNat == FRAME_TYPE_END && decide (24 ≤ f.payload.length)

/-- The total that was scanned, the status, and the counts of the splits and the rows. -/
def common : Int × Int × Int × Int :=
  (readBE64Signed f.payload, readBE32Signed (f.payload.drop 8),
    readBE32Signed (f.payload.drop 12), readBE64Signed (f.payload.drop 16))

def columns : Int := readBE32Signed (f.payload.drop 24)

/-- What a frame has behind its fields. -/
def message : ByteString :=
  if f.isCsvMetaEnd then f.payload.drop 28
  else if f.isJsonMetaEnd || f.isEndReport then f.payload.drop 24
  else []

def hasMessage : Bool := !f.message.isEmpty

/-- The result of a meta end frame on its own. -/
def toMeta : SelectObjectMeta where
  offset := f.offset.toInt
  totalScanned := f.common.1
  status := f.common.2.1
  splitsCount := f.common.2.2.1
  rowsCount := f.common.2.2.2
  columnsCount := if f.isCsvMetaEnd then f.columns else 0
  errorMessage := f.message

theorem offset_build :
    readBE64Signed ((SelectFrame.header f.build).drop 12) = f.offset.toInt := by
  have hdrop : (f.header.drop 12).take 8 = BigEndian.encode 8 f.offset.toNat := by
    have hrest : f.header.drop 12 = BigEndian.encode 8 f.offset.toNat := by
      unfold header
      refine List.drop_left' ?_
      simp only [List.length_append, BigEndian.length_encode, List.length_singleton]
    rw [hrest]
    exact List.take_of_length_le (Nat.le_of_eq (BigEndian.length_encode 8 f.offset.toNat))
  have hvalue : readBE (BigEndian.encode 8 f.offset.toNat) = f.offset.toNat :=
    BigEndian.value_encode_of_lt f.offset.isLt
  rw [header_build]
  unfold readBE64Signed
  rw [hdrop, hvalue, BitVec.ofNat_toNat, BitVec.setWidth_eq]

end Frame

/-- The fields that the meta end frames have in common. -/
def SelectObjectMeta.common (out : SelectObjectMeta) : Int × Int × Int × Int :=
  (out.totalScanned, out.status, out.splitsCount, out.rowsCount)

namespace SelectMetaFrameParser

/-- What the parser makes of a frame that was built. -/
def tell (out : SelectObjectMeta) (f : Frame) : SelectObjectMeta :=
  actions.extract (FrameState.of actions.keeps f.build) out

theorem tell_eq (out : SelectObjectMeta) (f : Frame) :
    tell out f =
      let out := { out with offset := f.offset.toInt }
      if f.isCsvMetaEnd then
        readMessage (f.payload.drop 28)
          { readCommon f.payload out with columnsCount := f.columns }
      else if f.isJsonMetaEnd || f.isEndReport then
        readMessage (f.payload.drop 24) (readCommon f.payload out)
      else out := by
  have hoffset := f.offset_build
  change extract (FrameState.of keeps f.build) out = _
  unfold extract FrameState.of Frame.isCsvMetaEnd Frame.isJsonMetaEnd Frame.isEndReport
  rw [hoffset, Frame.type_build, Frame.payload_build]
  simp only [Bool.and_eq_true, Bool.or_eq_true, beq_iff_eq, decide_eq_true_eq]
  by_cases hkept : keeps f.frameType.toNat = true
  · rw [if_pos hkept]
    simp only [or_and_right]
    rfl
  · have hother : f.frameType.toNat ≠ FRAME_TYPE_CSV_META_END ∧
        f.frameType.toNat ≠ FRAME_TYPE_JSON_META_END ∧
        f.frameType.toNat ≠ FRAME_TYPE_END := by
      unfold keeps at hkept
      simp only [Bool.or_eq_true, beq_iff_eq, not_or] at hkept
      exact ⟨hkept.1.1, hkept.1.2, hkept.2⟩
    simp only [hother, false_and, or_self, if_false]

theorem readMessage_fields (message : ByteString) (out : SelectObjectMeta) :
    (readMessage message out).offset = out.offset ∧
      (readMessage message out).common = out.common ∧
      (readMessage message out).columnsCount = out.columnsCount ∧
      (readMessage message out).errorMessage =
        if message.isEmpty then out.errorMessage else message := by
  unfold readMessage
  cases message with
  | nil => exact ⟨rfl, rfl, rfl, rfl⟩
  | cons b rest => exact ⟨rfl, rfl, rfl, rfl⟩

/-- Every frame sets the offset. -/
theorem tell_offset (out : SelectObjectMeta) (f : Frame) :
    (tell out f).offset = if true then f.offset.toInt else out.offset := by
  rw [tell_eq, if_pos rfl]
  simp only
  split
  · exact (readMessage_fields _ _).1
  · split
    · exact (readMessage_fields _ _).1
    · rfl

theorem tell_common (out : SelectObjectMeta) (f : Frame) :
    (tell out f).common =
      if f.isMetaEnd || f.isEndReport then f.common else out.common := by
  rw [tell_eq]
  unfold Frame.isMetaEnd
  cases f.isCsvMetaEnd with
  | true => exact (readMessage_fields _ _).2.1
  | false =>
      cases hread : f.isJsonMetaEnd || f.isEndReport with
      | true =>
          rw [Bool.false_or, hread]
          exact (readMessage_fields _ _).2.1
      | false =>
          rw [Bool.false_or, hread]
          rfl

theorem tell_columnsCount (out : SelectObjectMeta) (f : Frame) :
    (tell out f).columnsCount = if f.isCsvMetaEnd then f.columns else out.columnsCount := by
  rw [tell_eq]
  cases f.isCsvMetaEnd with
  | true => exact (readMessage_fields _ _).2.2.1
  | false =>
      cases f.isJsonMetaEnd || f.isEndReport with
      | true => exact (readMessage_fields _ _).2.2.1
      | false => rfl

theorem tell_errorMessage (out : SelectObjectMeta) (f : Frame) :
    (tell out f).errorMessage = if f.hasMessage then f.message else out.errorMessage := by
  have hread : forall message (out' : SelectObjectMeta),
      (readMessage message out').errorMessage =
        if !message.isEmpty then message else out'.errorMessage := by
    intro message out'
    rw [(readMessage_fields message out').2.2.2]
    cases message with
    | nil => rfl
    | cons b rest => rfl
  rw [tell_eq]
  unfold Frame.hasMessage Frame.message
  cases f.isCsvMetaEnd with
  | true => exact hread _ _
  | false =>
      cases f.isJsonMetaEnd || f.isEndReport with
      | true => exact hread _ _
      | false => rfl

/-- A parser that gets the frames one after the other. -/
def tellAll (frames : List Frame) : SelectObjectMeta :=
  frames.foldl tell SelectObjectMeta.empty

/-- The parser takes the frames in, whatever chunks their bytes come in. -/
theorem parse_build {chunks : List ByteString} {frames : List Frame}
    (hchunks : chunks.flatten = (frames.map Frame.build).flatten) :
    (parse chunks).error = false ∧ (parse chunks).out = tellAll frames := by
  rcases parse_stream chunks with ⟨herror, hout⟩
  rw [hchunks, actions_accepts.takeIn_build] at herror hout
  refine ⟨herror, ?_⟩
  have htold : (parse chunks).out =
      actions.outOf SelectObjectMeta.empty (frames.map Frame.build) := hout
  rw [htold]
  exact List.foldl_map

end SelectMetaFrameParser

/-!
# The last meta end frame of a stream
-/

/-- Frames with a meta end frame among them, cut at the last one. -/
structure MetaStream where
  before : List Frame
  last : Frame
  after : List Frame
  isLast : last.isMetaEnd = true
  noneAfter : forall f, f ∈ after -> f.isMetaEnd = false

namespace MetaStream

def frames (s : MetaStream) : List Frame := s.before ++ s.last :: s.after

def bytes (s : MetaStream) : ByteString := (s.frames.map Frame.build).flatten

/-- Every list of frames with a meta end frame in it is one of these. -/
theorem exists_of_mem {frames : List Frame} {f : Frame} (hf : f ∈ frames)
    (hend : f.isMetaEnd = true) : exists s : MetaStream, s.frames = frames := by
  induction frames using List.reverseRecOn with
  | nil => cases hf
  | append_singleton frames g ih =>
      cases hg : g.isMetaEnd with
      | true => exact ⟨⟨frames, g, [], hg, fun f hf => (nomatch hf)⟩, rfl⟩
      | false =>
          have hmem : f ∈ frames := by
            rcases List.mem_append.mp hf with hbefore | hlast
            · exact hbefore
            · rw [List.mem_singleton.mp hlast, hg] at hend
              cases hend
          rcases ih hmem with ⟨s, hs⟩
          have hnone : forall f, f ∈ s.after ++ [g] -> f.isMetaEnd = false := by
            intro f' hf'
            rcases List.mem_append.mp hf' with hafter | hlast
            · exact s.noneAfter f' hafter
            · rw [List.mem_singleton.mp hlast]
              exact hg
          refine ⟨⟨s.before, s.last, s.after ++ [g], s.isLast, hnone⟩, ?_⟩
          rw [← hs]
          unfold MetaStream.frames
          rw [List.append_assoc, List.cons_append]

/--
What comes after the last meta end frame repeats what it says, and what comes before it
says nothing that it leaves open.
-/
structure StandsAlone (s : MetaStream) : Prop where
  offset : forall f, s.after.getLast? = some f -> f.offset = s.last.offset
  common : forall f, (s.after.filter Frame.isEndReport).getLast? = some f ->
    f.common = s.last.common
  columns : s.last.isCsvMetaEnd = false -> forall f,
    (s.before.filter Frame.isCsvMetaEnd).getLast? = some f -> f.columns = 0
  message : forall f, (s.after.filter Frame.hasMessage).getLast? = some f ->
    f.message = s.last.message
  noMessage : s.last.hasMessage = false -> forall f, f ∈ s.before -> f.hasMessage = false

end MetaStream

theorem SelectObjectMeta.eq_iff (x y : SelectObjectMeta) :
    x = y ↔ x.offset = y.offset ∧ x.common = y.common ∧
      x.columnsCount = y.columnsCount ∧ x.errorMessage = y.errorMessage := by
  constructor
  · intro hsame
    rw [hsame]
    exact ⟨rfl, rfl, rfl, rfl⟩
  · rcases x with ⟨offset, totalScanned, status, splitsCount, rowsCount, columns, message⟩
    rcases y with ⟨offset', totalScanned', status', splitsCount', rowsCount', columns',
      message'⟩
    rintro ⟨hoffset, hcommon, hcolumns, hmessage⟩
    cases hoffset
    cases hcommon
    cases hcolumns
    cases hmessage
    rfl

/-- No message is left where no frame has one. -/
theorem lastMessage_nil_iff (frames : List Frame) (message : ByteString) :
    lastWord Frame.hasMessage Frame.message frames message = [] ↔
      (forall f, f ∈ frames -> f.hasMessage = false) ∧ message = [] := by
  constructor
  · intro hnil
    have hnone : frames.filter Frame.hasMessage = [] := by
      by_contra hsome
      rcases List.getLast?_isSome.mpr hsome |> Option.isSome_iff_exists.mp with ⟨f, hf⟩
      have hmem := List.mem_of_getLast? hf
      have hhas := (List.mem_filter.mp hmem).2
      unfold lastWord at hnil
      rw [hf] at hnil
      have hempty : f.message = [] := hnil
      unfold Frame.hasMessage at hhas
      rw [hempty] at hhas
      cases hhas
    refine ⟨fun f hf => ?_, ?_⟩
    · exact Bool.not_eq_true _ ▸ List.filter_eq_nil_iff.mp hnone f hf
    · unfold lastWord at hnil
      rw [hnone] at hnil
      exact hnil
  · rintro ⟨hnone, hmessage⟩
    rw [lastWord_unset hnone, hmessage]

namespace MetaStream

open SelectMetaFrameParser

variable (s : MetaStream)

/-- What the parser has found out when the last meta end frame begins. -/
def known : SelectObjectMeta := tellAll s.before

theorem tellAll_frames : tellAll s.frames = s.after.foldl tell (tell s.known s.last) := by
  unfold tellAll frames
  rw [List.foldl_append, List.foldl_cons]
  rfl

theorem offset_iff : (tellAll s.frames).offset = s.last.offset.toInt ↔
    forall f, s.after.getLast? = some f -> f.offset = s.last.offset := by
  have hlast : (tell s.known s.last).offset = s.last.offset.toInt :=
    (tell_offset _ _).trans (if_pos rfl)
  have hall : s.after.filter (fun _ => true) = s.after :=
    List.filter_eq_self.mpr fun _ _ => rfl
  have hfold := @field_foldl _ _ _ (fun _ => true) (fun f : Frame => f.offset.toInt) tell
    SelectObjectMeta.offset tell_offset s.after (tell s.known s.last)
  rw [tellAll_frames, hfold, hlast, lastWord_eq_iff, hall]
  constructor
  · exact fun h f hf => BitVec.eq_of_toInt_eq (h f hf)
  · exact fun h f hf => congrArg BitVec.toInt (h f hf)

theorem common_iff : (tellAll s.frames).common = s.last.common ↔
    forall f, (s.after.filter Frame.isEndReport).getLast? = some f ->
      f.common = s.last.common := by
  have hlast : (tell s.known s.last).common = s.last.common := by
    rw [tell_common, s.isLast, Bool.true_or, if_pos rfl]
  have hends : s.after.filter (fun f => f.isMetaEnd || f.isEndReport) =
      s.after.filter Frame.isEndReport := by
    apply List.filter_congr
    intro f hf
    rw [s.noneAfter f hf, Bool.false_or]
  have hfold := @field_foldl _ _ _ (fun f => f.isMetaEnd || f.isEndReport) Frame.common tell
    SelectObjectMeta.common tell_common s.after (tell s.known s.last)
  rw [tellAll_frames, hfold, hlast, lastWord_eq_iff, hends]

theorem columnsCount_iff : (tellAll s.frames).columnsCount = s.last.toMeta.columnsCount ↔
    (s.last.isCsvMetaEnd = false -> forall f,
      (s.before.filter Frame.isCsvMetaEnd).getLast? = some f -> f.columns = 0) := by
  have hnone : forall f, f ∈ s.after -> f.isCsvMetaEnd = false := by
    intro f hf
    have hnot := s.noneAfter f hf
    unfold Frame.isMetaEnd at hnot
    exact (Bool.or_eq_false_iff.mp hnot).1
  rw [tellAll_frames, field_foldl tell_columnsCount, lastWord_unset hnone,
    tell_columnsCount]
  have hknown : s.known.columnsCount =
      lastWord Frame.isCsvMetaEnd Frame.columns s.before 0 :=
    field_foldl tell_columnsCount s.before SelectObjectMeta.empty
  change _ = (if s.last.isCsvMetaEnd then s.last.columns else 0) ↔ _
  cases s.last.isCsvMetaEnd with
  | true => exact ⟨fun _ h => (nomatch h), fun _ => rfl⟩
  | false =>
      have hiff := @lastWord_eq_iff _ _ Frame.isCsvMetaEnd Frame.columns s.before (0 : Int)
      rw [← hknown] at hiff
      exact ⟨fun h _ => hiff.mp h, fun h => hiff.mpr (h rfl)⟩

theorem errorMessage_iff : (tellAll s.frames).errorMessage = s.last.message ↔
    (forall f, (s.after.filter Frame.hasMessage).getLast? = some f ->
      f.message = s.last.message) ∧
    (s.last.hasMessage = false -> forall f, f ∈ s.before -> f.hasMessage = false) := by
  rw [tellAll_frames, field_foldl tell_errorMessage, tell_errorMessage]
  have hknown : s.known.errorMessage =
      lastWord Frame.hasMessage Frame.message s.before [] :=
    field_foldl tell_errorMessage s.before SelectObjectMeta.empty
  cases hhas : s.last.hasMessage with
  | true =>
      rw [if_pos rfl, lastWord_eq_iff]
      exact ⟨fun h => ⟨h, fun hnone => (nomatch hnone)⟩, fun h => h.1⟩
  | false =>
      have hempty : s.last.message = [] := by
        unfold Frame.hasMessage at hhas
        rw [Bool.not_eq_false', List.isEmpty_iff] at hhas
        exact hhas
      have hbefore := lastMessage_nil_iff s.before []
      have hafter := lastMessage_nil_iff s.after []
      rw [lastWord_eq_iff] at hafter
      rw [if_neg Bool.false_ne_true, hempty, lastMessage_nil_iff, hknown, hafter, hbefore]
      constructor
      · rintro ⟨hlater, hearlier⟩
        exact ⟨⟨hlater, rfl⟩, fun _ => hearlier.1⟩
      · rintro ⟨hlater, hearlier⟩
        exact ⟨hlater.1, hearlier rfl, rfl⟩

theorem tellAll_eq_iff : tellAll s.frames = s.last.toMeta ↔ s.StandsAlone := by
  have hcommon : s.last.toMeta.common = s.last.common := rfl
  have hoffset : s.last.toMeta.offset = s.last.offset.toInt := rfl
  have hmessage : s.last.toMeta.errorMessage = s.last.message := rfl
  rw [SelectObjectMeta.eq_iff, hcommon, hoffset, hmessage, s.offset_iff, s.common_iff,
    s.columnsCount_iff, s.errorMessage_iff]
  constructor
  · rintro ⟨hoffset, hcommon, hcolumns, hmessage, hnone⟩
    exact ⟨hoffset, hcommon, hcolumns, hmessage, hnone⟩
  · rintro ⟨hoffset, hcommon, hcolumns, hmessage, hnone⟩
    exact ⟨hoffset, hcommon, hcolumns, hmessage, hnone⟩

end MetaStream

end Internal

namespace Transform

open Foundation
open Internal

theorem toCreateSelectObjectMeta_frames (output : OperationOutput) (s : MetaStream) :
    toCreateSelectObjectMeta { output with body := some s.bytes } =
      .ok ⟨output.statusCode, output.headers, SelectMetaFrameParser.tellAll s.frames⟩ := by
  have hwhole : [s.bytes].flatten = (s.frames.map Frame.build).flatten :=
    List.flatten_singleton
  rcases SelectMetaFrameParser.parse_build hwhole with ⟨herror, hout⟩
  have hgood : (SelectMetaFrameParser.iostate (parsedMeta s.bytes)).fail = false := by
    have herror' : (parsedMeta s.bytes).error = false := herror
    unfold SelectMetaFrameParser.iostate
    rw [herror']
    rfl
  have hout' : (parsedMeta s.bytes).out = SelectMetaFrameParser.tellAll s.frames := hout
  unfold toCreateSelectObjectMeta
  simp only [hgood, Bool.false_eq_true, if_false, hout']

/--
The result is that of the last meta end frame if and only if every field of it is that of
the last frame to set it: nothing behind it has another offset or another report, and
nothing before it has columns that it does not count, or a message that it does not have.
-/
theorem toCreateSelectObjectMeta_last_iff (output : OperationOutput) (s : MetaStream) :
    toCreateSelectObjectMeta { output with body := some s.bytes } =
        .ok ⟨output.statusCode, output.headers, s.last.toMeta⟩ ↔ s.StandsAlone := by
  rw [toCreateSelectObjectMeta_frames, ← s.tellAll_eq_iff]
  constructor
  · intro hsame
    exact (CreateSelectObjectMetaResult.mk.inj (Except.ok.inj hsame)).2.2
  · intro hsame
    rw [hsame]

/-- A csv file of three columns that could not be read to its end. -/
def csvMetaEnd : Frame :=
  ⟨1, 0x800006, 0, 5, List.replicate 27 0 ++ [3, 33], false, by decide⟩

/-- A json file that was read without an error. -/
def jsonMetaEnd : Frame := ⟨1, 0x800007, 0, 9, List.replicate 24 0, false, by decide⟩

def continuousFrame : Frame := ⟨1, 0x800004, 0, 7, [], false, by decide⟩

def csvThenJson : MetaStream :=
  ⟨[csvMetaEnd], jsonMetaEnd, [], by decide, by decide⟩

def jsonThenContinuous : MetaStream :=
  ⟨[], jsonMetaEnd, [continuousFrame], by decide, by decide⟩

/--
The result of the json frame has the columns and the message of the csv frame before it,
or the offset of the continuous frame behind it.
-/
theorem not_toCreateSelectObjectMeta_last :
    toCreateSelectObjectMeta ⟨200, SortedMap.empty, some csvThenJson.bytes⟩ ≠
        .ok ⟨200, SortedMap.empty, jsonMetaEnd.toMeta⟩ ∧
      toCreateSelectObjectMeta ⟨200, SortedMap.empty, some jsonThenContinuous.bytes⟩ ≠
        .ok ⟨200, SortedMap.empty, jsonMetaEnd.toMeta⟩ := by
  have hcsv := toCreateSelectObjectMeta_frames ⟨200, SortedMap.empty, none⟩ csvThenJson
  have hcontinuous :=
    toCreateSelectObjectMeta_frames ⟨200, SortedMap.empty, none⟩ jsonThenContinuous
  constructor
  · intro hsame
    have hfields := (CreateSelectObjectMetaResult.mk.inj
      (Except.ok.inj (hcsv.symm.trans hsame))).2.2
    have hcolumns := congrArg SelectObjectMeta.columnsCount hfields
    revert hcolumns
    decide +kernel
  · intro hsame
    have hfields := (CreateSelectObjectMetaResult.mk.inj
      (Except.ok.inj (hcontinuous.symm.trans hsame))).2.2
    have hoffset := congrArg SelectObjectMeta.offset hfields
    revert hoffset
    decide +kernel

end Transform
end OssSdk
