import OssSdk.Foundation.BigEndian
import OssSdk.Internal.SelectFrameDecoder

/-!
# The length field of a frame

The length in a header is a number of 32 bits that counts the offset too.  The parsers
narrow it to an `int` and subtract the eight bytes of the offset, which is right for the
lengths that have these bytes and whose number is one of an `int`.
-/

namespace OssSdk
namespace Internal

open Foundation

variable {ω σ : Type}

/-!
# The number that is left of a length
-/

/-- The length that is on the wire. -/
def lengthField (header : ByteString) : Nat := readBE ((header.drop 4).take 4)

/-- `static_cast<std::int32_t>(payloadLength) - 8` is a number that an `int` has. -/
def SubtractsOffset (header : ByteString) : Prop :=
  -2 ^ 31 ≤ (readBE32 (header.drop 4)).toInt - 8

theorem lengthField_lt (header : ByteString) : lengthField header < 2 ^ 32 := by
  have hvalue := BigEndian.value_lt ((header.drop 4).take 4)
  have hlength : ((header.drop 4).take 4).length ≤ 4 := List.length_take_le _ _
  have hpow := Nat.pow_le_pow_right (show 0 < 256 by decide) hlength
  exact Nat.lt_of_lt_of_le hvalue hpow

theorem toNat_lengthField (header : ByteString) :
    (readBE32 (header.drop 4)).toNat = lengthField header := by
  unfold readBE32
  rw [BitVec.toNat_ofNat]
  exact Nat.mod_eq_of_lt (lengthField_lt header)

theorem subtractsOffset_iff (header : ByteString) :
    SubtractsOffset header ↔
      lengthField header < 2 ^ 31 ∨ 2 ^ 31 + 8 ≤ lengthField header := by
  have hlength := lengthField_lt header
  unfold SubtractsOffset
  rw [BitVec.toInt_eq_toNat_cond, toNat_lengthField]
  split
  · omega
  · omega

/-- What the counter of a payload begins with. -/
theorem payloadRemainsOf_eq (header : ByteString) :
    payloadRemainsOf header =
      if lengthField header < 2 ^ 31 + 8 then (lengthField header : Int) - 8
      else (lengthField header : Int) - 8 - 2 ^ 32 := by
  have hlength := lengthField_lt header
  unfold payloadRemainsOf
  rw [BitVec.toInt_eq_toNat_bmod, BitVec.toNat_sub, toNat_lengthField]
  have height : (8 : BitVec 32).toNat = 8 := rfl
  rw [height]
  split
  · rw [Int.bmod_def]
    omega
  · rw [Int.bmod_def]
    omega

/-- Any other length is taken for that of an empty payload. -/
theorem payloadRemainsOf_nonpos {header : ByteString}
    (hlength : lengthField header ≤ 8 ∨ 2 ^ 31 + 8 ≤ lengthField header) :
    (payloadRemainsOf header).toNat = 0 := by
  have hless := lengthField_lt header
  rw [payloadRemainsOf_eq]
  split
  · omega
  · omega

/-!
# What is read for a length
-/

/--
What a parser has made of the bytes that follow a header: all but eight of the length are
the payload, then there are four of the checksum, and the next header begins.
-/
structure ReadsLength (header following : ByteString) (d : FrameParser ω) : Prop where
  offset : 8 ≤ lengthField header
  unfinished : following.length < lengthField header - 8 + 4 ->
    d.frame.header = header ∧
      d.frame.payloadRemains =
        (lengthField header : Int) - 8 -
          min following.length (lengthField header - 8) ∧
      d.frame.tail = following.drop (lengthField header - 8)
  checked : lengthField header - 8 + 4 ≤ following.length ->
    let tail := (following.drop (lengthField header - 8)).take 4
    readBE32 tail = 0 ∨
      readBE32 tail =
        calcCRC32 0 (header.drop 12 ++ following.take (lengthField header - 8))
  next : lengthField header - 8 + 4 ≤ following.length ->
    following.length < lengthField header - 8 + 4 + FRAME_HEADER_LEN ->
    d.frame.header = following.drop (lengthField header - 8 + 4) ∧ d.frame.tail = []

/-- For every stream that follows the header, in any chunks. -/
structure HonoursLength (A : FrameActions ω σ) (header : ByteString)
    (d : FrameParser ω) (env : σ) : Prop where
  subtracts : SubtractsOffset header
  reads : forall chunks following, chunks.flatten = header ++ following ->
    (A.writeAll chunks (d, env)).1.error = true ∨
      ReadsLength header following (A.writeAll chunks (d, env)).1

section Parser

variable {A : FrameActions ω σ} {init : ω} {d : FrameParser ω} {env : σ}
variable {a : Deframer σ} {header following : ByteString}

/-- The frames that have been taken in have the checksums that they say. -/
def Deframer.Checked (a : Deframer σ) : Prop :=
  forall f, f ∈ a.frames -> SelectFrame.checksumHolds f = true

theorem Deframer.Checked.takeAll (hchecked : a.Checked) (hbetween : a.Between)
    (chunks : List ByteString)
    (hgood : (A.takeAll a chunks).fault = false) : (A.takeAll a chunks).Checked := by
  induction chunks generalizing a with
  | nil => exact hchecked
  | cons chunk rest ih =>
      rcases takeAll_good hgood with ⟨hfault, hfirst⟩
      have hframes := (takeFrames_feed chunk.length hfault (hbetween hfault)
        (Nat.le_refl _) hfirst).2
      refine @ih (A.takeIn a chunk) ?_ (hbetween.takeIn chunk) hgood
      intro f hf
      rcases hframes f hf with hold | hholds
      · exact hchecked f hold
      · exact hholds

section Accepted

theorem payloadRemainsOf_accepted (hint : lengthField header < 2 ^ 31) :
    payloadRemainsOf header = (lengthField header : Int) - 8 := by
  rw [payloadRemainsOf_eq]
  exact if_pos (Nat.lt_of_lt_of_le hint (Nat.le_add_right _ _))

variable (hheader : header.length = FRAME_HEADER_LEN)
variable (hoffset : 8 ≤ lengthField header) (hint : lengthField header < 2 ^ 31)
include hheader hoffset hint

theorem payloadSize_accepted (following : ByteString) :
    SelectFrame.payloadSize (header ++ following) = lengthField header - 8 := by
  have hsame : SelectFrame.header (header ++ following) = header := List.take_left' hheader
  unfold SelectFrame.payloadSize
  rw [hsame, payloadRemainsOf_accepted hint]
  omega

theorem frameLength_accepted (following : ByteString) :
    SelectFraming.length (header ++ following) =
      FRAME_HEADER_LEN + (lengthField header - 8 + 4) := by
  have hlong : FRAME_HEADER_LEN ≤ (header ++ following).length := by
    rw [List.length_append, hheader]
    exact Nat.le_add_right _ _
  rw [SelectFrame.length_eq hlong, SelectFrame.tailOffset,
    payloadSize_accepted hheader hoffset hint, Nat.add_assoc]

/-- The counter and the tail of a frame that is not complete. -/
theorem of_accepted (keeps : Nat -> Bool) (following : ByteString) :
    (FrameState.of keeps (header ++ following)).header = header ∧
      (FrameState.of keeps (header ++ following)).payloadRemains =
        (lengthField header : Int) - 8 -
          min following.length (lengthField header - 8) ∧
      (FrameState.of keeps (header ++ following)).tail =
        following.drop (lengthField header - 8) := by
  have hsame : SelectFrame.header (header ++ following) = header := List.take_left' hheader
  refine ⟨hsame, ?_, ?_⟩
  · simp only [FrameState.of, hsame, payloadRemainsOf_accepted hint,
      payloadSize_accepted hheader hoffset hint, List.length_append, hheader,
      Nat.add_sub_cancel_left]
  · simp only [FrameState.of, SelectFrame.tail, SelectFrame.tailOffset,
      payloadSize_accepted hheader hoffset hint]
    rw [← hheader, List.drop_append, List.drop_eq_nil_of_le (Nat.le_add_right _ _),
      List.nil_append, Nat.add_sub_cancel_left]

/-- The checksum is that of the payload, and is read behind it. -/
theorem checksumHolds_accepted {following : ByteString}
    (hholds : SelectFrame.checksumHolds
      (header ++ following.take (lengthField header - 8 + 4)) = true) :
    readBE32 ((following.drop (lengthField header - 8)).take 4) = 0 ∨
      readBE32 ((following.drop (lengthField header - 8)).take 4) =
        calcCRC32 0 (header.drop 12 ++ following.take (lengthField header - 8)) := by
  have htail : SelectFrame.tail (header ++ following.take (lengthField header - 8 + 4)) =
      (following.drop (lengthField header - 8)).take 4 := by
    have htail := (of_accepted hheader hoffset hint (fun _ => false)
      (following.take (lengthField header - 8 + 4))).2.2
    rw [List.drop_take, Nat.add_sub_cancel_left] at htail
    exact htail
  have hcovered :
      SelectFrame.covered (header ++ following.take (lengthField header - 8 + 4)) =
        header.drop 12 ++ following.take (lengthField header - 8) := by
    unfold SelectFrame.covered SelectFrame.tailOffset
    rw [payloadSize_accepted hheader hoffset hint, ← hheader, List.take_append,
      List.take_of_length_le (Nat.le_add_right _ _), Nat.add_sub_cancel_left,
      List.take_take, Nat.min_eq_left (Nat.le_add_right _ _),
      List.drop_append_of_le_length (by rw [hheader]; decide)]
  unfold SelectFrame.checksumHolds at hholds
  rw [htail, hcovered, Bool.or_eq_true, beq_iff_eq, beq_iff_eq] at hholds
  exact hholds

/-- Without an error, a length that has the offset and is one of an `int` is read. -/
theorem readsLength_accepted (hrepresents : Represents A init d env a)
    (hpending : a.pending = []) (hchecked : a.Checked)
    {chunks : List ByteString} (hstream : chunks.flatten = header ++ following)
    (hgood : (A.writeAll chunks (d, env)).1.error = false) :
    ReadsLength header following (A.writeAll chunks (d, env)).1 := by
  have hrepresents' := hrepresents.writeAll chunks
  have hfault' : (A.takeAll a chunks).fault = false :=
    hrepresents'.reflects.error.symm.trans hgood
  have hbetween : a.Between := fun h => (hrepresents.good h).2
  have hfed := takeAll_feed hbetween chunks hfault'
  have hchecked' := hchecked.takeAll hbetween chunks hfault'
  have hframe := hrepresents'.reflects.frame hfault'
  rw [hstream, hpending] at hfed
  have hwhole : lengthField header - 8 + 4 ≤ following.length ->
      SelectFraming.Whole (header ++ following.take (lengthField header - 8 + 4)) := by
    intro hlong
    unfold Framing.Whole
    rw [frameLength_accepted hheader hoffset hint, List.length_append, hheader,
      List.length_take, Nat.min_eq_left hlong]
  have hrest : lengthField header - 8 + 4 ≤ following.length ->
      SelectFraming.feed
          ⟨a.frames ++ [header ++ following.take (lengthField header - 8 + 4)], []⟩
          (following.drop (lengthField header - 8 + 4)) =
        ⟨(A.takeAll a chunks).frames, (A.takeAll a chunks).pending⟩ := by
    intro hlong
    have hne : header ++ following.take (lengthField header - 8 + 4) ≠ [] :=
      Framing.ne_nil_of_whole (hwhole hlong)
    have hsplit : header ++ following =
        (header ++ following.take (lengthField header - 8 + 4)) ++
          following.drop (lengthField header - 8 + 4) := by
      rw [List.append_assoc, List.take_append_drop]
    rw [hsplit, Framing.feed_append,
      Framing.feed_whole ⟨a.frames, []⟩ hne (hwhole hlong)] at hfed
    exact hfed
  constructor
  · exact hoffset
  · intro hshort
    have hunfinished : SelectFraming.Partial (header ++ following) := by
      unfold Framing.Partial
      rw [frameLength_accepted hheader hoffset hint, List.length_append, hheader]
      exact Nat.add_lt_add_left hshort _
    have hkept : header ++ following = (A.takeAll a chunks).pending :=
      congrArg Split.pending
        ((Framing.feed_partial ⟨a.frames, []⟩ _ hunfinished).symm.trans hfed)
    rw [← hkept] at hframe
    have hfull : FRAME_HEADER_LEN ≤ (header ++ following).length := by
      rw [List.length_append, hheader]
      exact Nat.le_add_right _ _
    rw [hframe.full hfull]
    exact of_accepted hheader hoffset hint A.keeps following
  · intro hlong
    refine checksumHolds_accepted hheader hoffset hint (hchecked' _ ?_)
    have hframes := congrArg Split.frames (hrest hlong)
    simp only at hframes
    rw [← hframes]
    exact Framing.frames_feed _ _ (List.mem_append_right _ List.mem_cons_self)
  · intro hlong hnext
    have hshort : (following.drop (lengthField header - 8 + 4)).length <
        SelectFraming.headerLength := by
      rw [List.length_drop]
      change _ < FRAME_HEADER_LEN
      omega
    have hkept : following.drop (lengthField header - 8 + 4) =
        (A.takeAll a chunks).pending :=
      congrArg Split.pending ((Framing.feed_partial
        ⟨a.frames ++ [header ++ following.take (lengthField header - 8 + 4)], []⟩ _
        (Framing.partial_of_short hshort)).symm.trans (hrest hlong))
    rw [← hkept] at hframe
    refine ⟨hframe.header.trans ?_, (hframe.short hshort).1⟩
    exact List.take_of_length_le (Nat.le_of_lt hshort)

end Accepted

/-- The header alone is no frame, and leaves no error. -/
theorem header_accepted (hheader : header.length = FRAME_HEADER_LEN)
    (hrepresents : Represents A init d env a)
    (hfault : a.fault = false) (hpending : a.pending = []) :
    (A.writeAll [header] (d, env)).1.error = false ∧
      (A.writeAll [header] (d, env)).1.frame.payloadRemains =
        payloadRemainsOf header := by
  have hunfinished : SelectFraming.Partial (a.pending ++ header) := by
    rw [hpending, List.nil_append]
    unfold Framing.Partial
    rw [SelectFrame.length_eq (Nat.le_of_eq hheader.symm), hheader]
    exact Nat.lt_of_le_of_lt (Nat.le_add_right _ _) (Nat.lt_add_of_pos_right (by decide))
  have hnothing : A.handOn a.pending header a.env = (true, a.env) := by
    have hpiece : FrameActions.piece a.pending header = [] := by
      unfold FrameActions.piece
      rw [hpending, List.nil_append]
      refine List.drop_eq_nil_of_le ?_
      exact le_trans (List.length_take_le' _ _) (le_trans hheader.le (le_max_left _ _))
    unfold FrameActions.handOn
    rw [hpiece]
    rfl
  have htaken : A.takeAll a [header] = { a with pending := header } := by
    have hne : header ≠ [] := by
      intro hnil
      rw [hnil] at hheader
      cases hheader
    have hframe := takeFrame_partial (A := A) hunfinished
    rw [hnothing, hpending, List.nil_append] at hframe
    have hbetween : a.Between := fun h => (hrepresents.good h).2
    change A.takeIn a header = _
    rw [takeIn_step hbetween hfault hne, hframe]
    exact takeIn_stop (Or.inr rfl)
  have hrepresents' := hrepresents.writeAll [header]
  rw [htaken] at hrepresents'
  have herror := hrepresents'.reflects.error
  have hframe := (hrepresents'.reflects.frame hfault).full (Nat.le_of_eq hheader.symm)
  refine ⟨herror.trans hfault, ?_⟩
  rw [hframe, FrameState.of_header _ hheader]

/-- The lengths that a parser honours. -/
theorem honoursLength_iff (hheader : header.length = FRAME_HEADER_LEN)
    (hrepresents : Represents A init d env a) (hchecked : a.Checked) (hrest : d.AtRest) :
    HonoursLength A header d env ↔
      8 ≤ lengthField header ∧ lengthField header < 2 ^ 31 := by
  rcases hrepresents.atRest_iff.mp hrest with ⟨hfault, hpending⟩
  constructor
  · intro hhonours
    rcases header_accepted hheader hrepresents hfault hpending with ⟨hgood, hremains⟩
    have hreads := hhonours.reads [header] [] (by simp)
    rw [hgood] at hreads
    rcases hreads with hbad | hreads
    · cases hbad
    · refine ⟨hreads.offset, ?_⟩
      have hcounter := (hreads.unfinished (Nat.succ_pos _)).2.1
      rw [hremains, payloadRemainsOf_eq] at hcounter
      rcases (subtractsOffset_iff header).mp hhonours.subtracts with hsmall | hlarge
      · exact hsmall
      · rw [if_neg (by omega)] at hcounter
        simp only [List.length_nil, Nat.zero_min] at hcounter
        omega
  · intro hlength
    rcases hlength with ⟨hoffset, hint⟩
    refine ⟨(subtractsOffset_iff header).mpr (Or.inl hint), ?_⟩
    intro chunks following hstream
    cases hgood : (A.writeAll chunks (d, env)).1.error with
    | true => exact Or.inl rfl
    | false =>
        exact Or.inr (readsLength_accepted hheader hoffset hint hrepresents hpending
          hchecked hstream hgood)

/-- Between two frames that have come in without an error, no frame is wrong. -/
theorem honoursLength_reached (hheader : header.length = FRAME_HEADER_LEN) (env : σ)
    (before : List ByteString)
    (hrest : (A.writeAll before (FrameParser.init init, env)).1.AtRest) :
    HonoursLength A header (A.writeAll before (FrameParser.init init, env)).1
        (A.writeAll before (FrameParser.init init, env)).2 ↔
      8 ≤ lengthField header ∧ lengthField header < 2 ^ 31 := by
  have hrepresents := (represents_init A init env).writeAll before
  have hfault := (hrepresents.atRest_iff.mp hrest).1
  have hnone : (Deframer.init env).Checked := fun _ h => absurd h List.not_mem_nil
  have hchecked := hnone.takeAll (Deframer.between_init env) before hfault
  exact honoursLength_iff hheader hrepresents hchecked hrest

end Parser

/--
Where a header begins, the decoder and the parser of a meta result read as many bytes as
its length says exactly if that has the offset and is one of an `int`.
-/
theorem honoursLength_between_iff (header : ByteString)
    (hheader : header.length = FRAME_HEADER_LEN) (before : List ByteString)
    (inner : Option (ByteWriter σ)) (env : σ) :
    let decoder := SelectFrameDecodingWriter.actions inner
    let s := decoder.writeAll before (SelectFrameDecodingWriter.init, env)
    let parser := SelectMetaFrameParser.actions
    let s' := parser.writeAll before (SelectMetaFrameParser.init, ())
    (s.1.AtRest -> (HonoursLength decoder header s.1 s.2 ↔
      8 ≤ lengthField header ∧ lengthField header < 2 ^ 31)) ∧
    (s'.1.AtRest -> (HonoursLength parser header s'.1 s'.2 ↔
      8 ≤ lengthField header ∧ lengthField header < 2 ^ 31)) := by
  intro decoder s parser s'
  exact ⟨honoursLength_reached hheader env before,
    honoursLength_reached hheader () before⟩

/-- The header of a data frame with this length. -/
def dataHeader (length : BitVec 32) : ByteString :=
  [1] ++ BigEndian.encode 3 FRAME_TYPE_DATA ++ BigEndian.encode 4 length.toNat ++
    List.replicate 12 0

theorem honoursLength_between_fourBytes :
    HonoursLength (SelectFrameDecodingWriter.actions (some (OStreamWriter stringstream)))
        (dataHeader 12) SelectFrameDecodingWriter.init [] ∧
      HonoursLength SelectMetaFrameParser.actions (dataHeader 12)
        SelectMetaFrameParser.init () := by
  have hboth := honoursLength_between_iff (dataHeader 12) (by decide) []
    (some (OStreamWriter stringstream)) []
  have hlength : 8 ≤ lengthField (dataHeader 12) ∧
      lengthField (dataHeader 12) < 2 ^ 31 := by
    decide +kernel
  exact ⟨(hboth.1 ⟨rfl, rfl, le_rfl, rfl⟩).mpr hlength,
    (hboth.2 ⟨rfl, rfl, le_rfl, rfl⟩).mpr hlength⟩

/--
Frames that are four bytes long, or more than an `int` can say, are taken for empty: the
four bytes after the header are a checksum of zero, and the parsers are ready for the next.
-/
theorem not_honoursLength_dataFrame :
    let decoder := SelectFrameDecodingWriter.actions (some (OStreamWriter stringstream))
    let parser := SelectMetaFrameParser.actions
    (decoder.writeAll [dataHeader 4 ++ [0, 0, 0, 0]]
        (SelectFrameDecodingWriter.init, [])).1.AtRest ∧
      ¬ HonoursLength decoder (dataHeader 4) SelectFrameDecodingWriter.init [] ∧
      (parser.writeAll [dataHeader 0x80000010 ++ [0, 0, 0, 0]]
        (SelectMetaFrameParser.init, ())).1.AtRest ∧
      ¬ HonoursLength parser (dataHeader 0x80000010) SelectMetaFrameParser.init () := by
  intro decoder parser
  have hrest : forall length, ¬ (8 ≤ lengthField (dataHeader length) ∧
      lengthField (dataHeader length) < 2 ^ 31) ->
      ¬ HonoursLength decoder (dataHeader length) SelectFrameDecodingWriter.init [] ∧
      ¬ HonoursLength parser (dataHeader length) SelectMetaFrameParser.init () := by
    intro length hwrong
    have hheader : (dataHeader length).length = FRAME_HEADER_LEN := by
      simp only [dataHeader, List.length_append, BigEndian.length_encode,
        List.length_singleton, List.length_replicate, FRAME_HEADER_LEN]
    have hdecoder := (@honoursLength_reached _ _ decoder ⟨0, []⟩ _ hheader [] []
      ⟨rfl, rfl, le_rfl, rfl⟩).not.mpr hwrong
    have hparser := (@honoursLength_reached _ _ parser SelectObjectMeta.empty _ hheader ()
      [] ⟨rfl, rfl, le_rfl, rfl⟩).not.mpr hwrong
    exact ⟨hdecoder, hparser⟩
  refine ⟨?_, (hrest 4 (by decide +kernel)).1, ?_,
    (hrest 0x80000010 (by decide +kernel)).2⟩
  · constructor
    · decide +kernel
    · decide +kernel
    · decide +kernel
    · decide +kernel
  · constructor
    · decide +kernel
    · decide +kernel
    · decide +kernel
    · decide +kernel

end Internal
end OssSdk
