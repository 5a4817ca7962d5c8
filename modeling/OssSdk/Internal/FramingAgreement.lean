import OssSdk.Internal.SelectFrameDecoder

/-!
# Two parsers of one framing

The decoder of a select result and the parser of a meta result each have a `parseFrame` of
their own.  Where no payload is refused they go through the same states, whatever they
keep of the payloads.
-/

namespace OssSdk
namespace Internal

open Foundation

variable {ω ω' σ ρ : Type}

/-!
# What each class does with a frame
-/

/-- The loop of `processBuffer` over the function of a class. -/
def framesBy (parseFrame : Parsing ω σ -> Bool × Parsing ω σ) :
    Nat -> Parsing ω σ -> Parsing ω σ
  | 0, s => s
  | n + 1, s =>
      if s.ptr.isEmpty || s.error then s
      else
        match parseFrame s with
        | (false, s) => s
        | (true, s) => framesBy parseFrame n s

def processBufferBy (parseFrame : Parsing ω σ -> Bool × Parsing ω σ) (d : FrameParser ω)
    (env : σ) : FrameParser ω × σ :=
  let s := framesBy parseFrame d.buffer.length { d with env := env, ptr := d.buffer }
  ({ s.toFrameParser with buffer := s.ptr }, s.env)

def onWriteBy (parseFrame : Parsing ω σ -> Bool × Parsing ω σ) (data : ByteString)
    (d : FrameParser ω) (env : σ) : Nat × FrameParser ω × σ :=
  if d.error then (0, d, env)
  else
    let (d, env) := processBufferBy parseFrame { d with buffer := d.buffer ++ data } env
    (if d.error then 0 else data.length, d, env)

def writeAllBy (parseFrame : Parsing ω σ -> Bool × Parsing ω σ)
    (chunks : List ByteString) (s : FrameParser ω × σ) : FrameParser ω × σ :=
  chunks.foldl (fun s data => (onWriteBy parseFrame data s.1 s.2).2) s

namespace SelectFrameDecodingWriter

/-- From the third phase on. -/
def parseTail (s : Parsing DecodedResult σ) : Bool × Parsing DecodedResult σ :=
  let copy := min (4 - s.frame.tail.length) s.ptr.length
  if s.frame.tail.length < 4 ∧ copy = 0 then (false, s)
  else
    let s :=
      if s.frame.tail.length < 4 then
        { s with
          frame := { s.frame with tail := s.frame.tail ++ s.ptr.take copy }
          ptr := s.ptr.drop copy }
      else s
    if s.frame.tail.length < 4 then (false, s)
    else
      let expectedCrc := readBE32 s.frame.tail
      if expectedCrc ≠ 0 ∧ expectedCrc ≠ s.frame.payloadCrc32 then
        (false,
          { s with
            error := true
            out := { s.out with errorMessage := bytes "CRC32 checksum mismatch" } })
      else
        let out :=
          if s.frame.frameType = FRAME_TYPE_END ∧ 12 ≤ s.frame.endFrameData.length then
            { s.out with endStatus := readBE32Signed (s.frame.endFrameData.drop 8) }
          else s.out
        (true,
          { s with
            out := out
            frame :=
              { s.frame with header := [], tail := [], payloadRemains := 0, frameType := 0 } })

def parseFrame (inner : ByteWriter σ) (s : Parsing DecodedResult σ) :
    Bool × Parsing DecodedResult σ :=
  let s :=
    if s.frame.header.length < FRAME_HEADER_LEN then
      let copy := min (FRAME_HEADER_LEN - s.frame.header.length) s.ptr.length
      let header := s.frame.header ++ s.ptr.take copy
      { s with
        frame :=
          if header.length = FRAME_HEADER_LEN then
            { s.frame with
              header := header
              payloadRemains := payloadRemainsOf header
              frameType := frameTypeOf header
              payloadCrc32 := calcCRC32 0 ((header.drop 12).take 8)
              endFrameData := [] }
          else { s.frame with header := header }
        ptr := s.ptr.drop copy }
    else s
  if s.frame.header.length < FRAME_HEADER_LEN then (false, s)
  else if 0 < s.frame.payloadRemains then
    let copy := min s.frame.payloadRemains.toNat s.ptr.length
    if copy = 0 then (false, s)
    else
      let piece := s.ptr.take copy
      let crc := calcCRC32 s.frame.payloadCrc32 piece
      let (written, env) :=
        if s.frame.frameType = FRAME_TYPE_DATA then inner.write piece s.env
        else (copy, s.env)
      if s.frame.frameType = FRAME_TYPE_DATA ∧ written = 0 ∧ inner.fail env = true then
        (false,
          { s with
            frame := { s.frame with payloadCrc32 := crc }
            error := true
            env := env })
      else
        let s : Parsing DecodedResult σ :=
          { s with
            frame :=
              { s.frame with
                payloadCrc32 := crc
                payloadRemains := s.frame.payloadRemains - copy
                endFrameData :=
                  if s.frame.frameType = FRAME_TYPE_END then
                    s.frame.endFrameData ++ piece
                  else s.frame.endFrameData }
            env := env
            ptr := s.ptr.drop copy }
        if 0 < s.frame.payloadRemains then (false, s) else parseTail s
  else parseTail s

end SelectFrameDecodingWriter

namespace SelectMetaFrameParser

/-- From the third phase on. -/
def parseTail (s : Parsing SelectObjectMeta Unit) : Bool × Parsing SelectObjectMeta Unit :=
  let copy := min (4 - s.frame.tail.length) s.ptr.length
  if s.frame.tail.length < 4 ∧ copy = 0 then (false, s)
  else
    let s :=
      if s.frame.tail.length < 4 then
        { s with
          frame := { s.frame with tail := s.frame.tail ++ s.ptr.take copy }
          ptr := s.ptr.drop copy }
      else s
    if s.frame.tail.length < 4 then (false, s)
    else
      let expectedCrc := readBE32 s.frame.tail
      if expectedCrc ≠ 0 ∧ expectedCrc ≠ s.frame.payloadCrc32 then
        (false,
          { s with
            error := true
            out := { s.out with errorMessage := bytes "CRC32 checksum mismatch" } })
      else
        (true,
          { s with
            out := extract s.frame s.out
            frame :=
              { s.frame with
                header := []
                tail := []
                payloadRemains := 0
                frameType := 0
                endFrameData := [] } })

def parseFrame (s : Parsing SelectObjectMeta Unit) :
    Bool × Parsing SelectObjectMeta Unit :=
  let s :=
    if s.frame.header.length < FRAME_HEADER_LEN then
      let copy := min (FRAME_HEADER_LEN - s.frame.header.length) s.ptr.length
      let header := s.frame.header ++ s.ptr.take copy
      { s with
        frame :=
          if header.length = FRAME_HEADER_LEN then
            { s.frame with
              header := header
              payloadRemains := payloadRemainsOf header
              frameType := frameTypeOf header
              payloadCrc32 := calcCRC32 0 ((header.drop 12).take 8)
              endFrameData := [] }
          else { s.frame with header := header }
        ptr := s.ptr.drop copy }
    else s
  if s.frame.header.length < FRAME_HEADER_LEN then (false, s)
  else if 0 < s.frame.payloadRemains then
    let copy := min s.frame.payloadRemains.toNat s.ptr.length
    if copy = 0 then (false, s)
    else
      let piece := s.ptr.take copy
      let s : Parsing SelectObjectMeta Unit :=
        { s with
          frame :=
            { s.frame with
              payloadCrc32 := calcCRC32 s.frame.payloadCrc32 piece
              payloadRemains := s.frame.payloadRemains - copy
              endFrameData :=
                if keeps s.frame.frameType then s.frame.endFrameData ++ piece
                else s.frame.endFrameData }
          ptr := s.ptr.drop copy }
      if 0 < s.frame.payloadRemains then (false, s) else parseTail s
  else parseTail s

end SelectMetaFrameParser

/-!
# One function for both
-/

theorem take_min_length (n : Nat) (data : ByteString) :
    data.take (min n data.length) = data.take n := by
  rcases Nat.le_total n data.length with hle | hge
  · rw [Nat.min_eq_left hle]
  · rw [Nat.min_eq_right hge, List.take_length, List.take_of_length_le hge]

theorem drop_min_length (n : Nat) (data : ByteString) :
    data.drop (min n data.length) = data.drop n := by
  rcases Nat.le_total n data.length with hle | hge
  · rw [Nat.min_eq_left hle]
  · rw [Nat.min_eq_right hge, List.drop_length, List.drop_eq_nil_of_le hge]

/-- A header to which all is copied that there is. -/
theorem readHeader_eq (s : Parsing ω σ) :
    FrameActions.readHeader s =
      if s.frame.header.length < FRAME_HEADER_LEN then
        let copy := min (FRAME_HEADER_LEN - s.frame.header.length) s.ptr.length
        let header := s.frame.header ++ s.ptr.take copy
        { s with
          frame :=
            if header.length = FRAME_HEADER_LEN then
              { s.frame with
                header := header
                payloadRemains := payloadRemainsOf header
                frameType := frameTypeOf header
                payloadCrc32 := calcCRC32 0 ((header.drop 12).take 8)
                endFrameData := [] }
            else { s.frame with header := header }
          ptr := s.ptr.drop copy }
      else s := by
  unfold FrameActions.readHeader
  simp only [take_min_length, drop_min_length]

/-- A tail to which nothing is copied stays as it is. -/
theorem readTail_eq (s : Parsing ω σ) :
    FrameActions.readTail s =
      let copy := min (4 - s.frame.tail.length) s.ptr.length
      if s.frame.tail.length < 4 then
        { s with
          frame := { s.frame with tail := s.frame.tail ++ s.ptr.take copy }
          ptr := s.ptr.drop copy }
      else s := by
  unfold FrameActions.readTail
  simp only [take_min_length, drop_min_length]

theorem readTail_stays {s : Parsing ω σ} (hshort : s.frame.tail.length < 4)
    (hnone : min (4 - s.frame.tail.length) s.ptr.length = 0) :
    FrameActions.readTail s = s := by
  have hptr : s.ptr = [] := by
    apply List.length_eq_zero_iff.mp
    omega
  unfold FrameActions.readTail
  simp only [if_pos hshort, hptr, List.take_nil, List.drop_nil, List.append_nil]
  rcases s with ⟨⟨buffer, frame, error, out⟩, env, ptr⟩
  cases hptr
  rfl

/-- The loop is that of the shared function. -/
theorem framesBy_parseFrame (A : FrameActions ω σ) (n : Nat) (s : Parsing ω σ) :
    framesBy A.parseFrame n s = A.parseFrames n s := by
  induction n generalizing s with
  | zero => rfl
  | succ n ih =>
      unfold framesBy FrameActions.parseFrames
      split
      · rfl
      · rcases A.parseFrame s with ⟨more, s'⟩
        cases more with
        | false => rfl
        | true => exact ih s'

theorem onWriteBy_parseFrame (A : FrameActions ω σ) (data : ByteString)
    (d : FrameParser ω) (env : σ) :
    onWriteBy A.parseFrame data d env = A.onWrite data d env := by
  unfold onWriteBy FrameActions.onWrite processBufferBy FrameActions.processBuffer
  simp only [framesBy_parseFrame]

/-- What comes of a piece that is handed on. -/
theorem parsePiece_eq (A : FrameActions ω σ) (s : Parsing ω σ)
    (hpaying : 0 < s.frame.payloadRemains)
    (hsome : min s.frame.payloadRemains.toNat s.ptr.length ≠ 0) {taken : Bool} {env : σ}
    (hpass : A.pass s.frame.frameType
      (s.ptr.take (min s.frame.payloadRemains.toNat s.ptr.length)) s.env = (taken, env)) :
    goOn A (A.readPayload s) =
      let copy := min s.frame.payloadRemains.toNat s.ptr.length
      let crc := calcCRC32 s.frame.payloadCrc32 (s.ptr.take copy)
      if taken = false then
        (false,
          { s with
            frame := { s.frame with payloadCrc32 := crc }
            error := true
            env := env })
      else
        let s' : Parsing ω σ :=
          { s with
            frame :=
              { s.frame with
                payloadCrc32 := crc
                payloadRemains := s.frame.payloadRemains - copy
                endFrameData :=
                  if A.keeps s.frame.frameType = true then
                    s.frame.endFrameData ++ s.ptr.take copy
                  else s.frame.endFrameData }
            env := env
            ptr := s.ptr.drop copy }
        if 0 < s'.frame.payloadRemains then (false, s') else A.endFrame s' := by
  unfold FrameActions.readPayload goOn
  simp only [if_pos hpaying, if_neg hsome, hpass]
  cases taken with
  | false => rfl
  | true =>
      simp only [Bool.not_true, Bool.false_eq_true, if_false, Bool.true_eq_false]
      by_cases hmore : 0 < s.frame.payloadRemains -
          (min s.frame.payloadRemains.toNat s.ptr.length : Nat)
      · rw [decide_eq_false (Int.not_le.mpr hmore), if_pos hmore]
        rfl
      · rw [decide_eq_true (Int.not_lt.mp hmore), if_neg hmore]
        rfl

namespace SelectFrameDecodingWriter

theorem parseTail_eq (inner : Option (ByteWriter σ)) (s : Parsing DecodedResult σ) :
    parseTail s = (actions inner).endFrame s := by
  unfold parseTail FrameActions.endFrame
  by_cases hnone : s.frame.tail.length < 4 ∧
      min (4 - s.frame.tail.length) s.ptr.length = 0
  · simp only [if_pos hnone, readTail_stays hnone.1 hnone.2, if_pos hnone.1]
  · simp only [if_neg hnone, readTail_eq]
    rfl

/-- A piece of data is handed on to the writer, and no other. -/
theorem passData_eq (inner : ByteWriter σ) (t copy : Nat) (piece : ByteString) (env : σ) :
    passData (some inner) t piece env =
      let r := if t = FRAME_TYPE_DATA then inner.write piece env else (copy, env)
      (!decide (t = FRAME_TYPE_DATA ∧ r.1 = 0 ∧ inner.fail r.2 = true), r.2) := by
  unfold passData
  by_cases hdata : t = FRAME_TYPE_DATA
  · simp only [hdata, true_and]
    rw [Bool.decide_and, Bool.decide_eq_true]
    rfl
  · simp only [hdata, false_and]
    rfl

theorem parseFrame_eq (inner : ByteWriter σ) (s : Parsing DecodedResult σ) :
    parseFrame inner s = (actions (some inner)).parseFrame s := by
  have hkeeps : forall t, ((actions (some inner)).keeps t = true) = (t = FRAME_TYPE_END) :=
    fun t => propext beq_iff_eq
  unfold parseFrame
  rw [parseFrame_goOn, ← readHeader_eq]
  simp only
  generalize FrameActions.readHeader s = s
  split
  · rfl
  · by_cases hpaying : 0 < s.frame.payloadRemains
    · by_cases hnone : min s.frame.payloadRemains.toNat s.ptr.length = 0
      · unfold FrameActions.readPayload
        simp only [if_pos hpaying, if_pos hnone]
        rfl
      · rw [parsePiece_eq (actions (some inner)) s hpaying hnone
          (passData_eq inner _ (min s.frame.payloadRemains.toNat s.ptr.length) _ _)]
        simp only [if_pos hpaying, if_neg hnone, hkeeps, parseTail_eq (some inner),
          Bool.not_eq_false', decide_eq_true_eq]
    · unfold FrameActions.readPayload
      simp only [if_neg hpaying]
      exact parseTail_eq (some inner) s

theorem onWrite_eq (inner : ByteWriter σ) (data : ByteString)
    (d : FrameParser DecodedResult) (env : σ) :
    onWrite (some inner) data d env = onWriteBy (parseFrame inner) data d env := by
  rw [funext (parseFrame_eq inner), onWriteBy_parseFrame]
  rfl

end SelectFrameDecodingWriter

namespace SelectMetaFrameParser

theorem parseTail_eq (s : Parsing SelectObjectMeta Unit) :
    parseTail s = actions.endFrame s := by
  unfold parseTail FrameActions.endFrame
  by_cases hnone : s.frame.tail.length < 4 ∧
      min (4 - s.frame.tail.length) s.ptr.length = 0
  · simp only [if_pos hnone, readTail_stays hnone.1 hnone.2, if_pos hnone.1]
  · simp only [if_neg hnone, readTail_eq]
    rfl

theorem parseFrame_eq (s : Parsing SelectObjectMeta Unit) :
    parseFrame s = actions.parseFrame s := by
  unfold parseFrame
  rw [parseFrame_goOn, ← readHeader_eq]
  simp only
  generalize FrameActions.readHeader s = s
  split
  · rfl
  · by_cases hpaying : 0 < s.frame.payloadRemains
    · by_cases hnone : min s.frame.payloadRemains.toNat s.ptr.length = 0
      · unfold FrameActions.readPayload
        simp only [if_pos hpaying, if_pos hnone]
        rfl
      · rw [@parsePiece_eq _ _ actions s hpaying hnone true s.env rfl]
        simp only [if_pos hpaying, if_neg hnone, parseTail_eq, Bool.true_eq_false,
          if_false]
        rfl
    · unfold FrameActions.readPayload
      simp only [if_neg hpaying]
      exact parseTail_eq s

theorem onWrite_eq (data : ByteString) (d : FrameParser SelectObjectMeta) :
    onWrite data d =
      ((onWriteBy parseFrame data d ()).1, (onWriteBy parseFrame data d ()).2.1) := by
  rw [funext parseFrame_eq, onWriteBy_parseFrame]
  rfl

end SelectMetaFrameParser

/-!
# The same states
-/

/-- How much of a frame has been read, and what is known of it. -/
structure FrameState.SameFraming (f g : FrameState) : Prop where
  header : f.header = g.header
  payloadRemains : f.payloadRemains = g.payloadRemains
  tail : f.tail = g.tail
  payloadCrc32 : f.payloadCrc32 = g.payloadCrc32
  frameType : f.frameType = g.frameType

section Alike

variable {A : FrameActions ω σ} {B : FrameActions ω' ρ} {R : σ -> ρ -> Prop}

/-- A piece is refused by both or by none, as long as the environments are related. -/
def FrameActions.PassesAlike (A : FrameActions ω σ) (B : FrameActions ω' ρ)
    (R : σ -> ρ -> Prop) : Prop :=
  forall frameType piece w w', R w w' ->
    (A.pass frameType piece w).1 = (B.pass frameType piece w').1 ∧
      R (A.pass frameType piece w).2 (B.pass frameType piece w').2

structure Parsing.Alike (R : σ -> ρ -> Prop) (s : Parsing ω σ) (t : Parsing ω' ρ) :
    Prop where
  frame : s.frame.SameFraming t.frame
  error : s.error = t.error
  ptr : s.ptr = t.ptr
  env : R s.env t.env

/-- The same is said of whether to go on, and the same state is left. -/
def StepsAlike (R : σ -> ρ -> Prop) (r : Bool × Parsing ω σ) (r' : Bool × Parsing ω' ρ) :
    Prop :=
  r.1 = r'.1 ∧ r.2.Alike R r'.2

variable {s : Parsing ω σ} {t : Parsing ω' ρ}

theorem readHeader_alike (halike : s.Alike R t) :
    (FrameActions.readHeader s).Alike R (FrameActions.readHeader t) := by
  rcases halike with ⟨hframe, herror, hptr, henv⟩
  unfold FrameActions.readHeader
  rw [hframe.header, hptr]
  split
  · refine ⟨?_, herror, rfl, henv⟩
    simp only
    split
    · exact ⟨rfl, rfl, hframe.tail, rfl, rfl⟩
    · exact ⟨rfl, hframe.payloadRemains, hframe.tail, hframe.payloadCrc32,
        hframe.frameType⟩
  · exact ⟨hframe, herror, hptr, henv⟩

theorem readPayload_alike (hpasses : A.PassesAlike B R) (halike : s.Alike R t) :
    StepsAlike R (A.readPayload s) (B.readPayload t) := by
  rcases halike with ⟨hframe, herror, hptr, henv⟩
  rcases hframe with ⟨hheader, hremains, htail, hcrc, htype⟩
  unfold FrameActions.readPayload
  rw [hremains, hptr]
  split
  · simp only
    split
    · exact ⟨rfl, ⟨hheader, hremains, htail, hcrc, htype⟩, herror, hptr, henv⟩
    · rcases hpasses t.frame.frameType
        (t.ptr.take (min t.frame.payloadRemains.toNat t.ptr.length)) s.env t.env henv with
        ⟨htaken, henv'⟩
      rw [htype, htaken, hcrc]
      split
      · exact ⟨rfl, ⟨hheader, hremains, htail, rfl, rfl⟩, rfl, rfl, henv'⟩
      · exact ⟨rfl, ⟨hheader, rfl, htail, rfl, rfl⟩, herror, rfl, henv'⟩
  · exact ⟨rfl, ⟨hheader, hremains, htail, hcrc, htype⟩, herror, hptr, henv⟩

theorem readTail_alike (halike : s.Alike R t) :
    (FrameActions.readTail s).Alike R (FrameActions.readTail t) := by
  rcases halike with ⟨hframe, herror, hptr, henv⟩
  unfold FrameActions.readTail
  rw [hframe.tail, hptr]
  split
  · exact ⟨⟨hframe.header, hframe.payloadRemains, rfl, hframe.payloadCrc32,
      hframe.frameType⟩, herror, rfl, henv⟩
  · exact ⟨hframe, herror, hptr, henv⟩

theorem finishFrame_alike (halike : s.Alike R t) :
    StepsAlike R (A.finishFrame s) (B.finishFrame t) := by
  rcases halike with ⟨hframe, herror, hptr, henv⟩
  unfold FrameActions.finishFrame
  rw [hframe.tail, hframe.payloadCrc32]
  simp only
  split
  · exact ⟨rfl, hframe, rfl, hptr, henv⟩
  · exact ⟨rfl, ⟨rfl, rfl, rfl, hframe.payloadCrc32, rfl⟩, herror, hptr, henv⟩

theorem endFrame_alike (halike : s.Alike R t) :
    StepsAlike R (A.endFrame s) (B.endFrame t) := by
  have htail := readTail_alike halike
  unfold FrameActions.endFrame
  simp only
  rw [htail.frame.tail]
  split
  · exact ⟨rfl, htail⟩
  · exact finishFrame_alike htail

/-- One frame, or what there is of it. -/
theorem parseFrame_alike (hpasses : A.PassesAlike B R) (halike : s.Alike R t) :
    StepsAlike R (A.parseFrame s) (B.parseFrame t) := by
  have hheader := readHeader_alike halike
  rw [parseFrame_goOn, parseFrame_goOn]
  simp only
  rw [hheader.frame.header]
  split
  · exact ⟨rfl, hheader⟩
  · rcases readPayload_alike hpasses hheader with ⟨hmore, hpayload⟩
    unfold goOn
    rw [hmore]
    split
    · exact endFrame_alike hpayload
    · exact ⟨rfl, hpayload⟩

theorem framesBy_alike (hpasses : A.PassesAlike B R) (n : Nat) (halike : s.Alike R t) :
    (framesBy A.parseFrame n s).Alike R (framesBy B.parseFrame n t) := by
  induction n generalizing s t with
  | zero => exact halike
  | succ n ih =>
      have hstep := parseFrame_alike hpasses halike
      unfold framesBy
      rw [halike.ptr, halike.error]
      split
      · exact halike
      · rcases hs : A.parseFrame s with ⟨more, s'⟩
        rcases ht : B.parseFrame t with ⟨more', t'⟩
        rw [hs, ht] at hstep
        rcases hstep with ⟨hmore, hleft⟩
        cases hmore
        cases more with
        | false => exact hleft
        | true => exact ih hleft

/-- Two parsers between two calls of `write`. -/
structure FrameParser.Alike (d : FrameParser ω) (d' : FrameParser ω') : Prop where
  buffer : d.buffer = d'.buffer
  frame : d.frame.SameFraming d'.frame
  error : d.error = d'.error

theorem onWriteBy_alike (hpasses : A.PassesAlike B R) (data : ByteString)
    {d : FrameParser ω} {d' : FrameParser ω'} {env : σ} {env' : ρ} (halike : d.Alike d')
    (henv : R env env') :
    (onWriteBy A.parseFrame data d env).1 = (onWriteBy B.parseFrame data d' env').1 ∧
      (onWriteBy A.parseFrame data d env).2.1.Alike
        (onWriteBy B.parseFrame data d' env').2.1 ∧
      R (onWriteBy A.parseFrame data d env).2.2
        (onWriteBy B.parseFrame data d' env').2.2 := by
  rcases halike with ⟨hbuffer, hframe, herror⟩
  unfold onWriteBy
  rw [herror, hbuffer]
  split
  · exact ⟨rfl, ⟨hbuffer, hframe, herror⟩, henv⟩
  · have hbegun : Parsing.Alike R
        { d with
          error := d'.error
          buffer := d'.buffer ++ data
          env := env
          ptr := d'.buffer ++ data }
        { d' with buffer := d'.buffer ++ data, env := env', ptr := d'.buffer ++ data } :=
      ⟨hframe, rfl, rfl, henv⟩
    have hleft := framesBy_alike hpasses (d'.buffer ++ data).length hbegun
    unfold processBufferBy
    simp only
    rw [hleft.error]
    exact ⟨rfl, ⟨hleft.ptr, hleft.frame, rfl⟩, hleft.env⟩

theorem writeAllBy_alike (hpasses : A.PassesAlike B R) (chunks : List ByteString)
    {d : FrameParser ω} {d' : FrameParser ω'} {env : σ} {env' : ρ} (halike : d.Alike d')
    (henv : R env env') :
    (writeAllBy A.parseFrame chunks (d, env)).1.Alike
      (writeAllBy B.parseFrame chunks (d', env')).1 := by
  induction chunks generalizing d d' env env' with
  | nil => exact halike
  | cons data rest ih =>
      rcases onWriteBy_alike hpasses data halike henv with ⟨_, halike', henv'⟩
      exact ih halike' henv'

end Alike

/-- Whatever it is given from here on, the writer does not fail. -/
def NeverFails (inner : ByteWriter σ) (env : σ) : Prop :=
  forall written, inner.fail (inner.writes written env) = false

theorem passData_alike (inner : ByteWriter σ) :
    (SelectFrameDecodingWriter.actions (some inner)).PassesAlike
      SelectMetaFrameParser.actions fun env _ => NeverFails inner env := by
  intro frameType piece env _ hnever
  change (passData (some inner) frameType piece env).1 = true ∧
    NeverFails inner (passData (some inner) frameType piece env).2
  unfold passData
  split
  · have hgood : inner.fail (inner.write piece env).2 = false := hnever [piece]
    constructor
    · simp only
      rw [hgood, Bool.and_false]
      rfl
    · exact fun written => hnever (piece :: written)
  · exact ⟨rfl, hnever⟩

/--
The decoder over a writer that never fails and the parser of a meta result are in the same
state of their framing after any chunks of any stream, in error or not.
-/
theorem framings_agree (inner : ByteWriter σ) (env : σ) (hnever : NeverFails inner env)
    (chunks : List ByteString) :
    let decoder := (writeAllBy (SelectFrameDecodingWriter.parseFrame inner) chunks
      (SelectFrameDecodingWriter.init, env)).1
    let parser := (writeAllBy SelectMetaFrameParser.parseFrame chunks
      (SelectMetaFrameParser.init, ())).1
    decoder.error = parser.error ∧ decoder.frame.SameFraming parser.frame := by
  have hdecoder : SelectFrameDecodingWriter.parseFrame inner =
      (SelectFrameDecodingWriter.actions (some inner)).parseFrame :=
    funext (SelectFrameDecodingWriter.parseFrame_eq inner)
  have hparser : SelectMetaFrameParser.parseFrame =
      SelectMetaFrameParser.actions.parseFrame := funext SelectMetaFrameParser.parseFrame_eq
  have hinit : SelectFrameDecodingWriter.init.Alike SelectMetaFrameParser.init :=
    ⟨rfl, ⟨rfl, rfl, rfl, rfl, rfl⟩, rfl⟩
  have halike := @writeAllBy_alike _ _ _ _ _ _ _ (passData_alike inner) chunks _ _ env ()
    hinit hnever
  intro decoder parser
  rw [← hdecoder, ← hparser] at halike
  exact ⟨halike.error, halike.frame⟩

/-- The payload of a data frame comes in two chunks, with the first byte of its tail. -/
theorem framings_agree_dataFrame :
    (writeAllBy (SelectFrameDecodingWriter.parseFrame (OStreamWriter stringstream))
      [[1, 128, 0, 1, 0, 0, 0, 10] ++ List.replicate 12 0 ++ [7], [8, 0]]
      (SelectFrameDecodingWriter.init, [])).1.error =
    (writeAllBy SelectMetaFrameParser.parseFrame
      [[1, 128, 0, 1, 0, 0, 0, 10] ++ List.replicate 12 0 ++ [7], [8, 0]]
      (SelectMetaFrameParser.init, ())).1.error :=
  (framings_agree (OStreamWriter stringstream) [] (fun _ => rfl)
    [[1, 128, 0, 1, 0, 0, 0, 10] ++ List.replicate 12 0 ++ [7], [8, 0]]).1

end Internal
end OssSdk
