import OssSdk.Internal.SelectFrame

/-!
# Taking a select result apart

The decoder of a select result and the parser of a meta result go through the
same three phases for every frame, and go on where they were when the next bytes
come.  They differ in what they do with a payload.
-/

namespace OssSdk
namespace Internal

open Foundation

variable {ω σ : Type}

/-- `header` and `tail` are the parts of the buffers that have been filled. -/
structure FrameState where
  header : ByteString
  payloadRemains : Int
  tail : ByteString
  payloadCrc32 : BitVec 32
  frameType : Nat
  endFrameData : ByteString
deriving DecidableEq

def FrameState.init : FrameState := ⟨[], 0, [], 0, 0, []⟩

/-- `out` is what the class finds out about the result. -/
structure FrameParser (ω : Type) where
  buffer : ByteString
  frame : FrameState
  error : Bool
  out : ω
deriving DecidableEq

def FrameParser.init (out : ω) : FrameParser ω := ⟨[], FrameState.init, false, out⟩

/-- A parser at work on the bytes that `ptr` points to. -/
structure Parsing (ω σ : Type) extends FrameParser ω where
  env : σ
  ptr : ByteString

/-- What the two classes do in their own way. -/
structure FrameActions (ω σ : Type) where
  /-- Types whose payload is kept in `endFrameData_`. -/
  keeps : Nat -> Bool
  /-- A piece of a payload is handed on, and may be refused. -/
  pass : Nat -> ByteString -> σ -> Bool × σ
  extract : FrameState -> ω -> ω
  mismatch : ω -> ω
  /-- Whether `endFrameData_` is cleared at the end of a frame. -/
  clears : Bool

namespace FrameActions

variable (A : FrameActions ω σ)

/-- The first phase. -/
def readHeader (s : Parsing ω σ) : Parsing ω σ :=
  if s.frame.header.length < FRAME_HEADER_LEN then
    let need := FRAME_HEADER_LEN - s.frame.header.length
    let header := s.frame.header ++ s.ptr.take need
    { s with
      frame :=
        if header.length = FRAME_HEADER_LEN then
          { s.frame with
            header := header
            payloadRemains := payloadRemainsOf header
            frameType := frameTypeOf header
            payloadCrc32 := calcCRC32 0 ((header.drop 12).take 8)
            endFrameData := [] }
        else { s.frame with header := header }
      ptr := s.ptr.drop need }
  else s

/-- The second phase; `false` ends the call. -/
def readPayload (s : Parsing ω σ) : Bool × Parsing ω σ :=
  if 0 < s.frame.payloadRemains then
    let copy := min s.frame.payloadRemains.toNat s.ptr.length
    if copy = 0 then (false, s)
    else
      let piece := s.ptr.take copy
      let crc := calcCRC32 s.frame.payloadCrc32 piece
      let (taken, env) := A.pass s.frame.frameType piece s.env
      if !taken then
        (false,
          { s with
            frame := { s.frame with payloadCrc32 := crc }
            error := true
            env := env })
      else
        let remains := s.frame.payloadRemains - copy
        (decide (remains ≤ 0),
          { s with
            frame :=
              { s.frame with
                payloadCrc32 := crc
                payloadRemains := remains
                endFrameData :=
                  if A.keeps s.frame.frameType then
                    s.frame.endFrameData ++ piece
                  else s.frame.endFrameData }
            env := env
            ptr := s.ptr.drop copy })
  else (true, s)

/-- The third phase. -/
def readTail (s : Parsing ω σ) : Parsing ω σ :=
  if s.frame.tail.length < 4 then
    let need := 4 - s.frame.tail.length
    { s with
      frame := { s.frame with tail := s.frame.tail ++ s.ptr.take need }
      ptr := s.ptr.drop need }
  else s

/-- The check of a frame that is complete, and the way to the next one. -/
def finishFrame (s : Parsing ω σ) : Bool × Parsing ω σ :=
  let expectedCrc := readBE32 s.frame.tail
  if expectedCrc ≠ 0 ∧ expectedCrc ≠ s.frame.payloadCrc32 then
    (false, { s with error := true, out := A.mismatch s.out })
  else
    (true,
      { s with
        out := A.extract s.frame s.out
        frame :=
          { s.frame with
            header := []
            tail := []
            payloadRemains := 0
            frameType := 0
            endFrameData := if A.clears then [] else s.frame.endFrameData } })

/-- What is left to do when the payload is complete. -/
def endFrame (s : Parsing ω σ) : Bool × Parsing ω σ :=
  let s := readTail s
  if s.frame.tail.length < 4 then (false, s) else A.finishFrame s

def parseFrame (s : Parsing ω σ) : Bool × Parsing ω σ :=
  let s := readHeader s
  if s.frame.header.length < FRAME_HEADER_LEN then (false, s)
  else
    match A.readPayload s with
    | (false, s) => (false, s)
    | (true, s) => A.endFrame s

/-- The loop of `processBuffer`; every call of `parseFrame` takes a byte or stops. -/
def parseFrames : Nat -> Parsing ω σ -> Parsing ω σ
  | 0, s => s
  | n + 1, s =>
      if s.ptr.isEmpty || s.error then s
      else
        match A.parseFrame s with
        | (false, s) => s
        | (true, s) => parseFrames n s

def processBuffer (d : FrameParser ω) (env : σ) : FrameParser ω × σ :=
  let s := A.parseFrames d.buffer.length { d with env := env, ptr := d.buffer }
  ({ s.toFrameParser with buffer := s.ptr }, s.env)

def onWrite (data : ByteString) (d : FrameParser ω) (env : σ) :
    Nat × FrameParser ω × σ :=
  if d.error then (0, d, env)
  else
    let (d, env) := A.processBuffer { d with buffer := d.buffer ++ data } env
    (if d.error then 0 else data.length, d, env)

end FrameActions

/-!
# Frame by frame

What the parsers are for: a frame is complete or it is not, and nothing is known
of one that is not but its bytes.
-/

/--
`frames` are those that have been taken in.  A fault is a wrong checksum or a
payload that was refused, and leaves nothing pending.
-/
structure Deframer (σ : Type) where
  frames : List ByteString
  pending : ByteString
  fault : Bool
  wrongChecksum : Bool
  env : σ
deriving DecidableEq

def Deframer.init (env : σ) : Deframer σ := ⟨[], [], false, false, env⟩

def Deframer.refuse (a : Deframer σ) : Deframer σ :=
  { a with pending := [], fault := true }

def Deframer.mismatch (a : Deframer σ) : Deframer σ :=
  { a with pending := [], fault := true, wrongChecksum := true }

namespace FrameActions

variable (A : FrameActions ω σ)

/-- The bytes of the payload that `q` adds to `p`. -/
def piece (p q : ByteString) : ByteString :=
  ((p ++ q).take (SelectFrame.tailOffset (p ++ q))).drop
    (max FRAME_HEADER_LEN p.length)

def handOn (p q : ByteString) (env : σ) : Bool × σ :=
  if (piece p q).isEmpty then (true, env)
  else A.pass (SelectFrame.type (p ++ q)) (piece p q) env

/-- The bytes of `chunk` that belong to the frame that begins with `p`. -/
def ownBytes (p chunk : ByteString) : ByteString :=
  chunk.take (SelectFraming.length (p ++ chunk) - p.length)

/-- One frame, or what there is of it. -/
def takeFrame (a : Deframer σ) (chunk : ByteString) : Deframer σ × ByteString :=
  let q := ownBytes a.pending chunk
  let p := a.pending ++ q
  match A.handOn a.pending q a.env with
  | (false, env) => ({ a with env := env }.refuse, [])
  | (true, env) =>
      if SelectFraming.Partial p then ({ a with pending := p, env := env }, [])
      else if SelectFrame.checksumHolds p then
        ({ a with frames := a.frames ++ [p], pending := [], env := env },
          chunk.drop q.length)
      else ({ a with env := env }.mismatch, [])

def takeFrames : Nat -> Deframer σ -> ByteString -> Deframer σ
  | 0, a, _ => a
  | n + 1, a, chunk =>
      if chunk.isEmpty || a.fault then a
      else takeFrames n (A.takeFrame a chunk).1 (A.takeFrame a chunk).2

def takeIn (a : Deframer σ) (chunk : ByteString) : Deframer σ :=
  A.takeFrames chunk.length a chunk

end FrameActions

/-!
# The state in the middle of a frame
-/

/-- The state that belongs to these bytes, once the header is among them. -/
def FrameState.of (keeps : Nat -> Bool) (p : ByteString) : FrameState where
  header := SelectFrame.header p
  payloadRemains :=
    payloadRemainsOf (SelectFrame.header p) -
      min (p.length - FRAME_HEADER_LEN) (SelectFrame.payloadSize p)
  tail := SelectFrame.tail p
  payloadCrc32 := calcCRC32 0 (SelectFrame.covered p)
  frameType := SelectFrame.type p
  endFrameData :=
    if keeps (SelectFrame.type p) then SelectFrame.payload p else []

structure FrameState.Matches (keeps : Nat -> Bool) (p : ByteString)
    (f : FrameState) : Prop where
  header : f.header = SelectFrame.header p
  short : p.length < FRAME_HEADER_LEN -> f.tail = [] ∧ f.payloadRemains = 0
  full : FRAME_HEADER_LEN ≤ p.length -> f = FrameState.of keeps p

namespace SelectFrame

variable {x : ByteString} {k : Nat}

theorem header_take (hk : FRAME_HEADER_LEN ≤ k) : header (x.take k) = header x := by
  unfold header
  rw [List.take_take, Nat.min_eq_left hk]

theorem type_take (hk : FRAME_HEADER_LEN ≤ k) : type (x.take k) = type x := by
  unfold type
  rw [header_take hk]

theorem tailOffset_take (hk : FRAME_HEADER_LEN ≤ k) :
    tailOffset (x.take k) = tailOffset x := by
  unfold tailOffset payloadSize
  rw [header_take hk]

theorem payloadSize_take (hk : FRAME_HEADER_LEN ≤ k) :
    payloadSize (x.take k) = payloadSize x := by
  unfold payloadSize
  rw [header_take hk]

end SelectFrame

/-- What the state is at a place of the bytes `x`, past the header. -/
theorem FrameState.of_take {keeps : Nat -> Bool} {x : ByteString} {k : Nat}
    (hk : FRAME_HEADER_LEN ≤ k) :
    FrameState.of keeps (x.take k) =
      { header := SelectFrame.header x
        payloadRemains :=
          payloadRemainsOf (SelectFrame.header x) -
            min (min k x.length - FRAME_HEADER_LEN) (SelectFrame.payloadSize x)
        tail := (x.take k).drop (SelectFrame.tailOffset x)
        payloadCrc32 :=
          calcCRC32 0 ((x.take (min (SelectFrame.tailOffset x) k)).drop 12)
        frameType := SelectFrame.type x
        endFrameData :=
          if keeps (SelectFrame.type x) then
            (x.take (min (SelectFrame.tailOffset x) k)).drop FRAME_HEADER_LEN
          else [] } := by
  simp only [FrameState.of, SelectFrame.tail, SelectFrame.covered,
    SelectFrame.payload, SelectFrame.header_take hk, SelectFrame.type_take hk,
    SelectFrame.tailOffset_take hk, SelectFrame.payloadSize_take hk,
    List.take_take, List.length_take]

theorem FrameState.matches_of (keeps : Nat -> Bool) {p : ByteString}
    (hheader : FRAME_HEADER_LEN ≤ p.length) :
    FrameState.Matches keeps p (FrameState.of keeps p) where
  header := rfl
  short := fun hshort => absurd hheader (Nat.not_le.mpr hshort)
  full := fun _ => rfl

theorem FrameState.matches_short {keeps : Nat -> Bool} {p : ByteString}
    {f : FrameState}
    (hshort : p.length < FRAME_HEADER_LEN)
    (hheader : f.header = p)
    (htail : f.tail = [])
    (hremains : f.payloadRemains = 0) :
    FrameState.Matches keeps p f where
  header := by
    rw [hheader, SelectFrame.header, List.take_of_length_le (Nat.le_of_lt hshort)]
  short := fun _ => ⟨htail, hremains⟩
  full := fun hfull => absurd hfull (Nat.not_le.mpr hshort)

/-- What the state is when the header has just been filled. -/
theorem FrameState.of_header (keeps : Nat -> Bool) {h : ByteString}
    (hlength : h.length = FRAME_HEADER_LEN) :
    FrameState.of keeps h =
      { header := h
        payloadRemains := payloadRemainsOf h
        tail := []
        payloadCrc32 := calcCRC32 0 ((h.drop 12).take 8)
        frameType := frameTypeOf h
        endFrameData := [] } := by
  have hheader : SelectFrame.header h = h :=
    List.take_of_length_le (Nat.le_of_eq hlength)
  have hle : h.length ≤ SelectFrame.tailOffset h := by
    unfold SelectFrame.tailOffset
    omega
  have height : (h.drop 12).length ≤ 8 := by
    rw [List.length_drop, hlength]
    decide
  simp only [FrameState.of, SelectFrame.tail, SelectFrame.covered,
    SelectFrame.payload, SelectFrame.type, hheader, List.take_of_length_le hle,
    List.drop_eq_nil_of_le hle, List.drop_eq_nil_of_le (Nat.le_of_eq hlength),
    List.take_of_length_le height, hlength, Nat.sub_self, Nat.zero_min, ite_self]
  simp

/-!
# The three phases at a place of the bytes
-/

section Phases

variable {A : FrameActions ω σ} {x : ByteString} {k : Nat} {s : Parsing ω σ}

/-- A parser that has taken `k` of the bytes `x`. -/
structure Parsing.At (A : FrameActions ω σ) (x : ByteString) (k : Nat)
    (s : Parsing ω σ) : Prop where
  frame : FrameState.Matches A.keeps (x.take k) s.frame
  ptr : s.ptr = x.drop k

theorem readHeader_at
    (hk : k ≤ x.length)
    (hat : s.At A x k) :
    exists s', FrameActions.readHeader s = s' ∧
      s'.At A x (max k FRAME_HEADER_LEN) ∧
      s' = { s with frame := s'.frame, ptr := s'.ptr } := by
  refine ⟨_, rfl, ?_⟩
  rcases hat with ⟨⟨hheader, hshort, hfull⟩, hptr⟩
  have hlength : s.frame.header.length = min FRAME_HEADER_LEN k := by
    rw [hheader, SelectFrame.header, List.length_take, List.length_take,
      Nat.min_eq_left hk]
  by_cases hdone : FRAME_HEADER_LEN ≤ k
  · have hnot : ¬ s.frame.header.length < FRAME_HEADER_LEN := by omega
    rw [FrameActions.readHeader, if_neg hnot, Nat.max_eq_left hdone]
    exact ⟨⟨⟨hheader, hshort, hfull⟩, hptr⟩, rfl⟩
  · have hless : s.frame.header.length < FRAME_HEADER_LEN := by omega
    have htake : x.take k ++ (x.drop k).take (FRAME_HEADER_LEN - k) =
        x.take FRAME_HEADER_LEN := by
      rw [← List.take_add, Nat.add_sub_cancel' (Nat.le_of_not_le hdone)]
    have hnew : s.frame.header ++
        s.ptr.take (FRAME_HEADER_LEN - s.frame.header.length) =
        x.take FRAME_HEADER_LEN := by
      rw [hlength, Nat.min_eq_right (Nat.le_of_not_le hdone), hheader, hptr,
        SelectFrame.header, List.take_take,
        Nat.min_eq_right (Nat.le_of_not_le hdone)]
      exact htake
    have hrest : s.ptr.drop (FRAME_HEADER_LEN - s.frame.header.length) =
        x.drop FRAME_HEADER_LEN := by
      rw [hlength, Nat.min_eq_right (Nat.le_of_not_le hdone), hptr,
        List.drop_drop, Nat.add_sub_cancel' (Nat.le_of_not_le hdone)]
    have hstart : s.frame.tail = [] ∧ s.frame.payloadRemains = 0 := by
      refine hshort ?_
      rw [List.length_take]
      omega
    rcases hstart with ⟨htail, hremains⟩
    simp only [FrameActions.readHeader, if_pos hless, hnew, hrest,
      Nat.max_eq_right (Nat.le_of_not_le hdone)]
    refine ⟨⟨?_, rfl⟩, trivial⟩
    by_cases hwhole : (x.take FRAME_HEADER_LEN).length = FRAME_HEADER_LEN
    · rw [if_pos hwhole]
      have hof := FrameState.matches_of A.keeps (Nat.le_of_eq hwhole.symm)
      rw [FrameState.of_header A.keeps hwhole] at hof
      simpa only [htail] using hof
    · rw [if_neg hwhole]
      have hlen : (x.take FRAME_HEADER_LEN).length < FRAME_HEADER_LEN :=
        lt_of_le_of_ne (List.length_take_le _ _) hwhole
      exact FrameState.matches_short hlen rfl htail hremains

theorem Parsing.At.frame_of (hat : s.At A x k)
    (hk : FRAME_HEADER_LEN ≤ k)
    (hlength : k ≤ x.length) :
    s.frame = FrameState.of A.keeps (x.take k) := by
  refine hat.frame.full ?_
  rw [List.length_take]
  omega

theorem payloadRemains_done (hat : s.At A x k)
    (hlength : k ≤ x.length)
    (hdone : SelectFrame.tailOffset x ≤ k) :
    ¬ 0 < s.frame.payloadRemains := by
  unfold SelectFrame.tailOffset at hdone
  rw [hat.frame_of (by omega) hlength, FrameState.of_take (by omega)]
  simp only [SelectFrame.payloadSize] at hdone ⊢
  omega

theorem payloadRemains_more (hat : s.At A x k)
    (hk : FRAME_HEADER_LEN ≤ k)
    (hlength : k ≤ x.length)
    (hmore : k < SelectFrame.tailOffset x) :
    s.frame.payloadRemains = ((SelectFrame.tailOffset x - k : Nat) : Int) := by
  unfold SelectFrame.tailOffset at hmore ⊢
  rw [hat.frame_of hk hlength, FrameState.of_take hk]
  simp only [SelectFrame.payloadSize] at hmore ⊢
  omega

theorem readPayload_done (hat : s.At A x k)
    (hlength : k ≤ x.length)
    (hdone : SelectFrame.tailOffset x ≤ k) :
    A.readPayload s = (true, s) :=
  if_neg (payloadRemains_done hat hlength hdone)

theorem readPayload_empty (hat : s.At A x x.length)
    (hk : FRAME_HEADER_LEN ≤ x.length)
    (hmore : x.length < SelectFrame.tailOffset x) :
    A.readPayload s = (false, s) := by
  have hremains := payloadRemains_more hat hk (Nat.le_refl _) hmore
  have hpos : 0 < s.frame.payloadRemains := by omega
  have hptr : s.ptr = [] := by rw [hat.ptr, List.drop_length]
  rw [FrameActions.readPayload, if_pos hpos, hptr]
  simp

/-- The piece of the payload that a call gets at. -/
theorem payload_piece (hat : s.At A x k)
    (hk : FRAME_HEADER_LEN ≤ k)
    (hlength : k < x.length)
    (hmore : k < SelectFrame.tailOffset x) :
    let copy := min s.frame.payloadRemains.toNat s.ptr.length
    copy ≠ 0 ∧ k + copy = min (SelectFrame.tailOffset x) x.length ∧
      s.ptr.take copy = (x.take (SelectFrame.tailOffset x)).drop k ∧
      s.ptr.drop copy = x.drop (SelectFrame.tailOffset x) := by
  intro copy
  have hremains := payloadRemains_more hat hk (Nat.le_of_lt hlength) hmore
  have hcopy : copy = min (SelectFrame.tailOffset x - k) (x.length - k) := by
    simp only [copy, hremains, hat.ptr, List.length_drop, Int.toNat_natCast]
  have hend : k + copy = min (SelectFrame.tailOffset x) x.length := by omega
  refine ⟨by omega, hend, ?_, ?_⟩
  · rw [hat.ptr, List.drop_take, hcopy, ← List.length_drop,
      List.take_eq_take_iff]
    omega
  · rw [hat.ptr, List.drop_drop, hend]
    rcases Nat.le_total (SelectFrame.tailOffset x) x.length with hle | hge
    · rw [Nat.min_eq_left hle]
    · rw [Nat.min_eq_right hge, List.drop_length,
        List.drop_eq_nil_of_le hge]

theorem readPayload_refused {env : σ} (hat : s.At A x k)
    (hk : FRAME_HEADER_LEN ≤ k)
    (hlength : k < x.length)
    (hmore : k < SelectFrame.tailOffset x)
    (hpass : A.pass (SelectFrame.type x)
      ((x.take (SelectFrame.tailOffset x)).drop k) s.env = (false, env)) :
    exists f, A.readPayload s =
      (false, { s with frame := f, error := true, env := env }) := by
  have hremains := payloadRemains_more hat hk (Nat.le_of_lt hlength) hmore
  have hpos : 0 < s.frame.payloadRemains := by omega
  rcases payload_piece hat hk hlength hmore with ⟨hcopy, _, hpiece, _⟩
  have htype : s.frame.frameType = SelectFrame.type x := by
    rw [hat.frame_of hk (Nat.le_of_lt hlength), FrameState.of_take hk]
  simp only [FrameActions.readPayload, if_pos hpos, if_neg hcopy, hpiece, htype,
    hpass, Bool.not_false, if_true]
  exact ⟨_, rfl⟩

theorem readPayload_taken {env : σ} (hat : s.At A x k)
    (hk : FRAME_HEADER_LEN ≤ k)
    (hlength : k < x.length)
    (hmore : k < SelectFrame.tailOffset x)
    (hpass : A.pass (SelectFrame.type x)
      ((x.take (SelectFrame.tailOffset x)).drop k) s.env = (true, env)) :
    exists s', A.readPayload s =
        (decide (SelectFrame.tailOffset x ≤ x.length), s') ∧
      s'.At A x (SelectFrame.tailOffset x) ∧
      s' = { s with frame := s'.frame, env := env, ptr := s'.ptr } := by
  have hremains := payloadRemains_more hat hk (Nat.le_of_lt hlength) hmore
  have hpos : 0 < s.frame.payloadRemains := by omega
  rcases payload_piece hat hk hlength hmore with ⟨hcopy, hend, hpiece, hrest⟩
  have hframe := hat.frame_of hk (Nat.le_of_lt hlength)
  rw [FrameState.of_take hk] at hframe
  have hT : FRAME_HEADER_LEN ≤ SelectFrame.tailOffset x := Nat.le_add_right _ _
  have hfull : FRAME_HEADER_LEN ≤ (x.take (SelectFrame.tailOffset x)).length := by
    rw [List.length_take]
    omega
  have hjoin : forall n, n ≤ k ->
      (x.take k).drop n ++ (x.take (SelectFrame.tailOffset x)).drop k =
        (x.take (SelectFrame.tailOffset x)).drop n := by
    intro n hn
    have hle : n ≤ (x.take k).length := by
      rw [List.length_take]
      omega
    rw [← List.drop_append_of_le_length hle]
    congr 1
    rw [List.drop_take, ← List.take_add, Nat.add_sub_cancel' (Nat.le_of_lt hmore)]
  have hcrc : calcCRC32 s.frame.payloadCrc32
      ((x.take (SelectFrame.tailOffset x)).drop k) =
        calcCRC32 0 ((x.take (SelectFrame.tailOffset x)).drop 12) := by
    rw [hframe, ← hjoin 12 (le_trans (by decide) hk)]
    simp only [calcCRC32, TableCrc.update_append,
      Nat.min_eq_right (Nat.le_of_lt hmore)]
  have hdata : (if A.keeps s.frame.frameType then
        s.frame.endFrameData ++ (x.take (SelectFrame.tailOffset x)).drop k
      else s.frame.endFrameData) =
        if A.keeps (SelectFrame.type x) then
          (x.take (SelectFrame.tailOffset x)).drop FRAME_HEADER_LEN
        else [] := by
    rw [hframe, ← hjoin FRAME_HEADER_LEN hk]
    simp only [Nat.min_eq_right (Nat.le_of_lt hmore)]
    split <;> rfl
  have hnew : FrameState.of A.keeps (x.take (SelectFrame.tailOffset x)) =
      { s.frame with
        payloadCrc32 := calcCRC32 s.frame.payloadCrc32
          ((x.take (SelectFrame.tailOffset x)).drop k)
        payloadRemains := s.frame.payloadRemains -
          (min s.frame.payloadRemains.toNat s.ptr.length : Nat)
        endFrameData :=
          if A.keeps s.frame.frameType then
            s.frame.endFrameData ++ (x.take (SelectFrame.tailOffset x)).drop k
          else s.frame.endFrameData } := by
    rw [hcrc, hdata, hremains, FrameState.of_take hT, hframe]
    simp only [Nat.min_self, FrameState.mk.injEq, true_and, and_true]
    constructor
    · have hptr : s.ptr.length = x.length - k := by rw [hat.ptr, List.length_drop]
      rw [hptr]
      unfold SelectFrame.tailOffset at hmore ⊢
      simp only [SelectFrame.payloadSize] at hmore ⊢
      omega
    · have hlong : (x.take k).length ≤ SelectFrame.tailOffset x := by
        rw [List.length_take]
        omega
      rw [List.drop_eq_nil_of_le (List.length_take_le _ _),
        List.drop_eq_nil_of_le hlong]
  have hdone : decide (s.frame.payloadRemains -
      (min s.frame.payloadRemains.toNat s.ptr.length : Nat) ≤ 0) =
        decide (SelectFrame.tailOffset x ≤ x.length) := by
    rw [decide_eq_decide]
    omega
  have htype : s.frame.frameType = SelectFrame.type x := by rw [hframe]
  refine ⟨{ s with
    frame := FrameState.of A.keeps (x.take (SelectFrame.tailOffset x))
    env := env
    ptr := x.drop (SelectFrame.tailOffset x) }, ?_, ⟨?_, rfl⟩, rfl⟩
  · simp only [FrameActions.readPayload, if_pos hpos, if_neg hcopy, hpiece, hrest,
      htype, hpass, hnew, hdone, Bool.not_true, Bool.false_eq_true, if_false]
  · exact FrameState.matches_of A.keeps hfull

/-- The third phase, when the payload is complete. -/
theorem readTail_at (hat : s.At A x k)
    (hlength : k ≤ x.length)
    (hdone : SelectFrame.tailOffset x ≤ k)
    (hunfinished : k < SelectFrame.tailOffset x + 4) :
    exists s', FrameActions.readTail s = s' ∧
      s'.At A x (SelectFrame.tailOffset x + 4) ∧
      s' = { s with frame := s'.frame, ptr := s'.ptr } := by
  refine ⟨_, rfl, ?_⟩
  have hk : FRAME_HEADER_LEN ≤ k := le_trans (Nat.le_add_right _ _) hdone
  have hframe := hat.frame_of hk hlength
  rw [FrameState.of_take hk] at hframe
  have htail : s.frame.tail = (x.take k).drop (SelectFrame.tailOffset x) := by
    rw [hframe]
  have htailLength : s.frame.tail.length = k - SelectFrame.tailOffset x := by
    rw [htail, List.length_drop, List.length_take, Nat.min_eq_left hlength]
  have hless : s.frame.tail.length < 4 := by omega
  have hsum : k + (4 - s.frame.tail.length) = SelectFrame.tailOffset x + 4 := by
    omega
  have hmore : s.frame.tail ++ s.ptr.take (4 - s.frame.tail.length) =
      (x.take (SelectFrame.tailOffset x + 4)).drop (SelectFrame.tailOffset x) := by
    have hle : SelectFrame.tailOffset x ≤ (x.take k).length := by
      rw [List.length_take]
      omega
    rw [htail, hat.ptr, ← List.drop_append_of_le_length hle, ← htail,
      ← List.take_add, hsum]
  have hrest : s.ptr.drop (4 - s.frame.tail.length) =
      x.drop (SelectFrame.tailOffset x + 4) := by
    rw [hat.ptr, List.drop_drop, hsum]
  have hT : FRAME_HEADER_LEN ≤ SelectFrame.tailOffset x + 4 := by omega
  have hfull : FRAME_HEADER_LEN ≤
      (x.take (SelectFrame.tailOffset x + 4)).length := by
    rw [List.length_take]
    omega
  have hnew : FrameState.of A.keeps (x.take (SelectFrame.tailOffset x + 4)) =
      { s.frame with
        tail := s.frame.tail ++ s.ptr.take (4 - s.frame.tail.length) } := by
    rw [hmore, FrameState.of_take hT, hframe,
      Nat.min_eq_left (Nat.le_add_right (SelectFrame.tailOffset x) 4),
      Nat.min_eq_left hdone]
    simp only [FrameState.mk.injEq, true_and, and_true]
    unfold SelectFrame.tailOffset at hdone hunfinished ⊢
    omega
  simp only [FrameActions.readTail, if_pos hless, ← hnew, hrest]
  exact ⟨⟨FrameState.matches_of A.keeps hfull, rfl⟩, trivial⟩

theorem Parsing.At.of_end (hat : s.At A x k) (hlong : x.length ≤ k) :
    FrameState.Matches A.keeps x s.frame ∧ s.ptr = [] := by
  constructor
  · have hframe := hat.frame
    rwa [List.take_of_length_le hlong] at hframe
  · rw [hat.ptr, List.drop_eq_nil_of_le hlong]

theorem endFrame_short (hat : s.At A x k)
    (hlength : k ≤ x.length)
    (hdone : SelectFrame.tailOffset x ≤ k)
    (hshort : x.length < SelectFrame.tailOffset x + 4) :
    exists s', A.endFrame s = (false, s') ∧
      s' = { s with frame := s'.frame, ptr := s'.ptr } ∧
      s'.At A x (SelectFrame.tailOffset x + 4) := by
  rcases readTail_at hat hlength hdone (by omega) with ⟨s', hs', hat', hsame⟩
  have hmatches := (hat'.of_end (Nat.le_of_lt hshort)).1
  have hless : s'.frame.tail.length < 4 := by
    have hk : FRAME_HEADER_LEN ≤ x.length := by
      unfold SelectFrame.tailOffset at hdone
      omega
    rw [hmatches.full hk]
    simp only [FrameState.of, SelectFrame.tail, List.length_drop]
    omega
  refine ⟨s', ?_, hsame, hat'⟩
  simp only [FrameActions.endFrame, hs', if_pos hless]

theorem endFrame_whole (hat : s.At A x k)
    (hlength : k ≤ x.length)
    (hdone : SelectFrame.tailOffset x ≤ k)
    (hunfinished : k < SelectFrame.tailOffset x + 4)
    (hwhole : SelectFrame.tailOffset x + 4 ≤ x.length) :
    let f := x.take (SelectFrame.tailOffset x + 4)
    exists b s', A.endFrame s = (b, s') ∧ s'.env = s.env ∧
      (SelectFrame.checksumHolds f = true ->
        b = true ∧ s'.error = s.error ∧
          s'.out = A.extract (FrameState.of A.keeps f) s.out ∧
          FrameState.Matches A.keeps [] s'.frame ∧
          s'.ptr = x.drop (SelectFrame.tailOffset x + 4)) ∧
      (SelectFrame.checksumHolds f = false ->
        b = false ∧ s'.error = true ∧ s'.out = A.mismatch s.out) := by
  intro f
  rcases readTail_at hat hlength hdone hunfinished with ⟨s', hs', hat', hsame⟩
  have hT : FRAME_HEADER_LEN ≤ SelectFrame.tailOffset x := Nat.le_add_right _ _
  have hframe : s'.frame = FrameState.of A.keeps f :=
    hat'.frame_of (by omega) hwhole
  have htail : ¬ s'.frame.tail.length < 4 := by
    rw [hframe]
    simp only [FrameState.of, SelectFrame.tail, List.length_drop, f,
      SelectFrame.tailOffset_take (Nat.le_trans hT (Nat.le_add_right _ 4)),
      List.length_take]
    omega
  have henv : s'.env = s.env := by rw [hsame]
  have herror : s'.error = s.error := by rw [hsame]
  have hout : s'.out = s.out := by rw [hsame]
  have hend : A.endFrame s = A.finishFrame s' := by
    simp only [FrameActions.endFrame, hs', if_neg htail]
  have hcheck : (readBE32 s'.frame.tail ≠ 0 ∧
      readBE32 s'.frame.tail ≠ s'.frame.payloadCrc32) ↔
        SelectFrame.checksumHolds f = false := by
    rw [hframe]
    simp [FrameState.of, SelectFrame.checksumHolds]
  rw [hend, FrameActions.finishFrame]
  cases hholds : SelectFrame.checksumHolds f with
  | false =>
      rw [if_pos (hcheck.mpr hholds)]
      exact ⟨_, _, rfl, henv, (fun h => nomatch h),
        fun _ => ⟨rfl, rfl, congrArg A.mismatch hout⟩⟩
  | true =>
      have hnot : ¬ (readBE32 s'.frame.tail ≠ 0 ∧
          readBE32 s'.frame.tail ≠ s'.frame.payloadCrc32) := by
        rw [hcheck, hholds]
        simp
      rw [if_neg hnot]
      refine ⟨_, _, rfl, henv, fun _ => ⟨rfl, herror, ?_, ?_, hat'.ptr⟩,
        (fun h => nomatch h)⟩
      · rw [hframe, hout]
      · exact FrameState.matches_short SelectFraming.header_pos rfl rfl rfl

end Phases

/-!
# The parser takes frame by frame
-/

section Refinement

variable {A : FrameActions ω σ} {init : ω}

/-- What has been found out after these frames. -/
def FrameActions.outOf (A : FrameActions ω σ) (init : ω)
    (frames : List ByteString) : ω :=
  frames.foldl (fun out f => A.extract (FrameState.of A.keeps f) out) init

structure Reflects (A : FrameActions ω σ) (init : ω) (d : FrameParser ω)
    (env : σ) (a : Deframer σ) : Prop where
  error : d.error = a.fault
  env : env = a.env
  frame : a.fault = false -> d.frame.Matches A.keeps a.pending
  out : a.wrongChecksum = false -> d.out = A.outOf init a.frames
  mismatch : a.wrongChecksum = true ->
    a.fault = true ∧ d.out = A.mismatch (A.outOf init a.frames)

/-- The checksums are right up to the first fault. -/
theorem Reflects.wrongChecksum {d : FrameParser ω} {env : σ} {a : Deframer σ}
    (hreflects : Reflects A init d env a)
    (hfault : a.fault = false) : a.wrongChecksum = false := by
  cases hwrong : a.wrongChecksum with
  | false => rfl
  | true =>
      rw [(hreflects.mismatch hwrong).1] at hfault
      cases hfault

/-- What has been found out so far. -/
def FrameActions.told (A : FrameActions ω σ) (init : ω) (a : Deframer σ) : ω :=
  if a.wrongChecksum then A.mismatch (A.outOf init a.frames)
  else A.outOf init a.frames

theorem Reflects.told {d : FrameParser ω} {env : σ} {a : Deframer σ}
    (hreflects : Reflects A init d env a) : d.out = A.told init a := by
  unfold FrameActions.told
  cases hwrong : a.wrongChecksum with
  | false => exact hreflects.out hwrong
  | true => exact (hreflects.mismatch hwrong).2

theorem Reflects.of_good {d : FrameParser ω} {env : σ} {a : Deframer σ}
    (hwrong : a.wrongChecksum = false)
    (herror : d.error = a.fault)
    (henv : env = a.env)
    (hframe : d.frame.Matches A.keeps a.pending)
    (hout : d.out = A.outOf init a.frames) : Reflects A init d env a where
  error := herror
  env := henv
  frame := fun _ => hframe
  out := fun _ => hout
  mismatch := fun h => by
    rw [hwrong] at h
    cases h

/-- The place where the frame that begins with `x.take k` ends. -/
theorem lt_length {x : ByteString} {k : Nat}
    (hk : k ≤ x.length)
    (hunfinished : SelectFraming.Partial (x.take k)) :
    k < SelectFraming.length x := by
  have hlength : (x.take k).length = k := by
    rw [List.length_take, Nat.min_eq_left hk]
  unfold Framing.Partial at hunfinished
  rw [hlength] at hunfinished
  by_cases hheader : SelectFraming.headerLength ≤ k
  · have hsame := Framing.length_append (F := SelectFraming) (x.drop k)
      (by rw [hlength]; exact hheader)
    rw [List.take_append_drop] at hsame
    omega
  · unfold Framing.length
    split <;> omega

theorem ownBytes_eq {x : ByteString} {k : Nat} (hk : k ≤ x.length) :
    FrameActions.ownBytes (x.take k) (x.drop k) =
      (x.take (SelectFraming.length x)).drop k := by
  unfold FrameActions.ownBytes
  rw [List.take_append_drop, List.length_take, Nat.min_eq_left hk,
    List.drop_take]

theorem take_ownBytes {x : ByteString} {k : Nat}
    (hk : k ≤ x.length)
    (hunfinished : SelectFraming.Partial (x.take k)) :
    x.take k ++ FrameActions.ownBytes (x.take k) (x.drop k) =
      x.take (SelectFraming.length x) := by
  have hlt := lt_length hk hunfinished
  rw [ownBytes_eq hk, List.drop_take, ← List.take_add,
    Nat.add_sub_cancel' (Nat.le_of_lt hlt)]

theorem takeFrame_short {a : Deframer σ} {x : ByteString} {k : Nat}
    (hshort : x.length < FRAME_HEADER_LEN)
    (hk : k ≤ x.length)
    (hpending : a.pending = x.take k) :
    A.takeFrame a (x.drop k) = ({ a with pending := x }, []) := by
  have hunfinished : SelectFraming.Partial x := Framing.partial_of_short hshort
  have hx : x.take (SelectFraming.length x) = x :=
    List.take_of_length_le (Nat.le_of_lt hunfinished)
  have hall := take_ownBytes hk
    (Framing.Partial.of_append (q := x.drop k)
      (by rw [List.take_append_drop]; exact hunfinished))
  rw [hx] at hall
  have hpiece : FrameActions.piece (x.take k)
      (FrameActions.ownBytes (x.take k) (x.drop k)) = [] := by
    unfold FrameActions.piece
    rw [hall]
    refine List.drop_eq_nil_of_le ?_
    rw [List.length_take]
    omega
  simp only [FrameActions.takeFrame, FrameActions.handOn, hpending, hpiece, hall,
    List.isEmpty_nil, if_true, if_pos hunfinished]

/-- What comes of the bytes `x` of a frame and what follows it. -/
def Deframer.settle (a : Deframer σ) (x : ByteString) :
    Deframer σ × ByteString :=
  let whole := SelectFrame.tailOffset x + 4
  if x.length < whole then ({ a with pending := x }, [])
  else if SelectFrame.checksumHolds (x.take whole) then
    ({ a with frames := a.frames ++ [x.take whole], pending := [] },
      x.drop whole)
  else (a.mismatch, [])

/-- What comes of a piece that is handed on, and taken or not. -/
def Deframer.afterPass (a : Deframer σ) (x : ByteString) (passed : Bool × σ) :
    Deframer σ × ByteString :=
  if passed.1 then { a with env := passed.2 }.settle x
  else ({ a with env := passed.2 }.refuse, [])

theorem handOn_full {x : ByteString} {k : Nat}
    (hfull : FRAME_HEADER_LEN ≤ x.length)
    (hk : k ≤ x.length)
    (hunfinished : SelectFraming.Partial (x.take k))
    (env : σ) :
    let piece := (x.take (SelectFrame.tailOffset x)).drop (max FRAME_HEADER_LEN k)
    A.handOn (x.take k) (FrameActions.ownBytes (x.take k) (x.drop k)) env =
      if piece.isEmpty then (true, env)
      else A.pass (SelectFrame.type x) piece env := by
  intro piece
  have hlength : SelectFraming.length x = SelectFrame.tailOffset x + 4 :=
    SelectFrame.length_eq hfull
  have hall := take_ownBytes hk hunfinished
  have hwhole : FRAME_HEADER_LEN ≤ SelectFrame.tailOffset x + 4 := by
    unfold SelectFrame.tailOffset
    omega
  have hpiece : FrameActions.piece (x.take k)
      (FrameActions.ownBytes (x.take k) (x.drop k)) = piece := by
    unfold FrameActions.piece
    rw [hall, hlength, SelectFrame.tailOffset_take hwhole, List.take_take,
      Nat.min_eq_left (Nat.le_add_right _ 4), List.length_take,
      Nat.min_eq_left hk]
  rw [FrameActions.handOn, hpiece, hall, hlength, SelectFrame.type_take hwhole]

theorem takeFrame_full {a : Deframer σ} {x : ByteString} {k : Nat}
    (hfull : FRAME_HEADER_LEN ≤ x.length)
    (hk : k ≤ x.length)
    (hunfinished : SelectFraming.Partial (x.take k))
    (hpending : a.pending = x.take k) :
    A.takeFrame a (x.drop k) =
      a.afterPass x (A.handOn (x.take k)
        (FrameActions.ownBytes (x.take k) (x.drop k)) a.env) := by
  obtain ⟨whole, hset⟩ : exists whole, whole = SelectFrame.tailOffset x + 4 :=
    ⟨_, rfl⟩
  have hlength : SelectFraming.length x = whole :=
    (SelectFrame.length_eq hfull).trans hset.symm
  have hlt := lt_length hk hunfinished
  have hall := take_ownBytes hk hunfinished
  have hwhole : FRAME_HEADER_LEN ≤ whole := by
    rw [hset, SelectFrame.tailOffset]
    omega
  have hown : (FrameActions.ownBytes (x.take k) (x.drop k)).length =
      min whole x.length - k := by
    rw [ownBytes_eq hk, List.length_drop, List.length_take, hlength]
  have hrest : (x.drop k).drop (min whole x.length - k) = x.drop whole := by
    rw [List.drop_drop]
    rcases Nat.le_total whole x.length with hle | hge
    · rw [Nat.min_eq_left hle, Nat.add_sub_cancel' (by omega)]
    · rw [Nat.min_eq_right hge, Nat.add_sub_cancel' hk, List.drop_length,
        List.drop_eq_nil_of_le hge]
  have hstill : SelectFraming.Partial (x.take whole) ↔ x.length < whole := by
    have hheader : FRAME_HEADER_LEN ≤ (x.take whole).length := by
      rw [List.length_take]
      omega
    unfold Framing.Partial
    rw [SelectFrame.length_eq hheader, SelectFrame.tailOffset_take hwhole,
      List.length_take, ← hset]
    omega
  simp only [FrameActions.takeFrame, Deframer.afterPass, Deframer.settle, ← hset,
    hpending, hall, hown, hrest, hlength, hstill]
  generalize A.handOn (x.take k)
    (FrameActions.ownBytes (x.take k) (x.drop k)) a.env = passed
  rcases passed with ⟨taken, env⟩
  cases taken with
  | false => rfl
  | true =>
      simp only [if_true]
      by_cases hless : x.length < whole
      · simp only [if_pos hless, List.take_of_length_le (Nat.le_of_lt hless)]
      · simp only [if_neg hless]

/-- A frame whose payload is not complete ends the call. -/
def goOn (A : FrameActions ω σ) (r : Bool × Parsing ω σ) : Bool × Parsing ω σ :=
  if r.1 then A.endFrame r.2 else (false, r.2)

theorem parseFrame_goOn (A : FrameActions ω σ) (s : Parsing ω σ) :
    A.parseFrame s =
      let s := FrameActions.readHeader s
      if s.frame.header.length < FRAME_HEADER_LEN then (false, s)
      else goOn A (A.readPayload s) := by
  unfold FrameActions.parseFrame
  simp only
  generalize FrameActions.readHeader s = s
  split
  · rfl
  · rcases A.readPayload s with ⟨more, s'⟩
    cases more with
    | false => rfl
    | true => rfl

/-- A parser that has found out what the frames so far say, wherever it is in the next. -/
structure InStep (A : FrameActions ω σ) (init : ω) (s : Parsing ω σ)
    (a : Deframer σ) : Prop where
  wrongChecksum : a.wrongChecksum = false
  error : s.error = a.fault
  env : s.env = a.env
  out : s.out = A.outOf init a.frames

/-- What a call of `parseFrame` leaves, next to what `takeFrame` leaves. -/
structure TakesAlike (A : FrameActions ω σ) (init : ω) (r : Bool × Parsing ω σ)
    (t : Deframer σ × ByteString) : Prop where
  reflects : Reflects A init r.2.toFrameParser r.2.env t.1
  goesOn : t.1.fault = false -> r.2.ptr = t.2 ∧ SelectFraming.Partial t.1.pending
  stops : r.1 = false -> t.1.fault = true ∨ t.2 = []

section Call

variable {s s' : Parsing ω σ} {a : Deframer σ} {x : ByteString} {k : Nat}

theorem Reflects.inStep (hreflects : Reflects A init s.toFrameParser s.env a)
    (hfault : a.fault = false) : InStep A init s a where
  wrongChecksum := hreflects.wrongChecksum hfault
  error := hreflects.error
  env := hreflects.env
  out := hreflects.out (hreflects.wrongChecksum hfault)

theorem InStep.moved (hstep : InStep A init s a)
    (hsame : s' = { s with frame := s'.frame, ptr := s'.ptr }) : InStep A init s' a := by
  rw [hsame]
  exact ⟨hstep.wrongChecksum, hstep.error, hstep.env, hstep.out⟩

theorem partial_of_tail (hfull : FRAME_HEADER_LEN ≤ x.length)
    (hshort : x.length < SelectFrame.tailOffset x + 4) : SelectFraming.Partial x := by
  unfold Framing.Partial
  rw [SelectFrame.length_eq hfull]
  exact hshort

/-- The bytes end before the frame does. -/
theorem InStep.alike_of_end (hstep : InStep A init s a) (hat : s.At A x k)
    (hend : x.length ≤ k)
    (hunfinished : SelectFraming.Partial x) :
    TakesAlike A init (false, s) ({ a with pending := x }, []) := by
  rcases hat.of_end hend with ⟨hmatches, hptr⟩
  exact
    { reflects := Reflects.of_good hstep.wrongChecksum hstep.error hstep.env hmatches
        hstep.out
      goesOn := fun _ => ⟨hptr, hunfinished⟩
      stops := fun _ => Or.inr rfl }

/-- From the end of the payload on. -/
theorem InStep.endFrame_alike (hstep : InStep A init s a) (hat : s.At A x k)
    (hlength : k ≤ x.length)
    (hdone : SelectFrame.tailOffset x ≤ k)
    (hunfinished : k < SelectFrame.tailOffset x + 4) :
    TakesAlike A init (A.endFrame s) (a.settle x) := by
  have hheader : FRAME_HEADER_LEN ≤ x.length := by
    unfold SelectFrame.tailOffset at hdone
    omega
  unfold Deframer.settle
  by_cases hshort : x.length < SelectFrame.tailOffset x + 4
  · rcases endFrame_short hat hlength hdone hshort with ⟨s', hs', hsame, hat'⟩
    simp only [if_pos hshort]
    rw [hs']
    exact (hstep.moved hsame).alike_of_end hat' (Nat.le_of_lt hshort)
      (partial_of_tail hheader hshort)
  · rcases endFrame_whole hat hlength hdone hunfinished (Nat.le_of_not_lt hshort) with
      ⟨b, s', hs', henv', hholds, hnot⟩
    simp only [if_neg hshort]
    rw [hs']
    cases hcheck : SelectFrame.checksumHolds
      (x.take (SelectFrame.tailOffset x + 4)) with
    | false =>
        rcases hnot hcheck with ⟨_, herror', hout'⟩
        simp only [Bool.false_eq_true, if_false]
        rw [hstep.out] at hout'
        exact
          { reflects := ⟨herror', henv'.trans hstep.env, (fun h => nomatch h),
              (fun h => nomatch h), fun _ => ⟨rfl, hout'⟩⟩
            goesOn := fun h => nomatch h
            stops := fun _ => Or.inl rfl }
    | true =>
        rcases hholds hcheck with ⟨hb, herror', hout', hmatches, hptr⟩
        simp only [if_true]
        have hout : s'.out = A.outOf init
            (a.frames ++ [x.take (SelectFrame.tailOffset x + 4)]) := by
          rw [hout', hstep.out]
          simp only [FrameActions.outOf, List.foldl_append, List.foldl_cons,
            List.foldl_nil]
        refine ⟨Reflects.of_good hstep.wrongChecksum (herror'.trans hstep.error)
          (henv'.trans hstep.env) hmatches hout,
          fun _ => ⟨hptr, Framing.partial_nil⟩, fun hfalse => ?_⟩
        rw [hb] at hfalse
        cases hfalse

/-- From the end of the header on: a piece of payload, if there is one, and the rest. -/
theorem InStep.payload_alike (hstep : InStep A init s a) (hat : s.At A x k)
    (hk : FRAME_HEADER_LEN ≤ k)
    (hlength : k ≤ x.length)
    (hunfinished : k < SelectFrame.tailOffset x + 4) :
    let piece := (x.take (SelectFrame.tailOffset x)).drop k
    TakesAlike A init (goOn A (A.readPayload s))
      (a.afterPass x (if piece.isEmpty then (true, a.env)
        else A.pass (SelectFrame.type x) piece a.env)) := by
  intro piece
  have hpieceLength : piece.length = min (SelectFrame.tailOffset x) x.length - k := by
    rw [List.length_drop, List.length_take]
  by_cases hdone : SelectFrame.tailOffset x ≤ k
  · -- no payload is left
    have hpiece : piece = [] := List.length_eq_zero_iff.mp (by omega)
    rw [readPayload_done hat hlength hdone, hpiece]
    exact hstep.endFrame_alike hat hlength hdone hunfinished
  · have hmore := Nat.lt_of_not_le hdone
    by_cases hempty : k = x.length
    · -- the header is all there is
      have hpiece : piece = [] := List.length_eq_zero_iff.mp (by omega)
      have hshort : x.length < SelectFrame.tailOffset x + 4 := by omega
      have hsettle : a.settle x = ({ a with pending := x }, []) := if_pos hshort
      rw [hempty] at hat hk hmore
      rw [readPayload_empty hat hk hmore, hpiece]
      change TakesAlike A init (false, s) (a.settle x)
      rw [hsettle]
      exact hstep.alike_of_end hat (Nat.le_refl _) (partial_of_tail hk hshort)
    · have hless : k < x.length := lt_of_le_of_ne hlength hempty
      have hpiece : piece.isEmpty = false := by
        rw [List.isEmpty_eq_false_iff, ← List.length_pos_iff]
        omega
      rw [hpiece, if_neg Bool.false_ne_true]
      rcases hpass : A.pass (SelectFrame.type x) piece a.env with ⟨taken, env⟩
      rw [← hstep.env] at hpass
      cases taken with
      | false =>
          rcases readPayload_refused hat hk hless hmore hpass with ⟨f, hread⟩
          rw [hread]
          refine ⟨⟨rfl, rfl, (fun h => nomatch h), fun _ => hstep.out, fun h => ?_⟩,
            (fun h => nomatch h), fun _ => Or.inl rfl⟩
          exact absurd (hstep.wrongChecksum.symm.trans h) Bool.false_ne_true
      | true =>
          rcases readPayload_taken hat hk hless hmore hpass with
            ⟨s', hread, hat', hsame⟩
          have hstep' : InStep A init s' { a with env := env } := by
            rw [hsame]
            exact ⟨hstep.wrongChecksum, hstep.error, rfl, hstep.out⟩
          rw [hread]
          by_cases hpaid : SelectFrame.tailOffset x ≤ x.length
          · rw [decide_eq_true hpaid]
            exact hstep'.endFrame_alike hat' hpaid (Nat.le_refl _) (by omega)
          · -- the bytes end in the payload
            have hshort : x.length < SelectFrame.tailOffset x + 4 := by omega
            have hsettle : Deframer.settle { a with env := env } x =
                ({ a with env := env, pending := x }, []) := if_pos hshort
            rw [decide_eq_false hpaid]
            change TakesAlike A init (false, s') (Deframer.settle { a with env := env } x)
            rw [hsettle]
            exact hstep'.alike_of_end hat' (Nat.le_of_not_le hpaid)
              (partial_of_tail (Nat.le_trans hk hlength) hshort)

/-- Something is taken each time. -/
theorem afterPass_rest (a : Deframer σ) (passed : Bool × σ)
    (hk : k < x.length)
    (hunfinished : k < SelectFrame.tailOffset x + 4) :
    (a.afterPass x passed).2.length < (x.drop k).length := by
  have hpos : 0 < (x.drop k).length := by
    rw [List.length_drop]
    omega
  unfold Deframer.afterPass Deframer.settle
  split
  · simp only
    split
    · exact hpos
    · split
      · simp only [List.length_drop]
        omega
      · exact hpos
  · exact hpos

/-- One call of `parseFrame` takes what there is of one frame. -/
theorem parseFrame_takeFrame (hreflects : Reflects A init s.toFrameParser s.env a)
    (hfault : a.fault = false)
    (hunfinished : SelectFraming.Partial a.pending)
    (hptr : s.ptr ≠ []) :
    TakesAlike A init (A.parseFrame s) (A.takeFrame a s.ptr) ∧
      (A.takeFrame a s.ptr).2.length < s.ptr.length := by
  obtain ⟨x, k, hk, htake, hdrop⟩ : exists (x : ByteString) (k : Nat),
      k < x.length ∧ a.pending = x.take k ∧ s.ptr = x.drop k := by
    have hpos := List.length_pos_of_ne_nil hptr
    refine ⟨a.pending ++ s.ptr, a.pending.length, ?_, List.take_left.symm,
      List.drop_left.symm⟩
    rw [List.length_append]
    omega
  have hat : s.At A x k := ⟨by rw [← htake]; exact hreflects.frame hfault, hdrop⟩
  rcases readHeader_at (Nat.le_of_lt hk) hat with ⟨s1, hs1, hat1, hsame1⟩
  have hstep1 : InStep A init s1 a := (hreflects.inStep hfault).moved hsame1
  have hheader : s1.frame.header.length = min FRAME_HEADER_LEN x.length := by
    rw [hat1.frame.header, SelectFrame.header, List.length_take, List.length_take]
    omega
  rw [htake] at hunfinished
  rw [parseFrame_goOn, hs1, hdrop]
  by_cases hshort : x.length < FRAME_HEADER_LEN
  · -- the header is not complete
    rw [takeFrame_short hshort (Nat.le_of_lt hk) htake]
    simp only [if_pos (show s1.frame.header.length < FRAME_HEADER_LEN by omega)]
    refine ⟨hstep1.alike_of_end hat1 (by omega) (Framing.partial_of_short hshort), ?_⟩
    rw [List.length_drop, List.length_nil]
    omega
  · have hfull : FRAME_HEADER_LEN ≤ x.length := Nat.le_of_not_lt hshort
    have hlt := lt_length (Nat.le_of_lt hk) hunfinished
    rw [SelectFrame.length_eq hfull] at hlt
    have hT : FRAME_HEADER_LEN ≤ SelectFrame.tailOffset x := Nat.le_add_right _ _
    rw [takeFrame_full hfull (Nat.le_of_lt hk) hunfinished htake,
      handOn_full hfull (Nat.le_of_lt hk) hunfinished, Nat.max_comm]
    simp only [if_neg (show ¬ s1.frame.header.length < FRAME_HEADER_LEN by omega)]
    exact ⟨hstep1.payload_alike hat1 (le_max_right _ _) (by omega) (by omega),
      afterPass_rest a _ hk hlt⟩

end Call

/-- Nothing is left to take, or nothing is taken any more. -/
theorem takeFrames_stop (n : Nat) (a : Deframer σ) (chunk : ByteString)
    (hstop : a.fault = true ∨ chunk = []) :
    A.takeFrames n a chunk = a := by
  cases n with
  | zero => rfl
  | succ n =>
      rw [FrameActions.takeFrames, if_pos]
      rcases hstop with hfault | hchunk
      · rw [hfault, Bool.or_true]
      · rw [hchunk]
        rfl

theorem parseFrames_takeFrames (n : Nat) {s : Parsing ω σ} {a : Deframer σ}
    {chunk : ByteString}
    (hreflects : Reflects A init s.toFrameParser s.env a)
    (hgood : a.fault = false ->
      s.ptr = chunk ∧ SelectFraming.Partial a.pending) :
    let s' := A.parseFrames n s
    let a' := A.takeFrames n a chunk
    Reflects A init s'.toFrameParser s'.env a' ∧
      (a'.fault = false ->
        SelectFraming.Partial a'.pending ∧
          (chunk.length ≤ n -> s'.ptr = [])) := by
  induction n generalizing s a chunk with
  | zero =>
      refine ⟨hreflects, fun hfault => ⟨(hgood hfault).2, fun hempty => ?_⟩⟩
      exact (hgood hfault).1.trans
        (List.length_eq_zero_iff.mp (Nat.le_zero.mp hempty))
  | succ n ih =>
      intro s' a'
      by_cases hstop : a.fault = true ∨ chunk = []
      · have ha : a' = a := takeFrames_stop (n + 1) a chunk hstop
        have hs : s' = s := by
          refine if_pos ?_
          rw [hreflects.error]
          cases hfault : a.fault with
          | true => exact Bool.or_true _
          | false =>
              rw [(hgood hfault).1, hstop.resolve_left (by simp [hfault])]
              rfl
        rw [ha, hs]
        refine ⟨hreflects, fun hfault => ⟨(hgood hfault).2, fun _ => ?_⟩⟩
        exact (hgood hfault).1.trans (hstop.resolve_left (by simp [hfault]))
      · have hfault : a.fault = false := by
          simpa using fun h => hstop (Or.inl h)
        have hchunk : chunk ≠ [] := fun h => hstop (Or.inr h)
        rcases hgood hfault with ⟨hptr, hunfinished⟩
        rw [← hptr] at hchunk
        rcases parseFrame_takeFrame hreflects hfault hunfinished hchunk with
          ⟨⟨hreflects1, hgood1, hend⟩, hless⟩
        rcases hparse : A.parseFrame s with ⟨b, t⟩
        rcases htake : A.takeFrame a s.ptr with ⟨a1, rest⟩
        rw [hparse, htake] at hreflects1 hgood1 hend
        rw [htake] at hless
        have herror : s.error = false := hreflects.error.trans hfault
        have ha : a' = A.takeFrames n a1 rest := by
          rw [hptr] at htake hchunk
          simp only [a', FrameActions.takeFrames, htake, hfault, Bool.or_false,
            List.isEmpty_iff, if_neg hchunk]
        have hs : s' = if b then A.parseFrames n t else t := by
          simp only [s', FrameActions.parseFrames, hparse, herror, Bool.or_false,
            List.isEmpty_iff, if_neg hchunk]
          cases b <;> rfl
        cases b with
        | false =>
            have hover := hend rfl
            rw [ha, hs, takeFrames_stop n a1 rest hover]
            refine ⟨hreflects1, fun hfault1 => ⟨(hgood1 hfault1).2, fun _ => ?_⟩⟩
            exact (hgood1 hfault1).1.trans
              (hover.resolve_left (by simp [hfault1]))
        | true =>
            rcases ih hreflects1 hgood1 with ⟨hreflects2, hgood2⟩
            rw [ha, hs]
            refine ⟨hreflects2, fun hfault2 => ?_⟩
            rcases hgood2 hfault2 with ⟨hunfinished2, hptr2⟩
            refine ⟨hunfinished2, fun hlength => hptr2 ?_⟩
            rw [hptr] at hless
            omega

/-- What a parser and its environment are between two calls. -/
structure Represents (A : FrameActions ω σ) (init : ω) (d : FrameParser ω)
    (env : σ) (a : Deframer σ) : Prop where
  reflects : Reflects A init d env a
  good : a.fault = false -> d.buffer = [] ∧ SelectFraming.Partial a.pending

theorem represents_init (A : FrameActions ω σ) (init : ω) (env : σ) :
    Represents A init (FrameParser.init init) env (Deframer.init env) where
  reflects :=
    Reflects.of_good rfl rfl rfl
      (FrameState.matches_short SelectFraming.header_pos rfl rfl rfl) rfl
  good := fun _ => ⟨rfl, Framing.partial_nil⟩

/-- A call of `write` takes the chunk in frame by frame. -/
theorem onWrite_takeIn {d : FrameParser ω} {env : σ} {a : Deframer σ}
    (hrepresents : Represents A init d env a)
    (data : ByteString) :
    exists d' env',
      A.onWrite data d env =
        (if (A.takeIn a data).fault then 0 else data.length, d', env') ∧
      Represents A init d' env' (A.takeIn a data) := by
  rcases hrepresents with ⟨hreflects, hgood⟩
  cases hfault : a.fault with
  | true =>
      have hin : A.takeIn a data = a :=
        takeFrames_stop data.length a data (Or.inl hfault)
      have herror : d.error = true := hreflects.error.trans hfault
      rw [hin, hfault]
      refine ⟨d, env, ?_, hreflects, hgood⟩
      rw [FrameActions.onWrite, if_pos herror]
      rfl
  | false =>
      rcases hgood hfault with ⟨hbuffer, hunfinished⟩
      have herror : ¬ d.error = true := by
        rw [hreflects.error, hfault]
        exact Bool.false_ne_true
      let s : Parsing ω σ :=
        { d with buffer := data, env := env, ptr := data }
      have hs : Reflects A init s.toFrameParser s.env a :=
        ⟨hreflects.error, hreflects.env, hreflects.frame, hreflects.out,
          hreflects.mismatch⟩
      have hdata : s.ptr = data := rfl
      rcases parseFrames_takeFrames data.length hs
        (fun _ => ⟨hdata, hunfinished⟩) with ⟨hreflects', hgood'⟩
      let s' := A.parseFrames data.length s
      refine ⟨{ s'.toFrameParser with buffer := s'.ptr }, s'.env, ?_,
        ⟨hreflects'.error, hreflects'.env, hreflects'.frame, hreflects'.out,
          hreflects'.mismatch⟩,
        fun hfault' => ⟨(hgood' hfault').2 (Nat.le_refl _), (hgood' hfault').1⟩⟩
      have herror' : s'.error = (A.takeIn a data).fault := hreflects'.error
      simp only [FrameActions.onWrite, FrameActions.processBuffer, if_neg herror,
        hbuffer, List.nil_append, ← herror', s', s]

/-- Nothing of a frame has been received, and the parser has not failed. -/
structure FrameParser.AtRest (d : FrameParser ω) : Prop where
  error : d.error = false
  header : d.frame.header = []
  payload : d.frame.payloadRemains ≤ 0
  tail : d.frame.tail = []

theorem Represents.atRest_iff {d : FrameParser ω} {env : σ} {a : Deframer σ}
    (hrepresents : Represents A init d env a) :
    d.AtRest ↔ a.fault = false ∧ a.pending = [] := by
  rcases hrepresents with ⟨hreflects, _⟩
  constructor
  · intro hrest
    have hfault : a.fault = false := hreflects.error.symm.trans hrest.error
    have hheader := (hreflects.frame hfault).header
    rw [hrest.header] at hheader
    refine ⟨hfault, ?_⟩
    rcases List.take_eq_nil_iff.mp hheader.symm with hzero | hnil
    · exact absurd hzero (by decide)
    · exact hnil
  · intro hgood
    rcases hgood with ⟨hfault, hpending⟩
    have hmatches := hreflects.frame hfault
    rw [hpending] at hmatches
    rcases hmatches.short SelectFraming.header_pos with ⟨htail, hremains⟩
    exact
      { error := hreflects.error.trans hfault
        header := hmatches.header
        payload := Int.le_of_eq hremains
        tail := htail }

end Refinement

end Internal
end OssSdk
