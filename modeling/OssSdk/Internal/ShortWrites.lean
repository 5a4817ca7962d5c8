import OssSdk.Internal.SelectFrameEncoding
import OssSdk.Io.PartialWrites

/-!
# A writer behind the decoder that takes less than it is offered

The decoder offers every piece of a payload once, and looks at the count of a write only
to see whether it is zero.  What the writer has not taken of a piece is left out.
-/

namespace OssSdk
namespace Internal

open Foundation

variable {ω σ : Type}

/-!
# Environments that grow
-/

/-- What is handed on may only move the environment on. -/
theorem takeFrames_grows {A : FrameActions ω σ} {R : σ -> σ -> Prop}
    (hrefl : forall w, R w w) (htrans : forall u v w, R u v -> R v w -> R u w)
    (hpass : forall t p w, R w (A.pass t p w).2) (n : Nat) (a : Deframer σ)
    (chunk : ByteString) : R a.env (A.takeFrames n a chunk).env := by
  have hframe : forall (a : Deframer σ) chunk, R a.env (A.takeFrame a chunk).1.env := by
    intro a chunk
    have hhanded : R a.env
        (A.handOn a.pending (FrameActions.ownBytes a.pending chunk) a.env).2 := by
      unfold FrameActions.handOn
      split
      · exact hrefl a.env
      · exact hpass _ _ _
    unfold FrameActions.takeFrame
    rcases hgot : A.handOn a.pending (FrameActions.ownBytes a.pending chunk) a.env with
      ⟨taken, env⟩
    rw [hgot] at hhanded
    simp only [hgot]
    cases taken with
    | false => exact hhanded
    | true =>
        simp only
        split
        · exact hhanded
        · split
          · exact hhanded
          · exact hhanded
  induction n generalizing a chunk with
  | zero => exact hrefl a.env
  | succ n ih =>
      unfold FrameActions.takeFrames
      split
      · exact hrefl a.env
      · exact htrans _ _ _ (hframe a chunk) (ih _ _)

namespace SelectFrameDecodingWriter

/-!
# The pieces of the data payloads
-/

/-- A writer that keeps the pieces that it is given. -/
def pieceWriter : ByteWriter (List ByteString) where
  onWrite data w := (data.length, w ++ [data])
  iostate _ := IoState.goodbit
  onWrite_le _ _ := Nat.le_refl _

def piecewise : FrameActions DecodedResult (List ByteString) := actions (some pieceWriter)

/-- The pieces that chunks cut the payloads of the data frames into. -/
def dataPieces (chunks : List ByteString) : List ByteString :=
  (piecewise.takeAll (Deframer.init []) chunks).env

/-- The payloads of the data frames, one behind the other. -/
def dataPayloads (frames : List Frame) : ByteString :=
  ((frames.filter Frame.isData).map Frame.payload).flatten

theorem piecewise_pass {p : ByteString} (hp : p ≠ []) (t : Nat) (w : List ByteString) :
    piecewise.pass t p w = (true, if t = FRAME_TYPE_DATA then w ++ [p] else w) :=
  @passData_acceptsAll _ pieceWriter (fun _ _ => rfl) p hp t w

theorem piecewise_passesLike : piecewise.PassesLike recording List.flatten := by
  intro t p w hp
  rw [recording_accepts.pass t p w.flatten hp, piecewise_pass hp]
  unfold dataLog
  split
  · rw [List.flatten_append, List.flatten_singleton]
  · rfl

theorem recording_grows (a : Deframer ByteString) (chunk : ByteString) :
    a.env <+: (recording.takeIn a chunk).env := by
  refine takeFrames_grows List.prefix_refl (fun _ _ _ => List.IsPrefix.trans) ?_ _ a chunk
  intro t p w
  change w <+: (passData (some (OStreamWriter stringstream)) t p w).2
  unfold passData
  split
  · exact List.prefix_append w p
  · exact List.prefix_refl w

theorem piecewise_grows (n : Nat) (a : Deframer (List ByteString)) (chunk : ByteString) :
    a.env <+: (piecewise.takeFrames n a chunk).env := by
  refine takeFrames_grows List.prefix_refl (fun _ _ _ => List.IsPrefix.trans) ?_ n a chunk
  intro t p w
  change w <+: (passData (some pieceWriter) t p w).2
  unfold passData
  split
  · exact List.prefix_append w [p]
  · exact List.prefix_refl w

/-- The pieces of a stream, or of the beginning of one, are its payloads that far. -/
theorem dataPieces_within {chunks : List ByteString} {frames : List Frame}
    (hchunks : chunks.flatten <+: (frames.map Frame.build).flatten) :
    (dataPieces chunks).flatten <+: dataPayloads frames := by
  have hlike := piecewise_passesLike.takeAll (Deframer.init []) chunks
  have hpieces : (dataPieces chunks).flatten =
      (recording.takeAll (Deframer.init []) chunks).env :=
    (congrArg Deframer.env hlike).symm
  rcases hchunks with ⟨more, hmore⟩
  have hall := recording_accepts.takeIn_append (Deframer.between_init []) chunks.flatten more
  have hin := recording_accepts.takeIn_build frames []
  rw [← hmore, hall] at hin
  have hend : (recording.takeIn (recording.takeIn (Deframer.init []) chunks.flatten)
      more).env = dataPayloads frames := by
    rw [hin]
    exact dataLog_build frames []
  rw [hpieces, recording_accepts.takeAll (Deframer.between_init []), ← hend]
  exact recording_grows _ more

/-!
# The decoder offers the pieces in order
-/

/-- The decoder over a writer, with what the writer has taken of every piece. -/
def logging (inner : ByteWriter σ) : FrameActions DecodedResult (σ × List PartialWrite) :=
  actions (some inner.logged)

variable {inner : ByteWriter σ} {w : σ}

/--
The decoder has taken in what the one over all pieces has, which have been offered, or a
piece has been refused.
-/
inductive Follows (inner : ByteWriter σ) (w : σ) (a : Deframer (σ × List PartialWrite))
    (b : Deframer (List ByteString)) : Prop where
  | going : a.frames = b.frames -> a.pending = b.pending -> a.fault = b.fault ->
      inner.offerAll b.env w = (a.env.1, a.env.2, false) -> Follows inner w a b
  | stopped : a.fault = true -> inner.offerAll b.env w = (a.env.1, a.env.2, true) ->
      Follows inner w a b

theorem handOn_follows {e : σ × List PartialWrite} {pieces : List ByteString}
    (hoffered : inner.offerAll pieces w = (e.1, e.2, false)) (p q : ByteString) :
    exists refused e' pieces', (logging inner).handOn p q e = (!refused, e') ∧
      piecewise.handOn p q pieces = (true, pieces') ∧
      inner.offerAll pieces' w = (e'.1, e'.2, refused) := by
  unfold FrameActions.handOn
  by_cases hnone : (FrameActions.piece p q).isEmpty = true
  · rw [if_pos hnone, if_pos hnone]
    exact ⟨false, e, pieces, rfl, rfl, hoffered⟩
  · have hsome : FrameActions.piece p q ≠ [] := by rwa [List.isEmpty_iff] at hnone
    rw [if_neg hnone, if_neg hnone, piecewise_pass hsome]
    by_cases hdata : SelectFrame.type (p ++ q) = FRAME_TYPE_DATA
    · have hlogged : (logging inner).pass (SelectFrame.type (p ++ q))
          (FrameActions.piece p q) e =
            (!inner.refuses (FrameActions.piece p q) e.1,
              ((inner.logged).write (FrameActions.piece p q) e).2) := if_pos hdata
      have hnext : inner.offerAll (pieces ++ [FrameActions.piece p q]) w =
          inner.offer (e.1, e.2, false) (FrameActions.piece p q) := by
        rw [ByteWriter.offerAll_append, hoffered]
        rfl
      rw [if_pos hdata, hlogged]
      exact ⟨_, _, _, rfl, rfl, hnext⟩
    · have hlogged : (logging inner).pass (SelectFrame.type (p ++ q))
          (FrameActions.piece p q) e = (true, e) := if_neg hdata
      rw [if_neg hdata, hlogged]
      exact ⟨false, e, pieces, rfl, rfl, hoffered⟩

variable {a : Deframer (σ × List PartialWrite)} {b : Deframer (List ByteString)}

/-- One frame: the same is taken, or a piece of it is refused. -/
theorem takeFrame_follows (hframes : a.frames = b.frames) (hpending : a.pending = b.pending)
    (hfault : a.fault = b.fault)
    (hoffered : inner.offerAll b.env w = (a.env.1, a.env.2, false)) (chunk : ByteString) :
    Follows inner w ((logging inner).takeFrame a chunk).1 (piecewise.takeFrame b chunk).1 ∧
      (((logging inner).takeFrame a chunk).1.fault = false ->
        ((logging inner).takeFrame a chunk).2 = (piecewise.takeFrame b chunk).2) := by
  rcases handOn_follows hoffered b.pending (FrameActions.ownBytes b.pending chunk) with
    ⟨refused, e', pieces', hlogged, hpieces, hnext⟩
  unfold FrameActions.takeFrame
  rw [hpending]
  simp only [hlogged, hpieces]
  cases refused with
  | true =>
      refine ⟨.stopped rfl ?_, fun hgood => (nomatch hgood)⟩
      split
      · exact hnext
      · split
        · exact hnext
        · exact hnext
  | false =>
      simp only [Bool.not_false]
      split
      · exact ⟨.going hframes rfl hfault hnext, fun _ => rfl⟩
      · split
        · refine ⟨.going ?_ rfl hfault hnext, fun _ => rfl⟩
          simp only
          rw [hframes]
        · exact ⟨.going hframes rfl rfl hnext, fun _ => rfl⟩

theorem takeFrames_follows (n : Nat) (chunk : ByteString) (hfollows : Follows inner w a b) :
    Follows inner w ((logging inner).takeFrames n a chunk)
      (piecewise.takeFrames n b chunk) := by
  induction n generalizing a b chunk with
  | zero => exact hfollows
  | succ n ih =>
      cases hfollows with
      | stopped hfault hoffered =>
          rw [takeFrames_stop (n + 1) a chunk (Or.inl hfault)]
          have hrefused : (inner.offerAll b.env w).2.2 = true := by rw [hoffered]
          refine .stopped hfault ?_
          rw [ByteWriter.offerAll_refused hrefused (piecewise_grows (n + 1) b chunk)]
          exact hoffered
      | going hframes hpending hfault hoffered =>
          rcases takeFrame_follows hframes hpending hfault hoffered chunk with
            ⟨hstep, hrest⟩
          unfold FrameActions.takeFrames
          rw [hfault]
          split
          · exact .going hframes hpending hfault hoffered
          · cases hbad : ((logging inner).takeFrame a chunk).1.fault with
            | false =>
                rw [hrest hbad]
                exact ih _ hstep
            | true =>
                have hlogged := fun rest => @takeFrames_stop _ _ (logging inner) n
                  ((logging inner).takeFrame a chunk).1 rest (Or.inl hbad)
                rw [hlogged, ← hlogged (piecewise.takeFrame b chunk).2]
                exact ih _ hstep

theorem takeAll_follows (chunks : List ByteString) (hfollows : Follows inner w a b) :
    Follows inner w ((logging inner).takeAll a chunks) (piecewise.takeAll b chunks) := by
  induction chunks generalizing a b with
  | nil => exact hfollows
  | cons chunk rest ih => exact ih (takeFrames_follows chunk.length chunk hfollows)

/-- What becomes of the chunks, with what the writer has taken of every piece. -/
def decodeLogged (inner : ByteWriter σ) (w : σ) (chunks : List ByteString) :
    FrameParser DecodedResult × σ × List PartialWrite :=
  writeAll (some inner.logged) chunks (init, w, [])

/-- Every piece is offered once, until one is refused. -/
theorem decodeLogged_offers (inner : ByteWriter σ) (w : σ) (chunks : List ByteString) :
    (decodeLogged inner w chunks).2.2 = (inner.offerAll (dataPieces chunks) w).2.1 ∧
      ((inner.offerAll (dataPieces chunks) w).2.2 = true ->
        (decodeLogged inner w chunks).1.error = true) := by
  have hrepresents := Represents.writeAll
    (represents_init (logging inner) ⟨0, []⟩ (w, [])) chunks
  have hbegun : Follows inner w (Deframer.init (w, [])) (Deframer.init []) :=
    .going rfl rfl rfl rfl
  have henv : (decodeLogged inner w chunks).2 =
      ((logging inner).takeAll (Deframer.init (w, [])) chunks).env :=
    hrepresents.reflects.env
  have herror : (decodeLogged inner w chunks).1.error =
      ((logging inner).takeAll (Deframer.init (w, [])) chunks).fault :=
    hrepresents.reflects.error
  rw [henv, herror]
  unfold dataPieces
  cases takeAll_follows chunks hbegun with
  | going _ _ _ hoffered =>
      rw [hoffered]
      exact ⟨rfl, fun h => (nomatch h)⟩
  | stopped hfault hoffered =>
      rw [hoffered]
      exact ⟨rfl, fun _ => hfault⟩

/--
The bytes that the writer has taken are the first ones of the payloads, or the first piece
that it has not taken whole has put the decoder in error.
-/
def NeverSkips (r : FrameParser DecodedResult × σ × List PartialWrite)
    (payloads : ByteString) : Prop :=
  (exists k, takenAt 0 r.2.2 = List.range k ∧ takenBytes r.2.2 = payloads.take k) ∨
    r.1.error = true ∧ exists whole short, r.2.2 = whole ++ [short] ∧
      (forall e, e ∈ whole -> e.written = e.piece.length) ∧
      short.written < short.piece.length

/--
Nothing is skipped if and only if the writer, offered the pieces in order, takes them
whole up to one that it refuses, or of which it takes a part and then nothing any more.
-/
theorem neverSkips_iff (inner : ByteWriter σ) (w : σ) (frames : List Frame)
    (chunks : List ByteString)
    (hchunks : chunks.flatten <+: (frames.map Frame.build).flatten) :
    NeverSkips (decodeLogged inner w chunks) (dataPayloads frames) ↔
      inner.TakesInOrder (dataPieces chunks) w := by
  have hlog := (decodeLogged_offers inner w chunks).1
  have hpayloads : offeredBytes (inner.offerAll (dataPieces chunks) w).2.1 <+:
      dataPayloads frames :=
    (ByteWriter.offeredBytes_prefix _ _).trans (dataPieces_within hchunks)
  unfold NeverSkips
  rw [hlog, ← ByteWriter.takenAt_range_iff 0]
  constructor
  · rintro (⟨k, hplaces, _⟩ | ⟨_, whole, short, hsplit, hwhole, _⟩)
    · exact ⟨k, hplaces.trans List.range_eq_range'⟩
    · refine ⟨(offeredBytes whole).length + short.written, ?_⟩
      rw [hsplit, takenAt_whole hwhole, takenAt, takenAt, List.append_nil,
        List.range'_append_1]
  · rintro ⟨k, hplaces⟩
    refine Or.inl ⟨k, hplaces.trans List.range_eq_range'.symm, ?_⟩
    have hcount : k ≤ (offeredBytes (inner.offerAll (dataPieces chunks) w).2.1).length := by
      have hlength := length_takenAt 0 (inner.offerAll (dataPieces chunks) w).2.1
      rw [hplaces, List.length_range'] at hlength
      rw [hlength]
      exact takenBytes_length_le _
    rcases hpayloads with ⟨rest, hrest⟩
    rw [takenBytes_of_range hplaces, ← hrest, List.take_append_of_le_length hcount]

/-!
# A writer that takes one byte at a time
-/

/-- The writer counts its calls. -/
def oneByteWriter : ByteWriter Nat where
  onWrite data calls := (min 1 data.length, calls + 1)
  iostate _ := IoState.goodbit
  onWrite_le _ _ := Nat.min_le_right _ _

def twoLetters (a b : UInt8) : Frame := ⟨1, 0x800001, 0, 0, [a, b], false, by simp⟩

theorem neverSkips_iff_twoLetters :
    NeverSkips (decodeLogged (OStreamWriter stringstream) [] [(twoLetters 104 105).build])
        (dataPayloads [twoLetters 104 105]) ↔
      (OStreamWriter stringstream).TakesInOrder
        (dataPieces [(twoLetters 104 105).build]) [] :=
  neverSkips_iff (OStreamWriter stringstream) [] [twoLetters 104 105]
    [(twoLetters 104 105).build] ⟨[], by simp⟩

/-- Of two data frames the writer gets the first byte of each. -/
theorem not_neverSkips_oneByte :
    ¬ NeverSkips
      (decodeLogged oneByteWriter 0
        [(twoLetters 104 105).build ++ (twoLetters 106 107).build])
      (dataPayloads [twoLetters 104 105, twoLetters 106 107]) := by
  have hplaces : takenAt 0 (decodeLogged oneByteWriter 0
      [(twoLetters 104 105).build ++ (twoLetters 106 107).build]).2.2 = [0, 2] := by
    decide +kernel
  have herror : (decodeLogged oneByteWriter 0
      [(twoLetters 104 105).build ++ (twoLetters 106 107).build]).1.error = false := by
    decide +kernel
  rintro (⟨k, hrange, _⟩ | ⟨hfailed, _⟩)
  · rw [hplaces] at hrange
    have hlength := congrArg List.length hrange
    rw [List.length_range] at hlength
    rw [← hlength] at hrange
    revert hrange
    decide
  · rw [herror] at hfailed
    cases hfailed

end SelectFrameDecodingWriter

end Internal
end OssSdk
