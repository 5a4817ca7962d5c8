import OssSdk.Internal.SelectFrameDecoder

/-!
# Chunks of a select result

What the parsers make of a stream is a function of the stream, however it comes in,
as long as the writer behind the decoder takes what it is given.
-/

namespace OssSdk
namespace Internal

open Foundation

variable {σ : Type}

namespace SelectFrameDecodingWriter

/-- A call of `write` for every chunk. -/
def writeAll (inner : Option (ByteWriter σ)) (chunks : List ByteString)
    (s : FrameParser DecodedResult × σ) : FrameParser DecodedResult × σ :=
  chunks.foldl (fun s data => (onWrite inner data s.1 s.2).2) s

/-- What becomes of the chunks, and what the writer behind the decoder is offered. -/
def decode (inner : ByteWriter σ) (w : σ) (chunks : List ByteString) :
    FrameParser DecodedResult × σ × ByteString :=
  writeAll (some inner.recorded) chunks (init, w, [])

/-- The decoder over a stream that takes everything. -/
def recording : FrameActions DecodedResult ByteString :=
  actions (some (OStreamWriter stringstream))

def dataLog (frameType : Nat) (piece content : ByteString) : ByteString :=
  if frameType = FRAME_TYPE_DATA then content ++ piece else content

/-- A writer that takes everything gets the payload of the data frames. -/
theorem passData_acceptsAll {inner : ByteWriter σ} (haccepts : inner.AcceptsAll)
    {p : ByteString}
    (hp : p ≠ [])
    (t : Nat) (w : σ) :
    passData (some inner) t p w =
      (true, if t = FRAME_TYPE_DATA then (inner.write p w).2 else w) := by
  unfold passData
  by_cases hdata : t = FRAME_TYPE_DATA
  · have hlength := haccepts p w
    have hsome : ((inner.write p w).1 == 0) = false := by
      rw [hlength, beq_eq_false_iff_ne]
      exact (List.length_pos_of_ne_nil hp).ne'
    rw [if_pos hdata, if_pos hdata]
    simp only [hsome, Bool.false_and, Bool.not_false]
  · rw [if_neg hdata, if_neg hdata]

theorem recording_accepts : recording.Accepts dataLog where
  pass t _ w hp := passData_acceptsAll stringstream_acceptsAll hp t w
  nil t w := by
    unfold dataLog
    split
    · exact List.append_nil w
    · rfl
  append t p q w := by
    unfold dataLog
    split
    · exact (List.append_assoc w p q).symm
    · rfl

/-- A writer that takes everything is no different, as far as one can tell. -/
theorem passesLike_recording {inner : ByteWriter σ} (haccepts : inner.AcceptsAll) :
    (actions (some inner.recorded)).PassesLike recording Prod.snd := by
  intro t p w hp
  have haccepts' : inner.recorded.AcceptsAll := fun data w => haccepts data w.1
  have hpass := passData_acceptsAll haccepts' hp t w
  rw [recording_accepts.pass t p w.2 hp]
  change _ = ((passData (some inner.recorded) t p w).1,
    (passData (some inner.recorded) t p w).2.2)
  rw [hpass]
  unfold dataLog
  by_cases hdata : t = FRAME_TYPE_DATA
  · rw [if_pos hdata, if_pos hdata]
    rfl
  · rw [if_neg hdata, if_neg hdata]

/-- What has become of the chunks is what becomes of the stream. -/
theorem decode_stream {inner : ByteWriter σ} (haccepts : inner.AcceptsAll)
    (w : σ) (chunks : List ByteString) :
    let r := decode inner w chunks
    let a := recording.takeIn (Deframer.init []) chunks.flatten
    r.1.error = a.fault ∧ r.1.out = recording.told ⟨0, []⟩ a ∧ r.2.2 = a.env := by
  intro r a
  have hrepresents := Represents.writeAll
    (represents_init (actions (some inner.recorded)) ⟨0, []⟩ (w, [])) chunks
  have hlike := (passesLike_recording haccepts).takeAll
    (Deframer.init (w, [])) chunks
  have hchunks := recording_accepts.takeAll (Deframer.between_init []) chunks
  have ha : a = ((actions (some inner.recorded)).takeAll
      (Deframer.init (w, [])) chunks).map Prod.snd :=
    hchunks.symm.trans hlike
  rw [ha]
  exact ⟨hrepresents.reflects.error, hrepresents.reflects.told,
    congrArg Prod.snd hrepresents.reflects.env⟩

end SelectFrameDecodingWriter

namespace SelectMetaFrameParser

def parse (chunks : List ByteString) : FrameParser SelectObjectMeta :=
  chunks.foldl (fun d data => (onWrite data d).2) init

theorem actions_accepts : actions.Accepts (fun _ _ w => w) where
  pass _ _ _ _ := rfl
  nil _ _ := rfl
  append _ _ _ _ := rfl

theorem parse_stream (chunks : List ByteString) :
    let d := parse chunks
    let a := actions.takeIn (Deframer.init ()) chunks.flatten
    d.error = a.fault ∧ d.out = actions.told SelectObjectMeta.empty a := by
  intro d a
  have hrepresents := Represents.writeAll
    (represents_init actions SelectObjectMeta.empty ()) chunks
  rw [actions_accepts.takeAll (Deframer.between_init ())] at hrepresents
  have hall : forall (chunks : List ByteString) (d : FrameParser SelectObjectMeta),
      chunks.foldl (fun d data => (onWrite data d).2) d =
        (actions.writeAll chunks (d, ())).1 := by
    intro chunks
    induction chunks with
    | nil => exact fun _ => rfl
    | cons chunk rest ih => exact fun d => ih (onWrite chunk d).2
  have hd : d = (actions.writeAll chunks (init, ())).1 := hall chunks init
  rw [hd]
  exact ⟨hrepresents.reflects.error, hrepresents.reflects.told⟩

end SelectMetaFrameParser

section Chunks

open SelectFrameDecodingWriter SelectMetaFrameParser

/-- How a stream is cut into chunks makes no difference to what is parsed. -/
theorem parsed_of_flatten_eq (inner : ByteWriter σ) (w : σ)
    (chunks chunks' : List ByteString)
    (haccepts : inner.AcceptsAll)
    (hsame : chunks.flatten = chunks'.flatten) :
    ((decode inner w chunks).1.error = (decode inner w chunks').1.error ∧
        (decode inner w chunks).1.out = (decode inner w chunks').1.out ∧
        (decode inner w chunks).2.2 = (decode inner w chunks').2.2) ∧
      (parse chunks).error = (parse chunks').error ∧
        (parse chunks).out = (parse chunks').out := by
  rcases decode_stream haccepts w chunks with ⟨herror, hout, hseen⟩
  rcases decode_stream haccepts w chunks' with ⟨herror', hout', hseen'⟩
  rcases parse_stream chunks with ⟨hmeta, hfields⟩
  rcases parse_stream chunks' with ⟨hmeta', hfields'⟩
  rw [← hsame] at herror' hout' hseen' hmeta' hfields'
  exact ⟨⟨herror.trans herror'.symm, hout.trans hout'.symm,
    hseen.trans hseen'.symm⟩, hmeta.trans hmeta'.symm,
    hfields.trans hfields'.symm⟩

/-- The beginning of a header, cut in two ways. -/
theorem parsed_of_flatten_eq_header :
    let inner := OStreamWriter stringstream
    (decode inner [] [[1], [128, 0]]).2.2 =
      (decode inner [] [[1, 128], [0]]).2.2 :=
  (parsed_of_flatten_eq (OStreamWriter stringstream) []
    [[1], [128, 0]] [[1, 128], [0]] stringstream_acceptsAll rfl).1.2.2

end Chunks

end Internal
end OssSdk
