import OssSdk.Internal.SelectFrameDecoder
import OssSdk.Internal.ExecuteContext

/-!
# Results of select operations

The result of a select operation is built from the status and the headers alone.
That of a meta operation is built from the fields of a parser that is asked only
whether it has failed.
-/

namespace OssSdk
namespace Transform

open Foundation
open Internal

/-- The body is the content of the stream, where the call has made one. -/
structure SelectObjectResult where
  statusCode : Int
  headers : HeaderCollection
  body : Option ByteString
deriving DecidableEq

def toSelectObject (output : OperationOutput) : SelectObjectResult :=
  ⟨output.statusCode, output.headers, none⟩

structure CreateSelectObjectMetaResult where
  statusCode : Int
  headers : HeaderCollection
  body : SelectObjectMeta
deriving DecidableEq

/-- The parser after the whole of a body has been written to it. -/
def parsedMeta (raw : ByteString) : FrameParser SelectObjectMeta :=
  (SelectMetaFrameParser.onWrite raw SelectMetaFrameParser.init).2

def toCreateSelectObjectMeta (output : OperationOutput) :
    Except OperationError CreateSelectObjectMetaResult :=
  match output.body with
  | some raw =>
      let parser := parsedMeta raw
      if (SelectMetaFrameParser.iostate parser).fail then
        .error (OperationError.ofCode (ErrorCode.serde .DeserializationFailed)
          (((SortedMap.empty : ErrorFields).emplace (bytes "Code")
            (bytes "SelectMetaFrameError")).emplace (bytes "Message")
              parser.out.errorMessage))
      else .ok ⟨output.statusCode, output.headers, parser.out⟩
  | none => .ok ⟨output.statusCode, output.headers, SelectObjectMeta.empty⟩

/-!
# What a meta result says about its body
-/

/-- The parser has got a meta end frame, and has nothing of a later frame. -/
def ReceivesMeta (output : OperationOutput) : Prop :=
  exists raw, output.body = some raw ∧ (parsedMeta raw).AtRest ∧
    exists f, f ∈ (SelectFraming.split raw).frames ∧
      SelectFrame.isMetaEnd f = true ∧ SelectFrame.checksumHolds f = true

/-- A result without an error is that of a meta result that was received. -/
def TellsOfMeta (output : OperationOutput) : Prop :=
  forall result, toCreateSelectObjectMeta output = .ok result ->
    ReceivesMeta output

/--
A frame with a wrong checksum, or nothing but whole frames, one of which ends a
meta result.
-/
def tellsWhen (output : OperationOutput) : Bool :=
  match output.body with
  | none => false
  | some raw =>
      let s := SelectFraming.split raw
      s.frames.any (fun f => !SelectFrame.checksumHolds f) ||
        (s.pending.isEmpty && s.frames.any SelectFrame.isMetaEnd)

/-- The parser fails exactly when a checksum does, and has else got all frames. -/
theorem parsedMeta_frames (raw : ByteString) :
    let s := SelectFraming.split raw
    ((parsedMeta raw).error = true ↔
        exists f, f ∈ s.frames ∧ SelectFrame.checksumHolds f = false) ∧
      ((parsedMeta raw).AtRest ↔
        (parsedMeta raw).error = false ∧ s.pending = []) := by
  intro s
  let A := SelectMetaFrameParser.actions
  let a := A.takeIn (Deframer.init ()) raw
  rcases onWrite_takeIn (represents_init A SelectObjectMeta.empty ()) raw with
    ⟨d, env, hwrite, hrepresents⟩
  have hparsed : parsedMeta raw = d := by
    have honly : parsedMeta raw =
        (A.onWrite raw SelectMetaFrameParser.init ()).2.1 := rfl
    rw [honly]
    exact congrArg (fun r => r.2.1) hwrite
  have hframes : a.fault = false ->
      s = ⟨a.frames, a.pending⟩ ∧
        forall f, f ∈ a.frames -> SelectFrame.checksumHolds f = true := by
    intro hgood
    have hlength : raw.length ≤ raw.length := Nat.le_refl _
    rcases takeFrames_feed (A := A) raw.length rfl Framing.partial_nil hlength
      hgood with ⟨hfeed, hall⟩
    refine ⟨hfeed, ?_⟩
    intro f hf
    rcases hall f hf with hold | hholds
    · cases hold
    · exact hholds
  rw [hparsed, hrepresents.atRest_iff, hrepresents.reflects.error]
  constructor
  · constructor
    · intro hfault
      exact takeFrames_fault (A := A) raw.length (fun _ _ _ => rfl) rfl
        Framing.partial_nil hfault
    · intro hbad
      rcases hbad with ⟨f, hf, hnot⟩
      by_contra hgood
      rw [Bool.not_eq_true] at hgood
      rcases hframes hgood with ⟨hs, hall⟩
      rw [hs] at hf
      rw [hall f hf] at hnot
      cases hnot
  · refine and_congr_right ?_
    intro hgood
    rw [(hframes hgood).1]

end Transform
end OssSdk
