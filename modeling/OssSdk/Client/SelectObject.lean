import OssSdk.Client.OSSClientUtils
import OssSdk.Internal.LastAttempt
import OssSdk.Transform.SerdeObjectSelect
import OssSdk.Transport.Curl.CurlHttpClient

/-!
# Selecting from an object

The sink of a select operation is a decoder between the transport and the sink of
the caller.  Every attempt whose response has a body makes one of its own.
-/

namespace OssSdk
namespace Client

open Foundation
open Internal
open Sync
open Transport
open Transform

variable {τ σ : Type}

/--
Where a select operation keeps its decoder, and the two sinks: what the caller's
sink touches, and the stream that is used when the caller has none.
-/
structure SelectCells (τ σ : Type) where
  decoder : Cell τ (FrameParser DecodedResult)
  sinks : Cell τ (σ × ByteString)
  apart : decoder.Apart sinks

def outputRaw : ByteString := bytes "x-oss-select-output-raw"

/-- The output comes as it is, and not in frames. -/
def isRaw (headers : HeaderCollection) : Bool :=
  headers.find? outputRaw == some (bytes "true")

def selectSinkFactory (cells : SelectCells τ σ)
    (userFactory : Option (SinkFactory σ)) : SinkFactory τ where
  isOneShot := userFactory.any (·.isOneShot)
  supplier := some fun size headers w =>
    let (userSink, sinks) := innerSink userFactory size headers (cells.sinks.get w)
    let w := cells.sinks.set sinks w
    if isRaw headers then (userSink.map (ByteWriter.on cells.sinks), w)
    else
      (some (SelectFrameDecodingWriter cells.decoder cells.sinks userSink),
        cells.decoder.set SelectFrameDecodingWriter.init w)

/-- `selectRequest` is the text that `toXmlText` makes of it. -/
structure SelectObjectRequest (σ : Type) where
  bucket : ByteString
  key : ByteString
  process : ByteString
  headers : HeaderCollection
  parameters : ParameterCollection
  selectRequest : Option ByteString
  sinkFactory : Option (SinkFactory σ)

/-- The first of the required fields that is missing. -/
def SelectObjectRequest.missing (request : SelectObjectRequest σ) :
    Option OperationError :=
  if request.bucket.isEmpty then some (missingField (bytes "Bucket"))
  else if request.key.isEmpty then some (missingField (bytes "Key"))
  else if request.process.isEmpty then some (missingField (bytes "Process"))
  else if request.selectRequest.isNone then
    some (missingField (bytes "SelectRequest"))
  else none

def fromSelectObject (CalcContentMD5 : ByteString -> ByteString)
    (request : SelectObjectRequest σ) : OperationInput τ :=
  let headers :=
    request.headers.entries.foldl (fun m e => m.insertOrAssign e.1 e.2)
      ((SortedMap.empty : HeaderCollection).emplace (bytes "Content-Type")
        (bytes "application/xml"))
  let parameters :=
    request.parameters.entries.foldl (fun m e => m.insertOrAssign e.1 e.2)
      (SortedMap.empty : ParameterCollection)
  let md5 :=
    match request.selectRequest with
    | some str => CalcContentMD5 str
    | none => bytes "1B2M2Y8AsgTpgAmY7PhCfg=="
  { opName := bytes "SelectObject"
    method := bytes "POST"
    headers := headers.emplace (bytes "Content-MD5") md5
    parameters :=
      if request.process.isEmpty then parameters
      else parameters.insertOrAssign (bytes "x-oss-process") request.process
    bucket := some request.bucket
    key := some request.key
    opMetadata := SortedMap.empty
    body :=
      request.selectRequest.map fun str => .content false (some str.length) str }

/-- The client, with what it calls besides its stack. -/
structure SelectClient (τ σ : Type) where
  base : ClientImplBase τ
  disableState : DisableState τ
  curl : Curl.CurlHttpClient τ
  cells : SelectCells τ σ
  CalcContentMD5 : ByteString -> ByteString

namespace SelectClient

variable (c : SelectClient τ σ)

def client : ClientImpl τ :=
  { c.base with httpTransport := c.curl.send, disableState := c.disableState }

def innerOpts (request : SelectObjectRequest σ) :
    Option (OperationInnerOptions τ) :=
  some ⟨some (selectSinkFactory c.cells request.sinkFactory), [], []⟩

/-- The outcome, from the result of the operation. -/
def outcome (request : SelectObjectRequest σ) (result : OperationResult)
    (w : Runtime τ) : Except OperationError SelectObjectResult :=
  match result with
  | .error e => .error e
  | .output o =>
      if request.sinkFactory.isNone then
        .ok { toSelectObject o with body := some (c.cells.sinks.get w.env).2 }
      else .ok (toSelectObject o)

def selectObject (request : SelectObjectRequest σ)
    (opts : Option (OperationOptions τ)) (w : Runtime τ) :
    Except OperationError SelectObjectResult × Runtime τ :=
  match request.missing with
  | some e => (.error e, w)
  | none =>
      let (result, w) :=
        c.client.Execute (fromSelectObject c.CalcContentMD5 request) opts
          (c.innerOpts request) w
      (c.outcome request result w, w)

/-- What the callback gets, when the tasks of the operation run on `fuel`. -/
def selectObjectAsync (fuel : Nat) (request : SelectObjectRequest σ)
    (opts : Option (OperationOptions τ)) (w : Runtime τ) :
    Option (Except OperationError SelectObjectResult × Runtime τ) :=
  match request.missing with
  | some e => some (.error e, w)
  | none =>
      (StackAgreement.executeAsyncOn c.client.httpTransport
        ⟨c.client.toClientImplBase⟩ fuel
        (fromSelectObject c.CalcContentMD5 request) opts (c.innerOpts request)
        w).map fun r => (c.outcome request r.1 r.2, r.2)

/-- What was sent in the last attempt of a call. -/
def lastSent (request : SelectObjectRequest σ)
    (opts : Option (OperationOptions τ)) (w : Runtime τ) : Option (Exchange τ) :=
  if request.missing.isSome then none
  else
    c.client.lastSent (fromSelectObject c.CalcContentMD5 request) opts
      (c.innerOpts request) w

def lastSentAsync (fuel : Nat) (request : SelectObjectRequest σ)
    (opts : Option (OperationOptions τ)) (w : Runtime τ) : Option (Exchange τ) :=
  if request.missing.isSome then none
  else
    c.client.lastSentAsync fuel (fromSelectObject c.CalcContentMD5 request) opts
      (c.innerOpts request) w

end SelectClient

/-- A call of either client that returns or calls back. -/
inductive Selects (c : SelectClient τ σ) (request : SelectObjectRequest σ)
    (opts : Option (OperationOptions τ)) (w : Runtime τ) :
    ClientKind -> Option (Exchange τ) ->
      Except OperationError SelectObjectResult -> Runtime τ -> Prop where
  | sync :
      Selects c request opts w .sync (c.lastSent request opts w)
        (c.selectObject request opts w).1 (c.selectObject request opts w).2
  | async {fuel : Nat} {outcome : Except OperationError SelectObjectResult}
      {w' : Runtime τ} :
      c.selectObjectAsync fuel request opts w = some (outcome, w') ->
      Selects c request opts w .async (c.lastSentAsync fuel request opts w)
        outcome w'

end Client
end OssSdk
