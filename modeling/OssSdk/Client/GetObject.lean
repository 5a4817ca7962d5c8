import OssSdk.Client.OSSClientUtils
import OssSdk.Internal.LastAttempt

/-!
# Getting an object

The operation hands the sink factory of the request on to the transport.
-/

namespace OssSdk
namespace Client

open Foundation
open Internal
open Sync

variable {σ : Type}

/-- A progress callback only matters by being there. -/
structure GetObjectRequest (σ : Type) where
  bucket : ByteString
  key : ByteString
  headers : HeaderCollection
  parameters : ParameterCollection
  sinkFactory : Option (SinkFactory σ)
  hasProgressCallback : Bool := false

namespace GetObjectRequest

def getRange (request : GetObjectRequest σ) : ByteString :=
  (request.headers.find? (bytes "Range")).getD []

def setRange (request : GetObjectRequest σ) (range : ByteString) :
    GetObjectRequest σ :=
  { request with headers := request.headers.insertOrAssign (bytes "Range") range }

def setRangeBehavior (request : GetObjectRequest σ) (behavior : ByteString) :
    GetObjectRequest σ :=
  { request with
    headers := request.headers.insertOrAssign (bytes "x-oss-range-behavior") behavior }

/-- The first of the required fields that is missing. -/
def missing (request : GetObjectRequest σ) : Option OperationError :=
  if request.bucket.isEmpty then some (missingField (bytes "Bucket"))
  else if request.key.isEmpty then some (missingField (bytes "Key"))
  else none

end GetObjectRequest

/-- The body is the content of the stream, where the call has made one. -/
structure GetObjectResult where
  statusCode : Int
  headers : HeaderCollection
  body : Option ByteString
deriving DecidableEq

namespace GetObjectResult

/-- `getHeaderAsInt64Or`, for the header of the length. -/
def getContentLength (result : GetObjectResult) : Int :=
  match result.headers.find? (bytes "Content-Length") with
  | some value => strtoll value
  | none => -1

def getContentRange (result : GetObjectResult) : ByteString :=
  (result.headers.find? (bytes "Content-Range")).getD []

def getHashCrc64ecma (result : GetObjectResult) : ByteString :=
  (result.headers.find? (bytes "x-oss-hash-crc64ecma")).getD []

def overwriteRange (result : GetObjectResult)
    (contentLength contentRange : ByteString) : GetObjectResult :=
  let headers := result.headers
  let headers :=
    if contentLength.isEmpty then headers
    else headers.insertOrAssign (bytes "Content-Length") contentLength
  let headers :=
    if contentRange.isEmpty then headers
    else headers.insertOrAssign (bytes "Content-Range") contentRange
  { result with headers := headers }

end GetObjectResult

def fromGetObject (request : GetObjectRequest σ) : OperationInput σ :=
  let headers :=
    request.headers.entries.foldl (fun m e => m.insertOrAssign e.1 e.2)
      ((SortedMap.empty : HeaderCollection).emplace (bytes "Content-Type")
        (bytes "application/xml"))
  { opName := bytes "GetObject"
    method := bytes "GET"
    headers := headers.emplace (bytes "Content-MD5") (bytes "1B2M2Y8AsgTpgAmY7PhCfg==")
    parameters :=
      request.parameters.entries.foldl (fun m e => m.insertOrAssign e.1 e.2)
        SortedMap.empty
    bucket := some request.bucket
    key := some request.key
    opMetadata := SortedMap.empty
    body := none }

theorem headers_pairwise (headers : HeaderCollection) :
    headers.entries.Pairwise fun a b =>
      SortedMap.equivalent caseInsensitiveLess a.1 b.1 = false :=
  headers.sorted.imp fun hless => SortedMap.not_equivalent_of_less hless

/-- The operation asks for the range that the request does. -/
theorem fromGetObject_range (request : GetObjectRequest σ) :
    (fromGetObject request).headers.find? (bytes "Range") =
      request.headers.find? (bytes "Range") := by
  have hmd5 : SortedMap.equivalent caseInsensitiveLess (bytes "Content-MD5")
      (bytes "Range") = false := by decide
  have htype : SortedMap.equivalent caseInsensitiveLess (bytes "Content-Type")
      (bytes "Range") = false := by decide
  unfold fromGetObject
  simp only [SortedMap.find?_emplace, hmd5, htype, Bool.false_eq_true, if_false,
    SortedMap.find?_foldl_insertOrAssign (headers_pairwise request.headers),
    SortedMap.find?_empty, Option.or_none]
  rfl

def toGetObject (output : OperationOutput) : GetObjectResult :=
  ⟨output.statusCode, output.headers, output.body⟩

/-- `OSSClient::getObject`. -/
def getObject (c : ClientImpl σ) (request : GetObjectRequest σ)
    (opts : Option (OperationOptions σ)) (w : Runtime σ) :
    Except OperationError GetObjectResult × Runtime σ :=
  match request.missing with
  | some e => (.error e, w)
  | none =>
      let (result, w) :=
        c.Execute (fromGetObject request) opts
          (some ⟨request.sinkFactory, [], []⟩) w
      match result with
      | .error e => (.error e, w)
      | .output o => (.ok (toGetObject o), w)

end Client
end OssSdk
