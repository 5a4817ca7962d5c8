import OssSdk.Internal.ClientImplBase

/-!
# Initiating a multipart upload

The request is a POST without a body.  Its content type is that of the object, which
the client looks up unless it is told not to.
-/

namespace OssSdk
namespace Client

open Foundation
open Internal

variable {σ : Type}

structure InitiateMultipartUploadRequest where
  headers : HeaderCollection
  parameters : ParameterCollection
  metadata : HeaderCollection
  bucket : ByteString
  key : ByteString

/-- The default headers and parameters give way to those of the request. -/
def fromInitiateMultipartUpload (request : InitiateMultipartUploadRequest) :
    OperationInput σ :=
  let parameters : ParameterCollection :=
    (SortedMap.empty.emplace (bytes "uploads") []).emplace (bytes "encoding-type")
      (bytes "url")
  let headers : HeaderCollection :=
    (request.headers.entries.foldl (fun m e => m.insertOrAssign e.1 e.2)
      SortedMap.empty).emplace (bytes "Content-MD5") (bytes "1B2M2Y8AsgTpgAmY7PhCfg==")
  { opName := bytes "InitiateMultipartUpload"
    method := bytes "POST"
    headers :=
      request.metadata.entries.foldl
        (fun m e => m.insertOrAssign (bytes "x-oss-meta-" ++ e.1) e.2) headers
    parameters :=
      request.parameters.entries.foldl (fun m e => m.insertOrAssign e.1 e.2) parameters
    bucket := some request.bucket
    key := some request.key
    opMetadata := SortedMap.empty
    body := none }

/-- The input that `OSSClient::initiateMultipartUpload` executes. -/
def initiateMultipartUploadInput (LookupMimeType : ByteString -> ByteString)
    (c : ClientImplBase σ) (request : InitiateMultipartUploadRequest) :
    OperationInput σ :=
  let input := fromInitiateMultipartUpload request
  if c.hasFlag .AutoDetectMimeType then
    { input with
      headers := input.headers.emplace (bytes "Content-Type") (LookupMimeType request.key) }
  else input

end Client
end OssSdk
