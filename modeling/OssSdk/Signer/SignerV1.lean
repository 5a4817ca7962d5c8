import OssSdk.Signer.SignerUtils
import OssSdk.Utils.Base64Utils

/-!
# Signatures of version 1

The string to sign holds the values of the headers as they are.
-/

namespace OssSdk
namespace Signer

open Foundation
open Internal
open Utils

variable {σ : Type}

namespace V1

def buildResource (bucket key : ByteString) : ByteString := resourcePath bucket key

def SubResourceSet : List ByteString :=
  ["acl", "bucketInfo", "location", "stat", "delete", "append", "tagging",
    "objectMeta", "uploads", "uploadId", "partNumber", "security-token", "position",
    "response-content-type", "response-content-language", "response-expires",
    "response-cache-control", "response-content-disposition",
    "response-content-encoding", "restore", "callback", "callback-var", "versions",
    "versioning", "versionId", "sequential", "continuation-token", "regionList",
    "cloudboxes", "symlink", "resourceGroup", "cleanRestoredObject"].map bytes

def isSignHeader (key : ByteString) : Bool := key.take 6 == bytes "x-oss-"

/-- Of the headers with one lower-cased name the last one stays. -/
def canonicalMap (headers : HeaderCollection) : ParameterCollection :=
  headers.entries.foldl (fun canonicalMap (k, v) =>
    if v.isEmpty then canonicalMap
    else
      let lowerKey := ToLower k
      if isSignHeader lowerKey then canonicalMap.insertOrAssign lowerKey v
      else canonicalMap) SortedMap.empty

def buildCanonicalHeaders (headers : HeaderCollection) : ByteString :=
  (canonicalMap headers).entries.flatMap fun (k, v) =>
    k ++ bytes ":" ++ v ++ bytes "\n"

def getDateFromHeaders (headers : HeaderCollection) : ByteString :=
  ((headers.find? (bytes "x-oss-date")).or (headers.find? (bytes "Date"))).getD []

/-- The value of the last header with this lower-cased name. -/
def headerValue (name : ByteString) (headers : HeaderCollection) : ByteString :=
  headers.entries.foldl (fun value (k, v) =>
    if ToLower k = name then v else value) []

/-- The entries of a parameter collection are sorted already. -/
def canonicalQuery (uri : ByteString) : ByteString :=
  let queryParts := (ToEncodedParameters uri).entries.filterMap fun (k, v) =>
    let decodedKey := UrlDecode k
    let decodedValue := UrlDecode v
    if SubResourceSet.contains decodedKey then
      if decodedValue.isEmpty then some decodedKey
      else some (decodedKey ++ bytes "=" ++ decodedValue)
    else none
  if queryParts.isEmpty then [] else bytes "?" ++ StringJoin (bytes "&") queryParts

def calcStringToSign (request : RequestMessage σ) (context : SigningContext)
    (dateOverride : ByteString) : ByteString :=
  let dateHeader :=
    if dateOverride.isEmpty then getDateFromHeaders request.headers else dateOverride
  request.method ++ bytes "\n" ++
    headerValue (bytes "content-md5") request.headers ++ bytes "\n" ++
    headerValue (bytes "content-type") request.headers ++ bytes "\n" ++
    dateHeader ++ bytes "\n" ++ buildCanonicalHeaders request.headers ++
    (buildResource context.bucket context.key ++ canonicalQuery request.uri)

def calcSignature (p : Platform σ) (secret stringToSign : ByteString) : ByteString :=
  Base64Encode (p.hmacSha1 stringToSign secret).toList

def stampDate (timeNow : Int) (headers : HeaderCollection) : HeaderCollection :=
  headers.insertOrAssign (bytes "Date") (ToGmtTime timeNow)

def authHeader (p : Platform σ) (request : RequestMessage σ)
    (context : SigningContext) (env : σ) : RequestMessage σ × SigningContext :=
  let timeNow := p.timeNow context env
  let headers := stampToken context.credentials (stampDate timeNow request.headers)
  let stringToSign := calcStringToSign { request with headers := headers } context []
  let signature := calcSignature p context.credentials.accessKeySecret stringToSign
  ({ request with
      headers :=
        headers.insertOrAssign (bytes "Authorization")
          (bytes "OSS " ++ context.credentials.accessKeyId ++ bytes ":" ++ signature) },
    { context with stringToSign := stringToSign, signTimeInEpoch := timeNow })

/-- The parameters of the URI and those of the credentials. -/
def queryParameters (context : SigningContext) (expires uri : ByteString) :
    ParameterCollection :=
  let params :=
    ((ToEncodedParameters uri).insertOrAssign (bytes "OSSAccessKeyId")
      (UrlEncode context.credentials.accessKeyId)).insertOrAssign
      (bytes "Expires") expires
  if context.credentials.sessionToken.isEmpty then params
  else params.insertOrAssign (bytes "security-token")
    (UrlEncode context.credentials.sessionToken)

def authQuery (p : Platform σ) (request : RequestMessage σ)
    (context : SigningContext) (env : σ) : RequestMessage σ × SigningContext :=
  let timeNow := p.timeNow context env
  let expires := toDecimalInt (expirationTime context timeNow)
  let uri :=
    request.uri.takeWhile (· != 63) ++ bytes "?" ++
      encodedQuery (queryParameters context expires request.uri)
  let stringToSign := calcStringToSign { request with uri := uri } context expires
  let signature := calcSignature p context.credentials.accessKeySecret stringToSign
  ({ request with uri := uri ++ bytes "&Signature=" ++ UrlEncode signature },
    { context with
      stringToSign := stringToSign
      signTimeInEpoch := timeNow
      expirationInEpoch := expirationTime context timeNow })

end V1

/-- `SignerV1`; what cannot sign is left as it is. -/
def SignerV1 (p : Platform σ) : Internal.Signer σ where
  getName := bytes "v1"
  sign request context env :=
    if !context.credentials.hasKeys then (false, request, context, env)
    else
      let (request, context) :=
        if context.authMethodQuery then V1.authQuery p request context env
        else V1.authHeader p request context env
      (true, request, context, env)

end Signer
end OssSdk
