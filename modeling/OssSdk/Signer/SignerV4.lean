import OssSdk.Signer.SignerUtils

/-!
# Signatures of version 4

Signing in headers assigns the headers that it then canonicalises, and last of all
the `Authorization` header.
-/

namespace OssSdk
namespace Signer

open Foundation
open Internal
open Utils

variable {σ : Type}

namespace V4

abbrev HeaderSet := SortedMap ByteString Unit caseInsensitiveLess

def isDefaultSignedHeader (lowerKey : ByteString) : Bool :=
  lowerKey == bytes "content-type" || lowerKey == bytes "content-md5" ||
    lowerKey.take 6 == bytes "x-oss-"

def signedAdditionalHeaders (headers : HeaderCollection)
    (additionalHeaders : List ByteString) : HeaderSet :=
  additionalHeaders.foldl (fun result key =>
    let lowerKey := ToLower key
    if isDefaultSignedHeader lowerKey then result
    else if (headers.find? lowerKey).isSome then result.emplace lowerKey ()
    else result) SortedMap.empty

def toHeaderSetString (headers : HeaderSet) : ByteString :=
  StringJoin (bytes ";") (headers.entries.map fun e => ToLower e.1)

def toResource (bucket key : ByteString) : ByteString := resourcePath bucket key

/-- The lower-cased name and the trimmed value of a header that is canonicalised. -/
def canonicalHeader (additionalHeaders : HeaderSet) (header : ByteString × ByteString) :
    Option (ByteString × ByteString) :=
  let lowerKey := ToLower header.1
  let value := Trim header.2
  if value.isEmpty then none
  else if isDefaultSignedHeader lowerKey then some (lowerKey, value)
  else if (additionalHeaders.find? lowerKey).isSome then some (lowerKey, value)
  else none

def canonicalHeaders (headers : HeaderCollection) (additionalHeaders : HeaderSet) :
    List (ByteString × ByteString) :=
  headers.entries.filterMap (canonicalHeader additionalHeaders)

def headerLine (header : ByteString × ByteString) : ByteString :=
  header.1 ++ bytes ":" ++ header.2 ++ bytes "\n"

def hashedPayload (headers : HeaderCollection) : ByteString :=
  (headers.find? (bytes "x-oss-content-sha256")).getD (bytes "UNSIGNED-PAYLOAD")

def buildCanonicalReuqest (method resource : ByteString)
    (encodedParameters : ParameterCollection) (headers : HeaderCollection)
    (additionalHeaders : HeaderSet) : ByteString :=
  method ++ bytes "\n" ++ UrlEncodePath resource ++ bytes "\n" ++
    encodedQuery encodedParameters ++ bytes "\n" ++
    (canonicalHeaders headers additionalHeaders).flatMap headerLine ++ bytes "\n" ++
    toHeaderSetString additionalHeaders ++ bytes "\n" ++ hashedPayload headers

def buildStringToSign (p : Platform σ) (datetime scope canonical : ByteString) :
    ByteString :=
  bytes "OSS4-HMAC-SHA256" ++ bytes "\n" ++ datetime ++ bytes "\n" ++ scope ++
    bytes "\n" ++ p.HashSh256 canonical

def buildSignature (p : Platform σ)
    (keySecrect date region product stringToSign : ByteString) : ByteString :=
  let signingDate := p.hmacSha256 date (bytes "aliyun_v4" ++ keySecrect)
  let signingRegion := p.hmacSha256 region signingDate.toList
  let signingProduct := p.hmacSha256 product signingRegion.toList
  let signingKey := p.hmacSha256 (bytes "aliyun_v4_request") signingProduct.toList
  LowerHexToString (p.hmacSha256 stringToSign signingKey.toList).toList

def datetimeOf (timeNow : Int) : ByteString :=
  FormatUnixTime timeNow (bytes "%Y%m%dT%H%M%SZ")

def dateOf (timeNow : Int) : ByteString := (datetimeOf timeNow).take 8

def scopeOf (context : SigningContext) (timeNow : Int) : ByteString :=
  dateOf timeNow ++ bytes "/" ++ context.region ++ bytes "/" ++ context.product ++
    bytes "/aliyun_v4_request"

/-- The headers that are there whatever the credentials are. -/
def stampDates (timeNow : Int) (headers : HeaderCollection) : HeaderCollection :=
  ((headers.insertOrAssign (bytes "x-oss-date") (datetimeOf timeNow)).insertOrAssign
    (bytes "Date") (ToGmtTime timeNow)).emplace
    (bytes "x-oss-content-sha256") (bytes "UNSIGNED-PAYLOAD")

/-- The canonical request of headers that have been stamped. -/
def headerCanonical (context : SigningContext) (request : RequestMessage σ)
    (headers : HeaderCollection) : ByteString :=
  buildCanonicalReuqest request.method (toResource context.bucket context.key)
    (ToEncodedParameters request.uri) headers
    (signedAdditionalHeaders headers context.additionalHeaders)

def authorization (p : Platform σ) (context : SigningContext) (timeNow : Int)
    (additionalHeaders : HeaderSet) (stringToSign : ByteString) : ByteString :=
  bytes "OSS4-HMAC-SHA256" ++ bytes " Credential=" ++
    context.credentials.accessKeyId ++ bytes "/" ++ scopeOf context timeNow ++
    (if additionalHeaders.isEmpty then []
      else bytes ",AdditionalHeaders=" ++ toHeaderSetString additionalHeaders) ++
    bytes ",Signature=" ++
    buildSignature p context.credentials.accessKeySecret (dateOf timeNow)
      context.region context.product stringToSign

def authHeader (p : Platform σ) (request : RequestMessage σ)
    (context : SigningContext) (env : σ) : RequestMessage σ × SigningContext :=
  let timeNow := p.timeNow context env
  let headers := stampToken context.credentials (stampDates timeNow request.headers)
  let stringToSign :=
    buildStringToSign p (datetimeOf timeNow) (scopeOf context timeNow)
      (headerCanonical context request headers)
  ({ request with
      headers :=
        headers.insertOrAssign (bytes "Authorization")
          (authorization p context timeNow
            (signedAdditionalHeaders headers context.additionalHeaders)
            stringToSign) },
    { context with stringToSign := stringToSign, signTimeInEpoch := timeNow })

/-- The parameters that the signature in a query covers. -/
def queryParameters (context : SigningContext) (timeNow : Int)
    (additionalHeaders : HeaderSet) (uri : ByteString) : ParameterCollection :=
  let parameters :=
    ((((ToEncodedParameters uri).erase (bytes "x-oss-signature")).insertOrAssign
      (bytes "x-oss-signature-version") (bytes "OSS4-HMAC-SHA256")).insertOrAssign
      (bytes "x-oss-date") (datetimeOf timeNow)).insertOrAssign
      (bytes "x-oss-expires")
      (toDecimalInt (expirationTime context timeNow - timeNow))
  let parameters :=
    parameters.insertOrAssign (bytes "x-oss-credential")
      (UrlEncode (context.credentials.accessKeyId ++ bytes "/" ++
        scopeOf context timeNow))
  let parameters :=
    if context.credentials.sessionToken.isEmpty then parameters
    else parameters.insertOrAssign (bytes "x-oss-security-token")
      (UrlEncode context.credentials.sessionToken)
  if additionalHeaders.isEmpty then parameters
  else parameters.insertOrAssign (bytes "x-oss-additional-headers")
    (UrlEncode (toHeaderSetString additionalHeaders))

/-- The canonical request of a signature in the query. -/
def queryCanonical (context : SigningContext) (timeNow : Int)
    (request : RequestMessage σ) : ByteString :=
  let additionalHeaders :=
    signedAdditionalHeaders request.headers context.additionalHeaders
  buildCanonicalReuqest request.method (toResource context.bucket context.key)
    (queryParameters context timeNow additionalHeaders request.uri)
    request.headers additionalHeaders

def authQuery (p : Platform σ) (request : RequestMessage σ)
    (context : SigningContext) (env : σ) : RequestMessage σ × SigningContext :=
  let timeNow := p.timeNow context env
  let additionalHeaders :=
    signedAdditionalHeaders request.headers context.additionalHeaders
  let stringToSign :=
    buildStringToSign p (datetimeOf timeNow) (scopeOf context timeNow)
      (queryCanonical context timeNow request)
  let signature :=
    buildSignature p context.credentials.accessKeySecret (dateOf timeNow)
      context.region context.product stringToSign
  let parameters :=
    (queryParameters context timeNow additionalHeaders request.uri).insertOrAssign
      (bytes "x-oss-signature") signature
  ({ request with
      uri := request.uri.takeWhile (· != 63) ++ bytes "?" ++ encodedQuery parameters },
    { context with
      stringToSign := stringToSign
      signTimeInEpoch := timeNow
      expirationInEpoch := expirationTime context timeNow })

end V4

/-- `SignerV4`; what cannot sign is left as it is. -/
def SignerV4 (p : Platform σ) : Internal.Signer σ where
  getName := bytes "v4"
  sign request context env :=
    if !context.credentials.hasKeys then (false, request, context, env)
    else
      let (request, context) :=
        if context.authMethodQuery then V4.authQuery p request context env
        else V4.authHeader p request context env
      (true, request, context, env)

end Signer
end OssSdk
