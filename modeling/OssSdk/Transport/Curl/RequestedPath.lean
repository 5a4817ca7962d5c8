import OssSdk.Foundation.DotSegments
import OssSdk.Internal.RequestPath
import OssSdk.Transport.Curl.RequestHeaders

/-!
# The path that libcurl requests

libcurl removes the dot segments of the path of a URL before it requests it, unless it
is told to take the path as it is.
-/

namespace OssSdk
namespace Transport
namespace Curl

open Foundation
open Internal
open Utils

variable {σ : Type}

inductive CURLoption where
  | NOSIGNAL
  | TCP_NODELAY
  | NETRC
  | TIMEOUT_MS
  | CONNECTTIMEOUT_MS
  | LOW_SPEED_LIMIT
  | LOW_SPEED_TIME
  | SSL_VERIFYPEER
  | SSL_VERIFYHOST
  | URL
  | NOBODY
  | UPLOAD
  | INFILESIZE_LARGE
  | POST
  | POSTFIELDSIZE_LARGE
  | CUSTOMREQUEST
  | CAPATH
  | CAINFO
  | PROXY
  | PROXYPORT
  | PROXYUSERNAME
  | PROXYPASSWORD
  | INTERFACE
  | FOLLOWLOCATION
  | VERBOSE
  | XFERINFOFUNCTION
  | PROGRESSDATA
  | NOPROGRESS
  | HTTPHEADER
  | HEADERDATA
  | HEADERFUNCTION
  | WRITEDATA
  | WRITEFUNCTION
  | READDATA
  | READFUNCTION
  | ERRORBUFFER
  | PRIVATE
  | PATH_AS_IS
deriving DecidableEq

/-- The options of a transport; the interceptor is known by the options it sets. -/
structure ClientOptions (σ : Type) where
  caPath : ByteString
  caFile : ByteString
  proxyHost : ByteString
  networkInterface : ByteString
  enabledRedirect : Bool
  enableVerbose : Bool
  requestInterceptor : Option (RequestMessage σ -> List CURLoption)

/-- What a container sets on a new handle. -/
def handleOptions : List CURLoption :=
  [.NOSIGNAL, .TCP_NODELAY, .NETRC, .TIMEOUT_MS, .CONNECTTIMEOUT_MS, .LOW_SPEED_LIMIT,
    .LOW_SPEED_TIME, .SSL_VERIFYPEER, .SSL_VERIFYHOST]

/-- The options that `applyHttpMethod` sets. -/
def httpMethodOptions (request : RequestMessage σ) (contentLength : Int) :
    List CURLoption :=
  let sized (option : CURLoption) : List CURLoption :=
    if request.body.isNone || decide (0 ≤ contentLength) then [option] else []
  if bytes "HEAD" = request.method then [.NOBODY]
  else if bytes "PUT" = request.method then .UPLOAD :: sized .INFILESIZE_LARGE
  else if bytes "POST" = request.method then .POST :: sized .POSTFIELDSIZE_LARGE
  else if bytes "DELETE" = request.method then [.CUSTOMREQUEST]
  else []

def applyClientOptions (opts : ClientOptions σ) (request : RequestMessage σ) :
    List CURLoption :=
  [.SSL_VERIFYPEER, .SSL_VERIFYHOST] ++
    (if opts.caPath.isEmpty then [] else [.CAPATH]) ++
    (if opts.caFile.isEmpty then [] else [.CAINFO]) ++
    (if opts.proxyHost.isEmpty then []
      else [.PROXY, .PROXYPORT, .PROXYUSERNAME, .PROXYPASSWORD]) ++
    (if opts.networkInterface.isEmpty then [] else [.INTERFACE]) ++
    (if opts.enabledRedirect then [.FOLLOWLOCATION] else []) ++
    (if opts.enableVerbose then [.VERBOSE] else []) ++
    match opts.requestInterceptor with
    | some requestInterceptor => requestInterceptor request
    | none => []

def applyRequestOptions (watched : Bool) : List CURLoption :=
  if watched then [.XFERINFOFUNCTION, .PROGRESSDATA, .NOPROGRESS] else []

/-- All that is set on the handle of a request; `multi` is the transport of async clients. -/
def setupCurlHandle (opts : ClientOptions σ) (request : RequestMessage σ)
    (watched multi : Bool) : List CURLoption :=
  handleOptions ++ [.URL] ++
    httpMethodOptions request (contentLengthOf request.headers request.body) ++
    applyClientOptions opts request ++ applyRequestOptions watched ++
    [.HTTPHEADER, .HEADERDATA, .HEADERFUNCTION, .WRITEDATA, .WRITEFUNCTION, .READDATA,
      .READFUNCTION, .ERRORBUFFER] ++
    if multi then [.PRIVATE] else []

/-- The path in the request line, of the path in the URL. -/
def requestedPath (options : List CURLoption) (path : ByteString) : ByteString :=
  if options.contains .PATH_AS_IS then path else removeDotSegments path

/-- The interceptor is the only one that can ask for the path as it is. -/
def keepsPath (opts : ClientOptions σ) (request : RequestMessage σ) : Bool :=
  match opts.requestInterceptor with
  | some requestInterceptor => (requestInterceptor request).contains .PATH_AS_IS
  | none => false

theorem pathAsIs_iff (opts : ClientOptions σ) (request : RequestMessage σ)
    (watched multi : Bool) :
    (setupCurlHandle opts request watched multi).contains .PATH_AS_IS =
      keepsPath opts request := by
  have hmethod : (httpMethodOptions request
      (contentLengthOf request.headers request.body)).contains .PATH_AS_IS = false := by
    unfold httpMethodOptions
    simp only
    repeat' split
    all_goals rfl
  have hopts : (applyClientOptions opts request).contains .PATH_AS_IS =
      keepsPath opts request := by
    unfold applyClientOptions keepsPath
    simp only [List.contains_append]
    have hnone : forall (b : Bool) (options : List CURLoption),
        options.contains .PATH_AS_IS = false ->
        (if b then options else []).contains .PATH_AS_IS = false := by
      intro b options hoptions
      split
      · exact hoptions
      · rfl
    have hnone' : forall (b : Bool) (options : List CURLoption),
        options.contains .PATH_AS_IS = false ->
        (if b then [] else options).contains .PATH_AS_IS = false := by
      intro b options hoptions
      split
      · rfl
      · exact hoptions
    rw [hnone' _ _ (by decide), hnone' _ _ (by decide), hnone' _ _ (by decide),
      hnone' _ _ (by decide), hnone _ _ (by decide), hnone _ _ (by decide)]
    cases opts.requestInterceptor with
    | none => rfl
    | some requestInterceptor => rfl
  have hwatched : (applyRequestOptions watched).contains .PATH_AS_IS = false := by
    cases watched with
    | true => rfl
    | false => rfl
  have hmulti : (if multi then [CURLoption.PRIVATE] else []).contains .PATH_AS_IS =
      false := by
    cases multi with
    | true => rfl
    | false => rfl
  unfold setupCurlHandle
  simp only [List.contains_append, hmethod, hopts, hwatched, hmulti]
  simp [handleOptions]

/-!
# Encoded paths without their dot segments
-/

theorem segments_UrlEncodePath (s : ByteString) :
    segments (UrlEncodePath s) = (segments s).map UrlEncodePath := by
  have hother : forall c : UInt8, c ≠ 47 -> 47 ∉ urlEncodeByte true c :=
    forall_byte (by decide +kernel)
  exact @segments_flatMap (urlEncodeByte true) rfl hother s

theorem joinSegments_map_UrlEncodePath (path : List ByteString) :
    joinSegments (path.map UrlEncodePath) = UrlEncodePath (joinSegments path) := by
  induction path with
  | nil => rfl
  | cons segment rest ih =>
      rw [List.map_cons, joinSegments_cons, ih, joinSegments_cons, UrlEncodePath_append]
      rfl

/-- The dot segments of what is encoded are those that are removed. -/
theorem removeDotSegments_UrlEncodePath (s : ByteString) :
    removeDotSegments (bytes "/" ++ UrlEncodePath s) =
      UrlEncodePath (joinSegments (removeDots [] (segments s))) := by
  have hdot : UrlEncodePath (bytes ".") = bytes "." := by decide
  have hdots : UrlEncodePath (bytes "..") = bytes ".." := by decide
  have hmap := @removeDots_map UrlEncodePath
      (fun s => ⟨fun h => UrlEncodePath_injective (h.trans hdot.symm), fun h => h ▸ hdot⟩)
      (fun s => ⟨fun h => UrlEncodePath_injective (h.trans hdots.symm), fun h => h ▸ hdots⟩)
      rfl [] (segments s)
  change joinSegments (removeDots [] (segments (UrlEncodePath s))) = _
  rw [segments_UrlEncodePath, ← joinSegments_map_UrlEncodePath, ← hmap]
  rfl

theorem UrlDecode_removeDotSegments_iff (s : ByteString) :
    UrlDecode (removeDotSegments (bytes "/" ++ UrlEncodePath s)) = bytes "/" ++ s ↔
      forall segment, segment ∈ segments s -> isDotSegment segment = false := by
  rw [removeDotSegments_UrlEncodePath, UrlDecode_UrlEncodePath,
    ← joinSegments_removeDots_iff, joinSegments_segments]
  rfl

/-!
# The object of a request
-/

/-- What the path of a URL is to mean, in an address style. -/
def addressedResource (addressStyle : AddressStyleType) (bucket key : ByteString) :
    ByteString :=
  match addressStyle with
  | .Path => Signer.V4.toResource bucket key
  | _ => bytes "/" ++ key

/-- The path that is requested means the bucket and the key that are signed. -/
def RequestsSigned (addressStyle : AddressStyleType) (options : List CURLoption)
    (signed : SigningContext) (uri : ByteString) : Prop :=
  UrlDecode (requestedPath options (urlParts uri).pathPart) =
    addressedResource addressStyle signed.bucket signed.key

theorem pathOf_eq {bucket : Option ByteString}
    (hbucket : bucket.all isValidBucketName = true) (key : Option ByteString)
    (addressStyle : AddressStyleType) :
    pathOf bucket key addressStyle =
      UrlEncodePath (bucketPath bucket addressStyle ++ key.getD []) := by
  unfold pathOf
  rw [UrlEncodePath_append]
  congr 1
  unfold bucketPath
  split
  · rw [UrlEncodePath_append, UrlEncodePath_eq_self (isValidBucketName_all hbucket)]
    rfl
  · rfl

theorem addressedResource_eq {bucket : Option ByteString}
    (hbucket : bucket.all isValidBucketName = true) (key : ByteString)
    (addressStyle : AddressStyleType) :
    addressedResource addressStyle (bucket.getD []) key =
      bytes "/" ++ (bucketPath bucket addressStyle ++ key) := by
  cases bucket with
  | none =>
      cases addressStyle with
      | Path => rfl
      | CName => rfl
      | VirtualHosted => rfl
      | VirtualHostedAlias => rfl
  | some bucket =>
      cases addressStyle with
      | Path =>
          change Signer.resourcePath bucket key = _
          unfold Signer.resourcePath
          rw [List.isEmpty_eq_false_iff.mpr (isValidBucketName_ne_nil hbucket),
            if_neg Bool.false_ne_true, List.append_assoc]
          rfl
      | CName => rfl
      | VirtualHosted => rfl
      | VirtualHostedAlias => rfl

theorem isDotSegment_bucket {bucket : ByteString}
    (hbucket : isValidBucketName bucket = true) : isDotSegment bucket = false := by
  cases hdot : isDotSegment bucket with
  | false => rfl
  | true =>
      unfold isDotSegment at hdot
      rw [Bool.or_eq_true, beq_iff_eq, beq_iff_eq] at hdot
      rcases hdot with heq | heq
      · rw [heq] at hbucket
        exact absurd hbucket (by decide)
      · rw [heq] at hbucket
        exact absurd hbucket (by decide)

/-- The dot segments of a path are those of the key. -/
theorem dotSegments_bucketPath_iff {bucket : Option ByteString}
    (hbucket : bucket.all isValidBucketName = true) (key : ByteString)
    (addressStyle : AddressStyleType) :
    (forall segment, segment ∈ segments (bucketPath bucket addressStyle ++ key) ->
        isDotSegment segment = false) ↔
      forall segment, segment ∈ segments key -> isDotSegment segment = false := by
  unfold bucketPath
  split
  · rename_i bucket
    have hslash : 47 ∉ bucket := by
      intro hmem
      have hin := List.all_eq_true.mp (isValidBucketName_all hbucket) 47 hmem
      exact absurd hin (by decide)
    have hsegments : segments (bucket ++ bytes "/" ++ key) = bucket :: segments key := by
      rw [List.append_assoc]
      exact segments_name hslash key
    rw [hsegments]
    constructor
    · intro hall segment hmem
      exact hall segment (List.mem_cons_of_mem bucket hmem)
    · intro hall segment hmem
      rcases List.mem_cons.mp hmem with heq | hin
      · rw [heq]
        exact isDotSegment_bucket hbucket
      · exact hall segment hin
  · rfl

section request

variable {c : ClientImplBase σ}

/--
libcurl requests the path that was signed exactly when the key has no dot segment, or
when an interceptor asks for the path as it is.
-/
theorem requestsSigned_iff (hprovider : c.options.endpointProvider = none)
    (hresolver : c.options.bucketNameResolver = none) (endpoint : ByteString)
    (clockOffset : Int) (input : OperationInput σ)
    (hbucket : input.bucket.all isValidBucketName = true) (opts : ClientOptions σ)
    (watched multi : Bool) :
    let client := c.init endpoint []
    let applied := applyOperationInput client clockOffset (ExecuteContext.empty σ) input
    RequestsSigned client.options.addressStyle
        (setupCurlHandle opts applied.2 watched multi) applied.1.signingContext
        applied.2.uri ↔
      keepsPath opts applied.2 = true ∨
        forall segment, segment ∈ segments (input.key.getD []) ->
          isDotSegment segment = false := by
  intro client applied
  rcases init_options hprovider hresolver endpoint with ⟨hnone, hnone'⟩
  rcases applyOperationInput_plain hnone hnone' clockOffset input with
    ⟨hsignedBucket, hsignedKey, huri⟩
  have hpath : (urlParts applied.2.uri).pathPart =
      bytes "/" ++ UrlEncodePath
        (bucketPath input.bucket client.options.addressStyle ++ input.key.getD []) := by
    rw [urlParts_init hprovider hresolver endpoint clockOffset input hbucket,
      pathOf_eq hbucket]
  change UrlDecode (requestedPath (setupCurlHandle opts applied.2 watched multi)
      (urlParts applied.2.uri).pathPart) =
    addressedResource client.options.addressStyle applied.1.signingContext.bucket
      applied.1.signingContext.key ↔ _
  rw [hpath, hsignedBucket, hsignedKey, addressedResource_eq hbucket]
  unfold requestedPath
  rw [pathAsIs_iff]
  cases keepsPath opts applied.2 with
  | true =>
      have hslash : UrlEncodePath (bytes "/") = bytes "/" := rfl
      rw [if_pos rfl, ← hslash, ← UrlEncodePath_append, UrlDecode_UrlEncodePath, hslash]
      exact iff_of_true rfl (Or.inl rfl)
  | false =>
      rw [if_neg Bool.false_ne_true, UrlDecode_removeDotSegments_iff,
        dotSegments_bucketPath_iff hbucket]
      exact ⟨Or.inr, fun hor => hor.resolve_left Bool.false_ne_true⟩

end request

def plainOptions (σ : Type) : ClientOptions σ := ⟨[], [], [], [], false, false, none⟩

theorem requestsSigned_iff_headObject :
    let client := (anonymousBase Unit).init (bytes "https://oss.example.com") []
    let applied := applyOperationInput client 0 (ExecuteContext.empty Unit)
      (headObjectInput Unit)
    RequestsSigned client.options.addressStyle
        (setupCurlHandle (plainOptions Unit) applied.2 false false)
        applied.1.signingContext applied.2.uri ↔
      keepsPath (plainOptions Unit) applied.2 = true ∨
        forall segment, segment ∈ segments (bytes "key") ->
          isDotSegment segment = false :=
  requestsSigned_iff rfl rfl (bytes "https://oss.example.com") 0 (headObjectInput Unit)
    (by decide) (plainOptions Unit) false false

/-- The key goes out of its bucket. -/
def otherBucketInput : OperationInput Unit :=
  { headObjectInput Unit with key := some (bytes "../other/key") }

theorem not_requestsSigned_otherBucket :
    let client := (anonymousBase Unit).init (bytes "http://127.0.0.1") []
    let applied := applyOperationInput client 0 (ExecuteContext.empty Unit)
      otherBucketInput
    isValidObjectName (bytes "../other/key") = true ∧
      requestedPath (setupCurlHandle (plainOptions Unit) applied.2 false false)
        (urlParts applied.2.uri).pathPart = bytes "/other/key" ∧
      ¬ RequestsSigned client.options.addressStyle
        (setupCurlHandle (plainOptions Unit) applied.2 false false)
        applied.1.signingContext applied.2.uri := by
  intro client applied
  have hrequested : requestedPath (setupCurlHandle (plainOptions Unit) applied.2 false
      false) (urlParts applied.2.uri).pathPart = bytes "/other/key" := by
    decide +kernel
  refine ⟨by decide, hrequested, fun hsigned => ?_⟩
  unfold RequestsSigned at hsigned
  rw [hrequested] at hsigned
  exact absurd hsigned (by decide +kernel)

end Curl
end Transport
end OssSdk
