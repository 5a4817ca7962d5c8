import OssSdk.Internal.ClientImplBase
import OssSdk.Internal.Url
import OssSdk.Signer.SignerV4
import OssSdk.Utils.PercentEncoding
import OssSdk.Utils.QueryString

/-!
# Where a request goes, and the resource that is signed

The URL of a request is built from the endpoint, the resource of a signature from the
names alone.  Both encode the names, each in its own place.
-/

namespace OssSdk
namespace Internal

open Foundation
open Utils

variable {σ : Type}

/-!
# The endpoint of a client
-/

/-- `25[0-5]|2[0-4][0-9]|1[0-9][0-9]|[1-9][0-9]|[0-9]`. -/
def isOctet : ByteString -> Bool
  | [a] => isDigit a
  | [a, b] => isDigit a && a != 48 && isDigit b
  | [a, b, c] =>
      (a == 49 && isDigit b && isDigit c) ||
        (a == 50 && isDigit b && decide (b.toNat ≤ 52) && isDigit c) ||
        (a == 50 && b == 53 && isDigit c && decide (c.toNat ≤ 53))
  | _ => false

/-- Four octets with dots between them. -/
def isValidIp (host : ByteString) : Bool :=
  let octets := host.splitOn 46
  octets.length == 4 && octets.all isOctet

def isPathHost (host : ByteString) : Bool :=
  !host.isEmpty && (host == bytes "localhost" || isValidIp host)

/-- A function that changes the options of a client, which sees its endpoint. -/
abbrev ClientOptionsFn (σ : Type) := ByteString -> ClientOptions σ -> ClientOptions σ

/-- The part of `init` that reads the endpoint, after the configuration is resolved. -/
def ClientImplBase.init (c : ClientImplBase σ) (endpoint : ByteString)
    (fns : List (ClientOptionsFn σ)) : ClientImplBase σ :=
  let options := fns.foldl (fun options fn => fn endpoint options) c.options
  let url := Url.fromString endpoint
  { c with
    innerOptions :=
      { c.innerOptions with
        endpointScheme := url.scheme
        endpointAuthority := url.authority }
    options :=
      if isPathHost url.host then { options with addressStyle := .Path } else options }

example : isValidIp (bytes "192.168.0.255") = true := by decide +kernel
example : isValidIp (bytes "192.168.0.256") = false := by decide +kernel

/-!
# Names of buckets
-/

/-- A name of letters, digits and dashes needs no encoding. -/
theorem UrlEncodePath_eq_self {name : ByteString}
    (hname : name.all (fun c => isLowerAlnum c || c == 45) = true) :
    UrlEncodePath name = name := by
  have hbyte : forall c : UInt8, (isLowerAlnum c || c == 45) = true ->
      urlEncodeByte true c = [c] :=
    forall_byte (by decide +kernel)
  rw [List.all_eq_true] at hname
  induction name with
  | nil => rfl
  | cons c rest ih =>
      change urlEncodeByte true c ++ UrlEncodePath rest = _
      rw [hbyte c (hname c List.mem_cons_self),
        ih fun c' hc' => hname c' (List.mem_cons_of_mem c hc')]
      rfl

theorem isValidBucketName_all {bucket : ByteString}
    (hbucket : isValidBucketName bucket = true) :
    bucket.all (fun c => isLowerAlnum c || c == 45) = true := by
  unfold isValidBucketName at hbucket
  simp only [Bool.and_eq_true] at hbucket
  exact hbucket.1.1.2

theorem isValidBucketName_ne_nil {bucket : ByteString}
    (hbucket : isValidBucketName bucket = true) : bucket ≠ [] := by
  intro hnil
  rw [hnil] at hbucket
  cases hbucket

theorem fragment_not_mem_ToQueryString (parameters : ParameterCollection) :
    35 ∉ ToQueryString parameters := by
  have hencode : forall src : ByteString, 35 ∉ UrlEncode src := fun src =>
    not_mem_urlEncode (by decide) src false
  intro hmem
  rcases mem_StringJoin hmem with hdelimiter | hexists
  · exact absurd hdelimiter (by decide)
  · rcases hexists with ⟨element, helement, hin⟩
    rcases List.mem_map.mp helement with ⟨parameter, _, heq⟩
    rw [← heq] at hin
    simp only at hin
    split at hin
    · exact hencode _ hin
    · simp only [List.mem_append] at hin
      rcases hin with (hname | hequals) | hvalue
      · exact hencode _ hname
      · exact absurd hequals (by decide)
      · exact hencode _ hvalue

/-!
# The parts of a request's URL
-/

/-- The `host` that `buildHostPath` makes. -/
def hostOf (bucket : Option ByteString) (baseUrl : ByteString)
    (addressStyle : AddressStyleType) : ByteString :=
  match bucket, addressStyle with
  | some bucket, .VirtualHosted => bucket ++ bytes "." ++ baseUrl
  | some bucket, .VirtualHostedAlias => bucket ++ bytes "." ++ baseUrl
  | _, _ => baseUrl

/-- What a path has in front of the key. -/
def bucketPath (bucket : Option ByteString) (addressStyle : AddressStyleType) :
    ByteString :=
  match bucket, addressStyle with
  | some bucket, .Path => bucket ++ bytes "/"
  | _, _ => []

/-- The path that `buildHostPath` puts after the first slash. -/
def pathOf (bucket key : Option ByteString) (addressStyle : AddressStyleType) :
    ByteString :=
  bucketPath bucket addressStyle ++ UrlEncodePath (key.getD [])

theorem buildHostPath_eq (input : OperationInput σ) (baseUrl : ByteString)
    (addressStyle : AddressStyleType) :
    buildHostPath input baseUrl addressStyle =
      hostOf input.bucket baseUrl addressStyle ++ bytes "/" ++
        pathOf input.bucket input.key addressStyle := by
  unfold buildHostPath hostOf pathOf bucketPath
  cases input.bucket with
  | none =>
      cases input.key with
      | none => rfl
      | some key => rfl
  | some bucket =>
      cases addressStyle with
      | VirtualHosted =>
          cases input.key with
          | none => rfl
          | some key => rfl
      | VirtualHostedAlias =>
          cases input.key with
          | none => rfl
          | some key => rfl
      | CName =>
          cases input.key with
          | none => rfl
          | some key => rfl
      | Path =>
          cases input.key with
          | none =>
              change baseUrl ++ bytes "/" ++ (bucket ++ bytes "/" ++ []) = _
              rfl
          | some key => rfl

theorem not_mem_label {d : UInt8} {bucket baseUrl : ByteString}
    (hbucket : isValidBucketName bucket = true)
    (hd : (isLowerAlnum d || d == 45) = false) (hdot : d ∉ bytes ".")
    (hbase : d ∉ baseUrl) : d ∉ bucket ++ bytes "." ++ baseUrl := by
  rw [List.mem_append, List.mem_append, not_or, not_or]
  refine ⟨⟨fun hmem => ?_, hdot⟩, hbase⟩
  have hin := List.all_eq_true.mp (isValidBucketName_all hbucket) d hmem
  rw [hd] at hin
  cases hin

theorem undelimited_hostOf {bucket : Option ByteString} {baseUrl : ByteString}
    (hbucket : bucket.all isValidBucketName = true) (hbase : Undelimited baseUrl)
    (addressStyle : AddressStyleType) :
    Undelimited (hostOf bucket baseUrl addressStyle) := by
  cases bucket with
  | none => exact hbase
  | some bucket =>
      have hlabel : Undelimited (bucket ++ bytes "." ++ baseUrl) :=
        ⟨not_mem_label hbucket (by decide) (by decide) hbase.fragment,
          not_mem_label hbucket (by decide) (by decide) hbase.query,
          not_mem_label hbucket (by decide) (by decide) hbase.path⟩
      cases addressStyle with
      | VirtualHosted => exact hlabel
      | VirtualHostedAlias => exact hlabel
      | CName => exact hbase
      | Path => exact hbase

theorem mark_not_mem_pathOf {bucket : Option ByteString}
    (hbucket : bucket.all isValidBucketName = true) (key : Option ByteString)
    (addressStyle : AddressStyleType) :
    35 ∉ pathOf bucket key addressStyle ∧ 63 ∉ pathOf bucket key addressStyle := by
  have hkey := mark_not_mem_UrlEncodePath (key.getD [])
  unfold pathOf bucketPath
  split
  · rename_i bucket
    rw [← UrlEncodePath_eq_self (isValidBucketName_all hbucket)]
    have hname := mark_not_mem_UrlEncodePath bucket
    simp only [List.mem_append, not_or]
    exact ⟨⟨⟨hname.1, by decide⟩, hkey.1⟩, ⟨hname.2, by decide⟩, hkey.2⟩
  · exact hkey

/-!
# The resource
-/

/-- The bucket's part of a resource. -/
def bucketPart (bucket : Option ByteString) : ByteString :=
  match bucket with
  | some bucket => bytes "/" ++ bucket
  | none => []

theorem UrlEncodePath_resource {bucket : ByteString} (hne : bucket ≠ [])
    (key : ByteString) :
    UrlEncodePath (Signer.resourcePath bucket key) =
      bytes "/" ++ UrlEncodePath bucket ++ (bytes "/" ++ UrlEncodePath key) := by
  unfold Signer.resourcePath
  rw [List.isEmpty_eq_false_iff.mpr hne, if_neg Bool.false_ne_true,
    UrlEncodePath_append, UrlEncodePath_append, UrlEncodePath_append]
  simp only [List.append_assoc]
  rfl

theorem UrlEncodePath_resourcePath {bucket : Option ByteString}
    (hbucket : bucket.all isValidBucketName = true) (key : ByteString) :
    UrlEncodePath (Signer.resourcePath (bucket.getD []) key) =
      bucketPart bucket ++ (bytes "/" ++ UrlEncodePath key) := by
  cases bucket with
  | none =>
      unfold Signer.resourcePath
      rw [UrlEncodePath_append, UrlEncodePath_append]
      rfl
  | some bucket =>
      rw [Option.getD_some, UrlEncodePath_resource (isValidBucketName_ne_nil hbucket),
        UrlEncodePath_eq_self (isValidBucketName_all hbucket)]
      rfl

/--
The path of a URL and the resource that is signed name one object: in path style they
are the same text, in the other styles the path is that of the key, and the resource
has the bucket in front of it.
-/
def NamesResource (addressStyle : AddressStyleType) (bucket key : Option ByteString)
    (path resource : ByteString) : Prop :=
  match addressStyle with
  | .Path => path = resource
  | _ =>
      path = bytes "/" ++ UrlEncodePath (key.getD []) ∧
        resource = bucketPart bucket ++ path

theorem namesResource_pathOf {bucket : Option ByteString}
    (hbucket : bucket.all isValidBucketName = true) (key : Option ByteString)
    (addressStyle : AddressStyleType) :
    NamesResource addressStyle bucket key (bytes "/" ++ pathOf bucket key addressStyle)
      (UrlEncodePath (Signer.V4.toResource (bucket.getD []) (key.getD []))) := by
  have hresource := UrlEncodePath_resourcePath hbucket (key.getD [])
  have hother : bytes "/" ++ pathOf bucket key .CName =
        bytes "/" ++ UrlEncodePath (key.getD []) ∧
      UrlEncodePath (Signer.resourcePath (bucket.getD []) (key.getD [])) =
        bucketPart bucket ++ (bytes "/" ++ pathOf bucket key .CName) := by
    rw [hresource]
    cases bucket with
    | none => exact ⟨rfl, rfl⟩
    | some bucket => exact ⟨rfl, rfl⟩
  have hpath : bytes "/" ++ pathOf bucket key .Path =
      UrlEncodePath (Signer.resourcePath (bucket.getD []) (key.getD [])) := by
    rw [hresource]
    cases bucket with
    | none => rfl
    | some bucket =>
        change bytes "/" ++ (bucket ++ bytes "/" ++ _) = bytes "/" ++ bucket ++ _
        simp only [List.append_assoc]
  cases addressStyle with
  | Path => exact hpath
  | CName => exact hother
  | VirtualHosted =>
      cases bucket with
      | none => exact hother
      | some bucket => exact hother
  | VirtualHostedAlias =>
      cases bucket with
      | none => exact hother
      | some bucket => exact hother

/-!
# The request
-/

theorem requestUri_eq (input : OperationInput σ) (url : ByteString) :
    requestUri input url = url ++
      if (ToQueryString input.parameters).isEmpty then []
      else bytes "?" ++ ToQueryString input.parameters := by
  unfold requestUri
  simp only
  split
  · rw [List.append_nil]
  · rw [List.append_assoc]

theorem urlParts_request {input : OperationInput σ}
    (hbucket : input.bucket.all isValidBucketName = true) {scheme baseUrl : ByteString}
    (hscheme : IsScheme scheme) (hbase : Undelimited baseUrl)
    (addressStyle : AddressStyleType) :
    urlParts (requestUri input
        (scheme ++ bytes "://" ++ buildHostPath input baseUrl addressStyle)) =
      ⟨scheme, hostOf input.bucket baseUrl addressStyle,
        bytes "/" ++ pathOf input.bucket input.key addressStyle,
        ToQueryString input.parameters, []⟩ := by
  rw [requestUri_eq, buildHostPath_eq]
  have hparts := urlParts_build hscheme (undelimited_hostOf hbucket hbase addressStyle)
    (mark_not_mem_pathOf hbucket input.key addressStyle)
    (fragment_not_mem_ToQueryString input.parameters)
  rw [← hparts]
  simp only [List.append_assoc]

section request

variable {c : ClientImplBase σ}

theorem applyOperationInput_plain
    (hprovider : c.options.endpointProvider = none)
    (hresolver : c.options.bucketNameResolver = none) (clockOffset : Int)
    (input : OperationInput σ) :
    let applied := applyOperationInput c clockOffset (ExecuteContext.empty σ) input
    applied.1.signingContext.bucket = input.bucket.getD [] ∧
      applied.1.signingContext.key = input.key.getD [] ∧
      applied.2.uri = requestUri input (c.innerOptions.endpointScheme ++ bytes "://" ++
        buildHostPath input c.innerOptions.endpointAuthority c.options.addressStyle) := by
  unfold applyOperationInput
  rw [hprovider, hresolver]
  cases input.bucket with
  | none => exact ⟨rfl, rfl, rfl⟩
  | some bucket => exact ⟨rfl, rfl, rfl⟩

theorem init_options (hprovider : c.options.endpointProvider = none)
    (hresolver : c.options.bucketNameResolver = none) (endpoint : ByteString) :
    (c.init endpoint []).options.endpointProvider = none ∧
      (c.init endpoint []).options.bucketNameResolver = none := by
  unfold ClientImplBase.init
  simp only [List.foldl_nil]
  split
  · exact ⟨hprovider, hresolver⟩
  · exact ⟨hprovider, hresolver⟩

/-- The parts of the URL of a request. -/
theorem urlParts_init (hprovider : c.options.endpointProvider = none)
    (hresolver : c.options.bucketNameResolver = none) (endpoint : ByteString)
    (clockOffset : Int) (input : OperationInput σ)
    (hbucket : input.bucket.all isValidBucketName = true) :
    let client := c.init endpoint []
    urlParts (applyOperationInput client clockOffset (ExecuteContext.empty σ)
        input).2.uri =
      ⟨client.innerOptions.endpointScheme,
        hostOf input.bucket client.innerOptions.endpointAuthority
          client.options.addressStyle,
        bytes "/" ++ pathOf input.bucket input.key client.options.addressStyle,
        ToQueryString input.parameters, []⟩ := by
  rcases init_options hprovider hresolver endpoint with ⟨hnone, hnone'⟩
  have huri := (applyOperationInput_plain hnone hnone' clockOffset input).2.2
  intro client
  rw [huri]
  exact urlParts_request hbucket (Url.isScheme_fromString endpoint)
    (Url.undelimited_fromString endpoint) _

/--
The path of the URL and the resource that is signed name the same object, and neither
the scheme nor the authority nor the query depends on the key.
-/
theorem request_names_resource (hprovider : c.options.endpointProvider = none)
    (hresolver : c.options.bucketNameResolver = none) (endpoint : ByteString)
    (clockOffset : Int) (input : OperationInput σ)
    (hbucket : input.bucket.all isValidBucketName = true) :
    let client := c.init endpoint []
    let applied := applyOperationInput client clockOffset (ExecuteContext.empty σ) input
    let signed := applied.1.signingContext
    let uri := urlParts applied.2.uri
    uri.schemePart = client.innerOptions.endpointScheme ∧
      uri.authorityPart =
        hostOf input.bucket client.innerOptions.endpointAuthority
          client.options.addressStyle ∧
      uri.queryPart = ToQueryString input.parameters ∧
      uri.fragmentPart = [] ∧
      NamesResource client.options.addressStyle input.bucket input.key uri.pathPart
        (UrlEncodePath (Signer.V4.toResource signed.bucket signed.key)) := by
  intro client applied signed uri
  rcases init_options hprovider hresolver endpoint with ⟨hnone, hnone'⟩
  rcases applyOperationInput_plain hnone hnone' clockOffset input with
    ⟨hsignedBucket, hsignedKey, _⟩
  have hparts := urlParts_init hprovider hresolver endpoint clockOffset input hbucket
  change uri = _ at hparts
  rw [hparts]
  refine ⟨rfl, rfl, rfl, rfl, ?_⟩
  change NamesResource _ _ _ _ (UrlEncodePath
    (Signer.V4.toResource applied.1.signingContext.bucket applied.1.signingContext.key))
  rw [hsignedBucket, hsignedKey]
  exact namesResource_pathOf hbucket input.key _

end request

theorem request_names_resource_headObject :
    let client := (anonymousBase Unit).init (bytes "https://oss.example.com") []
    let applied := applyOperationInput client 0 (ExecuteContext.empty Unit)
      (headObjectInput Unit)
    let signed := applied.1.signingContext
    let uri := urlParts applied.2.uri
    uri.schemePart = client.innerOptions.endpointScheme ∧
      uri.authorityPart =
        hostOf (some (bytes "bucket")) client.innerOptions.endpointAuthority
          client.options.addressStyle ∧
      uri.queryPart = ToQueryString SortedMap.empty ∧
      uri.fragmentPart = [] ∧
      NamesResource client.options.addressStyle (some (bytes "bucket"))
        (some (bytes "key")) uri.pathPart
        (UrlEncodePath (Signer.V4.toResource signed.bucket signed.key)) :=
  request_names_resource rfl rfl (bytes "https://oss.example.com") 0
    (headObjectInput Unit) (by decide)

end Internal
end OssSdk
