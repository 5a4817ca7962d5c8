import OssSdk.Client.OSSClientUtils
import OssSdk.Internal.LastAttempt
import OssSdk.Transform.ListingDocument
import OssSdk.Utils.QueryString

/-!
# The operations that list

Six operations yield their results page by page.  They differ in what they require, in
the parameters that they add, in the document that they read, and in the markers that
tell where the next page starts.
-/

namespace OssSdk
namespace Client

open Foundation
open Internal
open Sync
open Transform

variable {σ : Type}

/-- A listing of buckets has neither a bucket nor a key, and only one of parts has both. -/
structure ListRequest where
  headers : HeaderCollection
  parameters : ParameterCollection
  bucket : ByteString
  key : ByteString

namespace ListRequest

def getUploadId (request : ListRequest) : ByteString :=
  (request.parameters.find? (bytes "uploadId")).getD []

def setParameter (request : ListRequest) (name value : ByteString) : ListRequest :=
  { request with parameters := request.parameters.insertOrAssign name value }

def setMarker (request : ListRequest) (value : ByteString) : ListRequest :=
  request.setParameter (bytes "marker") value

def setContinuationToken (request : ListRequest) (value : ByteString) : ListRequest :=
  request.setParameter (bytes "continuation-token") value

def setKeyMarker (request : ListRequest) (value : ByteString) : ListRequest :=
  request.setParameter (bytes "key-marker") value

def setVersionIdMarker (request : ListRequest) (value : ByteString) : ListRequest :=
  request.setParameter (bytes "version-id-marker") value

def setUploadIdMarker (request : ListRequest) (value : ByteString) : ListRequest :=
  request.setParameter (bytes "upload-id-marker") value

def setPartNumberMarker (request : ListRequest) (value : Int) : ListRequest :=
  request.setParameter (bytes "part-number-marker") (toDecimalInt value)

end ListRequest

structure ListResult (Body : Type) where
  statusCode : Int
  headers : HeaderCollection
  body : Body

/-!
# Requests
-/

/-- The default headers and parameters give way to those of the request. -/
def fromListing (opName : ByteString) (defaults : List (ByteString × ByteString))
    (bucket key : Option ByteString) (request : ListRequest) : OperationInput σ :=
  let headers :=
    request.headers.entries.foldl (fun m e => m.insertOrAssign e.1 e.2)
      ((SortedMap.empty : HeaderCollection).emplace (bytes "Content-Type")
        (bytes "application/xml"))
  { opName := opName
    method := bytes "GET"
    headers := headers.emplace (bytes "Content-MD5") (bytes "1B2M2Y8AsgTpgAmY7PhCfg==")
    parameters :=
      request.parameters.entries.foldl (fun m e => m.insertOrAssign e.1 e.2)
        (SortedMap.ofList defaults)
    bucket := bucket
    key := key
    opMetadata := SortedMap.empty
    body := none }

def fromListBuckets (request : ListRequest) : OperationInput σ :=
  fromListing (bytes "ListBuckets") [] none none request

def fromListObjects (request : ListRequest) : OperationInput σ :=
  fromListing (bytes "ListObjects") [(bytes "encoding-type", bytes "url")]
    (some request.bucket) none request

def fromListObjectsV2 (request : ListRequest) : OperationInput σ :=
  fromListing (bytes "ListObjectsV2")
    [(bytes "list-type", bytes "2"), (bytes "encoding-type", bytes "url")]
    (some request.bucket) none request

def fromListObjectVersions (request : ListRequest) : OperationInput σ :=
  fromListing (bytes "ListObjectVersions")
    [(bytes "versions", []), (bytes "encoding-type", bytes "url")]
    (some request.bucket) none request

def fromListMultipartUploads (request : ListRequest) : OperationInput σ :=
  fromListing (bytes "ListMultipartUploads")
    [(bytes "uploads", []), (bytes "encoding-type", bytes "url")]
    (some request.bucket) none request

def fromListParts (request : ListRequest) : OperationInput σ :=
  fromListing (bytes "ListParts") [(bytes "encoding-type", bytes "url")]
    (some request.bucket) (some request.key) request

/-!
# Results
-/

/-- A document with another root, or none, leaves the result empty. -/
def toListing {Body : Type} (rootName : ByteString) (toBody : XMLElement -> Body)
    (empty : Body) (Parse : ByteString -> XMLDocument) (output : OperationOutput) :
    Except OperationError (ListResult Body) :=
  match output.body with
  | none => .ok ⟨output.statusCode, output.headers, empty⟩
  | some str =>
      match Parse str with
      | .parsed (some root) =>
          if root.Name == rootName then
            .ok ⟨output.statusCode, output.headers, toBody root⟩
          else .ok ⟨output.statusCode, output.headers, empty⟩
      | .parsed none => .ok ⟨output.statusCode, output.headers, empty⟩
      | .error id ErrorStr =>
          let fields :=
            ((SortedMap.empty : ErrorFields).emplace (bytes "Code")
              (bytes "XMLError:" ++ toDecimalInt id)).emplace (bytes "Message") ErrorStr
          .error
            { OperationError.ofCode (ErrorCode.serde .DeserializationFailed) fields with
              statusCode := output.statusCode
              headers := output.headers
              snapshot := str }

def toListBuckets := toListing (bytes "ListAllMyBucketsResult") toListAllMyBucketsResult {}

def toListObjects := toListing (bytes "ListBucketResult") toListBucketResult {}

def toListObjectsV2 := toListing (bytes "ListBucketResult") toListBucketResult {}

def toListObjectVersions := toListing (bytes "ListVersionsResult") toListVersionsResult {}

def toListMultipartUploads :=
  toListing (bytes "ListMultipartUploadsResult") toListMultipartUploadsResult {}

def toListParts := toListing (bytes "ListPartsResult") toListPartResult {}

/-!
# Operations
-/

structure OSSClient (σ : Type) where
  client : ClientImpl σ
  Parse : ByteString -> XMLDocument

/-- `requiredField`, for one field after another. -/
def requiredFields (fields : List (ByteString × ByteString)) : Option OperationError :=
  (fields.find? (·.2.isEmpty)).map fun field => missingField field.1

def bucketRequired (request : ListRequest) : List (ByteString × ByteString) :=
  [(bytes "Bucket", request.bucket)]

def uploadRequired (request : ListRequest) : List (ByteString × ByteString) :=
  [(bytes "Bucket", request.bucket), (bytes "Key", request.key),
    (bytes "UploadId", request.getUploadId)]

section Operations

variable (c : OSSClient σ)

def listing {Body : Type} (required : ListRequest -> List (ByteString × ByteString))
    (input : ListRequest -> OperationInput σ)
    (result : (ByteString -> XMLDocument) -> OperationOutput ->
      Except OperationError (ListResult Body))
    (request : ListRequest) (options : Option (OperationOptions σ)) (w : Runtime σ) :
    Except OperationError (ListResult Body) × Runtime σ :=
  match requiredFields (required request) with
  | some e => (.error e, w)
  | none =>
      match c.client.Execute (input request) options none w with
      | (.error e, w) => (.error e, w)
      | (.output o, w) => (result c.Parse o, w)

def listBuckets := listing c (fun _ => []) fromListBuckets toListBuckets

def listObjects := listing c bucketRequired fromListObjects toListObjects

def listObjectsV2 := listing c bucketRequired fromListObjectsV2 toListObjectsV2

def listObjectVersions :=
  listing c bucketRequired fromListObjectVersions toListObjectVersions

def listMultipartUploads :=
  listing c bucketRequired fromListMultipartUploads toListMultipartUploads

def listParts := listing c uploadRequired fromListParts toListParts

end Operations

/-!
# The request types that have pages
-/

/-- What a paginator has to know of a result. -/
structure PaginatorTraits (ResultT : Type) where
  isTruncated : ResultT -> Bool
  setNextToken : ListRequest -> ResultT -> ListRequest

namespace PaginatorTraits

def ListBuckets : PaginatorTraits (ListResult ListAllMyBucketsResult) where
  isTruncated result := result.body.isTruncated.getD false
  setNextToken request result := request.setMarker result.body.nextMarker

def ListObjects : PaginatorTraits (ListResult ListBucketResultXml) where
  isTruncated result := result.body.isTruncated.getD false
  setNextToken request result := request.setMarker result.body.nextMarker

def ListObjectsV2 : PaginatorTraits (ListResult ListBucketResultXml) where
  isTruncated result := result.body.isTruncated.getD false
  setNextToken request result :=
    request.setContinuationToken result.body.nextContinuationToken

def ListObjectVersions : PaginatorTraits (ListResult ListVersionsResultXml) where
  isTruncated result := result.body.isTruncated.getD false
  setNextToken request result :=
    (request.setKeyMarker result.body.nextKeyMarker).setVersionIdMarker
      result.body.nextVersionIdMarker

def ListMultipartUploads :
    PaginatorTraits (ListResult ListMultipartUploadsResultXml) where
  isTruncated result := result.body.isTruncated.getD false
  setNextToken request result :=
    (request.setKeyMarker result.body.nextKeyMarker).setUploadIdMarker
      result.body.nextUploadIdMarker

def ListParts : PaginatorTraits (ListResult ListPartResultXml) where
  isTruncated result := result.body.isTruncated.getD false
  setNextToken request result :=
    request.setPartNumberMarker (result.body.nextPartNumberMarker.getD (-1))

end PaginatorTraits

inductive ListOperation where
  | ListBuckets
  | ListObjects
  | ListObjectsV2
  | ListObjectVersions
  | ListMultipartUploads
  | ListParts
deriving DecidableEq

namespace ListOperation

def Body : ListOperation -> Type
  | ListBuckets => ListAllMyBucketsResult
  | ListObjects => ListBucketResultXml
  | ListObjectsV2 => ListBucketResultXml
  | ListObjectVersions => ListVersionsResultXml
  | ListMultipartUploads => ListMultipartUploadsResultXml
  | ListParts => ListPartResultXml

def traits : (op : ListOperation) -> PaginatorTraits (ListResult op.Body)
  | ListBuckets => PaginatorTraits.ListBuckets
  | ListObjects => PaginatorTraits.ListObjects
  | ListObjectsV2 => PaginatorTraits.ListObjectsV2
  | ListObjectVersions => PaginatorTraits.ListObjectVersions
  | ListMultipartUploads => PaginatorTraits.ListMultipartUploads
  | ListParts => PaginatorTraits.ListParts

/-- `OperationTraits::method`. -/
def method (c : OSSClient σ) : (op : ListOperation) -> ListRequest ->
    Option (OperationOptions σ) -> Runtime σ ->
      Except OperationError (ListResult op.Body) × Runtime σ
  | ListBuckets => listBuckets c
  | ListObjects => listObjects c
  | ListObjectsV2 => listObjectsV2 c
  | ListObjectVersions => listObjectVersions c
  | ListMultipartUploads => listMultipartUploads c
  | ListParts => listParts c

def required : ListOperation -> ListRequest -> List (ByteString × ByteString)
  | ListBuckets => fun _ => []
  | ListObjects => bucketRequired
  | ListObjectsV2 => bucketRequired
  | ListObjectVersions => bucketRequired
  | ListMultipartUploads => bucketRequired
  | ListParts => uploadRequired

def input : ListOperation -> ListRequest -> OperationInput σ
  | ListBuckets => fromListBuckets
  | ListObjects => fromListObjects
  | ListObjectsV2 => fromListObjectsV2
  | ListObjectVersions => fromListObjectVersions
  | ListMultipartUploads => fromListMultipartUploads
  | ListParts => fromListParts

def rootName : ListOperation -> ByteString
  | ListBuckets => bytes "ListAllMyBucketsResult"
  | ListObjects => bytes "ListBucketResult"
  | ListObjectsV2 => bytes "ListBucketResult"
  | ListObjectVersions => bytes "ListVersionsResult"
  | ListMultipartUploads => bytes "ListMultipartUploadsResult"
  | ListParts => bytes "ListPartsResult"

def toBody : (op : ListOperation) -> XMLElement -> op.Body
  | ListBuckets => toListAllMyBucketsResult
  | ListObjects => toListBucketResult
  | ListObjectsV2 => toListBucketResult
  | ListObjectVersions => toListVersionsResult
  | ListMultipartUploads => toListMultipartUploadsResult
  | ListParts => toListPartResult

/-- What a listing may have in it. -/
def lists : ListOperation -> EntryKind -> Bool
  | ListBuckets, .bucket => true
  | ListObjects, .object => true
  | ListObjects, .commonPrefix => true
  | ListObjectsV2, .object => true
  | ListObjectsV2, .commonPrefix => true
  | ListObjectVersions, .version => true
  | ListObjectVersions, .deleteMarker => true
  | ListObjectVersions, .commonPrefix => true
  | ListMultipartUploads, .upload => true
  | ListMultipartUploads, .commonPrefix => true
  | ListParts, .part => true
  | _, _ => false

/-- What the getters of a result yield. -/
def entries : (op : ListOperation) -> op.Body -> EntryKind -> List Entry
  | ListBuckets, body, .bucket => body.buckets.map Entry.bucket
  | ListObjects, body, .object => body.contents.map Entry.object
  | ListObjects, body, .commonPrefix => body.commonPrefixes.map Entry.commonPrefix
  | ListObjectsV2, body, .object => body.contents.map Entry.object
  | ListObjectsV2, body, .commonPrefix => body.commonPrefixes.map Entry.commonPrefix
  | ListObjectVersions, body, .version => body.versions.map Entry.version
  | ListObjectVersions, body, .deleteMarker => body.deleteMarkers.map Entry.deleteMarker
  | ListObjectVersions, body, .commonPrefix => body.commonPrefixes.map Entry.commonPrefix
  | ListMultipartUploads, body, .upload => body.uploads.map Entry.upload
  | ListMultipartUploads, body, .commonPrefix =>
      body.commonPrefixes.map Entry.commonPrefix
  | ListParts, body, .part => body.parts.map Entry.part
  | _, _, _ => []

/-- The parameters that `setNextToken` sets. -/
def markers : ListOperation -> List Marker
  | ListBuckets => [⟨bytes "marker", bytes "NextMarker", .bucketName⟩]
  | ListObjects => [⟨bytes "marker", bytes "NextMarker", .name⟩]
  | ListObjectsV2 => [⟨bytes "continuation-token", bytes "NextContinuationToken", .name⟩]
  | ListObjectVersions =>
      [⟨bytes "key-marker", bytes "NextKeyMarker", .name⟩,
        ⟨bytes "version-id-marker", bytes "NextVersionIdMarker", .id⟩]
  | ListMultipartUploads =>
      [⟨bytes "key-marker", bytes "NextKeyMarker", .name⟩,
        ⟨bytes "upload-id-marker", bytes "NextUploadIdMarker", .id⟩]
  | ListParts => [⟨bytes "part-number-marker", bytes "NextPartNumberMarker", .number⟩]

theorem method_eq (c : OSSClient σ) (op : ListOperation) (request : ListRequest)
    (options : Option (OperationOptions σ)) (w : Runtime σ) :
    exists empty, op.method c request options w =
      listing c op.required op.input (toListing op.rootName op.toBody empty) request
        options w := by
  cases op with
  | ListBuckets => exact ⟨{}, rfl⟩
  | ListObjects => exact ⟨{}, rfl⟩
  | ListObjectsV2 => exact ⟨{}, rfl⟩
  | ListObjectVersions => exact ⟨{}, rfl⟩
  | ListMultipartUploads => exact ⟨{}, rfl⟩
  | ListParts => exact ⟨{}, rfl⟩

theorem isTruncated_eq (op : ListOperation) (statusCode : Int)
    (headers : HeaderCollection) (root : XMLElement) :
    op.traits.isTruncated ⟨statusCode, headers, op.toBody root⟩ =
      ((root.FirstChildElement (bytes "IsTruncated")).map toBool).getD false := by
  cases op with
  | ListBuckets => rfl
  | ListObjects => rfl
  | ListObjectsV2 => rfl
  | ListObjectVersions => rfl
  | ListMultipartUploads => rfl
  | ListParts => rfl

/-- The markers of the document, and nothing else, are set. -/
theorem setNextToken_eq (op : ListOperation) (request : ListRequest) (statusCode : Int)
    (headers : HeaderCollection) (root : XMLElement) :
    op.traits.setNextToken request ⟨statusCode, headers, op.toBody root⟩ =
      { request with
        parameters := Utils.assignAll request.parameters
          (op.markers.map fun marker => (marker.parameter, readMarker root marker)) } := by
  cases op with
  | ListBuckets => rfl
  | ListObjects => rfl
  | ListObjectsV2 => rfl
  | ListObjectVersions => rfl
  | ListMultipartUploads => rfl
  | ListParts => rfl

/-- The common prefixes of a listing of uploads are not read. -/
def reads (op : ListOperation) (kind : EntryKind) : Bool :=
  op.lists kind && !(op == ListMultipartUploads && kind == .commonPrefix)

theorem entries_toBody {op : ListOperation} {kind : EntryKind}
    (hreads : op.reads kind = true) (root : XMLElement) :
    op.entries (op.toBody root) kind =
      (kind.elements root).map fun node => toEntry (doDecode root) node kind := by
  have hmap : forall {α β γ : Type} (f : α -> β) (g : β -> γ) (l : List α),
      (l.map f).map g = l.map fun a => g (f a) := fun f g l => List.map_map
  have hbuckets : (toListAllMyBucketsResult root).buckets.map Entry.bucket =
      (EntryKind.bucket.elements root).map fun node =>
        toEntry (doDecode root) node .bucket := by
    unfold toListAllMyBucketsResult EntryKind.elements
    simp only
    cases root.FirstChildElement (bytes "Buckets") with
    | none => rfl
    | some node => exact hmap _ _ _
  cases op <;> cases kind <;>
    first
      | exact absurd hreads Bool.false_ne_true
      | exact hmap _ _ _
      | exact hbuckets

theorem entries_unread {op : ListOperation} {kind : EntryKind}
    (hreads : op.reads kind = false) (root : XMLElement) :
    op.entries (op.toBody root) kind = [] := by
  cases op <;> cases kind <;>
    first
      | rfl
      | exact absurd hreads.symm Bool.false_ne_true

end ListOperation

end Client
end OssSdk
