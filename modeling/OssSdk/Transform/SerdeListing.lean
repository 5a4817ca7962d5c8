import OssSdk.Transform.SerdeUtils

/-!
# The results of listings

Six operations list something page by page.  A page is read from its document, and the
names in it are decoded when the document says that they are encoded.
-/

namespace OssSdk
namespace Transform

open Foundation
open Utils

/-!
# What is listed
-/

structure Owner where
  id : Option ByteString
  displayName : Option ByteString
deriving DecidableEq

structure BucketSummary where
  region : ByteString
  creationDate : ByteString
  extranetEndpoint : ByteString
  intranetEndpoint : ByteString
  location : ByteString
  name : ByteString
  storageClass : ByteString
deriving DecidableEq

structure ObjectSummary where
  key : ByteString
  type : ByteString
  size : Int
  lastModified : ByteString
  eTag : ByteString
  storageClass : ByteString
  owner : Option Owner
  restoreInfo : Option ByteString
  transitionTime : Option ByteString
deriving DecidableEq

structure CommonPrefix where
  name : ByteString
deriving DecidableEq

structure ObjectVersion where
  key : ByteString
  versionId : ByteString
  isLatest : Option Bool
  lastModified : ByteString
  eTag : ByteString
  size : Int
  storageClass : ByteString
  owner : Option Owner
  restoreInfo : ByteString
deriving DecidableEq

structure DeleteMarkerEntry where
  key : ByteString
  versionId : ByteString
  isLatest : Option Bool
  lastModified : ByteString
  owner : Option Owner
deriving DecidableEq

structure Upload where
  key : ByteString
  uploadId : ByteString
  initiated : ByteString
deriving DecidableEq

structure Part where
  eTag : ByteString
  partNumber : Int
  size : Int
  lastModified : ByteString
deriving DecidableEq

section Items

variable (root : XMLElement)

def toOwner : Owner where
  id := (root.FirstChildElement (bytes "ID")).map toString
  displayName := (root.FirstChildElement (bytes "DisplayName")).map toString

def toBucket : BucketSummary where
  name := textOf root (bytes "Name")
  storageClass := textOf root (bytes "StorageClass")
  region := textOf root (bytes "Region")
  creationDate := textOf root (bytes "CreationDate")
  extranetEndpoint := textOf root (bytes "ExtranetEndpoint")
  intranetEndpoint := textOf root (bytes "IntranetEndpoint")
  location := textOf root (bytes "Location")

def toObjectSummary : ObjectSummary where
  lastModified := textOf root (bytes "LastModified")
  size := numberOf root (bytes "Size")
  storageClass := textOf root (bytes "StorageClass")
  owner := (root.FirstChildElement (bytes "Owner")).map toOwner
  restoreInfo := (root.FirstChildElement (bytes "RestoreInfo")).map toString
  transitionTime := (root.FirstChildElement (bytes "TransitionTime")).map toString
  key := textOf root (bytes "Key")
  eTag := textOf root (bytes "ETag")
  type := textOf root (bytes "Type")

def toCommonPrefix : CommonPrefix where
  name := textOf root (bytes "Prefix")

def toObjectVersion : ObjectVersion where
  key := textOf root (bytes "Key")
  versionId := textOf root (bytes "VersionId")
  isLatest := (root.FirstChildElement (bytes "IsLatest")).map toBool
  lastModified := textOf root (bytes "LastModified")
  eTag := textOf root (bytes "ETag")
  size := numberOf root (bytes "Size")
  storageClass := textOf root (bytes "StorageClass")
  owner := (root.FirstChildElement (bytes "Owner")).map toOwner
  restoreInfo := textOf root (bytes "RestoreInfo")

def toDeleteMarkerEntry : DeleteMarkerEntry where
  key := textOf root (bytes "Key")
  versionId := textOf root (bytes "VersionId")
  isLatest := (root.FirstChildElement (bytes "IsLatest")).map toBool
  lastModified := textOf root (bytes "LastModified")
  owner := (root.FirstChildElement (bytes "Owner")).map toOwner

def toUpload : Upload where
  key := textOf root (bytes "Key")
  uploadId := textOf root (bytes "UploadId")
  initiated := textOf root (bytes "Initiated")

def toPart : Part where
  eTag := textOf root (bytes "ETag")
  partNumber := numberOf root (bytes "PartNumber")
  size := numberOf root (bytes "Size")
  lastModified := textOf root (bytes "LastModified")

end Items

def decoded (doDecode : Bool) (name : ByteString) : ByteString :=
  if doDecode then UrlDecode name else name

/-!
# Pages
-/

structure ListAllMyBucketsResult where
  maxKeys : Option Int := none
  isTruncated : Option Bool := none
  nextMarker : ByteString := []
  buckets : List BucketSummary := []
  owner : Owner := ⟨none, none⟩
  namePrefix : ByteString := []
  marker : ByteString := []

/-- Both versions of listing objects have this result. -/
structure ListBucketResultXml where
  name : ByteString := []
  encodingType : ByteString := []
  nextMarker : ByteString := []
  namePrefix : ByteString := []
  marker : ByteString := []
  delimiter : ByteString := []
  maxKeys : Option Int := none
  isTruncated : Option Bool := none
  contents : List ObjectSummary := []
  commonPrefixes : List CommonPrefix := []
  startAfter : ByteString := []
  continuationToken : ByteString := []
  nextContinuationToken : ByteString := []
  keyCount : Option Int := none

structure ListVersionsResultXml where
  name : ByteString := []
  namePrefix : ByteString := []
  keyMarker : ByteString := []
  versionIdMarker : ByteString := []
  nextKeyMarker : ByteString := []
  nextVersionIdMarker : ByteString := []
  maxKeys : Option Int := none
  delimiter : ByteString := []
  isTruncated : Option Bool := none
  encodingType : ByteString := []
  versions : List ObjectVersion := []
  deleteMarkers : List DeleteMarkerEntry := []
  commonPrefixes : List CommonPrefix := []

structure ListMultipartUploadsResultXml where
  bucket : ByteString := []
  keyMarker : ByteString := []
  uploadIdMarker : ByteString := []
  nextKeyMarker : ByteString := []
  nextUploadIdMarker : ByteString := []
  delimiter : ByteString := []
  namePrefix : ByteString := []
  maxUploads : Option Int := none
  isTruncated : Option Bool := none
  encodingType : ByteString := []
  uploads : List Upload := []
  commonPrefixes : List CommonPrefix := []

structure ListPartResultXml where
  bucket : ByteString := []
  key : ByteString := []
  uploadId : ByteString := []
  encodingType : ByteString := []
  partNumberMarker : Option Int := none
  nextPartNumberMarker : Option Int := none
  maxParts : Option Int := none
  isTruncated : Option Bool := none
  parts : List Part := []

section Pages

variable (root : XMLElement)

/-- `encodingType == "url"`. -/
def doDecode : Bool := textOf root (bytes "EncodingType") == bytes "url"

def commonPrefixesOf : List CommonPrefix :=
  (root.ChildElements (bytes "CommonPrefixes")).map fun node =>
    let item := toCommonPrefix node
    { item with name := decoded (doDecode root) item.name }

def toListAllMyBucketsResult : ListAllMyBucketsResult where
  marker := textOf root (bytes "Marker")
  maxKeys := (root.FirstChildElement (bytes "MaxKeys")).map toInt64
  isTruncated := (root.FirstChildElement (bytes "IsTruncated")).map toBool
  nextMarker := textOf root (bytes "NextMarker")
  buckets :=
    match root.FirstChildElement (bytes "Buckets") with
    | some node => (node.ChildElements (bytes "Bucket")).map toBucket
    | none => []
  owner := ((root.FirstChildElement (bytes "Owner")).map toOwner).getD ⟨none, none⟩
  namePrefix := textOf root (bytes "Prefix")

def toListBucketResult : ListBucketResultXml where
  encodingType := textOf root (bytes "EncodingType")
  marker := nameOf (doDecode root) root (bytes "Marker")
  delimiter := nameOf (doDecode root) root (bytes "Delimiter")
  nextMarker := nameOf (doDecode root) root (bytes "NextMarker")
  name := textOf root (bytes "Name")
  namePrefix := nameOf (doDecode root) root (bytes "Prefix")
  maxKeys := (root.FirstChildElement (bytes "MaxKeys")).map toInt32
  isTruncated := (root.FirstChildElement (bytes "IsTruncated")).map toBool
  contents :=
    (root.ChildElements (bytes "Contents")).map fun node =>
      let item := toObjectSummary node
      { item with key := decoded (doDecode root) item.key }
  commonPrefixes := commonPrefixesOf root
  nextContinuationToken := nameOf (doDecode root) root (bytes "NextContinuationToken")
  continuationToken := nameOf (doDecode root) root (bytes "ContinuationToken")
  startAfter := nameOf (doDecode root) root (bytes "StartAfter")
  keyCount := (root.FirstChildElement (bytes "KeyCount")).map toInt32

def toListVersionsResult : ListVersionsResultXml where
  encodingType := textOf root (bytes "EncodingType")
  name := textOf root (bytes "Name")
  namePrefix := nameOf (doDecode root) root (bytes "Prefix")
  keyMarker := nameOf (doDecode root) root (bytes "KeyMarker")
  versionIdMarker := textOf root (bytes "VersionIdMarker")
  nextKeyMarker := nameOf (doDecode root) root (bytes "NextKeyMarker")
  nextVersionIdMarker := textOf root (bytes "NextVersionIdMarker")
  maxKeys := (root.FirstChildElement (bytes "MaxKeys")).map toInt32
  delimiter := nameOf (doDecode root) root (bytes "Delimiter")
  isTruncated := (root.FirstChildElement (bytes "IsTruncated")).map toBool
  versions :=
    (root.ChildElements (bytes "Version")).map fun node =>
      let item := toObjectVersion node
      { item with key := decoded (doDecode root) item.key }
  deleteMarkers :=
    (root.ChildElements (bytes "DeleteMarker")).map fun node =>
      let item := toDeleteMarkerEntry node
      { item with key := decoded (doDecode root) item.key }
  commonPrefixes := commonPrefixesOf root

/-- The common prefixes of the result are never read. -/
def toListMultipartUploadsResult : ListMultipartUploadsResultXml where
  encodingType := textOf root (bytes "EncodingType")
  bucket := textOf root (bytes "Bucket")
  keyMarker := nameOf (doDecode root) root (bytes "KeyMarker")
  uploadIdMarker := textOf root (bytes "UploadIdMarker")
  nextKeyMarker := nameOf (doDecode root) root (bytes "NextKeyMarker")
  nextUploadIdMarker := textOf root (bytes "NextUploadIdMarker")
  delimiter := nameOf (doDecode root) root (bytes "Delimiter")
  namePrefix := nameOf (doDecode root) root (bytes "Prefix")
  maxUploads := (root.FirstChildElement (bytes "MaxUploads")).map toInt64
  isTruncated := (root.FirstChildElement (bytes "IsTruncated")).map toBool
  uploads :=
    (root.ChildElements (bytes "Upload")).map fun node =>
      let item := toUpload node
      { item with key := decoded (doDecode root) item.key }

def toListPartResult : ListPartResultXml where
  encodingType := textOf root (bytes "EncodingType")
  key := nameOf (doDecode root) root (bytes "Key")
  uploadId := textOf root (bytes "UploadId")
  partNumberMarker := (root.FirstChildElement (bytes "PartNumberMarker")).map toInt64
  nextPartNumberMarker :=
    (root.FirstChildElement (bytes "NextPartNumberMarker")).map toInt64
  maxParts := (root.FirstChildElement (bytes "MaxParts")).map toInt64
  isTruncated := (root.FirstChildElement (bytes "IsTruncated")).map toBool
  parts := (root.ChildElements (bytes "Part")).map toPart
  bucket := textOf root (bytes "Bucket")

end Pages

end Transform
end OssSdk
