import OssSdk.Foundation.Pieces
import OssSdk.Internal.ExecuteContext
import OssSdk.Utils.HttpUtils

/-!
# Validity of names, and where a request goes
-/

namespace OssSdk
namespace Internal

open Foundation

inductive AttributeValue where
  | bool (b : Bool)
  | strings (s : List ByteString)
  | int64 (n : Int)
deriving DecidableEq

abbrev AttributeMap := SortedMap ByteString AttributeValue caseSensitiveLess

structure OperationInput (σ : Type) where
  opName : ByteString
  method : ByteString
  headers : HeaderCollection
  parameters : ParameterCollection
  bucket : Option ByteString
  key : Option ByteString
  opMetadata : AttributeMap
  body : Option (ByteContent σ)

def isLowerAlnum (c : UInt8) : Bool :=
  isDigit c || decide (97 ≤ c.toNat ∧ c.toNat ≤ 122)

/-- A full match of `[a-z0-9][a-z0-9\-]{1,61}[a-z0-9]`. -/
def isValidBucketName (bucket : ByteString) : Bool :=
  decide (3 ≤ bucket.length ∧ bucket.length ≤ 63) &&
    bucket.all (fun c => isLowerAlnum c || c == 45) &&
    bucket.head?.any isLowerAlnum && bucket.getLast?.any isLowerAlnum

def isValidObjectName (key : ByteString) : Bool :=
  if key.isEmpty || key.head? == some 92 then false
  else decide (key.length ≤ 1023)

def isValidMethod (key : ByteString) : Bool :=
  ["PUT", "GET", "POST", "HEAD", "DELETE", "OPTIONS"].any fun m =>
    bytes m == key

/-- A full match of `[^:]+://.*`, where the dot matches no line terminator. -/
def hasScheme (value : ByteString) : Bool :=
  !(before 58 value).isEmpty && [47, 47].isPrefixOf (after 58 value) &&
    (after 58 value).all fun c => c != 10 && c != 13

def addScheme (value : ByteString) (disableSsl : Bool) : ByteString :=
  if hasScheme value then value
  else (if disableSsl then bytes "http" else bytes "https") ++ bytes "://" ++ value

def buildHostPath {σ : Type} (input : OperationInput σ) (baseUrl : ByteString)
    (addressStyle : AddressStyleType) : ByteString :=
  let host :=
    match input.bucket, addressStyle with
    | some _, .Path => baseUrl
    | some _, .CName => baseUrl
    | some bucket, _ => bucket ++ bytes "." ++ baseUrl
    | none, _ => baseUrl
  let bucketPaths :=
    match input.bucket, addressStyle with
    | some bucket, .Path =>
        bucket :: (if input.key.isNone then [[]] else [])
    | _, _ => []
  let keyPaths :=
    match input.key with
    | some key => [Utils.UrlEncodePath key]
    | none => []
  host ++ bytes "/" ++ Utils.StringJoin (bytes "/") (bucketPaths ++ keyPaths)

end Internal
end OssSdk
