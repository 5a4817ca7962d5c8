import OssSdk.Transform.SerdeUtils

/-!
# The objects of a delete request
-/

namespace OssSdk
namespace Transform

open Foundation
open Utils

structure ObjectIdentifier where
  key : ByteString
  versionId : Option ByteString
deriving DecidableEq

structure Delete where
  objects : List ObjectIdentifier
  quiet : Option Bool
deriving DecidableEq

/-- The body of the loop over the objects. -/
def ObjectIdentifier.toXmlText (item : ObjectIdentifier) : ByteString :=
  bytes "<Object>" ++
    (bytes "<Key>" ++ XmlEscape item.key ++ bytes "</Key>") ++
    (item.versionId.elim [] fun versionId =>
      bytes "<VersionId>" ++ XmlEscape versionId ++ bytes "</VersionId>") ++
    bytes "</Object>"

def Delete.toXmlText (value : Delete) (tag : ByteString) : ByteString :=
  Xml.enclose tag
    ((value.quiet.elim [] (toXmlTextBool · (bytes "Quiet"))) ++
      value.objects.flatMap ObjectIdentifier.toXmlText)

end Transform
end OssSdk
