import OssSdk.Transform.SerdeUtils

/-!
# The referers that a bucket allows
-/

namespace OssSdk
namespace Transform

open Foundation

structure RefererList where
  referers : List ByteString
deriving DecidableEq

structure RefererBlacklist where
  referers : List ByteString
deriving DecidableEq

structure RefererConfiguration where
  allowEmptyReferer : Option Bool
  allowTruncateQueryString : Option Bool
  truncatePath : Option Bool
  refererList : Option RefererList
  refererBlacklist : Option RefererBlacklist
deriving DecidableEq

def RefererList.toXmlText (value : RefererList) (tag : ByteString) : ByteString :=
  Xml.enclose tag
    (value.referers.flatMap fun it => Transform.toXmlText it (bytes "Referer"))

def RefererBlacklist.toXmlText (value : RefererBlacklist) (tag : ByteString) : ByteString :=
  Xml.enclose tag
    (value.referers.flatMap fun it => Transform.toXmlText it (bytes "Referer"))

def RefererConfiguration.toXmlText (value : RefererConfiguration) (tag : ByteString) :
    ByteString :=
  Xml.enclose tag
    ((value.allowEmptyReferer.elim [] (toXmlTextBool · (bytes "AllowEmptyReferer"))) ++
      (value.allowTruncateQueryString.elim []
        (toXmlTextBool · (bytes "AllowTruncateQueryString"))) ++
      (value.truncatePath.elim [] (toXmlTextBool · (bytes "TruncatePath"))) ++
      (value.refererList.elim [] (·.toXmlText (bytes "RefererList"))) ++
      (value.refererBlacklist.elim [] (·.toXmlText (bytes "RefererBlacklist"))))

def toRefererList (root : XMLElement) : RefererList where
  referers := (root.ChildElements (bytes "Referer")).map toString

def toRefererBlacklist (root : XMLElement) : RefererBlacklist where
  referers := (root.ChildElements (bytes "Referer")).map toString

def toRefererConfiguration (root : XMLElement) : RefererConfiguration where
  allowEmptyReferer := (root.FirstChildElement (bytes "AllowEmptyReferer")).map toBool
  allowTruncateQueryString :=
    (root.FirstChildElement (bytes "AllowTruncateQueryString")).map toBool
  truncatePath := (root.FirstChildElement (bytes "TruncatePath")).map toBool
  refererList := (root.FirstChildElement (bytes "RefererList")).map toRefererList
  refererBlacklist :=
    (root.FirstChildElement (bytes "RefererBlacklist")).map toRefererBlacklist

end Transform
end OssSdk
