import OssSdk.Transform.SerdeUtils

/-!
# The tags of an object
-/

namespace OssSdk
namespace Transform

open Foundation

structure Tag where
  key : ByteString
  value : ByteString
deriving DecidableEq

structure TagSet where
  tags : List Tag
deriving DecidableEq

structure Tagging where
  tagSet : Option TagSet
deriving DecidableEq

/-- A text that is empty is not written. -/
def Tag.toXmlText (value : Tag) (tag : ByteString) : ByteString :=
  Xml.enclose tag
    ((if value.key.isEmpty then [] else Transform.toXmlText value.key (bytes "Key")) ++
      (if value.value.isEmpty then [] else Transform.toXmlText value.value (bytes "Value")))

def TagSet.toXmlText (value : TagSet) (tag : ByteString) : ByteString :=
  Xml.enclose tag (value.tags.flatMap fun it => it.toXmlText (bytes "Tag"))

def Tagging.toXmlText (value : Tagging) (tag : ByteString) : ByteString :=
  Xml.enclose tag (value.tagSet.elim [] fun tagSet => tagSet.toXmlText (bytes "TagSet"))

def toTag (root : XMLElement) : Tag where
  key := textOf root (bytes "Key")
  value := textOf root (bytes "Value")

def toTagSet (root : XMLElement) : TagSet where
  tags := (root.ChildElements (bytes "Tag")).map toTag

def toTagging (root : XMLElement) : Tagging where
  tagSet := (root.FirstChildElement (bytes "TagSet")).map toTagSet

example : Tagging.toXmlText ⟨some ⟨[⟨bytes "a", []⟩]⟩⟩ (bytes "Tagging") =
    bytes "<Tagging><TagSet><Tag><Key>a</Key></Tag></TagSet></Tagging>" := by decide +kernel

end Transform
end OssSdk
