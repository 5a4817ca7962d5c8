import OssSdk.Utils.HttpUtils
import OssSdk.Utils.XmlUtils

/-!
# Reading XML elements

A parsed document is a tree of elements.  What an element holds is read as a text, a
number or a truth value, and what cannot be read is the default of its type.
-/

namespace OssSdk
namespace Transform

open Foundation
open Utils

/--
`tinyxml2::XMLElement`: the text is that of the first node inside, when it is a text,
and the children are the elements inside.
-/
inductive XMLElement where
  | element (name : ByteString) (text : Option ByteString) (children : List XMLElement)

namespace XMLElement

def Name : XMLElement -> ByteString
  | element name _ _ => name

def GetText : XMLElement -> Option ByteString
  | element _ text _ => text

def children : XMLElement -> List XMLElement
  | element _ _ children => children

/-- `FirstChildElement`, and then `NextSiblingElement` as long as there is one. -/
def ChildElements (root : XMLElement) (name : ByteString) : List XMLElement :=
  root.children.filter (·.Name == name)

def FirstChildElement (root : XMLElement) (name : ByteString) : Option XMLElement :=
  root.children.find? (·.Name == name)

end XMLElement

/-- `XMLDocument`, after `Parse`: the error and its text, or the root element. -/
inductive XMLDocument where
  | error (id : Int) (ErrorStr : ByteString)
  | parsed (RootElement : Option XMLElement)

/-- `sscanf` with `%lld`: blanks, a sign and digits, of which there is at least one. -/
def ToInt64 (str : ByteString) : Option Int :=
  let unsigned :=
    match str.dropWhile isSpace with
    | 45 :: ds => ds
    | 43 :: ds => ds
    | ds => ds
  if (unsigned.takeWhile isDigit).isEmpty then none else some (strtoll str)

/-- A number that is not zero, in the 32 bits that `%d` keeps, or a word. -/
def ToBool (str : ByteString) : Option Bool :=
  match ToInt64 str with
  | some value => some (decide (value % 2 ^ 32 ≠ 0))
  | none =>
      if str = bytes "true" then some true
      else if str = bytes "false" then some false
      else none

def toBool (node : XMLElement) : Bool := (node.GetText.bind ToBool).getD false

def toInt64 (node : XMLElement) : Int := (node.GetText.bind ToInt64).getD 0

def toInt32 (node : XMLElement) : Int :=
  match node.GetText.bind ToInt64 with
  | none => 0
  | some value =>
      if 2 ^ 31 - 1 < value then 2 ^ 31 - 1
      else if value < -(2 ^ 31) then -(2 ^ 31)
      else value

def toString (node : XMLElement) : ByteString := node.GetText.getD []

def toStringDecoded (node : XMLElement) (doDecode : Bool) : ByteString :=
  match node.GetText with
  | none => []
  | some value => if doDecode then UrlDecode value else value

/-!
# Writing XML elements
-/

def toXmlText (value tag : ByteString) : ByteString := Xml.enclose tag (XmlEscape value)

def toXmlTextBool (value : Bool) (tag : ByteString) : ByteString :=
  Xml.enclose tag (if value then bytes "true" else bytes "false")

/-!
# Fields

A field that has no element keeps its default.
-/

/-- A `std::string`. -/
def textOf (root : XMLElement) (name : ByteString) : ByteString :=
  ((root.FirstChildElement name).map toString).getD []

/-- A `std::string` that may be encoded. -/
def nameOf (doDecode : Bool) (root : XMLElement) (name : ByteString) : ByteString :=
  ((root.FirstChildElement name).map (toStringDecoded · doDecode)).getD []

/-- An `int64_t`. -/
def numberOf (root : XMLElement) (name : ByteString) : Int :=
  ((root.FirstChildElement name).map toInt64).getD 0

/-!
# Decimal texts
-/

theorem ToInt64_toDecimal {n : Nat} (hn : n < 2 ^ 63) :
    ToInt64 (toDecimal n) = some (n : Int) := by
  have hvalue := @strtoll_toDecimal n [] hn (fun c hc => nomatch hc)
  rw [List.append_nil] at hvalue
  have htake := @takeWhile_toDecimal n [] (fun c hc => nomatch hc)
  rw [List.append_nil] at htake
  rcases List.exists_cons_of_ne_nil (toDecimal_ne_nil n) with ⟨c, ds, hcons⟩
  have hdigit : isDigit c = true := by
    refine @isDigit_of_mem_toDecimal n c ?_
    rw [hcons]
    exact List.mem_cons_self
  have hspaces : (toDecimal n).dropWhile isSpace = c :: ds := by
    rw [hcons, List.dropWhile_cons, isSpace_of_isDigit hdigit]
    rfl
  unfold ToInt64
  rw [hspaces]
  split
  · rename_i hminus
    cases hminus
    cases hdigit
  · rename_i hplus
    cases hplus
    cases hdigit
  · simp only
    rw [← hcons, htake, hvalue, List.isEmpty_eq_false_iff.mpr (toDecimal_ne_nil n)]
    rfl

example : toBool (.element (bytes "IsTruncated") (some (bytes "true")) []) = true := by
  decide

example : toInt64 (.element (bytes "Size") (some (bytes " -12x")) []) = -12 := by decide

end Transform
end OssSdk
