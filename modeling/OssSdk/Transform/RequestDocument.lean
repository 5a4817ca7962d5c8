import OssSdk.Transform.SerdeBucketReferer
import OssSdk.Transform.SerdeObjectBasic
import OssSdk.Transform.SerdeObjectTagging
import Mathlib.Data.List.Nodup

/-!
# The documents that are sent

A request body is read back as the elements that it was made for, and the texts in them
are the strings of the request.
-/

namespace OssSdk
namespace Transform

open Foundation
open Utils

/-!
# From nodes to elements
-/

/-- `GetText` looks at the first node only. -/
def firstText : List Xml.Node -> Option ByteString
  | .text data :: _ => some data
  | _ => none

mutual

def elementOf : Xml.Node -> Option XMLElement
  | .text _ => none
  | .element name children => some (.element name (firstText children) (elementsOf children))

def elementsOf : List Xml.Node -> List XMLElement
  | [] => []
  | node :: rest => (elementOf node).toList ++ elementsOf rest

end

theorem elementsOf_eq (nodes : List Xml.Node) : elementsOf nodes = nodes.filterMap elementOf := by
  induction nodes with
  | nil => rfl
  | cons node rest ih =>
      rw [elementsOf, ih, List.filterMap_cons]
      cases elementOf node with
      | none => rfl
      | some element => rfl

/-- An element that has no text in it, or nothing else. -/
def leaf (name value : ByteString) : Xml.Node := .element name (Xml.textNodes value)

theorem toString_leaf (name value : ByteString) :
    (elementOf (leaf name value)).map toString = some value := by
  unfold leaf Xml.textNodes
  by_cases hempty : value = []
  · rw [if_pos hempty, hempty]
    rfl
  · rw [if_neg hempty]
    rfl

/-!
# Fields with a name
-/

/-- A node that may be missing, under its name. -/
abbrev Field := ByteString × Option Xml.Node

def contents (fields : List Field) : List Xml.Node := fields.filterMap Prod.snd

/-- A node is an element with this name. -/
def Named (name : ByteString) (node : Xml.Node) : Prop :=
  exists children, node = .element name children

/-- Every field has a name of its own. -/
structure WellNamed (fields : List Field) : Prop where
  nodup : (fields.map Prod.fst).Nodup
  named : forall field, field ∈ fields -> forall node, node ∈ field.2 -> Named field.1 node

theorem Named.elementOf {name : ByteString} {node : Xml.Node} (hnode : Named name node) :
    exists element, elementOf node = some element ∧ element.Name = name := by
  rcases hnode with ⟨children, hnode⟩
  rw [hnode, Transform.elementOf]
  exact ⟨_, rfl, rfl⟩

theorem find_contents {fields : List Field} (hfields : WellNamed fields) {field : Field}
    (hfield : field ∈ fields) :
    (elementsOf (contents fields)).find? (·.Name == field.1) = field.2.bind elementOf := by
  rw [elementsOf_eq]
  rcases hfields with ⟨hnodup, hnamed⟩
  unfold contents
  induction fields with
  | nil => cases hfield
  | cons first rest ih =>
      rw [List.map_cons, List.nodup_cons] at hnodup
      rw [List.forall_mem_cons] at hnamed
      rw [List.filterMap_cons]
      rcases List.mem_cons.mp hfield with hfirst | hlater
      · rw [hfirst]
        cases hnode : first.2 with
        | none =>
            simp only [Option.bind_none]
            rw [List.find?_eq_none]
            intro element helement hname
            rcases List.mem_filterMap.mp helement with ⟨node, hmem, hnode'⟩
            rcases List.mem_filterMap.mp hmem with ⟨other, hother, hsome⟩
            rcases (hnamed.2 other hother node hsome).elementOf with ⟨element', heq, hname'⟩
            rw [hnode'] at heq
            cases heq
            apply hnodup.1
            rw [← beq_iff_eq.mp hname, hname']
            exact List.mem_map_of_mem hother
        | some node =>
            rcases (hnamed.1 node hnode).elementOf with ⟨element, heq, hname⟩
            simp only [List.filterMap_cons, heq, Option.bind_some]
            exact List.find?_cons_of_pos (p := fun e : XMLElement => e.Name == first.1)
              (beq_iff_eq.mpr hname)
      · have hrest := ih hlater hnodup.2 hnamed.2
        cases hnode : first.2 with
        | none => exact hrest
        | some node =>
            rcases (hnamed.1 node hnode).elementOf with ⟨element, heq, hname⟩
            have hother : ¬ (element.Name == field.1) = true := by
              rw [beq_iff_eq, hname]
              intro hsame
              apply hnodup.1
              rw [hsame]
              exact List.mem_map_of_mem hlater
            simp only [List.filterMap_cons, heq]
            rw [List.find?_cons_of_neg (p := fun e : XMLElement => e.Name == field.1) hother]
            exact hrest

/-- Fields come first, and after them elements of another name. -/
theorem first_contents {fields : List Field} (hfields : WellNamed fields) {field : Field}
    (hfield : field ∈ fields) {other : ByteString} (hother : other ∉ fields.map Prod.fst)
    {nodes : List Xml.Node} (hnodes : forall node, node ∈ nodes -> Named other node)
    (tag : ByteString) (text : Option ByteString) :
    (XMLElement.element tag text (elementsOf (contents fields ++ nodes))).FirstChildElement
      field.1 = field.2.bind elementOf := by
  have hfind := find_contents hfields hfield
  have hlast : (elementsOf nodes).find? (·.Name == field.1) = none := by
    rw [elementsOf_eq, List.find?_eq_none]
    intro element helement hsame
    rcases List.mem_filterMap.mp helement with ⟨node, hmem, hnode⟩
    rcases (hnodes node hmem).elementOf with ⟨element', heq, hname⟩
    rw [hnode] at heq
    cases heq
    apply hother
    rw [← hname, beq_iff_eq.mp hsame]
    exact List.mem_map_of_mem hfield
  unfold XMLElement.FirstChildElement XMLElement.children
  rw [elementsOf_eq, List.filterMap_append, ← elementsOf_eq, ← elementsOf_eq,
    List.find?_append, hfind, hlast, Option.or_none]

theorem first_contents_only {fields : List Field} (hfields : WellNamed fields)
    {field : Field} (hfield : field ∈ fields) (tag : ByteString) (text : Option ByteString) :
    (XMLElement.element tag text (elementsOf (contents fields))).FirstChildElement field.1 =
      field.2.bind elementOf := by
  unfold XMLElement.FirstChildElement XMLElement.children
  exact find_contents hfields hfield

/-- Elements of one name, after the fields of other names. -/
theorem filter_contents {fields : List Field} (hfields : WellNamed fields) {name : ByteString}
    (hname : name ∉ fields.map Prod.fst) {nodes : List Xml.Node}
    (hnodes : forall node, node ∈ nodes -> Named name node) :
    (elementsOf (contents fields ++ nodes)).filter (·.Name == name) = elementsOf nodes := by
  rw [elementsOf_eq, elementsOf_eq, List.filterMap_append, List.filter_append]
  have hbefore : ((contents fields).filterMap elementOf).filter (·.Name == name) = [] := by
    rw [List.filter_eq_nil_iff]
    intro element helement hsame
    rcases List.mem_filterMap.mp helement with ⟨node, hmem, hnode⟩
    rcases List.mem_filterMap.mp hmem with ⟨field, hfield, hsome⟩
    rcases (hfields.named field hfield node hsome).elementOf with ⟨element', heq, hname'⟩
    rw [hnode] at heq
    cases heq
    apply hname
    rw [← beq_iff_eq.mp hsame, hname']
    exact List.mem_map_of_mem hfield
  have hafter : (nodes.filterMap elementOf).filter (·.Name == name) =
      nodes.filterMap elementOf := by
    rw [List.filter_eq_self]
    intro element helement
    rcases List.mem_filterMap.mp helement with ⟨node, hmem, hnode⟩
    rcases (hnodes node hmem).elementOf with ⟨element', heq, hname'⟩
    rw [hnode] at heq
    cases heq
    exact beq_iff_eq.mpr hname'
  rw [hbefore, hafter, List.nil_append]

/-- Reading elements one by one gives back what they were made of. -/
theorem map_elementsOf {α : Type} {node : α -> Xml.Node} {decode : XMLElement -> α}
    (hdecode : forall a, (elementOf (node a)).map decode = some a) (items : List α) :
    (elementsOf (items.map node)).map decode = items := by
  rw [elementsOf_eq, List.filterMap_map]
  induction items with
  | nil => rfl
  | cons a rest ih =>
      rcases Option.map_eq_some_iff.mp (hdecode a) with ⟨element, helement, hvalue⟩
      rw [List.filterMap_cons]
      simp only [Function.comp_apply, helement, List.map_cons, hvalue]
      exact congrArg (List.cons a) ih

/-- The children that are all there are, and have one name. -/
theorem children_of_name {α : Type} {name : ByteString} {node : α -> Xml.Node}
    {decode : XMLElement -> α} (hname : forall a, Named name (node a))
    (hdecode : forall a, (elementOf (node a)).map decode = some a) {fields : List Field}
    (hfields : WellNamed fields) (hother : name ∉ fields.map Prod.fst) (items : List α)
    (tag : ByteString) (text : Option ByteString) :
    ((XMLElement.element tag text
      (elementsOf (contents fields ++ items.map node))).ChildElements name).map decode =
        items := by
  unfold XMLElement.ChildElements XMLElement.children
  rw [filter_contents hfields hother, map_elementsOf hdecode]
  intro n hn
  rcases List.mem_map.mp hn with ⟨a, _, heq⟩
  rw [← heq]
  exact hname a

theorem wellNamed_nil : WellNamed [] := ⟨List.nodup_nil, fun _ hfield => (nomatch hfield)⟩

theorem contents_cons (field : Field) (rest : List Field) :
    contents (field :: rest) = field.2.toList ++ contents rest := by
  unfold contents
  rw [List.filterMap_cons]
  cases field.2 with
  | none => rfl
  | some node => rfl

theorem piece_elim {α : Type} {o : Option α} {write : α -> ByteString} {node : α -> Xml.Node}
    (heach : forall a, a ∈ o -> Xml.Piece (write a) [node a]) :
    Xml.Piece (o.elim [] write) (o.map node).toList := by
  cases o with
  | none => exact Xml.Piece.nil
  | some a => exact heach a rfl

theorem piece_flatMap {α : Type} {items : List α} {write : α -> ByteString}
    {node : α -> Xml.Node} (heach : forall a, a ∈ items -> Xml.Piece (write a) [node a]) :
    Xml.Piece (items.flatMap write) (items.map node) := by
  rw [List.map_eq_flatMap]
  exact Xml.Piece.flatMap heach

theorem piece_toXmlText {value tag : ByteString} (htag : Xml.isName tag = true)
    (hvalue : Xml.Chars value) : Xml.Piece (toXmlText value tag) [leaf tag value] :=
  piece_XmlEscape htag hvalue

/-!
# Truth values
-/

def boolText (value : Bool) : ByteString := if value then bytes "true" else bytes "false"

def boolField (name : ByteString) (value : Option Bool) : Field :=
  (name, value.map fun value => leaf name (boolText value))

theorem piece_toXmlTextBool {tag : ByteString} (htag : Xml.isName tag = true) (value : Bool) :
    Xml.Piece (toXmlTextBool value tag) [leaf tag (boolText value)] := by
  have hescape : XmlEscape (boolText value) = boolText value := by
    cases value with
    | false => decide
    | true => decide
  have hchars : Xml.Chars (boolText value) := by
    cases value with
    | false => exact utf8Of_ascii (by decide +kernel)
    | true => exact utf8Of_ascii (by decide +kernel)
  have hpiece := piece_toXmlText htag hchars
  unfold toXmlText at hpiece
  rw [hescape] at hpiece
  exact hpiece

theorem toBool_leaf (name : ByteString) (value : Bool) :
    (elementOf (leaf name (boolText value))).map toBool = some value := by
  cases value with
  | false => rfl
  | true => rfl

theorem boolField_named (name : ByteString) (value : Option Bool) :
    forall node, node ∈ (boolField name value).2 -> Named name node := by
  intro node hnode
  rcases Option.mem_map.mp hnode with ⟨b, _, heq⟩
  exact ⟨_, heq.symm⟩

/-- A field is read as it was written. -/
theorem map_bind_elementOf {α : Type} {node : α -> Xml.Node} {decode : XMLElement -> α}
    (hdecode : forall a, (elementOf (node a)).map decode = some a) (o : Option α) :
    ((o.map node).bind elementOf).map decode = o := by
  cases o with
  | none => rfl
  | some a => exact hdecode a

theorem decode_contents {α : Type} {node : α -> Xml.Node} {decode : XMLElement -> α}
    (hdecode : forall a, (elementOf (node a)).map decode = some a) {fields : List Field}
    (hfields : WellNamed fields) {name : ByteString} {o : Option α}
    (hfield : (name, o.map node) ∈ fields) {tag : ByteString} {text : Option ByteString} :
    ((XMLElement.element tag text (elementsOf (contents fields))).FirstChildElement
      name).map decode = o := by
  have hfirst := first_contents_only hfields hfield tag text
  change XMLElement.FirstChildElement _ name = _ at hfirst
  rw [hfirst, map_bind_elementOf hdecode]

/-!
# Tags
-/

def textField (name value : ByteString) : Field :=
  (name, if value.isEmpty then none else some (leaf name value))

theorem textField_named (name value : ByteString) :
    forall node, node ∈ (textField name value).2 -> Named name node := by
  intro node hnode
  unfold textField at hnode
  split at hnode
  · cases hnode
  · cases hnode
    exact ⟨_, rfl⟩

theorem piece_textField {name value : ByteString} (hname : Xml.isName name = true)
    (hvalue : Xml.Chars value) :
    Xml.Piece (if value.isEmpty then [] else toXmlText value name)
      (textField name value).2.toList := by
  unfold textField
  split
  · exact Xml.Piece.nil
  · exact piece_toXmlText hname hvalue

theorem textOf_contents {fields : List Field} (hfields : WellNamed fields)
    {name value : ByteString} (hfield : textField name value ∈ fields) (tag : ByteString)
    (text : Option ByteString) :
    textOf (.element tag text (elementsOf (contents fields))) name = value := by
  have hfirst := first_contents_only hfields hfield tag text
  unfold textOf
  change XMLElement.FirstChildElement _ name = _ at hfirst
  rw [hfirst]
  unfold textField
  split
  · rename_i hempty
    exact (List.isEmpty_iff.mp hempty).symm
  · have hread := toString_leaf name value
    simp only [Option.bind_some]
    rw [hread]
    rfl

def Tag.fields (value : Tag) : List Field :=
  [textField (bytes "Key") value.key, textField (bytes "Value") value.value]

def Tag.node (value : Tag) : Xml.Node := .element (bytes "Tag") (contents value.fields)

def TagSet.node (value : TagSet) : Xml.Node :=
  .element (bytes "TagSet") (value.tags.map Tag.node)

def Tagging.fields (value : Tagging) : List Field :=
  [(bytes "TagSet", value.tagSet.map TagSet.node)]

def Tagging.document (value : Tagging) : Xml.Node :=
  .element (bytes "Tagging") (contents value.fields)

def Tag.Representable (value : Tag) : Prop := Xml.Chars value.key ∧ Xml.Chars value.value

def Tagging.Representable (value : Tagging) : Prop :=
  forall tagSet, tagSet ∈ value.tagSet -> forall tag, tag ∈ tagSet.tags -> tag.Representable

theorem Tag.piece {value : Tag} (hvalue : value.Representable) :
    Xml.Piece (value.toXmlText (bytes "Tag")) [value.node] := by
  refine Xml.Piece.element (by decide) ?_
  unfold Tag.fields
  rw [contents_cons, contents_cons]
  have hkey := piece_textField (show Xml.isName (bytes "Key") = true by decide) hvalue.1
  have hvalue := piece_textField (show Xml.isName (bytes "Value") = true by decide) hvalue.2
  have hlast : contents [] = [] := rfl
  rw [hlast, List.append_nil]
  exact hkey.append hvalue

theorem Tag.wellNamed (value : Tag) : WellNamed value.fields := by
  constructor
  · change [bytes "Key", bytes "Value"].Nodup
    decide
  · unfold Tag.fields
    rw [List.forall_mem_cons, List.forall_mem_singleton]
    exact ⟨textField_named _ _, textField_named _ _⟩

theorem Tag.toTag_node (value : Tag) : (elementOf value.node).map toTag = some value := by
  have hkey : textField (bytes "Key") value.key ∈ value.fields := List.mem_cons_self
  have hvalue : textField (bytes "Value") value.value ∈ value.fields :=
    List.mem_cons_of_mem _ List.mem_cons_self
  unfold Tag.node
  rw [elementOf, Option.map_some]
  unfold toTag
  rw [textOf_contents value.wellNamed hkey, textOf_contents value.wellNamed hvalue]

theorem TagSet.piece {value : TagSet}
    (hvalue : forall tag, tag ∈ value.tags -> tag.Representable) :
    Xml.Piece (value.toXmlText (bytes "TagSet")) [value.node] :=
  Xml.Piece.element (by decide) (piece_flatMap fun tag htag => Tag.piece (hvalue tag htag))

theorem TagSet.toTagSet_node (value : TagSet) :
    (elementOf value.node).map toTagSet = some value := by
  unfold TagSet.node
  rw [elementOf, Option.map_some]
  have hnamed : forall tag : Tag, Named (bytes "Tag") tag.node := fun tag => ⟨_, rfl⟩
  have hchildren := children_of_name hnamed
    Tag.toTag_node wellNamed_nil List.not_mem_nil value.tags (bytes "TagSet")
    (firstText (value.tags.map Tag.node))
  unfold toTagSet
  exact congrArg (fun tags => some (TagSet.mk tags)) hchildren

theorem Tagging.wellNamed (value : Tagging) : WellNamed value.fields := by
  constructor
  · exact List.nodup_singleton _
  · unfold Tagging.fields
    rw [List.forall_mem_singleton]
    intro node hnode
    rcases Option.mem_map.mp hnode with ⟨tagSet, _, heq⟩
    exact ⟨_, heq.symm⟩

theorem Tagging.read_toXmlText {value : Tagging} (hvalue : value.Representable) :
    Xml.read (value.toXmlText (bytes "Tagging")) = some value.document := by
  refine Xml.Piece.read_enclose (by decide) ?_
  unfold Tagging.fields
  rw [contents_cons]
  have hlast : contents [] = [] := rfl
  rw [hlast, List.append_nil]
  exact piece_elim fun tagSet htagSet => TagSet.piece (hvalue tagSet htagSet)

theorem Tagging.toTagging_document (value : Tagging) :
    (elementOf value.document).map toTagging = some value := by
  have htagSet : (bytes "TagSet", value.tagSet.map TagSet.node) ∈ value.fields :=
    List.mem_cons_self
  unfold Tagging.document
  rw [elementOf, Option.map_some]
  unfold toTagging
  rw [decode_contents TagSet.toTagSet_node value.wellNamed htagSet]

/-!
# Referers
-/

/-- A list and a blacklist are written in the same way. -/
def referersNode (name : ByteString) (referers : List ByteString) : Xml.Node :=
  .element name (referers.map (leaf (bytes "Referer")))

def RefererConfiguration.fields (value : RefererConfiguration) : List Field :=
  [boolField (bytes "AllowEmptyReferer") value.allowEmptyReferer,
    boolField (bytes "AllowTruncateQueryString") value.allowTruncateQueryString,
    boolField (bytes "TruncatePath") value.truncatePath,
    (bytes "RefererList",
      value.refererList.map fun list => referersNode (bytes "RefererList") list.referers),
    (bytes "RefererBlacklist",
      value.refererBlacklist.map fun list =>
        referersNode (bytes "RefererBlacklist") list.referers)]

def RefererConfiguration.document (value : RefererConfiguration) : Xml.Node :=
  .element (bytes "RefererConfiguration") (contents value.fields)

structure RefererConfiguration.Representable (value : RefererConfiguration) : Prop where
  refererList : forall list, list ∈ value.refererList ->
    forall referer, referer ∈ list.referers -> Xml.Chars referer
  refererBlacklist : forall list, list ∈ value.refererBlacklist ->
    forall referer, referer ∈ list.referers -> Xml.Chars referer

theorem piece_referers {name : ByteString} (hname : Xml.isName name = true)
    {referers : List ByteString}
    (hreferers : forall referer, referer ∈ referers -> Xml.Chars referer) :
    Xml.Piece
      (Xml.enclose name (referers.flatMap fun it => toXmlText it (bytes "Referer")))
      [referersNode name referers] :=
  Xml.Piece.element hname
    (piece_flatMap fun referer hreferer =>
      piece_toXmlText (by decide) (hreferers referer hreferer))

theorem children_referers (referers : List ByteString) (tag : ByteString)
    (text : Option ByteString) :
    ((XMLElement.element tag text (elementsOf
      (referers.map (leaf (bytes "Referer"))))).ChildElements (bytes "Referer")).map toString =
        referers :=
  children_of_name (fun _ => ⟨_, rfl⟩) (toString_leaf (bytes "Referer")) wellNamed_nil
    List.not_mem_nil referers tag text

theorem toRefererList_node (list : RefererList) :
    (elementOf (referersNode (bytes "RefererList") list.referers)).map toRefererList =
      some list := by
  unfold referersNode
  rw [elementOf, Option.map_some]
  unfold toRefererList
  rw [children_referers]

theorem toRefererBlacklist_node (list : RefererBlacklist) :
    (elementOf (referersNode (bytes "RefererBlacklist") list.referers)).map
        toRefererBlacklist =
      some list := by
  unfold referersNode
  rw [elementOf, Option.map_some]
  unfold toRefererBlacklist
  rw [children_referers]

theorem RefererConfiguration.wellNamed (value : RefererConfiguration) :
    WellNamed value.fields := by
  constructor
  · change [bytes "AllowEmptyReferer", bytes "AllowTruncateQueryString",
      bytes "TruncatePath", bytes "RefererList", bytes "RefererBlacklist"].Nodup
    decide +kernel
  · unfold RefererConfiguration.fields
    simp only [List.forall_mem_cons]
    refine ⟨boolField_named _ _, boolField_named _ _, boolField_named _ _, ?_, ?_,
      fun _ hfield => (nomatch hfield)⟩
    · intro node hnode
      rcases Option.mem_map.mp hnode with ⟨list, _, heq⟩
      exact ⟨_, heq.symm⟩
    · intro node hnode
      rcases Option.mem_map.mp hnode with ⟨list, _, heq⟩
      exact ⟨_, heq.symm⟩

theorem RefererConfiguration.read_toXmlText {value : RefererConfiguration}
    (hvalue : value.Representable) :
    Xml.read (value.toXmlText (bytes "RefererConfiguration")) = some value.document := by
  refine Xml.Piece.read_enclose (by decide +kernel) ?_
  have hempty := piece_elim (o := value.allowEmptyReferer) fun b _ =>
    piece_toXmlTextBool (show Xml.isName (bytes "AllowEmptyReferer") = true by decide +kernel) b
  have htruncate := piece_elim (o := value.allowTruncateQueryString) fun b _ =>
    piece_toXmlTextBool (show Xml.isName (bytes "AllowTruncateQueryString") = true by decide +kernel) b
  have hpath := piece_elim (o := value.truncatePath) fun b _ =>
    piece_toXmlTextBool (show Xml.isName (bytes "TruncatePath") = true by decide +kernel) b
  have hlist := piece_elim (o := value.refererList) fun list hmem =>
    piece_referers (show Xml.isName (bytes "RefererList") = true by decide +kernel)
      (hvalue.refererList list hmem)
  have hblacklist := piece_elim (o := value.refererBlacklist) fun list hmem =>
    piece_referers (show Xml.isName (bytes "RefererBlacklist") = true by decide +kernel)
      (hvalue.refererBlacklist list hmem)
  have hpieces := (((hempty.append htruncate).append hpath).append hlist).append hblacklist
  unfold RefererConfiguration.fields
  simp only [contents_cons]
  have hlast : contents [] = [] := rfl
  rw [hlast, List.append_nil, ← List.append_assoc, ← List.append_assoc, ← List.append_assoc]
  exact hpieces

theorem RefererConfiguration.toRefererConfiguration_document (value : RefererConfiguration) :
    (elementOf value.document).map toRefererConfiguration = some value := by
  have hempty : boolField (bytes "AllowEmptyReferer") value.allowEmptyReferer ∈
      value.fields := List.mem_cons_self
  have htruncate : boolField (bytes "AllowTruncateQueryString")
      value.allowTruncateQueryString ∈ value.fields :=
    List.mem_cons_of_mem _ List.mem_cons_self
  have hpath : boolField (bytes "TruncatePath") value.truncatePath ∈ value.fields :=
    List.mem_cons_of_mem _ (List.mem_cons_of_mem _ List.mem_cons_self)
  have hlist : (bytes "RefererList", value.refererList.map fun list =>
      referersNode (bytes "RefererList") list.referers) ∈ value.fields :=
    List.mem_cons_of_mem _ (List.mem_cons_of_mem _ (List.mem_cons_of_mem _
      List.mem_cons_self))
  have hblacklist : (bytes "RefererBlacklist", value.refererBlacklist.map fun list =>
      referersNode (bytes "RefererBlacklist") list.referers) ∈ value.fields :=
    List.mem_cons_of_mem _ (List.mem_cons_of_mem _ (List.mem_cons_of_mem _
      (List.mem_cons_of_mem _ List.mem_cons_self)))
  unfold RefererConfiguration.document
  rw [elementOf, Option.map_some]
  unfold toRefererConfiguration
  rw [decode_contents (toBool_leaf _) value.wellNamed hempty,
    decode_contents (toBool_leaf _) value.wellNamed htruncate,
    decode_contents (toBool_leaf _) value.wellNamed hpath,
    decode_contents toRefererList_node value.wellNamed hlist,
    decode_contents toRefererBlacklist_node value.wellNamed hblacklist]

/-!
# Objects to delete
-/

def ObjectIdentifier.fields (value : ObjectIdentifier) : List Field :=
  [(bytes "Key", some (leaf (bytes "Key") value.key)),
    (bytes "VersionId", value.versionId.map (leaf (bytes "VersionId")))]

def ObjectIdentifier.node (value : ObjectIdentifier) : Xml.Node :=
  .element (bytes "Object") (contents value.fields)

def Delete.fields (value : Delete) : List Field := [boolField (bytes "Quiet") value.quiet]

def Delete.document (value : Delete) : Xml.Node :=
  .element (bytes "Delete") (contents value.fields ++ value.objects.map ObjectIdentifier.node)

structure ObjectIdentifier.Representable (value : ObjectIdentifier) : Prop where
  key : Xml.Chars value.key
  versionId : forall versionId, versionId ∈ value.versionId -> Xml.Chars versionId

def Delete.Representable (value : Delete) : Prop :=
  forall item, item ∈ value.objects -> item.Representable

/-- What a service reads, for a client never receives this document. -/
def toObjectIdentifier (root : XMLElement) : ObjectIdentifier where
  key := textOf root (bytes "Key")
  versionId := (root.FirstChildElement (bytes "VersionId")).map toString

def toDelete (root : XMLElement) : Delete where
  objects := (root.ChildElements (bytes "Object")).map toObjectIdentifier
  quiet := (root.FirstChildElement (bytes "Quiet")).map toBool

theorem ObjectIdentifier.piece {value : ObjectIdentifier} (hvalue : value.Representable) :
    Xml.Piece value.toXmlText [value.node] := by
  have hkey := piece_toXmlText (show Xml.isName (bytes "Key") = true by decide) hvalue.key
  have hversion := piece_elim (o := value.versionId) fun versionId hmem =>
    piece_toXmlText (show Xml.isName (bytes "VersionId") = true by decide +kernel)
      (hvalue.versionId versionId hmem)
  have hpiece := Xml.Piece.element (show Xml.isName (bytes "Object") = true by decide) (hkey.append hversion)
  have htext : value.toXmlText = Xml.enclose (bytes "Object")
      (Transform.toXmlText value.key (bytes "Key") ++
        value.versionId.elim [] fun versionId =>
          Transform.toXmlText versionId (bytes "VersionId")) := by
    unfold ObjectIdentifier.toXmlText Transform.toXmlText Xml.enclose
    cases value.versionId with
    | none =>
        simp only [Option.elim_none, List.append_assoc]
        rfl
    | some versionId =>
        simp only [Option.elim_some, List.append_assoc]
        rfl
  rw [htext]
  unfold ObjectIdentifier.node ObjectIdentifier.fields
  simp only [contents_cons]
  have hlast : contents [] = [] := rfl
  rw [hlast, List.append_nil]
  exact hpiece

theorem ObjectIdentifier.wellNamed (value : ObjectIdentifier) : WellNamed value.fields := by
  constructor
  · change [bytes "Key", bytes "VersionId"].Nodup
    decide
  · unfold ObjectIdentifier.fields
    rw [List.forall_mem_cons, List.forall_mem_singleton]
    constructor
    · intro node hnode
      cases hnode
      exact ⟨_, rfl⟩
    · intro node hnode
      rcases Option.mem_map.mp hnode with ⟨versionId, _, heq⟩
      exact ⟨_, heq.symm⟩

theorem ObjectIdentifier.toObjectIdentifier_node (value : ObjectIdentifier) :
    (elementOf value.node).map toObjectIdentifier = some value := by
  have hkey : (bytes "Key", (some value.key).map (leaf (bytes "Key"))) ∈ value.fields :=
    List.mem_cons_self
  have hversion : (bytes "VersionId", value.versionId.map (leaf (bytes "VersionId"))) ∈
      value.fields := List.mem_cons_of_mem _ List.mem_cons_self
  unfold ObjectIdentifier.node
  rw [elementOf, Option.map_some]
  unfold toObjectIdentifier textOf
  rw [decode_contents (toString_leaf _) value.wellNamed hkey,
    decode_contents (toString_leaf _) value.wellNamed hversion]
  rfl

theorem Delete.wellNamed (value : Delete) : WellNamed value.fields := by
  constructor
  · exact List.nodup_singleton _
  · unfold Delete.fields
    rw [List.forall_mem_singleton]
    exact boolField_named _ _

theorem Delete.read_toXmlText {value : Delete} (hvalue : value.Representable) :
    Xml.read (value.toXmlText (bytes "Delete")) = some value.document := by
  have hquiet := piece_elim (o := value.quiet) fun b _ =>
    piece_toXmlTextBool (show Xml.isName (bytes "Quiet") = true by decide) b
  have hobjects := piece_flatMap fun item hitem => ObjectIdentifier.piece (hvalue item hitem)
  have hread := Xml.Piece.read_enclose (show Xml.isName (bytes "Delete") = true by decide)
    (hquiet.append hobjects)
  unfold Delete.document Delete.fields
  rw [contents_cons]
  have hlast : contents [] = [] := rfl
  rw [hlast, List.append_nil]
  exact hread

theorem Delete.toDelete_document (value : Delete) :
    (elementOf value.document).map toDelete = some value := by
  have hother : bytes "Object" ∉ value.fields.map Prod.fst := by
    change bytes "Object" ∉ [bytes "Quiet"]
    decide
  have hnamed : forall item : ObjectIdentifier, Named (bytes "Object") item.node :=
    fun item => ⟨_, rfl⟩
  have hobjects := children_of_name hnamed ObjectIdentifier.toObjectIdentifier_node
    value.wellNamed hother value.objects (bytes "Delete")
    (firstText (contents value.fields ++ value.objects.map ObjectIdentifier.node))
  have hitems : forall node, node ∈ value.objects.map ObjectIdentifier.node ->
      Named (bytes "Object") node := by
    intro node hnode
    rcases List.mem_map.mp hnode with ⟨item, _, heq⟩
    rw [← heq]
    exact hnamed item
  have hquiet := first_contents value.wellNamed List.mem_cons_self hother hitems
    (bytes "Delete") (firstText (contents value.fields ++ value.objects.map ObjectIdentifier.node))
  change XMLElement.FirstChildElement _ (bytes "Quiet") = _ at hquiet
  unfold Delete.document
  rw [elementOf, Option.map_some]
  unfold toDelete
  rw [hobjects, hquiet]
  have hdecode := map_bind_elementOf (toBool_leaf (bytes "Quiet")) value.quiet
  exact congrArg (fun quiet => some (Delete.mk value.objects quiet)) hdecode

/-!
# Round trips
-/

/-- A text is read as the document, and what is decoded from that is the value. -/
def ReadsBack {α : Type} (text : ByteString) (document : Xml.Node)
    (decode : XMLElement -> α) (value : α) : Prop :=
  Xml.read text = some document ∧ (elementOf document).map decode = some value

/--
What is written for a value is a document with the value's own strings as its texts, and
the value is read back from it, whatever its strings are.
-/
theorem documents_round_trip :
    (forall value : Delete, value.Representable ->
      ReadsBack (value.toXmlText (bytes "Delete")) value.document toDelete value) ∧
    (forall value : Tagging, value.Representable ->
      ReadsBack (value.toXmlText (bytes "Tagging")) value.document toTagging value) ∧
    (forall value : RefererConfiguration, value.Representable ->
      ReadsBack (value.toXmlText (bytes "RefererConfiguration")) value.document
        toRefererConfiguration value) := by
  refine ⟨?_, ?_, ?_⟩
  · intro value hvalue
    exact ⟨Delete.read_toXmlText hvalue, value.toDelete_document⟩
  · intro value hvalue
    exact ⟨Tagging.read_toXmlText hvalue, value.toTagging_document⟩
  · intro value hvalue
    exact ⟨RefererConfiguration.read_toXmlText hvalue,
      value.toRefererConfiguration_document⟩

def deletesMarkup : Delete :=
  ⟨[⟨bytes "</Key></Object>]]>\r&amp;", some []⟩], some true⟩

def tagsMarkup : Tagging := ⟨some ⟨[⟨bytes "<Key>", bytes "\r\n"⟩, ⟨[], []⟩]⟩⟩

def refersMarkup : RefererConfiguration :=
  ⟨some false, none, none, some ⟨[bytes "\"*'.example.com"]⟩, some ⟨[]⟩⟩

/-- An object whose name would end its element, and begin another one. -/
theorem documents_round_trip_markup :
    ReadsBack (deletesMarkup.toXmlText (bytes "Delete"))
      (.element (bytes "Delete") [.element (bytes "Quiet") [.text (bytes "true")],
        .element (bytes "Object")
          [.element (bytes "Key") [.text (bytes "</Key></Object>]]>\r&amp;")],
            .element (bytes "VersionId") []]])
      toDelete deletesMarkup ∧
    ReadsBack (tagsMarkup.toXmlText (bytes "Tagging")) tagsMarkup.document toTagging
      tagsMarkup ∧
    ReadsBack (refersMarkup.toXmlText (bytes "RefererConfiguration")) refersMarkup.document
      toRefererConfiguration refersMarkup := by
  refine ⟨documents_round_trip.1 deletesMarkup ?_, documents_round_trip.2.1 tagsMarkup ?_,
    documents_round_trip.2.2 refersMarkup ?_⟩
  · intro item hitem
    rw [List.mem_singleton.mp hitem]
    refine ⟨utf8Of_ascii (by decide +kernel), ?_⟩
    intro versionId hversion
    cases hversion
    exact Utf8Of.nil _
  · intro tagSet htagSet tag htag
    cases htagSet
    simp only [List.mem_cons, List.not_mem_nil, or_false] at htag
    rcases htag with heq | heq
    · rw [heq]
      exact ⟨utf8Of_ascii (by decide +kernel), utf8Of_ascii (by decide +kernel)⟩
    · rw [heq]
      exact ⟨Utf8Of.nil _, Utf8Of.nil _⟩
  · constructor
    · intro list hlist referer hreferer
      cases hlist
      rw [List.mem_singleton.mp hreferer]
      exact utf8Of_ascii (by decide +kernel)
    · intro list hlist referer hreferer
      cases hlist
      cases hreferer

end Transform
end OssSdk
