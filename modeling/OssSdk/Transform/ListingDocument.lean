import OssSdk.Transform.SerdeListing
import OssSdk.Utils.PercentEncoding
import Mathlib.Data.List.Forall2

/-!
# The documents that a service writes

A page of a listing is a document.  Names in it may be percent-encoded, all other texts
are as they are.  What is read from a document is what the service wrote into it.
-/

namespace OssSdk
namespace Transform

open Foundation
open Utils

/-!
# Fields
-/

/-- Names are encoded when that is asked for. -/
def WritesName (url : Bool) (name text : ByteString) : Prop :=
  if url then PercentEncoded name text else text = name

/-- An element that is missing says the same as one without a text. -/
def SaysText (root : XMLElement) (field value : ByteString) : Prop :=
  match root.FirstChildElement field with
  | some node => node.GetText.getD [] = value
  | none => value = []

def SaysName (url : Bool) (root : XMLElement) (field name : ByteString) : Prop :=
  exists text, SaysText root field text ∧ WritesName url name text

def SaysOptional (root : XMLElement) (field : ByteString) (value : Option ByteString) :
    Prop :=
  match root.FirstChildElement field with
  | some node => value = some (node.GetText.getD [])
  | none => value = none

def SaysNumber (root : XMLElement) (field : ByteString) (value : Int) : Prop :=
  match root.FirstChildElement field with
  | some node =>
      exists n : Nat, n < 2 ^ 63 ∧ value = n ∧ node.GetText = some (toDecimal n)
  | none => value = 0

def SaysFlag (root : XMLElement) (field : ByteString) (value : Option Bool) : Prop :=
  match root.FirstChildElement field with
  | some node =>
      exists flag, value = some flag ∧
        node.GetText = some (if flag then bytes "true" else bytes "false")
  | none => value = none

def SaysOwner (root : XMLElement) (owner : Option Owner) : Prop :=
  match root.FirstChildElement (bytes "Owner") with
  | some node =>
      exists o, owner = some o ∧ SaysOptional node (bytes "ID") o.id ∧
        SaysOptional node (bytes "DisplayName") o.displayName
  | none => owner = none

/-- What the name of a bucket is made of. -/
def isPlainName (name : ByteString) : Bool := name.all fun c => isAlnum c || c == 45

theorem textOf_eq {root : XMLElement} {field value : ByteString}
    (hstated : SaysText root field value) : textOf root field = value := by
  unfold SaysText at hstated
  unfold textOf
  cases hfirst : root.FirstChildElement field with
  | none =>
      rw [hfirst] at hstated
      exact hstated.symm
  | some node =>
      rw [hfirst] at hstated
      exact hstated

theorem decoded_eq {url : Bool} {name text : ByteString}
    (hwrites : WritesName url name text) : decoded url text = name := by
  unfold WritesName at hwrites
  unfold decoded
  cases url with
  | false => exact hwrites
  | true => exact PercentEncoded.UrlDecode_eq hwrites

theorem decoded_textOf {url : Bool} {root : XMLElement} {field name : ByteString}
    (hstated : SaysName url root field name) : decoded url (textOf root field) = name := by
  rcases hstated with ⟨text, htext, hwrites⟩
  rw [textOf_eq htext]
  exact decoded_eq hwrites

/-- A name that is decoded as it is read is decoded once. -/
theorem nameOf_decoded (url : Bool) (root : XMLElement) (field : ByteString) :
    nameOf url root field = decoded url (textOf root field) := by
  have hnil : decoded url [] = [] := by
    cases url with
    | false => rfl
    | true => rfl
  unfold nameOf textOf
  cases root.FirstChildElement field with
  | none => exact hnil.symm
  | some node =>
      change toStringDecoded node url = decoded url (toString node)
      unfold toStringDecoded toString
      cases node.GetText with
      | none => exact hnil.symm
      | some value => rfl

theorem plainName_text {url : Bool} {name text : ByteString}
    (hwrites : WritesName url name text) (hplain : isPlainName name = true) :
    text = name := by
  unfold WritesName at hwrites
  cases url with
  | false => exact hwrites
  | true => exact PercentEncoded.eq_self hwrites hplain

theorem textOf_plainName {url : Bool} {root : XMLElement} {field name : ByteString}
    (hstated : SaysName url root field name) (hplain : isPlainName name = true) :
    textOf root field = name := by
  rcases hstated with ⟨text, htext, hwrites⟩
  rw [textOf_eq htext]
  exact plainName_text hwrites hplain

theorem optional_eq {root : XMLElement} {field : ByteString} {value : Option ByteString}
    (hstated : SaysOptional root field value) :
    (root.FirstChildElement field).map toString = value := by
  unfold SaysOptional at hstated
  cases hfirst : root.FirstChildElement field with
  | none =>
      rw [hfirst] at hstated
      exact hstated.symm
  | some node =>
      rw [hfirst] at hstated
      exact hstated.symm

theorem toInt64_eq {node : XMLElement} {n : Nat} (hn : n < 2 ^ 63)
    (htext : node.GetText = some (toDecimal n)) : toInt64 node = n := by
  unfold toInt64
  rw [htext, Option.bind_some, ToInt64_toDecimal hn]
  rfl

theorem numberOf_eq {root : XMLElement} {field : ByteString} {value : Int}
    (hstated : SaysNumber root field value) : numberOf root field = value := by
  unfold SaysNumber at hstated
  unfold numberOf
  cases hfirst : root.FirstChildElement field with
  | none =>
      rw [hfirst] at hstated
      exact hstated.symm
  | some node =>
      rw [hfirst] at hstated
      rcases hstated with ⟨n, hn, hvalue, htext⟩
      rw [hvalue]
      exact toInt64_eq hn htext

theorem flag_eq {root : XMLElement} {field : ByteString} {value : Option Bool}
    (hstated : SaysFlag root field value) :
    (root.FirstChildElement field).map toBool = value := by
  unfold SaysFlag at hstated
  cases hfirst : root.FirstChildElement field with
  | none =>
      rw [hfirst] at hstated
      exact hstated.symm
  | some node =>
      rw [hfirst] at hstated
      rcases hstated with ⟨flag, hvalue, htext⟩
      rw [hvalue, Option.map_some]
      unfold toBool
      rw [htext]
      cases flag with
      | false => rfl
      | true => rfl

theorem owner_eq {root : XMLElement} {owner : Option Owner}
    (hstated : SaysOwner root owner) :
    (root.FirstChildElement (bytes "Owner")).map toOwner = owner := by
  unfold SaysOwner at hstated
  cases hfirst : root.FirstChildElement (bytes "Owner") with
  | none =>
      rw [hfirst] at hstated
      exact hstated.symm
  | some node =>
      rw [hfirst] at hstated
      rcases hstated with ⟨o, howner, hid, hname⟩
      rw [howner, Option.map_some]
      unfold toOwner
      rw [optional_eq hid, optional_eq hname]

/-!
# Entries
-/

inductive EntryKind where
  | bucket
  | object
  | version
  | deleteMarker
  | upload
  | part
  | commonPrefix
deriving DecidableEq

/-- What a listing lists. -/
inductive Entry where
  | bucket (summary : BucketSummary)
  | object (summary : ObjectSummary)
  | version (version : ObjectVersion)
  | deleteMarker (entry : DeleteMarkerEntry)
  | upload (upload : Upload)
  | part (part : Part)
  | commonPrefix (item : CommonPrefix)
deriving DecidableEq

def Entry.kind : Entry -> EntryKind
  | .bucket _ => .bucket
  | .object _ => .object
  | .version _ => .version
  | .deleteMarker _ => .deleteMarker
  | .upload _ => .upload
  | .part _ => .part
  | .commonPrefix _ => .commonPrefix

/-- Where the entries of one kind are in a page. -/
def EntryKind.elements (root : XMLElement) : EntryKind -> List XMLElement
  | .bucket =>
      match root.FirstChildElement (bytes "Buckets") with
      | some node => node.ChildElements (bytes "Bucket")
      | none => []
  | .object => root.ChildElements (bytes "Contents")
  | .version => root.ChildElements (bytes "Version")
  | .deleteMarker => root.ChildElements (bytes "DeleteMarker")
  | .upload => root.ChildElements (bytes "Upload")
  | .part => root.ChildElements (bytes "Part")
  | .commonPrefix => root.ChildElements (bytes "CommonPrefixes")

/-- An element that shows this entry. -/
def ShowsEntry (url : Bool) (node : XMLElement) : Entry -> Prop
  | .bucket summary =>
      SaysName url node (bytes "Name") summary.name ∧ isPlainName summary.name = true ∧
        SaysText node (bytes "StorageClass") summary.storageClass ∧
        SaysText node (bytes "Region") summary.region ∧
        SaysText node (bytes "CreationDate") summary.creationDate ∧
        SaysText node (bytes "ExtranetEndpoint") summary.extranetEndpoint ∧
        SaysText node (bytes "IntranetEndpoint") summary.intranetEndpoint ∧
        SaysText node (bytes "Location") summary.location
  | .object summary =>
      SaysName url node (bytes "Key") summary.key ∧
        SaysText node (bytes "LastModified") summary.lastModified ∧
        SaysNumber node (bytes "Size") summary.size ∧
        SaysText node (bytes "StorageClass") summary.storageClass ∧
        SaysOwner node summary.owner ∧
        SaysOptional node (bytes "RestoreInfo") summary.restoreInfo ∧
        SaysOptional node (bytes "TransitionTime") summary.transitionTime ∧
        SaysText node (bytes "ETag") summary.eTag ∧
        SaysText node (bytes "Type") summary.type
  | .version version =>
      SaysName url node (bytes "Key") version.key ∧
        SaysText node (bytes "VersionId") version.versionId ∧
        SaysFlag node (bytes "IsLatest") version.isLatest ∧
        SaysText node (bytes "LastModified") version.lastModified ∧
        SaysText node (bytes "ETag") version.eTag ∧
        SaysNumber node (bytes "Size") version.size ∧
        SaysText node (bytes "StorageClass") version.storageClass ∧
        SaysOwner node version.owner ∧
        SaysText node (bytes "RestoreInfo") version.restoreInfo
  | .deleteMarker entry =>
      SaysName url node (bytes "Key") entry.key ∧
        SaysText node (bytes "VersionId") entry.versionId ∧
        SaysFlag node (bytes "IsLatest") entry.isLatest ∧
        SaysText node (bytes "LastModified") entry.lastModified ∧
        SaysOwner node entry.owner
  | .upload upload =>
      SaysName url node (bytes "Key") upload.key ∧
        SaysText node (bytes "UploadId") upload.uploadId ∧
        SaysText node (bytes "Initiated") upload.initiated
  | .part part =>
      SaysText node (bytes "ETag") part.eTag ∧
        SaysNumber node (bytes "PartNumber") part.partNumber ∧
        SaysNumber node (bytes "Size") part.size ∧
        SaysText node (bytes "LastModified") part.lastModified
  | .commonPrefix item => SaysName url node (bytes "Prefix") item.name

/-- The entry that a result makes of an element. -/
def toEntry (url : Bool) (node : XMLElement) : EntryKind -> Entry
  | .bucket => .bucket (toBucket node)
  | .object =>
      let item := toObjectSummary node
      .object { item with key := decoded url item.key }
  | .version =>
      let item := toObjectVersion node
      .version { item with key := decoded url item.key }
  | .deleteMarker =>
      let item := toDeleteMarkerEntry node
      .deleteMarker { item with key := decoded url item.key }
  | .upload =>
      let item := toUpload node
      .upload { item with key := decoded url item.key }
  | .part => .part (toPart node)
  | .commonPrefix =>
      let item := toCommonPrefix node
      .commonPrefix { item with name := decoded url item.name }

/-- Each entry is read as it is shown. -/
theorem toEntry_eq {url : Bool} {node : XMLElement} {entry : Entry}
    (hshows : ShowsEntry url node entry) : toEntry url node entry.kind = entry := by
  cases entry with
  | bucket summary =>
      rcases hshows with ⟨hname, hplain, hclass, hregion, hdate, hextra, hintra, hplace⟩
      simp only [Entry.kind, toEntry, toBucket, textOf_plainName hname hplain,
        textOf_eq hclass, textOf_eq hregion, textOf_eq hdate, textOf_eq hextra,
        textOf_eq hintra, textOf_eq hplace]
  | object summary =>
      rcases hshows with ⟨hkey, hmodified, hsize, hclass, howner, hrestore, htime, htag,
        htype⟩
      simp only [Entry.kind, toEntry, toObjectSummary, decoded_textOf hkey,
        textOf_eq hmodified, numberOf_eq hsize, textOf_eq hclass, owner_eq howner,
        optional_eq hrestore, optional_eq htime, textOf_eq htag, textOf_eq htype]
  | version version =>
      rcases hshows with ⟨hkey, hid, hlatest, hmodified, htag, hsize, hclass, howner,
        hrestore⟩
      simp only [Entry.kind, toEntry, toObjectVersion, decoded_textOf hkey,
        textOf_eq hid, flag_eq hlatest, textOf_eq hmodified, textOf_eq htag,
        numberOf_eq hsize, textOf_eq hclass, owner_eq howner, textOf_eq hrestore]
  | deleteMarker entry =>
      rcases hshows with ⟨hkey, hid, hlatest, hmodified, howner⟩
      simp only [Entry.kind, toEntry, toDeleteMarkerEntry, decoded_textOf hkey,
        textOf_eq hid, flag_eq hlatest, textOf_eq hmodified, owner_eq howner]
  | upload upload =>
      rcases hshows with ⟨hkey, hid, hinitiated⟩
      simp only [Entry.kind, toEntry, toUpload, decoded_textOf hkey, textOf_eq hid,
        textOf_eq hinitiated]
  | part part =>
      rcases hshows with ⟨htag, hnumber, hsize, hmodified⟩
      simp only [Entry.kind, toEntry, toPart, textOf_eq htag, numberOf_eq hnumber,
        numberOf_eq hsize, textOf_eq hmodified]
  | commonPrefix item =>
      simp only [Entry.kind, toEntry, toCommonPrefix, decoded_textOf hshows]

/-- The entries of one kind are read in their order. -/
theorem map_toEntry {url : Bool} {kind : EntryKind} {nodes : List XMLElement}
    {entries : List Entry} (hshows : List.Forall₂ (ShowsEntry url) nodes entries)
    (hkind : forall entry, entry ∈ entries -> entry.kind = kind) :
    nodes.map (fun node => toEntry url node kind) = entries := by
  induction hshows with
  | nil => rfl
  | cons hshow _ ih =>
      have hfirst := hkind _ List.mem_cons_self
      rw [List.map_cons, ih fun entry hmem => hkind entry (List.mem_cons_of_mem _ hmem),
        ← hfirst, toEntry_eq hshow]

/-!
# Markers
-/

inductive MarkerKind where
  | bucketName
  | name
  | id
  | number
deriving DecidableEq

/-- A parameter that tells where to go on, and the element that has its next value. -/
structure Marker where
  parameter : ByteString
  element : ByteString
  kind : MarkerKind

/-- The element has this as the value that the parameter is to have. -/
def ShowsMarker (url : Bool) (root : XMLElement) (marker : Marker) (value : ByteString) :
    Prop :=
  match marker.kind with
  | .bucketName => SaysName url root marker.element value ∧ isPlainName value = true
  | .name => SaysName url root marker.element value
  | .id => SaysText root marker.element value
  | .number =>
      exists (n : Nat) (node : XMLElement), n < 2 ^ 63 ∧ value = toDecimal n ∧
        root.FirstChildElement marker.element = some node ∧
        node.GetText = some (toDecimal n)

/-- The value that the result has for a parameter. -/
def readMarker (root : XMLElement) (marker : Marker) : ByteString :=
  match marker.kind with
  | .bucketName => textOf root marker.element
  | .name => nameOf (doDecode root) root marker.element
  | .id => textOf root marker.element
  | .number =>
      toDecimalInt (((root.FirstChildElement marker.element).map toInt64).getD (-1))

theorem readMarker_eq {root : XMLElement} {marker : Marker} {value : ByteString}
    (hshows : ShowsMarker (doDecode root) root marker value) :
    readMarker root marker = value := by
  unfold ShowsMarker at hshows
  unfold readMarker
  cases hkind : marker.kind with
  | bucketName =>
      rw [hkind] at hshows
      exact textOf_plainName hshows.1 hshows.2
  | name =>
      rw [hkind] at hshows
      exact (nameOf_decoded _ root _).trans (decoded_textOf hshows)
  | id =>
      rw [hkind] at hshows
      exact textOf_eq hshows
  | number =>
      rw [hkind] at hshows
      rcases hshows with ⟨n, node, hn, hvalue, hfirst, htext⟩
      simp only [hfirst, Option.map_some, Option.getD_some]
      rw [toInt64_eq hn htext, hvalue]
      rfl

theorem map_readMarker {root : XMLElement} {markers : List Marker}
    {values : List ByteString}
    (hshows : List.Forall₂ (ShowsMarker (doDecode root) root) markers values) :
    markers.map (readMarker root) = values := by
  induction hshows with
  | nil => rfl
  | cons hshow _ ih => rw [List.map_cons, readMarker_eq hshow, ih]

/-!
# Pages
-/

/-- A page of a listing, of which the kinds that `lists` tells are shown. -/
structure ShowsPage (lists : EntryKind -> Bool) (url : Bool) (root : XMLElement)
    (truncated : Bool) (entries : List Entry) : Prop where
  encodingType : exists encodingType, SaysText root (bytes "EncodingType") encodingType ∧
    (encodingType = bytes "url" ↔ url = true)
  isTruncated : exists flag, SaysFlag root (bytes "IsTruncated") flag ∧
    flag.getD false = truncated
  entries : forall kind, lists kind = true ->
    List.Forall₂ (ShowsEntry url) (kind.elements root)
      (entries.filter (·.kind == kind))

section ShowsPage

variable {lists : EntryKind -> Bool} {url truncated : Bool} {root : XMLElement}
variable {entries : List Entry}

theorem ShowsPage.doDecode_eq (hshows : ShowsPage lists url root truncated entries) :
    doDecode root = url := by
  rcases hshows.encodingType with ⟨encodingType, hstated, hurl⟩
  unfold doDecode
  rw [textOf_eq hstated, Bool.eq_iff_iff, beq_iff_eq]
  exact hurl

theorem ShowsPage.isTruncated_eq (hshows : ShowsPage lists url root truncated entries) :
    ((root.FirstChildElement (bytes "IsTruncated")).map toBool).getD false =
      truncated := by
  rcases hshows.isTruncated with ⟨flag, hstated, hflag⟩
  rw [flag_eq hstated, hflag]

/-- The entries of a kind, as a result reads them. -/
theorem ShowsPage.read (hshows : ShowsPage lists url root truncated entries)
    {kind : EntryKind} (hlists : lists kind = true) :
    (kind.elements root).map (fun node => toEntry (doDecode root) node kind) =
      entries.filter (·.kind == kind) := by
  rw [hshows.doDecode_eq]
  refine map_toEntry (hshows.entries kind hlists) fun entry hmem => ?_
  exact beq_iff_eq.mp (List.mem_filter.mp hmem).2

end ShowsPage

end Transform
end OssSdk
