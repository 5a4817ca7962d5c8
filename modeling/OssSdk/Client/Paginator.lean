import OssSdk.Client.ListOperations
import OssSdk.Foundation.Paging
import OssSdk.Internal.ReportedBody
import OssSdk.Internal.SentRequest

/-!
# Paginators

A paginator calls an operation again and again.  The markers of a result that is
truncated go into the next request, and all other fields stay.
-/

namespace OssSdk
namespace Client

open Foundation
open Internal
open Sync
open Transform
open Utils

variable {σ : Type} {ResultT : Type}

structure Paginator (σ ResultT : Type) where
  callable : ListRequest -> Option (OperationOptions σ) -> Runtime σ ->
    Except OperationError ResultT × Runtime σ
  request : ListRequest
  options : OperationOptions σ
  first : Bool
  done : Bool

namespace Paginator

def hasNext (p : Paginator σ ResultT) : Bool := p.first || !p.done

/-- An error ends the pages, and leaves the request as it is. -/
def nextPage (traits : PaginatorTraits ResultT) (p : Paginator σ ResultT)
    (w : Runtime σ) :
    Except OperationError ResultT × Paginator σ ResultT × Runtime σ :=
  match p.callable p.request (some p.options) w with
  | (.ok result, w) =>
      if traits.isTruncated result then
        (.ok result,
          { p with first := false, request := traits.setNextToken p.request result }, w)
      else (.ok result, { p with first := false, done := true }, w)
  | (.error e, w) => (.error e, { p with first := false, done := true }, w)

end Paginator

def makePaginator (c : OSSClient σ) (op : ListOperation) (request : ListRequest)
    (options : OperationOptions σ) : Paginator σ (ListResult op.Body) where
  callable := op.method c
  request := request
  options := options
  first := true
  done := false

/-- `while (paginator.hasNext()) paginator.nextPage();`, for at most `fuel` turns. -/
def allPages (c : OSSClient σ) (op : ListOperation) (request : ListRequest)
    (options : OperationOptions σ) (fuel : Nat) (w : Runtime σ) :
    List (Except OperationError (ListResult op.Body)) ×
      Paginator σ (ListResult op.Body) × Runtime σ :=
  readWhile (fun s => s.1.hasNext) (fun s => s.1.nextPage op.traits s.2) fuel
    (makePaginator c op request options, w)

section nextPage

variable {traits : PaginatorTraits ResultT} {p : Paginator σ ResultT} {w : Runtime σ}

theorem nextPage_outcome :
    (p.nextPage traits w).1 = (p.callable p.request (some p.options) w).1 := by
  unfold Paginator.nextPage
  split
  · rename_i hcall
    rw [hcall]
    split
    · rfl
    · rfl
  · rename_i hcall
    rw [hcall]

/-- A failed call leaves the request, and there is no more. -/
theorem nextPage_error {e : OperationError} (hfailed : (p.nextPage traits w).1 = .error e) :
    (p.nextPage traits w).2.1.request = p.request ∧
      (p.nextPage traits w).2.1.hasNext = false := by
  rw [nextPage_outcome] at hfailed
  unfold Paginator.nextPage
  split
  · rename_i hcall
    rw [hcall] at hfailed
    cases hfailed
  · exact ⟨rfl, rfl⟩

theorem nextPage_last {result : ResultT} (hok : (p.nextPage traits w).1 = .ok result)
    (hlast : traits.isTruncated result = false) :
    (p.nextPage traits w).2.1.hasNext = false := by
  rw [nextPage_outcome] at hok
  unfold Paginator.nextPage
  split
  · rename_i hcall
    rw [hcall] at hok
    cases hok
    rw [hlast, if_neg Bool.false_ne_true]
    rfl
  · rfl

theorem nextPage_truncated {result : ResultT}
    (hok : (p.nextPage traits w).1 = .ok result)
    (htruncated : traits.isTruncated result = true) :
    (p.nextPage traits w).2.1 =
      { p with first := false, request := traits.setNextToken p.request result } := by
  rw [nextPage_outcome] at hok
  unfold Paginator.nextPage
  split
  · rename_i hcall
    rw [hcall] at hok
    cases hok
    rw [htruncated, if_pos rfl]
  · rename_i hcall
    rw [hcall] at hok
    cases hok

end nextPage

/-!
# The fields of a request
-/

namespace ListOperation

def isMarker (op : ListOperation) (name : ByteString) : Bool :=
  op.markers.any (·.parameter == name)

/-- Nothing but the markers differs. -/
structure SameFields (op : ListOperation) (request other : ListRequest) : Prop where
  headers : other.headers = request.headers
  bucket : other.bucket = request.bucket
  key : other.key = request.key
  parameters : forall name, op.isMarker name = false ->
    other.parameters.find? name = request.parameters.find? name

theorem SameFields.refl (op : ListOperation) (request : ListRequest) :
    op.SameFields request request :=
  ⟨rfl, rfl, rfl, fun _ _ => rfl⟩

theorem markers_nodup (op : ListOperation) : (op.markers.map (·.parameter)).Nodup := by
  cases op with
  | ListBuckets => decide
  | ListObjects => decide
  | ListObjectsV2 => decide
  | ListObjectVersions => decide
  | ListMultipartUploads => decide
  | ListParts => decide

theorem marker_ne_nil {op : ListOperation} {marker : Marker} (hmem : marker ∈ op.markers) :
    marker.parameter ≠ [] := by
  have hall : op.markers.all (fun marker => !marker.parameter.isEmpty) = true := by
    cases op with
    | ListBuckets => decide
    | ListObjects => decide
    | ListObjectsV2 => decide
    | ListObjectVersions => decide
    | ListMultipartUploads => decide
    | ListParts => decide
  intro hnil
  have hne := List.all_eq_true.mp hall marker hmem
  rw [hnil] at hne
  cases hne

/-- What becomes of the parameters of a request when the markers are set. -/
theorem find?_setNextToken (op : ListOperation) (request : ListRequest)
    (statusCode : Int) (headers : HeaderCollection) (root : XMLElement)
    (name : ByteString) :
    (op.traits.setNextToken request
        ⟨statusCode, headers, op.toBody root⟩).parameters.find? name =
      ((op.markers.map fun marker => (marker.parameter, readMarker root marker)).lookup
        name).or (request.parameters.find? name) := by
  rw [setNextToken_eq]
  refine find?_assignAll ?_ _ _
  rw [List.map_map]
  exact op.markers_nodup

/-- Whatever the result, only markers are set. -/
theorem setNextToken_sets (op : ListOperation) (request : ListRequest)
    (result : ListResult op.Body) :
    exists values, op.traits.setNextToken request result =
      { request with
        parameters :=
          assignAll request.parameters ((op.markers.map (·.parameter)).zip values) } := by
  cases op with
  | ListBuckets => exact ⟨[_], rfl⟩
  | ListObjects => exact ⟨[_], rfl⟩
  | ListObjectsV2 => exact ⟨[_], rfl⟩
  | ListObjectVersions => exact ⟨[_, _], rfl⟩
  | ListMultipartUploads => exact ⟨[_, _], rfl⟩
  | ListParts => exact ⟨[_], rfl⟩

theorem find?_assignAll_other {parameters : ParameterCollection}
    {added : List (ByteString × ByteString)} {name : ByteString}
    (hname : name ∉ added.map Prod.fst) :
    (assignAll parameters added).find? name = parameters.find? name := by
  induction added generalizing parameters with
  | nil => rfl
  | cons parameter rest ih =>
      rw [List.map_cons, List.mem_cons, not_or] at hname
      rw [assignAll, List.foldl_cons]
      refine (ih hname.2).trans ?_
      rw [SortedMap.find?_insertOrAssign,
        if_neg (mt (equivalent_caseSensitive _ _).mp (Ne.symm hname.1))]

theorem SameFields.setNextToken {op : ListOperation} {request other : ListRequest}
    (hsame : op.SameFields request other) (result : ListResult op.Body) :
    op.SameFields request (op.traits.setNextToken other result) := by
  rcases setNextToken_sets op other result with ⟨values, hsets⟩
  rw [hsets]
  refine ⟨hsame.headers, hsame.bucket, hsame.key, fun name hname => ?_⟩
  have hother : name ∉ ((op.markers.map (·.parameter)).zip values).map Prod.fst := by
    intro hmem
    rcases List.mem_map.mp hmem with ⟨parameter, hparameter, heq⟩
    have hmarker := (List.of_mem_zip hparameter).1
    rw [heq] at hmarker
    rcases List.mem_map.mp hmarker with ⟨marker, hin, hsameName⟩
    have hnot := List.any_eq_false.mp hname marker hin
    rw [hsameName, beq_self_eq_true] at hnot
    exact hnot rfl
  exact (find?_assignAll_other hother).trans (hsame.parameters name hname)

/-- The markers that a request has, in their order. -/
def asked (op : ListOperation) (parameters : ByteString -> Option ByteString) :
    List (Option ByteString) :=
  op.markers.map fun marker => parameters marker.parameter

theorem lookup_marker {markers : List Marker}
    (hnodup : (markers.map (·.parameter)).Nodup) (value : Marker -> ByteString)
    {marker : Marker} (hmem : marker ∈ markers) :
    (markers.map fun marker => (marker.parameter, value marker)).lookup
      marker.parameter = some (value marker) := by
  induction markers with
  | nil => cases hmem
  | cons head rest ih =>
      rw [List.map_cons, List.nodup_cons] at hnodup
      rw [List.map_cons, List.lookup_cons]
      rcases List.mem_cons.mp hmem with heq | hrest
      · rw [heq, beq_self_eq_true]
      · have hother : (marker.parameter == head.parameter) = false := by
          rw [beq_eq_false_iff_ne]
          exact fun heq => hnodup.1 (heq ▸ List.mem_map_of_mem hrest)
        rw [hother]
        exact ih hnodup.2 hrest

theorem asked_setNextToken (op : ListOperation) (request : ListRequest)
    (statusCode : Int) (headers : HeaderCollection) (root : XMLElement) :
    op.asked (op.traits.setNextToken request
        ⟨statusCode, headers, op.toBody root⟩).parameters.find? =
      op.markers.map fun marker => some (readMarker root marker) := by
  refine List.map_congr_left fun marker hmem => ?_
  rw [find?_setNextToken, lookup_marker op.markers_nodup _ hmem]
  rfl

/-- The operation adds defaults to the parameters, and no marker is among them. -/
theorem input_parameters (op : ListOperation) :
    exists defaults : ParameterCollection,
      (forall marker, marker ∈ op.markers -> defaults.find? marker.parameter = none) ∧
        forall (request : ListRequest) (name : ByteString),
          (op.input request : OperationInput σ).parameters.find? name =
            (request.parameters.find? name).or (defaults.find? name) := by
  have hfrom : forall (opName : ByteString) (defaults : List (ByteString × ByteString))
      (bucket key : Option ByteString) (request : ListRequest) (name : ByteString),
      (fromListing opName defaults bucket key request :
        OperationInput σ).parameters.find? name =
          (request.parameters.find? name).or
            ((SortedMap.ofList defaults : ParameterCollection).find? name) := by
    intro opName defaults bucket key request name
    exact SortedMap.find?_foldl_insertOrAssign
      (request.parameters.sorted.imp fun hless => SortedMap.not_equivalent_of_less hless)
      _ name
  cases op with
  | ListBuckets => exact ⟨_, by decide, fun request => hfrom _ _ _ _ request⟩
  | ListObjects => exact ⟨_, by decide, fun request => hfrom _ _ _ _ request⟩
  | ListObjectsV2 => exact ⟨_, by decide, fun request => hfrom _ _ _ _ request⟩
  | ListObjectVersions => exact ⟨_, by decide, fun request => hfrom _ _ _ _ request⟩
  | ListMultipartUploads => exact ⟨_, by decide, fun request => hfrom _ _ _ _ request⟩
  | ListParts => exact ⟨_, by decide, fun request => hfrom _ _ _ _ request⟩

theorem input_method (op : ListOperation) (request : ListRequest) :
    (op.input request : OperationInput σ).method = bytes "GET" := by
  cases op with
  | ListBuckets => rfl
  | ListObjects => rfl
  | ListObjectsV2 => rfl
  | ListObjectVersions => rfl
  | ListMultipartUploads => rfl
  | ListParts => rfl

end ListOperation

end Client
end OssSdk
