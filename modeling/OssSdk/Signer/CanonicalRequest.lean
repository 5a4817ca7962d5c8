import OssSdk.Signer.SignerV4

/-!
# What a header does to a canonical request

A header that is canonicalised is one line of the canonical request, which stands at
the place that its name has among the others.
-/

namespace OssSdk
namespace Signer
namespace V4

open Foundation
open Utils

theorem flatMap_filterMap_cons {α β γ : Type} (f : α -> Option β) (g : β -> List γ)
    (before after : List α) (a : α) :
    ((before ++ a :: after).filterMap f).flatMap g =
      (before.filterMap f).flatMap g ++ (f a).toList.flatMap g ++
        (after.filterMap f).flatMap g := by
  rw [List.filterMap_append, List.filterMap_cons, List.flatMap_append]
  cases f a with
  | none => simp
  | some b => simp

/-- The line of a header, if it has one. -/
def lineOf (set : HeaderSet) (header : ByteString × ByteString) : ByteString :=
  (canonicalHeader set header).toList.flatMap headerLine

theorem canonicalHeader_some {set : HeaderSet} {header line : ByteString × ByteString}
    (hline : canonicalHeader set header = some line) :
    line = (ToLower header.1, Trim header.2) ∧ Trim header.2 ≠ [] := by
  unfold canonicalHeader at hline
  simp only at hline
  split at hline
  · cases hline
  · rename_i hvalue
    have hne : Trim header.2 ≠ [] := fun hnil => hvalue (List.isEmpty_iff.mpr hnil)
    split at hline
    · exact ⟨(Option.some.inj hline).symm, hne⟩
    · split at hline
      · exact ⟨(Option.some.inj hline).symm, hne⟩
      · cases hline

theorem nul_not_mem_StringJoin {delimiter : ByteString} (hdelimiter : 0 ∉ delimiter)
    {elements : List ByteString}
    (helements : forall element, element ∈ elements -> 0 ∉ element) :
    0 ∉ StringJoin delimiter elements := by
  induction elements with
  | nil => exact List.not_mem_nil
  | cons element rest ih =>
      have hfirst := helements element List.mem_cons_self
      have hrest := ih fun e he => helements e (List.mem_cons_of_mem _ he)
      cases rest with
      | nil => exact hfirst
      | cons next rest' =>
          have hjoin : StringJoin delimiter (element :: next :: rest') =
            element ++ delimiter ++ StringJoin delimiter (next :: rest') := rfl
          rw [hjoin]
          simp only [List.mem_append, not_or]
          exact ⟨⟨hfirst, hdelimiter⟩, hrest⟩

theorem nul_not_mem_toHeaderSetString (set : HeaderSet) :
    0 ∉ toHeaderSetString set := by
  refine nul_not_mem_StringJoin (by decide) fun element helement => ?_
  rcases List.mem_map.mp helement with ⟨entry, _, hentry⟩
  rw [← hentry]
  exact nul_not_mem_ToLower _

theorem nul_not_mem_lines (set : HeaderSet) (headers : List (ByteString × ByteString)) :
    0 ∉ (headers.filterMap (canonicalHeader set)).flatMap headerLine := by
  intro hmem
  rcases List.mem_flatMap.mp hmem with ⟨line, hline, hnul⟩
  rcases List.mem_filterMap.mp hline with ⟨header, _, hheader⟩
  rw [(canonicalHeader_some hheader).1] at hnul
  simp only [headerLine, List.mem_append] at hnul
  rcases hnul with ((hname | hcolon) | hvalue) | hbreak
  · exact nul_not_mem_ToLower _ hname
  · exact absurd hcolon (by decide)
  · exact nul_not_mem_Trim _ hvalue
  · exact absurd hbreak (by decide)

theorem nul_not_mem_lineOf (set : HeaderSet) (header : ByteString × ByteString) :
    0 ∉ lineOf set header := by
  have hlines := nul_not_mem_lines set [header]
  rw [List.filterMap_cons] at hlines
  unfold lineOf
  cases hheader : canonicalHeader set header with
  | none => exact List.not_mem_nil
  | some line =>
      rw [hheader] at hlines
      exact hlines

/-- The canonical request around the line of one header. -/
theorem buildCanonicalReuqest_entry (method resource : ByteString)
    (parameters : ParameterCollection) (set : HeaderSet) {headers : HeaderCollection}
    {key : ByteString} {entry : ByteString × ByteString}
    (hentry : headers.findEntry key = some entry) :
    exists before after : ByteString, 0 ∉ after ∧ forall value,
      buildCanonicalReuqest method resource parameters
          (headers.insertOrAssign key value) set =
        before ++ (lineOf set (entry.1, value) ++
          (after ++ hashedPayload (headers.insertOrAssign key value))) := by
  rcases SortedMap.entries_insertOrAssign_found hentry with
    ⟨before, after, _, hassigned⟩
  refine ⟨method ++ bytes "\n" ++ UrlEncodePath resource ++ bytes "\n" ++
      encodedQuery parameters ++ bytes "\n" ++
        (before.filterMap (canonicalHeader set)).flatMap headerLine,
    (after.filterMap (canonicalHeader set)).flatMap headerLine ++ bytes "\n" ++
      toHeaderSetString set ++ bytes "\n", ?_, ?_⟩
  · simp only [List.mem_append, not_or]
    exact ⟨⟨⟨nul_not_mem_lines set after, by decide⟩,
      nul_not_mem_toHeaderSetString set⟩, by decide⟩
  · intro value
    unfold buildCanonicalReuqest canonicalHeaders
    rw [hassigned value, flatMap_filterMap_cons]
    simp only [lineOf, List.append_assoc]

/-!
# The value of one header
-/

theorem lineOf_default {set : HeaderSet} {name : ByteString}
    (hdefault : isDefaultSignedHeader (ToLower name) = true) (value : ByteString) :
    lineOf set (name, value) =
      if (Trim value).isEmpty then [] else headerLine (ToLower name, Trim value) := by
  unfold lineOf canonicalHeader
  simp only [hdefault, if_true]
  split
  · rfl
  · exact List.append_nil _

theorem lineOf_inj {set : HeaderSet} {name value value' : ByteString}
    (hdefault : isDefaultSignedHeader (ToLower name) = true)
    (hsame : lineOf set (name, value) = lineOf set (name, value')) :
    Trim value = Trim value' := by
  rw [lineOf_default hdefault, lineOf_default hdefault] at hsame
  have hnot : forall v, [] ≠ headerLine (ToLower name, v) := by
    intro v hnil
    have hbreak := congrArg List.length hnil
    simp [headerLine, bytes] at hbreak
  split at hsame
  · rename_i hblank
    split at hsame
    · rename_i hblank'
      rw [List.isEmpty_iff.mp hblank, List.isEmpty_iff.mp hblank']
    · exact absurd hsame (hnot _)
  · split at hsame
    · exact absurd hsame.symm (hnot _)
    · unfold headerLine at hsame
      exact List.append_cancel_left (List.append_cancel_right hsame)

theorem length_lineOf_lt {set : HeaderSet} {name value value' : ByteString}
    (hdefault : isDefaultSignedHeader (ToLower name) = true)
    (hless : (lineOf set (name, value)).length < (lineOf set (name, value')).length) :
    (Trim value).length < (Trim value').length := by
  rw [lineOf_default hdefault, lineOf_default hdefault] at hless
  split at hless
  · rename_i hblank
    split at hless
    · cases hless
    · rename_i hvalue
      rw [List.isEmpty_iff.mp hblank]
      exact List.length_pos_iff.mpr fun hnil => hvalue (List.isEmpty_iff.mpr hnil)
  · split at hless
    · cases hless
    · simp only [headerLine, List.length_append] at hless
      omega

/-- A longer line is not made up for by the value that ends the canonical request. -/
theorem lineOf_payload_ne {set : HeaderSet} {name value value' after : ByteString}
    (hdefault : isDefaultSignedHeader (ToLower name) = true)
    (hafter : 0 ∉ after)
    (hless : (lineOf set (name, value)).length < (lineOf set (name, value')).length) :
    lineOf set (name, value) ++ (after ++ value) ≠
      lineOf set (name, value') ++ (after ++ value') := by
  intro hsame
  rw [← List.append_assoc, ← List.append_assoc] at hsame
  rcases List.append_eq_append_iff.mp hsame with ⟨u, hlonger, hvalue⟩ | ⟨u, hshorter, _⟩
  · have hnul : 0 ∉ u := by
      intro hu
      have hmem : 0 ∈ lineOf set (name, value') ++ after := by
        rw [hlonger]
        exact List.mem_append_right _ hu
      rcases List.mem_append.mp hmem with hline | hrest
      · exact nul_not_mem_lineOf set (name, value') hline
      · exact hafter hrest
    have htrim := length_Trim_le_append hnul value'
    rw [← hvalue] at htrim
    exact absurd (length_lineOf_lt hdefault hless) (Nat.not_lt.mpr htrim)
  · have hlength := congrArg List.length hshorter
    simp only [List.length_append] at hlength
    omega

/-- Another value of a header that is always signed is another canonical request. -/
theorem buildCanonicalReuqest_ne (method resource : ByteString)
    (parameters : ParameterCollection) (set : HeaderSet) {headers : HeaderCollection}
    {name value value' : ByteString}
    (hfound : (headers.find? name).isSome = true)
    (hdefault : isDefaultSignedHeader (ToLower name) = true)
    (hother : Trim value ≠ Trim value') :
    buildCanonicalReuqest method resource parameters
        (headers.insertOrAssign name value) set ≠
      buildCanonicalReuqest method resource parameters
        (headers.insertOrAssign name value') set := by
  rcases Option.isSome_iff_exists.mp hfound with ⟨old, hold⟩
  rw [SortedMap.find?_eq, Option.map_eq_some_iff] at hold
  rcases hold with ⟨entry, hentry, _⟩
  have hkey : SortedMap.equivalent caseInsensitiveLess entry.1 name = true := by
    have hpred := List.find?_some hentry
    exact hpred
  rw [← ToLower_congr hkey] at hdefault
  rcases buildCanonicalReuqest_entry method resource parameters set hentry with
    ⟨before, after, hafter, htext⟩
  rw [htext, htext]
  intro hsame
  have hsame := List.append_cancel_left hsame
  unfold hashedPayload at hsame
  rw [SortedMap.find?_insertOrAssign, SortedMap.find?_insertOrAssign] at hsame
  split at hsame
  · rcases Nat.lt_trichotomy (lineOf set (entry.1, value)).length
      (lineOf set (entry.1, value')).length with hless | heq | hless
    · exact lineOf_payload_ne hdefault hafter hless hsame
    · exact hother (lineOf_inj hdefault (List.append_inj hsame heq).1)
    · exact lineOf_payload_ne hdefault hafter hless hsame.symm
  · exact hother (lineOf_inj hdefault (List.append_cancel_right hsame))

end V4
end Signer
end OssSdk
