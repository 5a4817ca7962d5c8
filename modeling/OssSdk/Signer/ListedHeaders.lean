import OssSdk.Signer.HeaderOrder
import OssSdk.Signer.Resigning

/-!
# The additional headers that are listed

The list of additional headers and the lines of the canonical request are made by two
passes.  The list takes a header that is there; a line needs a value that is not blank.
-/

namespace OssSdk
namespace Signer
namespace V4

open Foundation
open Utils

/-- The names that `toHeaderSetString` joins. -/
def listedNames (set : HeaderSet) : List ByteString := set.entries.map fun e => ToLower e.1

theorem toHeaderSetString_eq (set : HeaderSet) :
    toHeaderSetString set = StringJoin (bytes ";") (listedNames set) := rfl

/-- A header that is to be listed: it is there and is not signed in any case. -/
def ToBeListed (headers : HeaderCollection) (names : List ByteString) (name : ByteString) :
    Prop :=
  (exists key, key ∈ names ∧ ToLower key = name) ∧ picks headers name = true

theorem mem_nameSet {names : List ByteString} {e : ByteString × Unit}
    (he : e ∈ (nameSet names).entries) : e.1 ∈ names := by
  induction names using List.reverseRecOn with
  | nil => cases he
  | append_singleton names name ih =>
      rw [nameSet_concat] at he
      rcases SortedMap.mem_emplace he with hnew | hold
      · rw [hnew]
        exact List.mem_append_right _ List.mem_cons_self
      · exact List.mem_append_left _ (ih hold)

variable {headers : HeaderCollection} {names : List ByteString}

theorem key_toBeListed {e : ByteString × Unit}
    (he : e ∈ (signedAdditionalHeaders headers names).entries) :
    ToBeListed headers names e.1 := by
  rw [signedAdditionalHeaders_eq] at he
  obtain ⟨hmem, hpicked⟩ := List.mem_filter.mp (mem_nameSet he)
  obtain ⟨key, hkey, hname⟩ := List.mem_map.mp hmem
  exact ⟨⟨key, hkey, hname⟩, hpicked⟩

theorem ToLower_of_toBeListed {name : ByteString} (hname : ToBeListed headers names name) :
    ToLower name = name := by
  obtain ⟨⟨key, _, rfl⟩, _⟩ := hname
  exact ToLower_ToLower key

theorem find?_signedAdditionalHeaders (name : ByteString) :
    ((signedAdditionalHeaders headers names).find? (ToLower name)).isSome = true ↔
      ToBeListed headers names (ToLower name) := by
  rw [signedAdditionalHeaders_eq, find?_nameSet]
  constructor
  · rintro ⟨key, hkey, hsame⟩
    obtain ⟨hmem, hpicked⟩ := List.mem_filter.mp hkey
    obtain ⟨key', hkey', rfl⟩ := List.mem_map.mp hmem
    rw [equivalent_ToLower, decide_eq_true_eq] at hsame
    rw [← hsame]
    exact ⟨⟨key', hkey', rfl⟩, hpicked⟩
  · rintro ⟨⟨key, hkey, hname⟩, hpicked⟩
    refine ⟨ToLower name, List.mem_filter.mpr ⟨?_, hpicked⟩, SortedMap.equivalent_refl _⟩
    exact List.mem_map.mpr ⟨key, hkey, hname⟩

/-- The names that are listed are the keys of the set, which are in lower case. -/
theorem mem_listedNames {name : ByteString} :
    name ∈ listedNames (signedAdditionalHeaders headers names) ↔
      ToBeListed headers names name := by
  unfold listedNames
  rw [List.mem_map]
  constructor
  · rintro ⟨e, he, rfl⟩
    have hlisted := key_toBeListed he
    rw [ToLower_of_toBeListed hlisted]
    exact hlisted
  · intro hlisted
    have hlower := ToLower_of_toBeListed hlisted
    have hfound := (find?_signedAdditionalHeaders name).mpr (hlower.symm ▸ hlisted)
    obtain ⟨value, hvalue⟩ := Option.isSome_iff_exists.mp hfound
    rw [SortedMap.find?_eq, Option.map_eq_some_iff] at hvalue
    obtain ⟨e, hentry, _⟩ := hvalue
    have hsame : SortedMap.equivalent caseInsensitiveLess e.1 (ToLower name) = true := by
      have hpred := List.find?_some hentry
      exact hpred
    refine ⟨e, List.mem_of_find?_eq_some hentry, ?_⟩
    rw [ToLower_congr hsame, ToLower_ToLower, hlower]

theorem listedNames_eq :
    listedNames (signedAdditionalHeaders headers names) =
      (signedAdditionalHeaders headers names).entries.map Prod.fst :=
  List.map_congr_left fun _ he => ToLower_of_toBeListed (key_toBeListed he)

/-! # The lines that need not be listed -/

/-- The names of the lines that are not signed in any case. -/
def additionalLineNames (headers : HeaderCollection) (set : HeaderSet) : List ByteString :=
  ((canonicalHeaders headers set).map Prod.fst).filter fun name =>
    !isDefaultSignedHeader name

theorem mem_additionalLineNames {name : ByteString} :
    name ∈ additionalLineNames headers (signedAdditionalHeaders headers names) ↔
      ToBeListed headers names name ∧
        exists header, header ∈ headers.entries ∧ ToLower header.1 = name ∧
          Trim header.2 ≠ [] := by
  unfold additionalLineNames canonicalHeaders
  rw [List.mem_filter, List.mem_map, Bool.not_eq_true']
  constructor
  · rintro ⟨⟨line, hline, rfl⟩, hother⟩
    obtain ⟨header, hheader, hsome⟩ := List.mem_filterMap.mp hline
    obtain ⟨⟨hvalue, hsigned⟩, rfl⟩ := canonicalHeader_eq_some_iff.mp hsome
    have hfound := hsigned.resolve_left (by rw [hother]; exact Bool.false_ne_true)
    exact ⟨(find?_signedAdditionalHeaders header.1).mp hfound, header, hheader, rfl, hvalue⟩
  · rintro ⟨hlisted, header, hheader, rfl, hvalue⟩
    refine ⟨⟨(ToLower header.1, Trim header.2), ?_, rfl⟩, ?_⟩
    · refine List.mem_filterMap.mpr ⟨header, hheader, canonicalHeader_eq_some_iff.mpr ?_⟩
      exact ⟨⟨hvalue, Or.inr ((find?_signedAdditionalHeaders header.1).mpr hlisted)⟩, rfl⟩
    · have hpicked := hlisted.2
      unfold picks at hpicked
      rw [Bool.and_eq_true, Bool.not_eq_true'] at hpicked
      exact hpicked.1

/-! # The list and the lines -/

/-- The list is sorted by `less`, repeats nothing and has the names of these lines. -/
structure ListsLines (less : ByteString -> ByteString -> Bool) (headers : HeaderCollection)
    (names : List ByteString) : Prop where
  lowerCase : forall name,
    name ∈ listedNames (signedAdditionalHeaders headers names) -> ToLower name = name
  sorted : (listedNames (signedAdditionalHeaders headers names)).Pairwise fun a b =>
    less a b = true
  nodup : (listedNames (signedAdditionalHeaders headers names)).Nodup
  lines : forall name,
    name ∈ listedNames (signedAdditionalHeaders headers names) ↔
      name ∈ additionalLineNames headers (signedAdditionalHeaders headers names)

/-- Each header that is to be listed has a value that is not blank. -/
def NoneBlank (headers : HeaderCollection) (names : List ByteString) : Prop :=
  forall name, ToBeListed headers names name ->
    exists header, header ∈ headers.entries ∧ ToLower header.1 = name ∧ Trim header.2 ≠ []

theorem lines_iff :
    (forall name,
      name ∈ listedNames (signedAdditionalHeaders headers names) ↔
        name ∈ additionalLineNames headers (signedAdditionalHeaders headers names)) ↔
      NoneBlank headers names := by
  unfold NoneBlank
  simp only [mem_listedNames, mem_additionalLineNames]
  exact forall_congr' fun name => iff_self_and

theorem sorted_listedNames (headers : HeaderCollection) (names : List ByteString) :
    (listedNames (signedAdditionalHeaders headers names)).Pairwise fun a b =>
      caseInsensitiveLess a b = true := by
  rw [listedNames_eq, List.pairwise_map]
  exact (signedAdditionalHeaders headers names).sorted

theorem nodup_listedNames (headers : HeaderCollection) (names : List ByteString) :
    (listedNames (signedAdditionalHeaders headers names)).Nodup := by
  refine (sorted_listedNames headers names).imp fun hless hsame => ?_
  rw [hsame, caseInsensitiveLess, lexLess_irrefl] at hless
  cases hless

/-- Where the order of bytes is meant, no two names differ first in bytes of either half. -/
def SameHalves (headers : HeaderCollection) (names : List ByteString) : Prop :=
  forall name, ToBeListed headers names name -> forall name',
    ToBeListed headers names name' -> SameHalf name name'

theorem map_of_ToLower {name : ByteString} (hlower : ToLower name = name) :
    name.map toLowerByte = name := by
  have hnul : 0 ∉ name := hlower ▸ nul_not_mem_ToLower name
  rw [ToLower, cStr_eq_self hnul] at hlower
  exact hlower

/-- Two names in lower case, the first of which comes first in the set. -/
theorem caseSensitiveLess_iff {a b : ByteString} (ha : ToLower a = a) (hb : ToLower b = b)
    (hless : caseInsensitiveLess a b = true) :
    caseSensitiveLess a b = true ↔ SameHalf a b := by
  have hlines := @lines_in_order_iff (a, []) (b, []) hless
  dsimp only at hlines
  rw [ha, hb, map_of_ToLower ha, map_of_ToLower hb] at hlines
  have hne : a ≠ b := by
    rintro rfl
    rw [caseInsensitiveLess, lexLess_irrefl] at hless
    cases hless
  rw [hlines, and_iff_right hne]

instance : Std.Symm SameHalf := ⟨fun _ _ hhalf => hhalf.symm⟩

theorem sorted_bytes_iff :
    ((listedNames (signedAdditionalHeaders headers names)).Pairwise fun a b =>
      caseSensitiveLess a b = true) ↔ SameHalves headers names := by
  have hsorted := sorted_listedNames headers names
  have hlower : forall {name},
      name ∈ listedNames (signedAdditionalHeaders headers names) -> ToLower name = name :=
    fun hname => ToLower_of_toBeListed (mem_listedNames.mp hname)
  constructor
  · intro hbytes
    have hhalves : (listedNames (signedAdditionalHeaders headers names)).Pairwise SameHalf := by
      refine (hsorted.and hbytes).imp_of_mem fun ha hb hboth => ?_
      exact (caseSensitiveLess_iff (hlower ha) (hlower hb) hboth.1).mp hboth.2
    intro name hname name' hname'
    exact hhalves.forall_of_forall (fun a _ => SameHalf.refl a)
      (mem_listedNames.mpr hname) (mem_listedNames.mpr hname')
  · intro hhalves
    refine hsorted.imp_of_mem fun ha hb hless => ?_
    exact (caseSensitiveLess_iff (hlower ha) (hlower hb) hless).mpr
      (hhalves _ (mem_listedNames.mp ha) _ (mem_listedNames.mp hb))

theorem listsLines_iff_sorted {less : ByteString -> ByteString -> Bool} :
    ListsLines less headers names ↔
      NoneBlank headers names ∧
        (listedNames (signedAdditionalHeaders headers names)).Pairwise fun a b =>
          less a b = true := by
  constructor
  · intro hlists
    exact ⟨lines_iff.mp hlists.lines, hlists.sorted⟩
  · rintro ⟨hblank, hsorted⟩
    constructor
    · exact fun _ hname => ToLower_of_toBeListed (mem_listedNames.mp hname)
    · exact hsorted
    · exact nodup_listedNames headers names
    · exact lines_iff.mpr hblank

end V4
end Signer
end OssSdk
