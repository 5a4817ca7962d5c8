import OssSdk.Signer.SignerV4
import OssSdk.Signer.SignerV1

/-!
# The headers that are signed

Each signer picks the headers of its string to sign in its own way.  What it picks is
told here from the entries of the header map alone.
-/

namespace OssSdk
namespace Signer

open Foundation
open Internal
open Utils

variable {σ : Type}

theorem lower_authorization {name : ByteString}
    (hsame : SortedMap.equivalent caseInsensitiveLess name (bytes "Authorization") =
      true) : ToLower name = bytes "authorization" :=
  (ToLower_congr hsame).trans (by decide)

namespace V4

/-- The headers that a signature is made of. -/
def signingHeaders (p : Platform σ) (request : RequestMessage σ)
    (context : SigningContext) (env : σ) : HeaderCollection :=
  if context.authMethodQuery then request.headers
  else stampToken context.credentials
    (stampDates (p.timeNow context env) request.headers)

/-- The canonical request, were the signature made of these headers. -/
def canonicalRequest (p : Platform σ) (request : RequestMessage σ)
    (context : SigningContext) (env : σ) (headers : HeaderCollection) : ByteString :=
  if context.authMethodQuery then
    queryCanonical context (p.timeNow context env) { request with headers := headers }
  else headerCanonical context request headers

/-- The headers that are lines of the canonical request. -/
def coveredHeaders (context : SigningContext) (headers : HeaderCollection) :
    List (ByteString × ByteString) :=
  canonicalHeaders headers (signedAdditionalHeaders headers context.additionalHeaders)

theorem sign_stringToSign (p : Platform σ) (request : RequestMessage σ)
    (context : SigningContext) (env : σ)
    (hkeys : context.credentials.hasKeys = true) :
    ((SignerV4 p).sign request context env).2.2.1.stringToSign =
      buildStringToSign p (datetimeOf (p.timeNow context env))
        (scopeOf context (p.timeNow context env))
        (canonicalRequest p request context env
          (signingHeaders p request context env)) := by
  unfold canonicalRequest signingHeaders
  cases hquery : context.authMethodQuery with
  | true =>
      simp only [SignerV4, hkeys, hquery, Bool.not_true, Bool.false_eq_true, if_false,
        if_true]
      rfl
  | false =>
      simp only [SignerV4, hkeys, hquery, Bool.not_true, Bool.false_eq_true, if_false]
      rfl

/-- A signature in the headers adds the one that carries it. -/
theorem sign_headers (p : Platform σ) (request : RequestMessage σ)
    (context : SigningContext) (env : σ)
    (hkeys : context.credentials.hasKeys = true) :
    exists value, ((SignerV4 p).sign request context env).2.1.headers =
      if context.authMethodQuery then signingHeaders p request context env
      else (signingHeaders p request context env).insertOrAssign
        (bytes "Authorization") value := by
  unfold signingHeaders
  cases hquery : context.authMethodQuery with
  | true =>
      refine ⟨[], ?_⟩
      simp only [SignerV4, hkeys, hquery, Bool.not_true, Bool.false_eq_true, if_false,
        if_true]
      rfl
  | false =>
      simp only [SignerV4, hkeys, hquery, Bool.not_true, Bool.false_eq_true, if_false]
      exact ⟨_, rfl⟩

/-- The canonical headers that need not be listed. -/
def signedHeaders (headers : HeaderCollection) (set : HeaderSet) :
    List (ByteString × ByteString) :=
  (canonicalHeaders headers set).filter fun header => isDefaultSignedHeader header.1

def signs (header : ByteString × ByteString) : Bool :=
  isDefaultSignedHeader (ToLower header.1) && !(Trim header.2).isEmpty

theorem mem_signedHeaders {headers : HeaderCollection} {set : HeaderSet}
    {pair : ByteString × ByteString} :
    pair ∈ signedHeaders headers set ↔
      exists header, header ∈ headers.entries ∧ signs header = true ∧
        pair = (ToLower header.1, Trim header.2) := by
  unfold signedHeaders canonicalHeaders signs
  rw [List.mem_filter, List.mem_filterMap]
  constructor
  · intro hmem
    rcases hmem with ⟨⟨header, hheader, hpair⟩, hdefault⟩
    refine ⟨header, hheader, ?_⟩
    unfold canonicalHeader at hpair
    simp only at hpair
    split at hpair
    · cases hpair
    · rename_i hvalue
      have heq : pair = (ToLower header.1, Trim header.2) := by
        split at hpair
        · exact (Option.some.inj hpair).symm
        · split at hpair
          · exact (Option.some.inj hpair).symm
          · cases hpair
      rw [heq] at hdefault
      exact ⟨by simpa [hdefault] using hvalue, heq⟩
  · intro hmem
    rcases hmem with ⟨header, hheader, hsigns, heq⟩
    rw [Bool.and_eq_true, Bool.not_eq_true'] at hsigns
    rw [heq]
    refine ⟨⟨header, hheader, ?_⟩, hsigns.1⟩
    unfold canonicalHeader
    simp only [hsigns.1, hsigns.2, Bool.false_eq_true, if_false, if_true]

end V4

namespace V1

/-- The headers that a signature is made of. -/
def signingHeaders (p : Platform σ) (request : RequestMessage σ)
    (context : SigningContext) (env : σ) : HeaderCollection :=
  if context.authMethodQuery then request.headers
  else stampToken context.credentials
    (stampDate (p.timeNow context env) request.headers)

/-- A signature in the query is made of another URI. -/
theorem sign_stringToSign (p : Platform σ) (request : RequestMessage σ)
    (context : SigningContext) (env : σ)
    (hkeys : context.credentials.hasKeys = true) :
    exists uri date, ((SignerV1 p).sign request context env).2.2.1.stringToSign =
      calcStringToSign
        { request with uri := uri, headers := signingHeaders p request context env }
        context date := by
  unfold signingHeaders
  cases hquery : context.authMethodQuery with
  | true =>
      simp only [SignerV1, hkeys, hquery, Bool.not_true, Bool.false_eq_true, if_false,
        if_true]
      exact ⟨_, _, rfl⟩
  | false =>
      simp only [SignerV1, hkeys, hquery, Bool.not_true, Bool.false_eq_true, if_false]
      exact ⟨request.uri, _, rfl⟩

theorem sign_headers (p : Platform σ) (request : RequestMessage σ)
    (context : SigningContext) (env : σ)
    (hkeys : context.credentials.hasKeys = true) :
    exists value, ((SignerV1 p).sign request context env).2.1.headers =
      if context.authMethodQuery then signingHeaders p request context env
      else (signingHeaders p request context env).insertOrAssign
        (bytes "Authorization") value := by
  unfold signingHeaders
  cases hquery : context.authMethodQuery with
  | true =>
      refine ⟨[], ?_⟩
      simp only [SignerV1, hkeys, hquery, Bool.not_true, Bool.false_eq_true, if_false,
        if_true]
      rfl
  | false =>
      simp only [SignerV1, hkeys, hquery, Bool.not_true, Bool.false_eq_true, if_false]
      exact ⟨_, rfl⟩

theorem headerValue_authorization {name : ByteString}
    (hname : name ≠ bytes "authorization") (headers : HeaderCollection)
    (value : ByteString) :
    headerValue name (headers.insertOrAssign (bytes "Authorization") value) =
      headerValue name headers := by
  refine SortedMap.foldl_insertOrAssign _ (fun b e he => ?_) headers value []
  simp only [lower_authorization he]
  rw [if_neg (Ne.symm hname)]

theorem canonicalMap_authorization (headers : HeaderCollection) (value : ByteString) :
    canonicalMap (headers.insertOrAssign (bytes "Authorization") value) =
      canonicalMap headers := by
  refine SortedMap.foldl_insertOrAssign _ (fun b e he => ?_) headers value _
  have hsign : isSignHeader (bytes "authorization") = false := by decide
  simp only [lower_authorization he, hsign, Bool.false_eq_true, if_false, ite_self]

/-- The headers in the string to sign, with their values trimmed. -/
def signedHeaders (headers : HeaderCollection) : List (ByteString × ByteString) :=
  let contents :=
    [bytes "content-md5", bytes "content-type"].map fun name =>
      (name, headerValue name headers)
  (contents.filter (fun header => !header.2.isEmpty) ++
    (canonicalMap headers).entries).map fun header => (header.1, strip header.2)

/-- A header that is signed, unless a later one has the same lower-cased name. -/
def signs (headers : HeaderCollection) (header : ByteString × ByteString) : Bool :=
  V4.isDefaultSignedHeader (ToLower header.1) && !header.2.isEmpty &&
    headers.entries.all fun other =>
      !(caseInsensitiveLess header.1 other.1 &&
        ToLower other.1 == ToLower header.1) ||
      (isSignHeader (ToLower header.1) && other.2.isEmpty)

theorem headerValue_eq (name : ByteString) (headers : HeaderCollection) :
    headerValue name headers =
      ((headers.last? fun header => decide (ToLower header.1 = name)).map
        Prod.snd).getD [] := by
  have hlast := SortedMap.foldl_last
    (fun header : ByteString × ByteString => decide (ToLower header.1 = name))
    Prod.snd [] headers.entries
  unfold headerValue
  simp only [decide_eq_true_eq] at hlast
  exact hlast

theorem find?_canonicalMap (name : ByteString) (headers : HeaderCollection) :
    (canonicalMap headers).find? name =
      if isSignHeader name = true then
        (headers.last? fun header =>
          !header.2.isEmpty && decide (ToLower header.1 = name)).map Prod.snd
      else none := by
  unfold canonicalMap SortedMap.last?
  induction headers.entries using List.reverseRecOn with
  | nil => simp
  | append_singleton entries header ih =>
      rw [List.foldl_append, List.reverse_append, List.reverse_singleton,
        List.singleton_append, List.find?_cons]
      simp only [List.foldl_cons, List.foldl_nil]
      cases hvalue : header.2.isEmpty with
      | true =>
          simp only [if_true, Bool.not_true, Bool.false_and]
          exact ih
      | false =>
          simp only [Bool.false_eq_true, if_false, Bool.not_false, Bool.true_and]
          by_cases hname : ToLower header.1 = name
          · simp only [hname, decide_true, Option.map_some]
            split
            · rw [SortedMap.find?_insertOrAssign,
                if_pos (SortedMap.equivalent_refl name)]
            · rename_i hsign
              rw [ih, if_neg hsign]
          · simp only [hname, decide_false]
            split
            · rw [SortedMap.find?_insertOrAssign,
                if_neg (mt (equivalent_caseSensitive _ _).mp hname)]
              exact ih
            · exact ih

theorem mem_canonicalMap {headers : HeaderCollection} {header : ByteString × ByteString} :
    header ∈ (canonicalMap headers).entries ↔
      (canonicalMap headers).find? header.1 = some header.2 := by
  rw [SortedMap.mem_entries_iff, SortedMap.find?_eq, Option.map_eq_some_iff]
  constructor
  · intro hentry
    exact ⟨header, hentry, rfl⟩
  · intro hexists
    rcases hexists with ⟨found, hentry, hvalue⟩
    have hkey : SortedMap.equivalent caseSensitiveLess found.1 header.1 = true := by
      have hpred := List.find?_some hentry
      exact hpred
    have heq : found = header :=
      Prod.ext ((equivalent_caseSensitive _ _).mp hkey) hvalue
    rw [hentry, heq]

theorem signs_iff {headers : HeaderCollection} {header : ByteString × ByteString} :
    signs headers header = true ↔
      V4.isDefaultSignedHeader (ToLower header.1) = true ∧ header.2 ≠ [] ∧
        forall other, other ∈ headers.entries ->
          caseInsensitiveLess header.1 other.1 = true ->
            ToLower other.1 = ToLower header.1 ->
              isSignHeader (ToLower header.1) = true ∧ other.2 = [] := by
  unfold signs
  simp only [Bool.and_eq_true, Bool.not_eq_true', List.all_eq_true, Bool.or_eq_true,
    Bool.and_eq_false_iff, beq_eq_false_iff_ne, List.isEmpty_iff, List.isEmpty_eq_false_iff,
    and_assoc]
  refine and_congr Iff.rfl (and_congr Iff.rfl ?_)
  constructor
  · intro hall other hmem hless hsame
    rcases hall other hmem with hnot | hyes
    · rcases hnot with hnot | hnot
      · rw [hless] at hnot
        cases hnot
      · exact absurd hsame hnot
    · exact hyes
  · intro hall other hmem
    by_cases hless : caseInsensitiveLess header.1 other.1 = true
    · by_cases hsame : ToLower other.1 = ToLower header.1
      · exact Or.inr (hall other hmem hless hsame)
      · exact Or.inl (Or.inr hsame)
    · exact Or.inl (Or.inl (by simpa using hless))

/-- The two headers whose values have a place of their own. -/
def contentNames : List ByteString := [bytes "content-md5", bytes "content-type"]

theorem isDefaultSignedHeader_iff (name : ByteString) :
    V4.isDefaultSignedHeader name = true ↔
      name ∈ contentNames ∨ isSignHeader name = true := by
  unfold V4.isDefaultSignedHeader contentNames isSignHeader
  simp only [Bool.or_eq_true, beq_iff_eq, List.mem_cons, List.not_mem_nil, or_false]
  exact or_congr_left or_comm

theorem contentNames_not_sign {name : ByteString} (hname : name ∈ contentNames) :
    isSignHeader name = false := by
  revert name
  decide

/-- The value of a header that has a place of its own is that of the last one. -/
theorem headerValue_some {headers : HeaderCollection} {name value : ByteString}
    (hname : name ∈ contentNames) :
    (headerValue name headers = value ∧ value ≠ []) ↔
      exists header, header ∈ headers.entries ∧ signs headers header = true ∧
        (name, value) = (ToLower header.1, header.2) := by
  have hnot := contentNames_not_sign hname
  rw [headerValue_eq]
  constructor
  · intro hvalue
    rcases hvalue with ⟨hlast, hne⟩
    cases hfound : headers.last? fun header => decide (ToLower header.1 = name) with
    | none =>
        rw [hfound] at hlast
        exact absurd hlast.symm hne
    | some header =>
        rw [hfound] at hlast
        simp only [Option.map_some, Option.getD_some] at hlast
        rcases SortedMap.last?_eq_some_iff.mp hfound with ⟨hmem, hsame, hlater⟩
        rw [decide_eq_true_eq] at hsame
        refine ⟨header, hmem, signs_iff.mpr ⟨?_, ?_, ?_⟩, by rw [hsame, hlast]⟩
        · rw [hsame, isDefaultSignedHeader_iff]
          exact Or.inl hname
        · rw [hlast]
          exact hne
        · intro other hother hless hagain
          have hdiffers := hlater other hother hless
          rw [hagain, hsame, decide_eq_false_iff_not] at hdiffers
          exact absurd rfl hdiffers
  · intro hexists
    rcases hexists with ⟨header, hmem, hsigns, heq⟩
    rcases signs_iff.mp hsigns with ⟨_, hne, hlater⟩
    injection heq with hsame hvalue
    have hfound : (headers.last? fun header => decide (ToLower header.1 = name)) =
        some header := by
      refine SortedMap.last?_eq_some_iff.mpr ⟨hmem, by rw [hsame]; simp, ?_⟩
      intro other hother hless
      rw [decide_eq_false_iff_not]
      intro hagain
      have hboth := (hlater other hother hless (hagain.trans hsame)).1
      rw [← hsame, hnot] at hboth
      cases hboth
    rw [hfound, hvalue]
    exact ⟨rfl, hne⟩

/-- The value of any other header that is signed is that of the last one that has one. -/
theorem canonicalMap_some {headers : HeaderCollection} {name value : ByteString}
    (hname : isSignHeader name = true) :
    (canonicalMap headers).find? name = some value ↔
      exists header, header ∈ headers.entries ∧ signs headers header = true ∧
        (name, value) = (ToLower header.1, header.2) := by
  rw [find?_canonicalMap, if_pos hname, Option.map_eq_some_iff]
  constructor
  · intro hexists
    rcases hexists with ⟨header, hfound, hvalue⟩
    rcases SortedMap.last?_eq_some_iff.mp hfound with ⟨hmem, hboth, hlater⟩
    rw [Bool.and_eq_true, decide_eq_true_eq, Bool.not_eq_true',
      List.isEmpty_eq_false_iff] at hboth
    rcases hboth with ⟨hne, hsame⟩
    refine ⟨header, hmem, signs_iff.mpr ⟨?_, hne, ?_⟩, by rw [hsame, hvalue]⟩
    · rw [hsame, isDefaultSignedHeader_iff]
      exact Or.inr hname
    · intro other hother hless hagain
      have hempty := hlater other hother hless
      rw [decide_eq_true (hagain.trans hsame), Bool.and_true, Bool.not_eq_false',
        List.isEmpty_iff] at hempty
      rw [hsame]
      exact ⟨hname, hempty⟩
  · intro hexists
    rcases hexists with ⟨header, hmem, hsigns, heq⟩
    rcases signs_iff.mp hsigns with ⟨_, hne, hlater⟩
    injection heq with hsame hvalue
    refine ⟨header, SortedMap.last?_eq_some_iff.mpr ⟨hmem, ?_, ?_⟩, hvalue.symm⟩
    · rw [decide_eq_true hsame.symm, Bool.and_true, Bool.not_eq_true',
        List.isEmpty_eq_false_iff]
      exact hne
    · intro other hother hless
      by_cases hagain : ToLower other.1 = name
      · rw [(hlater other hother hless (hagain.trans hsame)).2]
        rfl
      · rw [decide_eq_false hagain, Bool.and_false]

theorem mem_signedHeaders {headers : HeaderCollection} {pair : ByteString × ByteString} :
    pair ∈ signedHeaders headers ↔
      exists header, header ∈ headers.entries ∧ signs headers header = true ∧
        pair = (ToLower header.1, strip header.2) := by
  have hraw : forall raw : ByteString × ByteString,
      raw ∈ (contentNames.map fun name => (name, headerValue name headers)).filter
          (fun header => !header.2.isEmpty) ++ (canonicalMap headers).entries ↔
        exists header, header ∈ headers.entries ∧ signs headers header = true ∧
          raw = (ToLower header.1, header.2) := by
    intro raw
    rcases raw with ⟨name, value⟩
    rw [List.mem_append, List.mem_filter, List.mem_map, mem_canonicalMap,
      Bool.not_eq_true', List.isEmpty_eq_false_iff]
    constructor
    · intro hmem
      rcases hmem with ⟨⟨name', hname, heq⟩, hne⟩ | hfound
      · injection heq with hsame hvalue
        rw [hsame] at hname hvalue
        exact (headerValue_some hname).mp ⟨hvalue, hne⟩
      · have hname : isSignHeader name = true := by
          by_contra hnot
          rw [find?_canonicalMap, if_neg hnot] at hfound
          cases hfound
        exact (canonicalMap_some hname).mp hfound
    · intro hexists
      rcases hexists with ⟨header, hmem, hsigns, heq⟩
      have hdefault := (signs_iff.mp hsigns).1
      have hsame : name = ToLower header.1 := congrArg Prod.fst heq
      rw [← hsame, isDefaultSignedHeader_iff] at hdefault
      rcases hdefault with hname | hname
      · rcases (headerValue_some hname).mpr ⟨header, hmem, hsigns, heq⟩ with
          ⟨hvalue, hne⟩
        exact Or.inl ⟨⟨name, hname, by rw [hvalue]⟩, hne⟩
      · exact Or.inr ((canonicalMap_some hname).mpr ⟨header, hmem, hsigns, heq⟩)
  unfold signedHeaders
  rw [List.mem_map]
  constructor
  · intro hmem
    rcases hmem with ⟨raw, hin, hpair⟩
    rcases (hraw raw).mp hin with ⟨header, hheader, hsigns, heq⟩
    refine ⟨header, hheader, hsigns, ?_⟩
    rw [← hpair, heq]
  · intro hexists
    rcases hexists with ⟨header, hheader, hsigns, hpair⟩
    exact ⟨(ToLower header.1, header.2), (hraw _).mpr ⟨header, hheader, hsigns, rfl⟩,
      hpair.symm⟩

end V1

end Signer
end OssSdk
