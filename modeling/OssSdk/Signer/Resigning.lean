import OssSdk.Signer.HeaderSigning
import OssSdk.Signer.CanonicalRequest
import OssSdk.Signer.SignedHeaders

/-!
# Re-signing with the two signers

What the headers of an earlier call do to the string to sign of the last one.  The
signature of version 1 never covers the `Authorization` header; that of version 4
does when the header is listed among the additional ones.
-/

namespace OssSdk
namespace Signer

open Foundation
open Internal
open Utils

variable {σ : Type}

theorem assign_stamp {name other : ByteString} (value : ByteString)
    (old : Option ByteString) (headers : HeaderCollection)
    (hother : SortedMap.equivalent caseInsensitiveLess name other = false) :
    (assignSome name old headers).insertOrAssign other value =
      assignSome name old (headers.insertOrAssign other value) :=
  assignSome_comm hother old (some value) headers

/-- Neither the token nor the signature is one of the headers that are stamped. -/
theorem unstamped {name : ByteString}
    (hname : name = bytes "x-oss-security-token" ∨ name = bytes "Authorization") :
    SortedMap.equivalent caseInsensitiveLess name (bytes "x-oss-date") = false ∧
      SortedMap.equivalent caseInsensitiveLess name (bytes "Date") = false ∧
      SortedMap.equivalent caseInsensitiveLess name
        (bytes "x-oss-content-sha256") = false := by
  rcases hname with htoken | hauth
  · rw [htoken]
    decide
  · rw [hauth]
    decide

/-!
# Version 1
-/

namespace V1

theorem stampDate_stampDate (t t' : Int) (headers : HeaderCollection) :
    stampDate t (stampDate t' headers) = stampDate t headers :=
  SortedMap.insertOrAssign_insertOrAssign _ _ _ _

theorem calcStringToSign_authorization (request : RequestMessage σ)
    (context : SigningContext) (headers : HeaderCollection) (value : ByteString) :
    calcStringToSign
        { request with headers := headers.insertOrAssign (bytes "Authorization") value }
        context [] =
      calcStringToSign { request with headers := headers } context [] := by
  have hdate : getDateFromHeaders
      (headers.insertOrAssign (bytes "Authorization") value) =
        getDateFromHeaders headers := by
    have hnames : ¬ SortedMap.equivalent caseInsensitiveLess (bytes "Authorization")
          (bytes "x-oss-date") = true ∧
        ¬ SortedMap.equivalent caseInsensitiveLess (bytes "Authorization")
          (bytes "Date") = true := by decide
    unfold getDateFromHeaders
    rw [SortedMap.find?_insertOrAssign, SortedMap.find?_insertOrAssign,
      if_neg hnames.1, if_neg hnames.2]
  unfold calcStringToSign buildCanonicalHeaders
  simp only [canonicalMap_authorization, hdate,
    headerValue_authorization (show bytes "content-md5" ≠ _ by decide),
    headerValue_authorization (show bytes "content-type" ≠ _ by decide)]

theorem run_header (p : Platform σ) (call : SignCall σ) (request : RequestMessage σ)
    (context : SigningContext)
    (hheader : context.authMethodQuery = false) :
    call.run (SignerV1 p) (request, context) =
      authHeader p request (call.context context) call.env := by
  have hkeys : (call.context context).credentials.hasKeys = true := call.hasKeys
  have hquery : (call.context context).authMethodQuery = false := hheader
  simp only [SignCall.run, SignerV1, hkeys, hquery, Bool.not_true, Bool.false_eq_true,
    if_false]

/-- `signer::v1::authHeader`, as signing in the headers. -/
def signing (p : Platform σ) : HeaderSigning σ where
  signer := SignerV1 p
  time := SignCall.timeNow p
  stamp := stampDate
  stringToSign context _ request headers :=
    calcStringToSign { request with headers := headers } context []
  authorization context _ _ string :=
    bytes "OSS " ++ context.credentials.accessKeyId ++ bytes ":" ++
      calcSignature p context.credentials.accessKeySecret string
  stamp_stamp := stampDate_stampDate
  stamp_assign t name value headers hname :=
    assign_stamp (ToGmtTime t) value headers (unstamped hname).2.1
  find_stamp t name headers hname := by
    have hnot := (unstamped hname).2.1
    rw [SortedMap.equivalent_comm] at hnot
    rw [stampDate, SortedMap.find?_insertOrAssign, hnot]
    rfl
  run_eq call request context hheader := run_header p call request context hheader
  frame _ _ _ _ _ _ _ := ⟨rfl, rfl⟩

end V1

/-!
# Version 4
-/

namespace V4

theorem stampDates_stampDates (t t' : Int) (headers : HeaderCollection) :
    stampDates t (stampDates t' headers) = stampDates t headers := by
  have hnames : SortedMap.equivalent caseInsensitiveLess
        (bytes "x-oss-content-sha256") (bytes "x-oss-date") = false ∧
      SortedMap.equivalent caseInsensitiveLess
        (bytes "x-oss-content-sha256") (bytes "Date") = false ∧
      SortedMap.equivalent caseInsensitiveLess (bytes "Date") (bytes "x-oss-date") =
        false := by decide
  unfold stampDates
  rw [SortedMap.emplace_insertOrAssign_comm hnames.1,
    SortedMap.emplace_insertOrAssign_comm hnames.2.1, SortedMap.emplace_emplace,
    SortedMap.insertOrAssign_comm hnames.2.2, SortedMap.insertOrAssign_insertOrAssign,
    SortedMap.insertOrAssign_insertOrAssign]

theorem stampDates_assign (t : Int) (name : ByteString) (value : Option ByteString)
    (headers : HeaderCollection)
    (hname : name = bytes "x-oss-security-token" ∨ name = bytes "Authorization") :
    stampDates t (assignSome name value headers) =
      assignSome name value (stampDates t headers) := by
  rcases unstamped hname with ⟨hdate, hgmt, hhash⟩
  unfold stampDates
  rw [assign_stamp _ _ _ hdate, assign_stamp _ _ _ hgmt]
  cases value with
  | none => rfl
  | some v =>
      rw [SortedMap.equivalent_comm] at hhash
      exact (SortedMap.emplace_insertOrAssign_comm hhash _ _ _).symm

theorem find_stampDates (t : Int) (name : ByteString) (headers : HeaderCollection)
    (hname : name = bytes "x-oss-security-token" ∨ name = bytes "Authorization") :
    (stampDates t headers).find? name = headers.find? name := by
  rcases unstamped hname with ⟨hdate, hgmt, hhash⟩
  rw [SortedMap.equivalent_comm] at hdate hgmt hhash
  unfold stampDates
  rw [SortedMap.find?_emplace, hhash, SortedMap.find?_insertOrAssign _ _ name,
    hgmt, SortedMap.find?_insertOrAssign _ _ name, hdate]
  rfl

theorem run_header (p : Platform σ) (call : SignCall σ) (request : RequestMessage σ)
    (context : SigningContext)
    (hheader : context.authMethodQuery = false) :
    call.run (SignerV4 p) (request, context) =
      authHeader p request (call.context context) call.env := by
  have hkeys : (call.context context).credentials.hasKeys = true := call.hasKeys
  have hquery : (call.context context).authMethodQuery = false := hheader
  simp only [SignCall.run, SignerV4, hkeys, hquery, Bool.not_true, Bool.false_eq_true,
    if_false]

/-- `signer::v4::authHeader`, as signing in the headers. -/
def signing (p : Platform σ) : HeaderSigning σ where
  signer := SignerV4 p
  time := SignCall.timeNow p
  stamp := stampDates
  stringToSign context t request headers :=
    buildStringToSign p (datetimeOf t) (scopeOf context t)
      (headerCanonical context request headers)
  authorization context t headers string :=
    authorization p context t
      (signedAdditionalHeaders headers context.additionalHeaders) string
  stamp_stamp := stampDates_stampDates
  stamp_assign := stampDates_assign
  find_stamp := find_stampDates
  run_eq call request context hheader := run_header p call request context hheader
  frame _ _ _ _ _ _ _ := ⟨rfl, rfl⟩

/-!
# The additional headers
-/

def picks (headers : HeaderCollection) (lowerKey : ByteString) : Bool :=
  !isDefaultSignedHeader lowerKey && (headers.find? lowerKey).isSome

/-- A set of names. -/
def nameSet (names : List ByteString) : HeaderSet :=
  names.foldl (fun result name => result.emplace name ()) SortedMap.empty

theorem nameSet_concat (names : List ByteString) (name : ByteString) :
    nameSet (names ++ [name]) = (nameSet names).emplace name () := by
  unfold nameSet
  rw [List.foldl_append]
  rfl

theorem signedAdditionalHeaders_eq (headers : HeaderCollection)
    (names : List ByteString) :
    signedAdditionalHeaders headers names =
      nameSet ((names.map ToLower).filter (picks headers)) := by
  unfold signedAdditionalHeaders nameSet
  rw [List.foldl_filter, List.foldl_map]
  congr 1
  funext result key
  cases hdefault : isDefaultSignedHeader (ToLower key) with
  | true => simp only [picks, hdefault, if_true, Bool.not_true, Bool.false_and,
      Bool.false_eq_true, if_false]
  | false => simp only [picks, hdefault, Bool.false_eq_true, if_false, Bool.not_false,
      Bool.true_and]

theorem find?_nameSet (names : List ByteString) (name : ByteString) :
    ((nameSet names).find? name).isSome = true ↔
      exists key, key ∈ names ∧
        SortedMap.equivalent caseInsensitiveLess key name = true := by
  induction names using List.reverseRecOn with
  | nil =>
      constructor
      · intro hsome
        cases hsome
      · intro hkey
        rcases hkey with ⟨key, hmem, _⟩
        cases hmem
  | append_singleton names key ih =>
      rw [nameSet_concat, SortedMap.find?_emplace]
      cases hsame : SortedMap.equivalent caseInsensitiveLess key name with
      | true =>
          exact ⟨fun _ => ⟨key, List.mem_append_right _ List.mem_cons_self, hsame⟩,
            fun _ => rfl⟩
      | false =>
          refine ih.trans ?_
          constructor
          · intro hkey
            rcases hkey with ⟨key', hmem, hkey'⟩
            exact ⟨key', List.mem_append_left _ hmem, hkey'⟩
          · intro hkey
            rcases hkey with ⟨key', hmem, hkey'⟩
            rcases List.mem_append.mp hmem with hold | hnew
            · exact ⟨key', hold, hkey'⟩
            · rw [List.mem_singleton.mp hnew, hsame] at hkey'
              cases hkey'

/-- One more name that is picked is one more name in the set. -/
theorem nameSet_filter {pick pick' : ByteString -> Bool} {name : ByteString}
    {names : List ByteString}
    (hname : pick' name = true)
    (hnot : pick name = false)
    (hsame : forall key, key ∈ names -> key ≠ name -> pick' key = pick key)
    (hdistinct : forall key, key ∈ names -> key ≠ name ->
      SortedMap.equivalent caseInsensitiveLess name key = false) :
    nameSet (names.filter pick') =
      if name ∈ names then (nameSet (names.filter pick)).emplace name ()
      else nameSet (names.filter pick) := by
  induction names using List.reverseRecOn with
  | nil => rfl
  | append_singleton names key ih =>
      have hrest := ih (fun key' hkey' => hsame key' (List.mem_append_left _ hkey'))
        fun key' hkey' => hdistinct key' (List.mem_append_left _ hkey')
      have hlast : key ∈ names ++ [key] :=
        List.mem_append_right _ List.mem_cons_self
      rw [List.filter_append, List.filter_append, List.filter_singleton,
        List.filter_singleton]
      by_cases hkey : key = name
      · have hmem : name ∈ names ++ [key] := hkey ▸ hlast
        rw [if_pos hmem, hkey, hname, hnot, cond_true, cond_false, List.append_nil,
          nameSet_concat, hrest]
        split
        · exact SortedMap.emplace_emplace _ _ _ _
        · rfl
      · have hmem : name ∈ names ++ [key] ↔ name ∈ names := by
          simp [Ne.symm hkey]
        rw [hsame key hlast hkey]
        simp only [hmem]
        cases pick key with
        | false =>
            rw [cond_false, List.append_nil, List.append_nil]
            exact hrest
        | true =>
            rw [cond_true, nameSet_concat, nameSet_concat, hrest]
            split
            · exact SortedMap.emplace_comm (hdistinct key hlast hkey) _ _ _
            · rfl

/-- The `Authorization` header is one of the additional headers. -/
def listsAuthorization (context : SigningContext) : Prop :=
  bytes "authorization" ∈ context.additionalHeaders.map ToLower

section Authorization

variable {context : SigningContext} {headers : HeaderCollection}

theorem picks_authorization (value lowerKey : ByteString)
    (hunseen : (headers.find? (bytes "Authorization")).isSome = true ∨
      ToLower lowerKey ≠ bytes "authorization") :
    picks (headers.insertOrAssign (bytes "Authorization") value) lowerKey =
      picks headers lowerKey := by
  unfold picks
  rw [SortedMap.find?_insertOrAssign]
  split
  · rename_i hsame
    rcases hunseen with hsome | hother
    · rw [← headers.find?_congr hsame, hsome]
      rfl
    · exact absurd (lower_authorization (by rwa [SortedMap.equivalent_comm])) hother
  · rfl

theorem signedAdditionalHeaders_same (value : ByteString)
    (hunseen : (headers.find? (bytes "Authorization")).isSome = true ∨
      ¬ listsAuthorization context) :
    signedAdditionalHeaders (headers.insertOrAssign (bytes "Authorization") value)
        context.additionalHeaders =
      signedAdditionalHeaders headers context.additionalHeaders := by
  rw [signedAdditionalHeaders_eq, signedAdditionalHeaders_eq]
  congr 1
  refine List.filter_congr fun lowerKey hmem => picks_authorization value lowerKey ?_
  refine hunseen.imp id fun hnot hlower => hnot ?_
  rcases List.mem_map.mp hmem with ⟨key, _, hkey⟩
  rw [← hkey, ToLower_ToLower, hkey] at hlower
  unfold listsAuthorization
  rw [← hlower]
  exact hmem

/-- A header that was not there becomes one of the additional headers. -/
theorem signedAdditionalHeaders_new (value : ByteString)
    (hlists : listsAuthorization context)
    (hnone : headers.find? (bytes "Authorization") = none) :
    (signedAdditionalHeaders headers context.additionalHeaders).find?
        (bytes "authorization") = none ∧
      signedAdditionalHeaders (headers.insertOrAssign (bytes "Authorization") value)
          context.additionalHeaders =
        (signedAdditionalHeaders headers context.additionalHeaders).emplace
          (bytes "authorization") () := by
  have hsame : SortedMap.equivalent caseInsensitiveLess (bytes "Authorization")
      (bytes "authorization") = true := by decide
  have hlower : ToLower (bytes "authorization") = bytes "authorization" := by decide
  have hdefault : isDefaultSignedHeader (bytes "authorization") = false := by decide
  unfold listsAuthorization at hlists
  have hnot : picks headers (bytes "authorization") = false := by
    unfold picks
    rw [← headers.find?_congr hsame, hnone]
    exact Bool.and_false _
  constructor
  · rw [← Option.not_isSome_iff_eq_none, signedAdditionalHeaders_eq, find?_nameSet]
    intro hkey
    rcases hkey with ⟨key, hmem, hequal⟩
    rcases List.mem_filter.mp hmem with ⟨_, hpicks⟩
    rw [SortedMap.equivalent_comm] at hequal
    have hfound : headers.find? key = none := by
      rw [← headers.find?_congr (SortedMap.equivalent_trans hsame hequal)]
      exact hnone
    unfold picks at hpicks
    rw [hfound] at hpicks
    simp at hpicks
  · rw [signedAdditionalHeaders_eq, signedAdditionalHeaders_eq,
      @nameSet_filter (picks headers) _ (bytes "authorization"),
      if_pos hlists]
    · unfold picks
      rw [SortedMap.find?_insertOrAssign, if_pos hsame, hdefault]
      rfl
    · exact hnot
    · intro key hmem hne
      rcases List.mem_map.mp hmem with ⟨name, _, hname⟩
      refine picks_authorization value key (Or.inr ?_)
      rw [← hname, ToLower_ToLower, hname]
      exact hne
    · intro key hmem hne
      rcases List.mem_map.mp hmem with ⟨name, _, hname⟩
      rw [← hname, ← hlower, equivalent_ToLower, hlower, hname]
      exact decide_eq_false (Ne.symm hne)

/-!
# The signature in the headers
-/

theorem length_StringJoin (delimiter : ByteString) (elements : List ByteString) :
    (StringJoin delimiter elements).length =
      (elements.map List.length).sum + delimiter.length * (elements.length - 1) := by
  induction elements with
  | nil => rfl
  | cons element rest ih =>
      cases rest with
      | nil => simp [StringJoin]
      | cons next rest' =>
          have hjoin : StringJoin delimiter (element :: next :: rest') =
              element ++ delimiter ++ StringJoin delimiter (next :: rest') := rfl
          rw [hjoin, List.length_append, List.length_append, ih]
          simp only [List.map_cons, List.sum_cons, List.length_cons,
            Nat.add_sub_cancel, Nat.mul_add_one]
          omega

/-- What the `Authorization` header says of the additional headers. -/
def additionalText (additionalHeaders : HeaderSet) : ByteString :=
  if additionalHeaders.isEmpty then []
  else bytes ",AdditionalHeaders=" ++ toHeaderSetString additionalHeaders

theorem length_additionalText {set : HeaderSet}
    (hnew : set.find? (bytes "authorization") = none) :
    (additionalText set).length <
      (additionalText (set.emplace (bytes "authorization") ())).length := by
  rcases SortedMap.entries_emplace_new () hnew with ⟨before, after, hentries, hplaced⟩
  have hname : (ToLower (bytes "authorization")).length = 13 := by decide
  have hdelimiter : (bytes ";").length = 1 := by decide
  have hempty : (set.emplace (bytes "authorization") ()).isEmpty = false := by
    unfold SortedMap.isEmpty
    rw [hplaced]
    cases before <;> rfl
  have hstring : (toHeaderSetString set).length <
      (toHeaderSetString (set.emplace (bytes "authorization") ())).length := by
    unfold toHeaderSetString
    rw [hplaced, hentries, length_StringJoin, length_StringJoin, hdelimiter]
    simp only [List.map_append, List.map_cons, List.sum_append, List.sum_cons,
      List.length_append, List.length_cons, List.length_map, hname]
    omega
  unfold additionalText
  rw [hempty, if_neg Bool.false_ne_true, List.length_append]
  split
  · exact Nat.lt_of_lt_of_le (by decide) (Nat.le_add_right _ _)
  · rw [List.length_append]
    omega

theorem length_buildSignature (p : Platform σ)
    (keySecrect date region product stringToSign : ByteString) :
    (buildSignature p keySecrect date region product stringToSign).length = 64 := by
  unfold buildSignature
  simp only [length_LowerHexToString, Vector.length_toList]

/-- Texts of different sets of additional headers differ, whatever they sign. -/
theorem authorization_ne (p : Platform σ) (context : SigningContext) (t : Int)
    {set : HeaderSet} (string string' : ByteString)
    (hnew : set.find? (bytes "authorization") = none) :
    authorization p context t (set.emplace (bytes "authorization") ()) string ≠
      authorization p context t set string' := by
  intro hsame
  have hlength := congrArg List.length hsame
  have hless := length_additionalText hnew
  unfold authorization at hlength
  change (_ ++ additionalText _ ++ _ ++ _).length =
    (_ ++ additionalText _ ++ _ ++ _).length at hlength
  simp only [List.length_append, length_buildSignature] at hlength
  omega

/-!
# The canonical request
-/

/-- What the canonical headers say of an `Authorization` header that is listed. -/
def authorizationLine (value : ByteString) : ByteString :=
  if (Trim value).isEmpty then [] else headerLine (bytes "authorization", Trim value)

theorem authorizationLine_inj {value value' : ByteString} :
    authorizationLine value = authorizationLine value' ↔ Trim value = Trim value' := by
  constructor
  · intro hline
    unfold authorizationLine at hline
    split at hline
    · rename_i hempty
      split at hline
      · rename_i hempty'
        rw [List.isEmpty_iff.mp hempty, List.isEmpty_iff.mp hempty']
      · cases hline
    · split at hline
      · cases hline
      · unfold headerLine at hline
        exact List.append_cancel_left (List.append_cancel_right hline)
  · intro htrim
    unfold authorizationLine
    rw [htrim]

theorem hashedPayload_authorization (headers : HeaderCollection) (value : ByteString) :
    hashedPayload (headers.insertOrAssign (bytes "Authorization") value) =
      hashedPayload headers := by
  have hother : ¬ SortedMap.equivalent caseInsensitiveLess (bytes "Authorization")
      (bytes "x-oss-content-sha256") = true := by decide
  unfold hashedPayload
  rw [SortedMap.find?_insertOrAssign, if_neg hother]

theorem canonicalHeader_authorization (set : HeaderSet)
    {header : ByteString × ByteString}
    (hsame : SortedMap.equivalent caseInsensitiveLess header.1 (bytes "Authorization") =
      true) :
    canonicalHeader set header =
      if (Trim header.2).isEmpty then none
      else if (set.find? (bytes "authorization")).isSome then
        some (bytes "authorization", Trim header.2)
      else none := by
  have hdefault : isDefaultSignedHeader (bytes "authorization") = false := by decide
  unfold canonicalHeader
  simp only [lower_authorization hsame, hdefault, Bool.false_eq_true, if_false]

/-- A signature does not cover an `Authorization` header that is not listed. -/
theorem headerCanonical_unlisted (request : RequestMessage σ) (value : ByteString)
    (hunlisted : ¬ listsAuthorization context) :
    headerCanonical context request
        (headers.insertOrAssign (bytes "Authorization") value) =
      headerCanonical context request headers := by
  have hset := @signedAdditionalHeaders_same _ headers value (Or.inr hunlisted)
  have hnone : (signedAdditionalHeaders headers context.additionalHeaders).find?
      (bytes "authorization") = none := by
    rw [← Option.not_isSome_iff_eq_none, signedAdditionalHeaders_eq, find?_nameSet]
    intro hkey
    rcases hkey with ⟨key, hmem, hequal⟩
    have hnames := (List.mem_filter.mp hmem).1
    rcases List.mem_map.mp hnames with ⟨name, _, hname⟩
    have hlower := ToLower_congr hequal
    rw [← hname, ToLower_ToLower, hname] at hlower
    have hkey : key = bytes "authorization" := hlower.trans (by decide)
    rw [hkey] at hnames
    exact hunlisted hnames
  have hcanonical : canonicalHeaders
        (headers.insertOrAssign (bytes "Authorization") value)
        (signedAdditionalHeaders headers context.additionalHeaders) =
      canonicalHeaders headers
        (signedAdditionalHeaders headers context.additionalHeaders) := by
    refine SortedMap.filterMap_insertOrAssign _ (fun header hsame => ?_) headers value
    rw [canonicalHeader_authorization _ hsame, hnone]
    split
    · rfl
    · rfl
  unfold headerCanonical buildCanonicalReuqest
  rw [hset, hcanonical, hashedPayload_authorization]

/-- A listed `Authorization` header is covered with the value that it has. -/
theorem headerCanonical_listed (request : RequestMessage σ) {old : ByteString}
    (value : ByteString)
    (hlists : listsAuthorization context)
    (hfound : headers.find? (bytes "Authorization") = some old) :
    headerCanonical context request
        (headers.insertOrAssign (bytes "Authorization") value) =
      headerCanonical context request headers ↔ Trim value = Trim old := by
  have hsome : (headers.find? (bytes "Authorization")).isSome = true := by
    rw [hfound]
    rfl
  have hset := @signedAdditionalHeaders_same context _ value (Or.inl hsome)
  obtain ⟨set, hsetEq⟩ : exists set, set =
    signedAdditionalHeaders headers context.additionalHeaders := ⟨_, rfl⟩
  have hmember : (set.find? (bytes "authorization")).isSome = true := by
    have hsame : SortedMap.equivalent caseInsensitiveLess (bytes "Authorization")
      (bytes "authorization") = true := by decide
    have hpicks : picks headers (bytes "authorization") = true := by
      unfold picks
      rw [← headers.find?_congr hsame, hsome]
      decide
    rw [hsetEq, signedAdditionalHeaders_eq, find?_nameSet]
    exact ⟨_, List.mem_filter.mpr ⟨hlists, hpicks⟩, SortedMap.equivalent_refl _⟩
  have hself := SortedMap.insertOrAssign_eq_self hfound
  rw [SortedMap.find?_eq, Option.map_eq_some_iff] at hfound
  rcases hfound with ⟨entry, hentry, hold⟩
  have hkey : SortedMap.equivalent caseInsensitiveLess entry.1
      (bytes "Authorization") = true := by
    have hpred := List.find?_some hentry
    exact hpred
  have hline : forall v, lineOf set (entry.1, v) = authorizationLine v := by
    intro v
    unfold lineOf
    rw [@canonicalHeader_authorization set (entry.1, v) hkey, hmember]
    unfold authorizationLine
    split
    · rfl
    · exact List.append_nil _
  rcases buildCanonicalReuqest_entry request.method
    (toResource context.bucket context.key) (ToEncodedParameters request.uri) set
    hentry with ⟨before, after, _, htext⟩
  have hcanonical : forall v, buildCanonicalReuqest request.method
      (toResource context.bucket context.key) (ToEncodedParameters request.uri)
      (headers.insertOrAssign (bytes "Authorization") v) set =
        before ++ (authorizationLine v ++ (after ++ hashedPayload headers)) := by
    intro v
    rw [htext, hline, hashedPayload_authorization]
  have hfresh := hcanonical old
  rw [hself] at hfresh
  unfold headerCanonical
  rw [hset, ← hsetEq, hcanonical, hfresh, List.append_right_inj, List.append_left_inj]
  exact authorizationLine_inj

end Authorization

end V4

/-!
# When signing again is signing once
-/

/-- The canonical request of a call after these calls. -/
def V4.lastCanonical (p : Platform σ) (calls : List (SignCall σ)) (last : SignCall σ)
    (request : RequestMessage σ) (context : SigningContext) : ByteString :=
  headerCanonical (last.context context) request
    (stampToken last.credentials (stampDates (last.timeNow p)
      (runCalls (SignerV4 p) calls (request, context)).1.headers))

/-- A listed `Authorization` header reads as it did before the calls. -/
def V4.AuthorizationUnseen (p : Platform σ) (calls : List (SignCall σ))
    (request : RequestMessage σ) (context : SigningContext) : Prop :=
  listsAuthorization context ->
    ((runCalls (SignerV4 p) calls (request, context)).1.headers.find?
        (bytes "Authorization")).map Trim =
      (request.headers.find? (bytes "Authorization")).map Trim

section Resigning

variable {p : Platform σ} {calls : List (SignCall σ)} {last : SignCall σ}
variable {request : RequestMessage σ} {context : SigningContext}

theorem find?_freshHeaders (S : HeaderSigning σ) :
    (S.freshHeaders last request).find? (bytes "Authorization") =
      request.headers.find? (bytes "Authorization") := by
  have hother : ¬ SortedMap.equivalent caseInsensitiveLess
      (bytes "x-oss-security-token") (bytes "Authorization") = true := by decide
  unfold HeaderSigning.freshHeaders
  rw [stampToken_eq, find?_assignSome, if_neg hother, S.find_stamp _ _ _ (Or.inr rfl)]

theorem V1.signsAfresh_iff (hheader : context.authMethodQuery = false) :
    SignsAfresh (SignerV1 p) calls last request context ↔
      TokenGone calls last request := by
  rcases @Signer.signsAfresh_iff _ (V1.signing p) request _ calls last hheader with
    ⟨auth, _, _, hiff⟩
  refine hiff.trans ⟨fun hgood => hgood.1, fun hgone => ?_⟩
  have hstring : (V1.signing p).stringToSign (last.context context)
        ((V1.signing p).time last) request
        (assignSome (bytes "Authorization") auth ((V1.signing p).freshHeaders last request)) =
      (V1.signing p).stringToSign (last.context context) ((V1.signing p).time last)
        request ((V1.signing p).freshHeaders last request) := by
    cases auth with
    | none => rfl
    | some value => exact V1.calcStringToSign_authorization request _ _ value
  exact ⟨hgone, hstring, by rw [hstring]; rfl⟩

/-- Headers with one canonical request and one set of names get one signature. -/
theorem V4.sameSignature {headers headers' : HeaderCollection}
    (hset : signedAdditionalHeaders headers context.additionalHeaders =
      signedAdditionalHeaders headers' context.additionalHeaders)
    (hcanonical : headerCanonical (last.context context) request headers =
      headerCanonical (last.context context) request headers') :
    let string := (V4.signing p).stringToSign (last.context context)
      ((V4.signing p).time last) request
    let text := (V4.signing p).authorization (last.context context)
      ((V4.signing p).time last)
    string headers = string headers' ∧
      text headers (string headers) = text headers' (string headers') := by
  intro string text
  have hstring : string headers = string headers' :=
    congrArg (V4.buildStringToSign p _ _) hcanonical
  refine ⟨hstring, ?_⟩
  rw [hstring]
  exact congrArg (fun set => V4.authorization p _ _ set _) hset

theorem V4.signsAfresh_iff (hheader : context.authMethodQuery = false)
    (hcollision :
      p.HashSh256 (lastCanonical p calls last request context) =
        p.HashSh256 (lastCanonical p [] last request context) ->
      lastCanonical p calls last request context =
        lastCanonical p [] last request context) :
    SignsAfresh (SignerV4 p) calls last request context ↔
      TokenGone calls last request ∧ AuthorizationUnseen p calls request context := by
  rcases @Signer.signsAfresh_iff _ (V4.signing p) request _ calls last hheader with
    ⟨auth, hfind, hagain, hiff⟩
  refine hiff.trans (and_congr_right fun hgone => ?_)
  have hfresh := @find?_freshHeaders _ last request (V4.signing p)
  obtain ⟨fresh, hfreshEq⟩ : exists fresh,
    fresh = (V4.signing p).freshHeaders last request := ⟨_, rfl⟩
  change (runCalls (SignerV4 p) calls (request, context)).1.headers.find? _ = _ at hfind
  unfold AuthorizationUnseen
  rw [hfind]
  rw [← hfreshEq] at hfresh ⊢
  cases auth with
  | none => exact ⟨fun _ _ => rfl, fun _ => ⟨rfl, rfl⟩⟩
  | some value =>
      have hagainEq : lastCanonical p calls last request context =
          headerCanonical (last.context context) request
            (fresh.insertOrAssign (bytes "Authorization") value) := by
        rw [hfreshEq]
        exact congrArg (headerCanonical (last.context context) request) (hagain hgone)
      have hfreshCanonical : lastCanonical p [] last request context =
          headerCanonical (last.context context) request fresh := by
        rw [hfreshEq]
        rfl
      rw [hagainEq, hfreshCanonical] at hcollision
      by_cases hlists : listsAuthorization context
      · rw [← hfresh]
        cases hfound : fresh.find? (bytes "Authorization") with
        | none =>
            rcases signedAdditionalHeaders_new value hlists hfound with ⟨hnew, hmore⟩
            constructor
            · intro hsame
              have htext := hsame.2
              change authorization p _ _ (signedAdditionalHeaders
                (fresh.insertOrAssign (bytes "Authorization") value)
                context.additionalHeaders) _ = _ at htext
              rw [hmore] at htext
              exact absurd htext (authorization_ne p _ _ _ _ hnew)
            · intro hunseen
              cases hunseen hlists
        | some old =>
            have hsome : (fresh.find? (bytes "Authorization")).isSome = true := by
              rw [hfound]
              rfl
            have htrim := @headerCanonical_listed _ (last.context context) _ request _
                value hlists hfound
            constructor
            · intro hsame _
              have hhash := List.append_cancel_left hsame.1
              exact congrArg some (htrim.mp (hcollision hhash))
            · intro hunseen
              have hread := Option.some.inj (hunseen hlists)
              exact sameSignature
                (signedAdditionalHeaders_same value (Or.inl hsome)) (htrim.mpr hread)
      · have hcanonical := @headerCanonical_unlisted _ (last.context context) fresh
          request value hlists
        refine ⟨fun _ hlisted => absurd hlisted hlists, fun _ => ?_⟩
        exact sameSignature (signedAdditionalHeaders_same value (Or.inr hlists)) hcanonical

/--
The two signers, called any number of times on one request, sign it as they would
sign a fresh copy, except that a token stays that no later token replaces, and that
version 4 covers the `Authorization` header of an earlier call when it is listed.
-/
theorem resigning_iff (hheader : context.authMethodQuery = false)
    (hcollision :
      p.HashSh256 (V4.lastCanonical p calls last request context) =
        p.HashSh256 (V4.lastCanonical p [] last request context) ->
      V4.lastCanonical p calls last request context =
        V4.lastCanonical p [] last request context) :
    (SignsAfresh (SignerV4 p) calls last request context ↔
      TokenGone calls last request ∧ V4.AuthorizationUnseen p calls request context) ∧
    (SignsAfresh (SignerV1 p) calls last request context ↔
      TokenGone calls last request) :=
  ⟨V4.signsAfresh_iff hheader hcollision, V1.signsAfresh_iff hheader⟩

end Resigning

/-!
# A token that stays
-/

def textOf (lines : List String) : ByteString :=
  StringJoin (bytes "\n") (lines.map bytes)

/-- The hash functions, on what the signers hash for the requests below. -/
def retryPlatform : Platform Unit where
  time _ := 1702743657
  sha256 data := digest 32
    (if data = textOf ["PUT", "/bucket/1.txt", "", "content-type:text/plain",
        "x-oss-content-sha256:UNSIGNED-PAYLOAD", "x-oss-date:20231216T162057Z",
        "x-oss-security-token:token", "", "", "UNSIGNED-PAYLOAD"]
      then 0x193af9542a279f5dd9f3e3f6035e5b8fbec5af82685d3018a9968f63c6dfb08f
      else 0x325fd860d373eec708694222eaa8c4c11b5782b2386f738e7b160bcbde37dea9)
  hmacSha256 data _ := digest 32
    (if data = bytes "20231216" then
      0x151acc75ab7203acc219c35ef7415d0c604d059c7140665fe78233ec8ae7f9ea
    else if data = bytes "cn-hangzhou" then
      0xcd7fb718a1d15d167938c1ea34698de973b43added106b102eba0973c9aad028
    else if data = bytes "oss" then
      0xfde9c360ae5165f5a84690330c8bc545e6bde502ba8ba4972db81e5a2ea80bec
    else if data = bytes "aliyun_v4_request" then
      0xb412a03b134ebddd720f5167b5de6db66620ebb3b01cff4d49e3ccb09f8de97f
    else if data = textOf ["OSS4-HMAC-SHA256", "20231216T162057Z",
        "20231216/cn-hangzhou/oss/aliyun_v4_request"] ++ bytes "\n" ++
        bytes "193af9542a279f5dd9f3e3f6035e5b8f" ++
        bytes "bec5af82685d3018a9968f63c6dfb08f"
      then 0x7427326ec8fe376952f8f1c5fc007ba03e142e3a970525d7b1a3da169156bfe9
      else 0x94b0026079c0bbbd05c7cbf18cebdcefaca973aa4fe324074859836f835d0dc7)
  hmacSha1 data _ := digest 20
    (if data = textOf ["PUT", "", "text/plain", "Sat, 16 Dec 2023 16:20:57 GMT",
        "x-oss-security-token:token", "/bucket/1.txt"]
      then 0x77a3341523cd8924a0f0766eae73d3be90ba8630
      else 0xac9606f199667a7ab85471dd24762bfaca8016c6)

def retryRequest : RequestMessage Unit where
  method := bytes "PUT"
  uri := bytes "http://bucket.oss-cn-hangzhou.aliyuncs.com/1.txt"
  headers := SortedMap.ofList [(bytes "content-type", bytes "text/plain")]
  body := none

def retryContext : SigningContext :=
  { SigningContext.empty with
    product := bytes "oss"
    region := bytes "cn-hangzhou"
    bucket := bytes "bucket"
    key := bytes "1.txt" }

def retryCall (sessionToken : String) : SignCall Unit where
  credentials := ⟨bytes "ak", bytes "sk", bytes sessionToken, none, false⟩
  hasKeys := rfl
  signTimeInEpoch := 0
  clockOffset := 0
  env := ()

/-- Credentials that get a token are no trouble. -/
theorem resigning_iff_token :
    SignsAfresh (SignerV4 retryPlatform) [retryCall ""] (retryCall "token")
        retryRequest retryContext ∧
      SignsAfresh (SignerV1 retryPlatform) [retryCall ""] (retryCall "token")
        retryRequest retryContext := by
  have hgone : TokenGone [retryCall ""] (retryCall "token") retryRequest := by
    intro token htoken
    cases htoken
  have hunlisted : ¬ V4.listsAuthorization retryContext := by
    unfold V4.listsAuthorization
    decide
  have hresigning := @resigning_iff _ retryPlatform [retryCall ""] (retryCall "token")
      retryRequest retryContext rfl (fun _ => by decide +kernel)
  exact ⟨hresigning.1.mpr ⟨hgone, fun hlisted => absurd hlisted hunlisted⟩,
    hresigning.2.mpr hgone⟩

/-- Credentials that lose their token are signed with it. -/
theorem not_signsAfresh_without_token :
    ¬ SignsAfresh (SignerV4 retryPlatform) [retryCall "token"] (retryCall "")
        retryRequest retryContext ∧
      ¬ SignsAfresh (SignerV1 retryPlatform) [retryCall "token"] (retryCall "")
        retryRequest retryContext := by
  have hstays : ¬ TokenGone [retryCall "token"] (retryCall "") retryRequest := by
    intro hgone
    have hfound := hgone (bytes "token") rfl rfl
    exact absurd hfound (by decide)
  constructor
  · intro hafresh
    rcases @Signer.signsAfresh_iff _ (V4.signing retryPlatform) retryRequest
        retryContext [retryCall "token"] (retryCall "") rfl with ⟨_, _, _, hiff⟩
    exact hstays (hiff.mp hafresh).1
  · intro hafresh
    exact hstays ((V1.signsAfresh_iff rfl).mp hafresh)

end Signer
end OssSdk
