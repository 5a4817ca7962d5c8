import OssSdk.Internal.AdditionalHeaders

/-!
# The headers that a presigned URL is reported with

The client picks them again after the signer has picked its own.  It looks at the names
alone, and at the list of its configuration.
-/

namespace OssSdk
namespace Internal

open Foundation
open Signer.V4
open Sync
open Utils

variable {σ : Type}

/-- The same client with another signer. -/
def Sync.ClientImpl.withSigner (c : ClientImpl σ) (signer : Signer σ) : ClientImpl σ :=
  { c with options := { c.options with signer := signer } }

/-- The headers of a map that are lines of the canonical request. -/
def EntersCanonical (context : SigningContext) (headers : HeaderCollection)
    (header : ByteString × ByteString) : Prop :=
  (canonicalHeader (signedAdditionalHeaders headers context.additionalHeaders)
    header).isSome = true

/--
What is reported is what is signed, and is enough to make the same canonical request
again.
-/
structure ReportsSigned (p : Signer.Platform σ) (request : RequestMessage σ)
    (context : SigningContext) (env : σ) (signedHeaders : HeaderCollection) : Prop where
  exact : forall header, header ∈ signedHeaders.entries ↔
    header ∈ request.headers.entries ∧ EntersCanonical context request.headers header
  enough : canonicalRequest p request context env signedHeaders =
    canonicalRequest p request context env request.headers

/-- Every header with a name that is reported is one that is signed. -/
structure ReportedAreSigned (names : List ByteString) (headers : HeaderCollection) :
    Prop where
  listed : forall header, header ∈ headers.entries ->
    (exists name, name ∈ names ∧
      SortedMap.equivalent caseInsensitiveLess name (ToLower header.1) = true) ->
      isDefaultSignedHeader (ToLower header.1) = true
  valued : forall header, header ∈ headers.entries ->
    isDefaultSignedHeader (ToLower header.1) = true -> Trim header.2 ≠ []

section Reported

variable {c : ClientImpl σ} {p : Signer.Platform σ} {input : OperationInput σ}
variable {opts : Option (OperationOptions σ)} {w : Runtime σ}
variable {request : RequestMessage σ} {context : SigningContext} {env : σ}

theorem isSignedHeader_default {name : ByteString}
    (hdefault : isDefaultSignedHeader (ToLower name) = true) :
    c.isSignedHeader name = true := by
  unfold isDefaultSignedHeader at hdefault
  unfold ClientImpl.isSignedHeader
  simp only [hdefault, Bool.true_or]

theorem isSignedHeader_V4 (name : ByteString) :
    (c.withSigner (Signer.SignerV4 p)).isSignedHeader name = true ↔
      isDefaultSignedHeader (ToLower name) = true ∨
        exists listed, listed ∈ c.options.additionalHeaders ∧
          SortedMap.equivalent caseInsensitiveLess listed (ToLower name) = true := by
  have hV4 : decide (bytes "v4" <:+:
      (c.withSigner (Signer.SignerV4 p)).options.signer.getName) = true := by
    change decide (bytes "v4" <:+: bytes "v4") = true
    decide
  unfold ClientImpl.isSignedHeader
  simp only [hV4, Bool.true_and, Bool.or_eq_true, List.any_eq_true]
  unfold isDefaultSignedHeader
  simp only [Bool.or_eq_true]
  exact Iff.rfl

theorem mem_presignSignedHeaders (headers : HeaderCollection)
    (header : ByteString × ByteString) :
    header ∈ (c.presignSignedHeaders headers).entries ↔
      header ∈ headers.entries ∧ c.isSignedHeader header.1 = true := by
  unfold ClientImpl.presignSignedHeaders
  rw [SortedMap.entries_ofList_filter, List.mem_filter]

/-- A header that is always signed is one of those that are reported. -/
theorem find?_presignSignedHeaders (headers : HeaderCollection) {name : ByteString}
    (hdefault : isDefaultSignedHeader (ToLower name) = true) :
    (c.presignSignedHeaders headers).find? name = headers.find? name := by
  rw [SortedMap.find?_eq, SortedMap.find?_eq]
  congr 1
  unfold SortedMap.findEntry ClientImpl.presignSignedHeaders
  rw [SortedMap.entries_ofList_filter, List.find?_filter]
  congr 1
  funext header
  cases hsame : SortedMap.equivalent caseInsensitiveLess header.1 name with
  | false => simp
  | true =>
      rw [← ToLower_congr hsame] at hdefault
      simp [isSignedHeader_default hdefault]

theorem canonicalHeaders_presignSignedHeaders (headers : HeaderCollection) :
    canonicalHeaders (c.presignSignedHeaders headers) SortedMap.empty =
      canonicalHeaders headers SortedMap.empty := by
  unfold canonicalHeaders ClientImpl.presignSignedHeaders
  rw [SortedMap.entries_ofList_filter, List.filterMap_filter]
  congr 1
  funext header
  split
  · rfl
  · rename_i hnot
    unfold canonicalHeader
    simp only
    split
    · rfl
    · split
      · rename_i hdefault
        exact absurd (isSignedHeader_default hdefault) hnot
      · rfl

theorem entersCanonical_iff (hnone : context.additionalHeaders = [])
    {headers : HeaderCollection} {header : ByteString × ByteString} :
    EntersCanonical context headers header ↔
      isDefaultSignedHeader (ToLower header.1) = true ∧ Trim header.2 ≠ [] := by
  have hset : signedAdditionalHeaders headers context.additionalHeaders =
      SortedMap.empty := by
    rw [hnone]
    rfl
  unfold EntersCanonical canonicalHeader
  rw [hset]
  simp only
  split
  · rename_i hblank
    rw [List.isEmpty_iff] at hblank
    simp [hblank]
  · rename_i hvalue
    rw [List.isEmpty_iff] at hvalue
    split
    · rename_i hdefault
      simp [hdefault, hvalue]
    · rename_i hother
      simp [hother]

/-- Whoever sends what is reported has the same canonical request. -/
theorem canonicalRequest_presignSignedHeaders
    (hnone : context.additionalHeaders = []) :
    canonicalRequest p request context env (c.presignSignedHeaders request.headers) =
      canonicalRequest p request context env request.headers := by
  have hset : forall headers : HeaderCollection,
      signedAdditionalHeaders headers context.additionalHeaders = SortedMap.empty := by
    intro headers
    rw [hnone]
    rfl
  have hsame : forall parameters,
      buildCanonicalReuqest request.method (toResource context.bucket context.key)
          parameters (c.presignSignedHeaders request.headers) SortedMap.empty =
        buildCanonicalReuqest request.method (toResource context.bucket context.key)
          parameters request.headers SortedMap.empty := by
    intro parameters
    unfold buildCanonicalReuqest hashedPayload
    rw [canonicalHeaders_presignSignedHeaders, find?_presignSignedHeaders _ (by decide)]
  unfold canonicalRequest queryCanonical headerCanonical
  split
  · simp only [hset]
    exact hsame _
  · rw [hset, hset]
    exact hsame _

theorem reportsSigned_iff (hnone : context.additionalHeaders = []) :
    ReportsSigned p request context env
        ((c.withSigner (Signer.SignerV4 p)).presignSignedHeaders request.headers) ↔
      ReportedAreSigned c.options.additionalHeaders request.headers := by
  constructor
  · intro hreports
    have hboth : forall header, header ∈ request.headers.entries ->
        (c.withSigner (Signer.SignerV4 p)).isSignedHeader header.1 = true ->
          isDefaultSignedHeader (ToLower header.1) = true ∧ Trim header.2 ≠ [] := by
      intro header hmem hreported
      have henters := (hreports.exact header).mp
        ((mem_presignSignedHeaders _ _).mpr ⟨hmem, hreported⟩)
      exact (entersCanonical_iff hnone).mp henters.2
    constructor
    · intro header hmem hlisted
      exact (hboth header hmem ((isSignedHeader_V4 _).mpr (Or.inr hlisted))).1
    · intro header hmem hdefault
      exact (hboth header hmem (isSignedHeader_default hdefault)).2
  · intro hsigned
    refine ⟨?_, canonicalRequest_presignSignedHeaders hnone⟩
    intro header
    rw [mem_presignSignedHeaders, isSignedHeader_V4, entersCanonical_iff hnone]
    refine and_congr_right fun hmem => ?_
    constructor
    · intro hreported
      have hdefault : isDefaultSignedHeader (ToLower header.1) = true := by
        rcases hreported with hdefault | hlisted
        · exact hdefault
        · exact hsigned.listed header hmem hlisted
      exact ⟨hdefault, hsigned.valued header hmem hdefault⟩
    · intro hboth
      exact Or.inl hboth.1

/-!
# What comes out of Presign
-/

/-- The signer is called to sign the query, with keys. -/
theorem presignSigning_context
    (hsigning : c.presignSigning input opts w = some (request, context, env)) :
    context.credentials.hasKeys = true ∧ context.authMethodQuery = true := by
  unfold ClientImpl.presignSigning at hsigning
  split at hsigning
  · split at hsigning
    · cases hsigning
    · simp only at hsigning
      split at hsigning
      · cases hsigning
      · rename_i hkeys
        cases hsigning
        exact ⟨by simpa using hkeys, rfl⟩
  · cases hsigning

theorem presignSigning_withSigner (signer : Signer σ) :
    (c.withSigner signer).presignSigning input opts w =
      c.presignSigning input opts w := rfl

theorem Presign_V4
    (hsigning : c.presignSigning input opts w = some (request, context, env)) :
    exists out, ((c.withSigner (Signer.SignerV4 p)).Presign input opts w).1 = .ok out ∧
      out.signedHeaders =
        (c.withSigner (Signer.SignerV4 p)).presignSignedHeaders request.headers := by
  rcases presignSigning_context hsigning with ⟨hkeys, hquery⟩
  rcases sign_headers p request context env hkeys with ⟨_, hheaders⟩
  rw [hquery, if_pos rfl, signingHeaders, hquery, if_pos rfl] at hheaders
  have hsigned : ((Signer.SignerV4 p).sign request context env).1 = true := by
    simp only [Signer.SignerV4, hkeys, Bool.not_true, Bool.false_eq_true, if_false]
  rw [← presignSigning_withSigner (Signer.SignerV4 p)] at hsigning
  refine ⟨_, ClientImpl.Presign_signing hsigning hsigned, ?_⟩
  rw [← hheaders]
  rfl

theorem Presign_V1
    (hsigning : c.presignSigning input opts w = some (request, context, env)) :
    exists out, ((c.withSigner (Signer.SignerV1 p)).Presign input opts w).1 = .ok out ∧
      out.signedHeaders =
        (c.withSigner (Signer.SignerV1 p)).presignSignedHeaders request.headers := by
  rcases presignSigning_context hsigning with ⟨hkeys, hquery⟩
  rcases Signer.V1.sign_headers p request context env hkeys with ⟨_, hheaders⟩
  rw [hquery, if_pos rfl, Signer.V1.signingHeaders, hquery, if_pos rfl] at hheaders
  have hsigned : ((Signer.SignerV1 p).sign request context env).1 = true := by
    simp only [Signer.SignerV1, hkeys, Bool.not_true, Bool.false_eq_true, if_false]
  rw [← presignSigning_withSigner (Signer.SignerV1 p)] at hsigning
  refine ⟨_, ClientImpl.Presign_signing hsigning hsigned, ?_⟩
  rw [← hheaders]
  rfl

/--
With version 4 exactly what is signed is reported, where no header is reported for the
configuration or a blank value alone; with version 1 all that is signed is reported.
-/
theorem presign_reports_iff (c : ClientImpl σ) (p : Signer.Platform σ)
    (input : OperationInput σ) (opts : Option (OperationOptions σ)) (w : Runtime σ)
    (request : RequestMessage σ) (context : SigningContext) (env : σ)
    (hsigning : c.presignSigning input opts w = some (request, context, env)) :
    ((exists out, ((c.withSigner (Signer.SignerV4 p)).Presign input opts w).1 =
          .ok out ∧ ReportsSigned p request context env out.signedHeaders) ↔
      ReportedAreSigned c.options.additionalHeaders request.headers) ∧
    (exists out, ((c.withSigner (Signer.SignerV1 p)).Presign input opts w).1 =
          .ok out ∧
      forall header,
        header ∈ (Signer.V1.signingHeaders p request context env).entries ->
          Signer.V1.signs (Signer.V1.signingHeaders p request context env) header =
            true ->
          header ∈ out.signedHeaders.entries) := by
  have hnone := presignSigning_list hsigning
  have hquery := (presignSigning_context hsigning).2
  rcases Presign_V4 (p := p) hsigning with ⟨out, hout, hreported⟩
  rcases Presign_V1 (p := p) hsigning with ⟨out', hout', hreported'⟩
  constructor
  · rw [← @reportsSigned_iff _ _ p _ _ env hnone, ← hreported]
    constructor
    · intro hexists
      rcases hexists with ⟨found, hfound, hreports⟩
      rw [hout] at hfound
      cases hfound
      exact hreports
    · intro hreports
      exact ⟨out, hout, hreports⟩
  · refine ⟨out', hout', ?_⟩
    intro header hmem hsigns
    rw [Signer.V1.signingHeaders, hquery, if_pos rfl] at hmem
    rw [hreported', mem_presignSignedHeaders]
    exact ⟨hmem, isSignedHeader_default (Signer.V1.signs_iff.mp hsigns).1⟩

end Reported

theorem presign_reports_iff_plain :
    ((exists out,
        ((presigningClient.withSigner (Signer.SignerV4 presignPlatform)).Presign
          (putObjectInput plainHeaders) none ⟨0, ()⟩).1 = .ok out ∧
        ReportsSigned presignPlatform (presignedRequest plainHeaders) presignedContext ()
          out.signedHeaders) ↔
      ReportedAreSigned [bytes "user-key1"] (presignedRequest plainHeaders).headers) ∧
    (exists out,
        ((presigningClient.withSigner (Signer.SignerV1 presignPlatform)).Presign
          (putObjectInput plainHeaders) none ⟨0, ()⟩).1 = .ok out ∧
      forall header,
        header ∈ (Signer.V1.signingHeaders presignPlatform
          (presignedRequest plainHeaders) presignedContext ()).entries ->
          Signer.V1.signs (Signer.V1.signingHeaders presignPlatform
            (presignedRequest plainHeaders) presignedContext ()) header = true ->
          header ∈ out.signedHeaders.entries) :=
  presign_reports_iff presigningClient presignPlatform (putObjectInput plainHeaders) none
    ⟨0, ()⟩ (presignedRequest plainHeaders) presignedContext () rfl

/-- A header is reported because it is configured, and is not signed. -/
theorem not_reportsSigned_userHeaders :
    presigningClient.presignSigning (putObjectInput userHeaders) none ⟨0, ()⟩ =
        some (presignedRequest userHeaders, presignedContext, ()) ∧
      forall out, (presigningClient.Presign (putObjectInput userHeaders) none
          ⟨0, ()⟩).1 = .ok out ->
        ¬ ReportsSigned presignPlatform (presignedRequest userHeaders) presignedContext ()
          out.signedHeaders := by
  refine ⟨presignSigning_userHeaders, ?_⟩
  intro out hout hreports
  rcases Presign_V4 (p := presignPlatform) presignSigning_userHeaders with
    ⟨out', hout', hreported⟩
  have hsame : out = out' := by
    have hboth := hout.symm.trans hout'
    exact Except.ok.inj hboth
  rw [hsame, hreported, reportsSigned_iff rfl] at hreports
  have hsigned := hreports.listed (bytes "user-key1", bytes "user-value1") (by decide)
    ⟨bytes "user-key1", List.mem_singleton_self _, by decide⟩
  exact absurd hsigned (by decide)

end Internal
end OssSdk
