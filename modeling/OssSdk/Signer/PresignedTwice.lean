import OssSdk.Signer.PresignedUrl

/-!
# Signing a presigned URL again

A signer reads the URL that it has signed as a request like any other.  What it has
added before must be overwritten or left out then, or the URL grows.
-/

namespace OssSdk
namespace Signer

open Foundation
open Internal
open Utils

variable {σ : Type}

/--
Signing a presigned URL with the same inputs leaves it as it is, with each of the
parameters of the signature in it once.  Signing it with other credentials gives what
these make of the request that was not signed.
-/
structure SignsAgain
    (authQuery : RequestMessage σ -> SigningContext -> σ ->
      RequestMessage σ × SigningContext)
    (names : List ByteString) (request : RequestMessage σ) (context : SigningContext)
    (env : σ) (other : Credentials) : Prop where
  same :
    (authQuery (authQuery request context env).1 context env).1.uri =
      (authQuery request context env).1.uri
  once : forall name, name ∈ names ->
    copies name (authQuery (authQuery request context env).1 context env).1.uri = 1
  replaced :
    (authQuery (authQuery request context env).1
        { context with credentials := other } env).1.uri =
      (authQuery request { context with credentials := other } env).1.uri

/-!
# Version 4
-/

namespace V4

def signatureNames (request : RequestMessage σ) (context : SigningContext) :
    List ByteString :=
  bytes "x-oss-signature" ::
    authNames context.credentials.sessionToken.isEmpty
      (additionalOf request context).isEmpty

/-- The new credentials overwrite the token, or the request had the same token. -/
def TokenReplaced (uri : ByteString) (cred other : Credentials) : Prop :=
  cred.sessionToken ≠ [] -> other.sessionToken = [] ->
    (ToEncodedParameters uri).find? (bytes "x-oss-security-token") =
      some (UrlEncode cred.sessionToken)

/-- Only the token can be there with some credentials and not with others. -/
theorem mem_authNames_cases {noToken otherToken noHeaders : Bool} {name : ByteString}
    (hmem : name ∈ authNames noToken noHeaders)
    (hother : name ∉ authNames otherToken noHeaders) :
    name = bytes "x-oss-security-token" ∧ noToken = false ∧ otherToken = true := by
  have hall : forall noToken otherToken noHeaders, forall name,
      name ∈ authNames noToken noHeaders -> name ∉ authNames otherToken noHeaders ->
        name = bytes "x-oss-security-token" ∧ noToken = false ∧ otherToken = true := by
    decide +kernel
  exact hall _ _ _ name hmem hother

theorem lookup_eq_none {context : SigningContext} {timeNow : Int} {set : HeaderSet}
    {name : ByteString} :
    (authParameters context timeNow set).lookup name = none ↔
      name ∉ authNames context.credentials.sessionToken.isEmpty set.isEmpty := by
  rw [← authParameters_names context timeNow, List.lookup_eq_none_iff]
  constructor
  · intro hnone hmem
    rcases List.mem_map.mp hmem with ⟨parameter, hin, heq⟩
    exact absurd heq.symm (bne_iff_ne.mp (hnone parameter hin))
  · intro hnot parameter hin
    rw [bne_iff_ne]
    intro heq
    exact hnot (heq ▸ List.mem_map_of_mem hin)

theorem lookup_token {context : SigningContext}
    (htoken : context.credentials.sessionToken ≠ []) (timeNow : Int) (set : HeaderSet) :
    (authParameters context timeNow set).lookup (bytes "x-oss-security-token") =
      some (UrlEncode context.credentials.sessionToken) := by
  unfold authParameters
  rw [if_neg (mt List.isEmpty_iff.mp htoken)]
  rfl

section again

variable (p : Platform σ) (request : RequestMessage σ) (context : SigningContext)
variable (env : σ) (other : Credentials)

/-- What other credentials make of the parameters of a presigned URL. -/
theorem find?_queryParameters_again (timeNow : Int) (set : HeaderSet)
    (name : ByteString) :
    (queryParameters { context with credentials := other } timeNow set
        (authQuery p request context env).1.uri).find? name =
      ((authParameters { context with credentials := other } timeNow set).lookup
        name).or
        (((authParameters context (p.timeNow context env)
            (additionalOf request context)).lookup name).or
          (((ToEncodedParameters request.uri).erase (bytes "x-oss-signature")).find?
            name)) := by
  rw [find?_queryParameters, parameters_authQuery_unsigned, find?_queryParameters]

theorem queryParameters_again_iff :
    queryParameters { context with credentials := other } (p.timeNow context env)
        (additionalOf request context) (authQuery p request context env).1.uri =
      queryParameters { context with credentials := other } (p.timeNow context env)
        (additionalOf request context) request.uri ↔
      TokenReplaced request.uri context.credentials other := by
  have htokenName : bytes "x-oss-signature" ≠ bytes "x-oss-security-token" := by decide
  constructor
  · intro hsame htoken hnone
    have hnew : (authParameters { context with credentials := other }
        (p.timeNow context env) (additionalOf request context)).lookup
          (bytes "x-oss-security-token") = none := by
      rw [lookup_eq_none]
      change bytes "x-oss-security-token" ∉
        authNames other.sessionToken.isEmpty (additionalOf request context).isEmpty
      rw [hnone]
      generalize (additionalOf request context).isEmpty = noHeaders
      revert noHeaders
      decide
    have hfind := congrArg
      (fun parameters => parameters.find? (bytes "x-oss-security-token")) hsame
    change SortedMap.find? _ _ = SortedMap.find? _ _ at hfind
    rw [find?_queryParameters_again, find?_queryParameters, hnew, lookup_token htoken,
      find?_erase, if_neg htokenName] at hfind
    exact hfind.symm
  · intro htokens
    apply ext_find?
    intro name
    rw [find?_queryParameters_again, find?_queryParameters]
    cases hnew : (authParameters { context with credentials := other }
        (p.timeNow context env) (additionalOf request context)).lookup name with
    | some value => rfl
    | none =>
        rw [Option.none_or, Option.none_or]
        cases hold : (authParameters context (p.timeNow context env)
            (additionalOf request context)).lookup name with
        | none => rfl
        | some value =>
            -- only a token that the new credentials do not have
            have hmem : name ∈ authNames context.credentials.sessionToken.isEmpty
                (additionalOf request context).isEmpty := by
              by_contra hnot
              rw [lookup_eq_none.mpr hnot] at hold
              cases hold
            rcases mem_authNames_cases hmem (lookup_eq_none.mp hnew) with
              ⟨hname, hsome, hnone⟩
            have htoken := List.isEmpty_eq_false_iff.mp hsome
            rw [hname, lookup_token htoken] at hold
            rw [hname, find?_erase, if_neg htokenName,
              htokens htoken (List.isEmpty_iff.mp hnone), ← hold]
            rfl

/-- The URL is made of the parameters, and they can be read from it. -/
theorem uri_again_iff :
    (authQuery p (authQuery p request context env).1
        { context with credentials := other } env).1.uri =
      (authQuery p request { context with credentials := other } env).1.uri ↔
      queryParameters { context with credentials := other } (p.timeNow context env)
          (additionalOf request context) (authQuery p request context env).1.uri =
        queryParameters { context with credentials := other } (p.timeNow context env)
          (additionalOf request context) request.uri := by
  constructor
  · intro huri
    have hagain := parameters_authQuery_unsigned p (authQuery p request context env).1
      { context with credentials := other } env
    have hfirst := parameters_authQuery_unsigned p request
      { context with credentials := other } env
    rw [huri] at hagain
    exact hagain.symm.trans hfirst
  · intro hparameters
    have hsent : sentParameters p (authQuery p request context env).1
        { context with credentials := other } (p.timeNow context env) =
          sentParameters p request { context with credentials := other }
            (p.timeNow context env) := by
      have hcanonical : queryCanonical { context with credentials := other }
          (p.timeNow context env) (authQuery p request context env).1 =
            queryCanonical { context with credentials := other }
              (p.timeNow context env) request :=
        congrArg (fun parameters => buildCanonicalReuqest request.method
          (toResource context.bucket context.key) parameters request.headers
          (additionalOf request context)) hparameters
      unfold sentParameters querySignature
      rw [hcanonical]
      exact congrArg (fun parameters => SortedMap.insertOrAssign parameters _ _)
        hparameters
    have hbase : (authQuery p request context env).1.uri.takeWhile (· != 63) =
        request.uri.takeWhile (· != 63) := by
      rw [uri_authQuery]
      exact takeWhile_append_query (query_not_mem_takeWhile _) _
    refine (uri_authQuery p _ _ env).trans ?_
    rw [hbase]
    exact congrArg (fun parameters =>
      request.uri.takeWhile (· != 63) ++ bytes "?" ++ encodedQuery parameters) hsent

theorem copies_authQuery {name : ByteString}
    (hmem : name ∈ signatureNames request context) :
    copies name (authQuery p request context env).1.uri = 1 := by
  have hfound : ((sentParameters p request context
      (p.timeNow context env)).find? name).isSome = true := by
    rcases List.mem_cons.mp hmem with hsignature | hauth
    · rw [hsignature, find?_signature_sentParameters]
      rfl
    · unfold sentParameters
      rw [SortedMap.find?_insertOrAssign]
      split
      · rfl
      · rw [find?_queryParameters]
        cases hlookup : (authParameters context (p.timeNow context env)
            (additionalOf request context)).lookup name with
        | some value => rfl
        | none => exact absurd hauth (lookup_eq_none.mp hlookup)
  unfold copies
  rw [queryEntries_authQuery, countP_entries, if_pos hfound]

theorem signsAgain_iff :
    SignsAgain (authQuery p) (signatureNames request context) request context env
        other ↔
      TokenReplaced request.uri context.credentials other := by
  constructor
  · intro hagain
    exact (queryParameters_again_iff p request context env other).mp
      ((uri_again_iff p request context env other).mp hagain.replaced)
  · intro htokens
    have hsame : TokenReplaced request.uri context.credentials context.credentials :=
      fun htoken hnone => absurd hnone htoken
    have huri := (uri_again_iff p request context env context.credentials).mpr
      ((queryParameters_again_iff p request context env context.credentials).mpr hsame)
    refine ⟨huri, ?_, ?_⟩
    · intro name hmem
      exact copies_authQuery p (authQuery p request context env).1 context env hmem
    · exact (uri_again_iff p request context env other).mpr
        ((queryParameters_again_iff p request context env other).mpr htokens)

end again

end V4

/-!
# Version 1
-/

namespace V1

def signatureNames (context : SigningContext) : List ByteString :=
  bytes "Signature" :: authNames context.credentials.sessionToken.isEmpty

/-- The signature of the URL stays among the parameters, and another one follows. -/
theorem copies_signature_again (p : Platform σ) (request : RequestMessage σ)
    (context : SigningContext) (env : σ) :
    copies (bytes "Signature")
      (authQuery p (authQuery p request context env).1 context env).1.uri = 2 := by
  have hread : ((ToEncodedParameters (authQuery p request context env).1.uri).find?
      (bytes "Signature")).isSome = true := by
    rw [ToEncodedParameters_eq, queryEntries_authQuery]
    exact @find?_ofList_isSome _
        (bytes "Signature", UrlEncode (querySignature p request context env))
        List.mem_concat_self
  have hfound : ((sentParameters p (authQuery p request context env).1 context
      env).find? (bytes "Signature")).isSome = true := by
    unfold sentParameters
    rw [find?_queryParameters, Option.isSome_or, hread, Bool.or_true]
  unfold copies
  rw [queryEntries_authQuery, List.countP_append, countP_entries, if_pos hfound]
  rfl

theorem not_signsAgain (p : Platform σ) (request : RequestMessage σ)
    (context : SigningContext) (env : σ) (other : Credentials) :
    ¬ SignsAgain (authQuery p) (signatureNames context) request context env other := by
  intro hagain
  have honce := hagain.once (bytes "Signature") List.mem_cons_self
  rw [copies_signature_again] at honce
  exact absurd honce (by decide)

end V1

/-!
# Both versions
-/

/--
Version 4 signs a presigned URL again as it should, but for a token that the new
credentials do not have; version 1 never does.
-/
theorem signsAgain_versions (p : Platform σ) (request : RequestMessage σ)
    (context : SigningContext) (env : σ) (other : Credentials) :
    (SignsAgain (V4.authQuery p) (V4.signatureNames request context) request context
        env other ↔
      (context.credentials.sessionToken ≠ [] -> other.sessionToken = [] ->
        (ToEncodedParameters request.uri).find? (bytes "x-oss-security-token") =
          some (UrlEncode context.credentials.sessionToken))) ∧
    ¬ SignsAgain (V1.authQuery p) (V1.signatureNames context) request context env
      other :=
  ⟨V4.signsAgain_iff p request context env other,
    V1.not_signsAgain p request context env other⟩

/-- The hash of `GET`, the expiration time and `/bucket/key` with the key `sk`. -/
def presignedPlatform : Platform Unit where
  time _ := 1702743657
  sha256 _ := digest 32 0
  hmacSha256 _ _ := digest 32 0
  hmacSha1 _ _ := digest 20 0x53ab3f9f387fde51cef32fae51b75f30ccd60b8f

def unsignedRequest : RequestMessage Unit where
  method := bytes "GET"
  uri := bytes "http://bucket.oss-cn-hangzhou" ++ bytes ".aliyuncs.com/key"
  headers := SortedMap.empty
  body := none

def expiringContext : SigningContext :=
  { SigningContext.empty with
    bucket := bytes "bucket"
    key := bytes "key"
    authMethodQuery := true
    credentials := ⟨bytes "ak", bytes "sk", [], none, false⟩
    expirationInEpoch := 1702747257 }

/-- The second signature goes beside the first one. -/
theorem not_signsAgain_unsignedRequest :
    copies (bytes "Signature")
        (V1.authQuery presignedPlatform
          (V1.authQuery presignedPlatform unsignedRequest expiringContext ()).1
          expiringContext ()).1.uri = 2 ∧
      ¬ SignsAgain (V1.authQuery presignedPlatform)
        (V1.signatureNames expiringContext) unsignedRequest expiringContext ()
        expiringContext.credentials :=
  ⟨by decide +kernel,
    V1.not_signsAgain presignedPlatform unsignedRequest expiringContext () _⟩

end Signer
end OssSdk
