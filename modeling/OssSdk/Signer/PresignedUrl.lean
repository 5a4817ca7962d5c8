import OssSdk.Signer.SignedHeaders
import OssSdk.Utils.PercentEncoding
import OssSdk.Utils.QueryString

/-!
# The URL that a signature in the query makes

Both signers read the query of the URL, add their parameters and write it again.  What
they have written reads back as the parameters that they have signed.
-/

namespace OssSdk
namespace Signer

open Foundation
open Internal
open Utils

variable {σ : Type}

theorem encodedQuery_eq (parameters : ParameterCollection) :
    encodedQuery parameters =
      StringJoin (bytes "&") (parameters.entries.map queryItem) := rfl

/-!
# Values that are encoded
-/

theorem ampersand_not_mem_LowerHexToString (data : ByteString) :
    38 ∉ LowerHexToString data := by
  have hdigit : forall d : Fin 16, 38 ≠ lowerHexDigit d := by decide
  intro hmem
  rcases List.mem_flatMap.mp hmem with ⟨c, _, hc⟩
  have hc' := c.toNat_lt
  rcases List.mem_cons.mp hc with hhigh | hlow
  · exact hdigit ⟨c.toNat / 16, by omega⟩ hhigh
  · exact hdigit ⟨c.toNat % 16, by omega⟩ (List.mem_singleton.mp hlow)

theorem not_mem_toDecimal {c : UInt8} (hc : c.toNat < 48) (n : Nat) : c ∉ toDecimal n := by
  intro hmem
  have hdigit : isDigit c = true := isDigit_of_mem_toDecimal hmem
  unfold isDigit at hdigit
  have hlow := of_decide_eq_true hdigit
  omega

theorem not_mem_toDecimalInt {c : UInt8} (hc : c.toNat < 48) (hminus : c ≠ 45) (n : Int) :
    c ∉ toDecimalInt n := by
  cases n with
  | ofNat m => exact not_mem_toDecimal hc m
  | negSucc m =>
      intro hmem
      rcases List.mem_cons.mp hmem with heq | hmore
      · exact hminus heq
      · exact not_mem_toDecimal hc (m + 1) hmore

theorem not_mem_twoDigits {c : UInt8} (hc : c.toNat < 48) {n : Nat} (hn : n < 1000) :
    c ∉ twoDigits n := by
  have hdigit : forall d, d < 100 -> c ≠ digitByte d := by
    intro d hd hsame
    have hvalue : c.toNat = (48 + d) % 256 :=
      (congrArg UInt8.toNat hsame).trans UInt8.toNat_ofNat'
    omega
  intro hmem
  rcases List.mem_cons.mp hmem with htens | hones
  · exact hdigit _ (by omega) htens
  · exact hdigit _ (by omega) (List.mem_singleton.mp hones)

/-- The fields of a date are small. -/
theorem gmtime_small (t : Int) :
    (gmtime t).mon + 1 < 1000 ∧ (gmtime t).mday < 1000 ∧ (gmtime t).hour < 1000 ∧
      (gmtime t).min < 1000 ∧ (gmtime t).sec < 1000 := by
  have hdoe : ((t / 86400 + 719468) % 146097).toNat < 146097 := by omega
  have hrest : (t % 86400).toNat < 86400 := by omega
  unfold gmtime
  simp only
  generalize ((t / 86400 + 719468) % 146097).toNat = doe at hdoe
  generalize (t % 86400).toNat = rest at hrest
  generalize hyoe : (doe - doe / 1460 + doe / 36524 - doe / 146096) / 365 = yoe
  have hdoy : doe - (365 * yoe + yoe / 4 - yoe / 100) < 400 := by omega
  generalize doe - (365 * yoe + yoe / 4 - yoe / 100) = doy at hdoy
  refine ⟨?_, ?_, ?_, ?_, ?_⟩
  · split
    · omega
    · omega
  · omega
  · omega
  · omega
  · omega

theorem not_mem_datetimeOf {c : UInt8} (hc : c.toNat < 48) (hminus : c ≠ 45)
    (timeNow : Int) : c ∉ V4.datetimeOf timeNow := by
  have hformat : bytes "%Y%m%dT%H%M%SZ" =
      [37, 89, 37, 109, 37, 100, 84, 37, 72, 37, 77, 37, 83, 90] := by decide
  rcases gmtime_small timeNow with ⟨hmon, hmday, hhour, hmin, hsec⟩
  have htext : V4.datetimeOf timeNow =
      toDecimalInt (gmtime timeNow).year ++ (twoDigits ((gmtime timeNow).mon + 1) ++
        (twoDigits (gmtime timeNow).mday ++ 84 :: (twoDigits (gmtime timeNow).hour ++
          (twoDigits (gmtime timeNow).min ++
            (twoDigits (gmtime timeNow).sec ++ [90]))))) := by
    unfold V4.datetimeOf FormatUnixTime
    rw [hformat]
    rfl
  rw [htext]
  simp only [List.mem_append, List.mem_cons, not_or]
  have hletters : c ≠ 84 ∧ c ≠ 90 := by
    constructor
    · intro heq
      rw [heq] at hc
      exact absurd hc (by decide)
    · intro heq
      rw [heq] at hc
      exact absurd hc (by decide)
  exact ⟨not_mem_toDecimalInt hc hminus _, not_mem_twoDigits hc hmon,
    not_mem_twoDigits hc hmday, hletters.1, not_mem_twoDigits hc hhour,
    not_mem_twoDigits hc hmin, not_mem_twoDigits hc hsec, hletters.2, List.not_mem_nil⟩

/-!
# Version 4
-/

namespace V4

/-- The parameters that a signature in the query adds, the signature apart. -/
def authParameters (context : SigningContext) (timeNow : Int) (set : HeaderSet) :
    List (ByteString × ByteString) :=
  [(bytes "x-oss-signature-version", bytes "OSS4-HMAC-SHA256"),
    (bytes "x-oss-date", datetimeOf timeNow),
    (bytes "x-oss-expires",
      toDecimalInt (expirationTime context timeNow - timeNow)),
    (bytes "x-oss-credential",
      UrlEncode (context.credentials.accessKeyId ++ bytes "/" ++
        scopeOf context timeNow))] ++
    (if context.credentials.sessionToken.isEmpty then []
      else [(bytes "x-oss-security-token",
        UrlEncode context.credentials.sessionToken)]) ++
    if set.isEmpty then []
      else [(bytes "x-oss-additional-headers", UrlEncode (toHeaderSetString set))]

theorem queryParameters_eq (context : SigningContext) (timeNow : Int)
    (set : HeaderSet) (uri : ByteString) :
    queryParameters context timeNow set uri =
      assignAll ((ToEncodedParameters uri).erase (bytes "x-oss-signature"))
        (authParameters context timeNow set) := by
  unfold queryParameters authParameters
  cases context.credentials.sessionToken.isEmpty with
  | true =>
      cases set.isEmpty with
      | true => rfl
      | false => rfl
  | false =>
      cases set.isEmpty with
      | true => rfl
      | false => rfl

def authNames (noToken noHeaders : Bool) : List ByteString :=
  [bytes "x-oss-signature-version", bytes "x-oss-date", bytes "x-oss-expires",
    bytes "x-oss-credential"] ++
    (if noToken then [] else [bytes "x-oss-security-token"]) ++
    if noHeaders then [] else [bytes "x-oss-additional-headers"]

theorem authParameters_names (context : SigningContext) (timeNow : Int)
    (set : HeaderSet) :
    (authParameters context timeNow set).map Prod.fst =
      authNames context.credentials.sessionToken.isEmpty set.isEmpty := by
  unfold authParameters authNames
  cases context.credentials.sessionToken.isEmpty with
  | true =>
      cases set.isEmpty with
      | true => rfl
      | false => rfl
  | false =>
      cases set.isEmpty with
      | true => rfl
      | false => rfl

/-- The names are distinct, none of them is encoded, and the signature has another. -/
theorem plain_authNames (noToken noHeaders : Bool) :
    (authNames noToken noHeaders).Nodup ∧
      bytes "x-oss-signature" ∉ authNames noToken noHeaders ∧
      forall name, name ∈ authNames noToken noHeaders -> 38 ∉ name ∧ 61 ∉ name := by
  revert noToken noHeaders
  decide +kernel

theorem encoded_authParameters (context : SigningContext) (timeNow : Int)
    (set : HeaderSet) {parameter : ByteString × ByteString}
    (hmem : parameter ∈ authParameters context timeNow set) : Encoded parameter := by
  have hname : parameter.1 ∈ (authParameters context timeNow set).map Prod.fst :=
    List.mem_map_of_mem hmem
  rw [authParameters_names] at hname
  rcases (plain_authNames _ _).2.2 _ hname with ⟨hampersand, hequals⟩
  refine ⟨hampersand, hequals, ?_⟩
  rcases List.mem_append.mp hmem with hfirst | hset
  · rcases List.mem_append.mp hfirst with hfixed | htoken
    · simp only [List.mem_cons, List.not_mem_nil, or_false] at hfixed
      rcases hfixed with heq | heq | heq | heq
      · rw [heq]
        decide
      · rw [heq]
        exact not_mem_datetimeOf (by decide) (by decide) timeNow
      · rw [heq]
        exact not_mem_toDecimalInt (by decide) (by decide) _
      · rw [heq]
        exact ampersand_not_mem_UrlEncode _
    · split at htoken
      · cases htoken
      · rw [List.mem_singleton.mp htoken]
        exact ampersand_not_mem_UrlEncode _
  · split at hset
    · cases hset
    · rw [List.mem_singleton.mp hset]
      exact ampersand_not_mem_UrlEncode _

/-- The parameters that are signed, as the parameters of the URL and what is added. -/
theorem allEncoded_queryParameters (context : SigningContext) (timeNow : Int)
    (set : HeaderSet) (uri : ByteString) :
    AllEncoded (queryParameters context timeNow set uri) := by
  rw [queryParameters_eq]
  exact ((allEncoded_ToEncodedParameters uri).erase _).assignAll
    fun parameter hmem => encoded_authParameters context timeNow set hmem

theorem find?_queryParameters (context : SigningContext) (timeNow : Int)
    (set : HeaderSet) (uri name : ByteString) :
    (queryParameters context timeNow set uri).find? name =
      ((authParameters context timeNow set).lookup name).or
        (((ToEncodedParameters uri).erase (bytes "x-oss-signature")).find? name) := by
  rw [queryParameters_eq]
  refine find?_assignAll ?_ _ _
  rw [authParameters_names]
  exact (plain_authNames _ _).1

theorem queryParameters_unsigned (context : SigningContext) (timeNow : Int)
    (set : HeaderSet) (uri : ByteString) :
    (queryParameters context timeNow set uri).find? (bytes "x-oss-signature") =
      none := by
  rw [find?_queryParameters, find?_erase, if_pos rfl]
  have hlookup : (authParameters context timeNow set).lookup
      (bytes "x-oss-signature") = none := by
    rw [List.lookup_eq_none_iff]
    intro parameter hmem
    rw [bne_iff_ne]
    intro heq
    have hname : parameter.1 ∈ (authParameters context timeNow set).map Prod.fst :=
      List.mem_map_of_mem hmem
    rw [authParameters_names, ← heq] at hname
    exact (plain_authNames _ _).2.1 hname
  rw [hlookup]
  rfl

/-!
# The URL of version 4
-/

def additionalOf (request : RequestMessage σ) (context : SigningContext) : HeaderSet :=
  signedAdditionalHeaders request.headers context.additionalHeaders

def querySignature (p : Platform σ) (request : RequestMessage σ)
    (context : SigningContext) (timeNow : Int) : ByteString :=
  buildSignature p context.credentials.accessKeySecret (dateOf timeNow)
    context.region context.product
    (buildStringToSign p (datetimeOf timeNow) (scopeOf context timeNow)
      (queryCanonical context timeNow request))

/-- The parameters that are sent. -/
def sentParameters (p : Platform σ) (request : RequestMessage σ)
    (context : SigningContext) (timeNow : Int) : ParameterCollection :=
  (queryParameters context timeNow (additionalOf request context)
    request.uri).insertOrAssign (bytes "x-oss-signature")
      (querySignature p request context timeNow)

theorem uri_authQuery (p : Platform σ) (request : RequestMessage σ)
    (context : SigningContext) (env : σ) :
    (authQuery p request context env).1.uri =
      request.uri.takeWhile (· != 63) ++ bytes "?" ++
        encodedQuery (sentParameters p request context (p.timeNow context env)) := rfl

theorem allEncoded_sentParameters (p : Platform σ) (request : RequestMessage σ)
    (context : SigningContext) (timeNow : Int) :
    AllEncoded (sentParameters p request context timeNow) := by
  refine (allEncoded_queryParameters context timeNow _ request.uri).insertOrAssign
    ⟨show 38 ∉ bytes "x-oss-signature" by decide,
      show 61 ∉ bytes "x-oss-signature" by decide, ?_⟩
  exact ampersand_not_mem_LowerHexToString _

theorem find?_signature_sentParameters (p : Platform σ) (request : RequestMessage σ)
    (context : SigningContext) (timeNow : Int) :
    (sentParameters p request context timeNow).find? (bytes "x-oss-signature") =
      some (querySignature p request context timeNow) := by
  unfold sentParameters
  rw [SortedMap.find?_insertOrAssign, if_pos (SortedMap.equivalent_refl _)]

/-- What the URL has in it is what was put there. -/
theorem queryEntries_authQuery (p : Platform σ) (request : RequestMessage σ)
    (context : SigningContext) (env : σ) :
    queryEntries (authQuery p request context env).1.uri =
      (sentParameters p request context (p.timeNow context env)).entries := by
  rw [uri_authQuery, encodedQuery_eq]
  refine queryEntries_map (query_not_mem_takeWhile _)
    (allEncoded_sentParameters p request context _)
    (show bytes "x-oss-signature" ≠ [] by decide) ?_
  rw [find?_signature_sentParameters]
  rfl

theorem parameters_authQuery (p : Platform σ) (request : RequestMessage σ)
    (context : SigningContext) (env : σ) :
    ToEncodedParameters (authQuery p request context env).1.uri =
      sentParameters p request context (p.timeNow context env) := by
  rw [ToEncodedParameters_eq, queryEntries_authQuery, SortedMap.ofList_entries]

/-- Without its signature the URL has the parameters that were signed. -/
theorem parameters_authQuery_unsigned (p : Platform σ) (request : RequestMessage σ)
    (context : SigningContext) (env : σ) :
    (ToEncodedParameters (authQuery p request context env).1.uri).erase
        (bytes "x-oss-signature") =
      queryParameters context (p.timeNow context env) (additionalOf request context)
        request.uri := by
  rw [parameters_authQuery, sentParameters, SortedMap.erase_insertOrAssign]
  exact SortedMap.erase_eq_self (findEntry_eq_none (queryParameters_unsigned _ _ _ _))

/--
The URL carries the query that was signed: without the signature it gives the
canonical query of the string to sign, and with it the string to sign itself.
-/
theorem authQuery_carries_query (p : Platform σ) (request : RequestMessage σ)
    (context : SigningContext) (env : σ) :
    let timeNow := p.timeNow context env
    let set := signedAdditionalHeaders request.headers context.additionalHeaders
    let signed := authQuery p request context env
    let sent := (ToEncodedParameters signed.1.uri).erase (bytes "x-oss-signature")
    encodedQuery sent =
        encodedQuery (queryParameters context timeNow set request.uri) ∧
      signed.2.stringToSign =
        buildStringToSign p (datetimeOf timeNow) (scopeOf context timeNow)
          (buildCanonicalReuqest request.method
            (toResource context.bucket context.key) sent request.headers set) := by
  intro timeNow set signed sent
  have hsent : sent = queryParameters context timeNow set request.uri :=
    parameters_authQuery_unsigned p request context env
  constructor
  · rw [hsent]
  · rw [hsent]
    rfl

end V4

/-!
# Version 1
-/

namespace V1

/-- The parameters that a signature in the query adds, the signature apart. -/
def authParameters (context : SigningContext) (expires : ByteString) :
    List (ByteString × ByteString) :=
  [(bytes "OSSAccessKeyId", UrlEncode context.credentials.accessKeyId),
    (bytes "Expires", expires)] ++
    if context.credentials.sessionToken.isEmpty then []
    else [(bytes "security-token", UrlEncode context.credentials.sessionToken)]

def authNames (noToken : Bool) : List ByteString :=
  [bytes "OSSAccessKeyId", bytes "Expires"] ++
    if noToken then [] else [bytes "security-token"]

theorem queryParameters_eq (context : SigningContext) (expires uri : ByteString) :
    queryParameters context expires uri =
      assignAll (ToEncodedParameters uri) (authParameters context expires) := by
  unfold queryParameters authParameters
  cases context.credentials.sessionToken.isEmpty with
  | true => rfl
  | false => rfl

theorem authParameters_names (context : SigningContext) (expires : ByteString) :
    (authParameters context expires).map Prod.fst =
      authNames context.credentials.sessionToken.isEmpty := by
  unfold authParameters authNames
  cases context.credentials.sessionToken.isEmpty with
  | true => rfl
  | false => rfl

theorem plain_authNames (noToken : Bool) :
    (authNames noToken).Nodup ∧
      forall name, name ∈ authNames noToken -> 38 ∉ name ∧ 61 ∉ name := by
  revert noToken
  decide +kernel

theorem encoded_authParameters (context : SigningContext) {expires : ByteString}
    (hexpires : 38 ∉ expires) {parameter : ByteString × ByteString}
    (hmem : parameter ∈ authParameters context expires) : Encoded parameter := by
  have hname : parameter.1 ∈ (authParameters context expires).map Prod.fst :=
    List.mem_map_of_mem hmem
  rw [authParameters_names] at hname
  rcases (plain_authNames _).2 _ hname with ⟨hampersand, hequals⟩
  refine ⟨hampersand, hequals, ?_⟩
  rcases List.mem_append.mp hmem with hfixed | htoken
  · simp only [List.mem_cons, List.not_mem_nil, or_false] at hfixed
    rcases hfixed with heq | heq
    · rw [heq]
      exact ampersand_not_mem_UrlEncode _
    · rw [heq]
      exact hexpires
  · split at htoken
    · cases htoken
    · rw [List.mem_singleton.mp htoken]
      exact ampersand_not_mem_UrlEncode _

theorem find?_queryParameters (context : SigningContext)
    (expires uri name : ByteString) :
    (queryParameters context expires uri).find? name =
      ((authParameters context expires).lookup name).or
        ((ToEncodedParameters uri).find? name) := by
  rw [queryParameters_eq]
  refine find?_assignAll ?_ _ _
  rw [authParameters_names]
  exact (plain_authNames _).1

/-- The signature goes after the parameters, and is none of them. -/
def querySignature (p : Platform σ) (request : RequestMessage σ)
    (context : SigningContext) (env : σ) : ByteString :=
  let expires := toDecimalInt (expirationTime context (p.timeNow context env))
  calcSignature p context.credentials.accessKeySecret
    (calcStringToSign
      { request with
        uri := request.uri.takeWhile (· != 63) ++ bytes "?" ++
          encodedQuery (queryParameters context expires request.uri) }
      context expires)

/-- The parameters that are sent before the signature. -/
def sentParameters (p : Platform σ) (request : RequestMessage σ)
    (context : SigningContext) (env : σ) : ParameterCollection :=
  queryParameters context
    (toDecimalInt (expirationTime context (p.timeNow context env))) request.uri

theorem uri_authQuery (p : Platform σ) (request : RequestMessage σ)
    (context : SigningContext) (env : σ) :
    (authQuery p request context env).1.uri =
      request.uri.takeWhile (· != 63) ++ bytes "?" ++
        encodedQuery (sentParameters p request context env) ++ bytes "&Signature=" ++
        UrlEncode (querySignature p request context env) := rfl

theorem UrlEncode_querySignature_ne_nil (p : Platform σ) (request : RequestMessage σ)
    (context : SigningContext) (env : σ) :
    UrlEncode (querySignature p request context env) ≠ [] := by
  have hdigest : forall (v : Vector UInt8 20), v.toList ≠ [] := by
    intro v hnil
    have hlength := congrArg List.length hnil
    rw [Vector.length_toList] at hlength
    exact absurd hlength (by decide)
  exact UrlEncode_ne_nil (Base64Encode_ne_nil (hdigest _))

theorem queryEntries_authQuery (p : Platform σ) (request : RequestMessage σ)
    (context : SigningContext) (env : σ) :
    queryEntries (authQuery p request context env).1.uri =
      (sentParameters p request context env).entries ++
        [(bytes "Signature", UrlEncode (querySignature p request context env))] := by
  have hfound : ((sentParameters p request context env).find?
      (bytes "OSSAccessKeyId")).isSome = true := by
    unfold sentParameters
    rw [find?_queryParameters]
    rfl
  have hencoded : AllEncoded (sentParameters p request context env) := by
    unfold sentParameters
    rw [queryParameters_eq]
    exact (allEncoded_ToEncodedParameters _).assignAll fun parameter hmem =>
      encoded_authParameters context (not_mem_toDecimalInt (by decide) (by decide) _) hmem
  have hitem : queryItem
      (bytes "Signature", UrlEncode (querySignature p request context env)) =
        bytes "Signature" ++ bytes "=" ++
          UrlEncode (querySignature p request context env) := by
    unfold queryItem
    rw [if_neg]
    rw [List.isEmpty_iff]
    exact UrlEncode_querySignature_ne_nil p request context env
  have hne : (sentParameters p request context env).entries.map queryItem ≠ [] := by
    intro hnil
    rcases getLast_named (show bytes "OSSAccessKeyId" ≠ [] by decide) hfound with
      ⟨last, hlast, _⟩
    rw [List.map_eq_nil_iff.mp hnil] at hlast
    cases hlast
  have huri : (authQuery p request context env).1.uri =
      request.uri.takeWhile (· != 63) ++ bytes "?" ++ StringJoin (bytes "&")
        (((sentParameters p request context env).entries ++
          [(bytes "Signature",
            UrlEncode (querySignature p request context env))]).map queryItem) := by
    rw [uri_authQuery, encodedQuery_eq, List.map_append, List.map_singleton,
      StringJoin_concat _ hne, hitem]
    simp only [List.append_assoc]
    rfl
  rw [huri]
  refine queryEntries_join (query_not_mem_takeWhile _) ?_ List.getLast?_concat
    (show bytes "Signature" ≠ [] by decide)
  intro parameter hmem
  rcases List.mem_append.mp hmem with hsent | hsignature
  · exact hencoded parameter hsent
  · rw [List.mem_singleton.mp hsignature]
    exact ⟨show 38 ∉ bytes "Signature" by decide,
      show 61 ∉ bytes "Signature" by decide, ampersand_not_mem_UrlEncode _⟩

end V1

end Signer
end OssSdk
