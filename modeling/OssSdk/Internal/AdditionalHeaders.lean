import OssSdk.Internal.RetryDiscipline
import OssSdk.Internal.Sync.Presign
import OssSdk.Signer.CanonicalRequest
import OssSdk.Signer.SignedHeaders

/-!
# Additional headers under the signature

A client is configured with the names of headers that its signatures are to cover.
A signer of version 4 reads them from the signing context of the operation, to which
nothing copies them.
-/

namespace OssSdk
namespace Signer
namespace V4

open Foundation
open Internal
open Utils

variable {σ : Type}

/-- A header with one of these names, in any case, and a value that is not blank. -/
def Listed (names : List ByteString) (header : ByteString × ByteString) : Prop :=
  (exists name, name ∈ names ∧
    SortedMap.equivalent caseInsensitiveLess name header.1 = true) ∧
  Trim header.2 ≠ []

/-- The signature protects the headers with these names. -/
structure Protects (p : Platform σ) (names : List ByteString)
    (request : RequestMessage σ) (context : SigningContext) (env : σ) : Prop where
  covered : forall header,
    header ∈ (signingHeaders p request context env).entries -> Listed names header ->
      (ToLower header.1, Trim header.2) ∈
        coveredHeaders context (signingHeaders p request context env)
  distinct : forall header value,
    header ∈ (signingHeaders p request context env).entries -> Listed names header ->
      Trim value ≠ Trim header.2 ->
        canonicalRequest p request context env
            ((signingHeaders p request context env).insertOrAssign header.1 value) ≠
          canonicalRequest p request context env (signingHeaders p request context env)

/-- The headers with these names are ones that are signed in any case. -/
structure AlwaysSigned (names : List ByteString) (request : RequestMessage σ)
    (context : SigningContext) : Prop where
  carried : forall header, header ∈ request.headers.entries -> Listed names header ->
    isDefaultSignedHeader (ToLower header.1) = true
  /-- A signature in the headers stamps this one itself. -/
  dated : context.authMethodQuery = false -> forall name, name ∈ names ->
    SortedMap.equivalent caseInsensitiveLess name (bytes "Date") = false

/-!
# The headers that are stamped
-/

/-- A header that is not always signed, and is not the date, is not stamped. -/
theorem findEntry_stamped (cred : Credentials) (timeNow : Int) (headers : HeaderCollection)
    {name : ByteString}
    (hother : isDefaultSignedHeader (ToLower name) = false)
    (hdate : SortedMap.equivalent caseInsensitiveLess name (bytes "Date") = false) :
    (stampToken cred (stampDates timeNow headers)).findEntry name = headers.findEntry name := by
  have hnot : forall stamp : ByteString,
      isDefaultSignedHeader (ToLower stamp) = true ->
        SortedMap.equivalent caseInsensitiveLess stamp name = false := by
    intro stamp hstamp
    rw [Bool.eq_false_iff]
    intro hsame
    rw [ToLower_congr hsame, hother] at hstamp
    cases hstamp
  have hdates : (stampDates timeNow headers).findEntry name = headers.findEntry name := by
    unfold stampDates
    rw [SortedMap.findEntry_emplace, hnot _ (by decide), if_neg Bool.false_ne_true,
      SortedMap.findEntry_insertOrAssign, SortedMap.equivalent_comm, hdate,
      if_neg Bool.false_ne_true, SortedMap.findEntry_insertOrAssign, hnot _ (by decide),
      if_neg Bool.false_ne_true]
  unfold stampToken
  split
  · exact hdates
  · rw [SortedMap.findEntry_insertOrAssign, hnot _ (by decide),
      if_neg Bool.false_ne_true, hdates]

theorem find?_stamped_date (cred : Credentials) (timeNow : Int)
    (headers : HeaderCollection) :
    (stampToken cred (stampDates timeNow headers)).find? (bytes "Date") =
      some (ToGmtTime timeNow) := by
  have hdates : (stampDates timeNow headers).find? (bytes "Date") =
      some (ToGmtTime timeNow) := by
    unfold stampDates
    rw [SortedMap.find?_emplace, if_neg (by decide), SortedMap.find?_insertOrAssign,
      if_pos (SortedMap.equivalent_refl _)]
  unfold stampToken
  split
  · exact hdates
  · rw [SortedMap.find?_insertOrAssign, if_neg (by decide), hdates]

theorem Trim_ToGmtTime_ne_nil (t : Int) : Trim (ToGmtTime t) ≠ [] := by
  rcases ToGmtTime_text t with ⟨name, rest, hname, htext⟩
  rw [htext]
  exact Trim_ne_nil hname (by decide) (by decide) rest

/-- Stamping leaves the listed headers that are not always signed, if no name is the date. -/
theorem mem_stamped_iff (cred : Credentials) (timeNow : Int) (headers : HeaderCollection)
    {names : List ByteString} {header : ByteString × ByteString}
    (hlisted : Listed names header)
    (hother : isDefaultSignedHeader (ToLower header.1) = false)
    (hdated : forall name, name ∈ names ->
      SortedMap.equivalent caseInsensitiveLess name (bytes "Date") = false) :
    header ∈ (stampToken cred (stampDates timeNow headers)).entries ↔
      header ∈ headers.entries := by
  rcases hlisted.1 with ⟨name, hname, hsame⟩
  have hdate := hdated name hname
  rw [SortedMap.equivalent_congr hsame] at hdate
  rw [SortedMap.mem_entries_iff, SortedMap.mem_entries_iff,
    findEntry_stamped _ _ _ hother hdate]

/-- The date that is stamped is not a header that is signed in any case. -/
theorem dated_of_stamped {cred : Credentials} {timeNow : Int} {headers : HeaderCollection}
    {names : List ByteString}
    (hheaders : forall header,
      header ∈ (stampToken cred (stampDates timeNow headers)).entries ->
        Listed names header -> isDefaultSignedHeader (ToLower header.1) = true)
    {name : ByteString} (hname : name ∈ names) :
    SortedMap.equivalent caseInsensitiveLess name (bytes "Date") = false := by
  rw [Bool.eq_false_iff]
  intro hsame
  have hfound := find?_stamped_date cred timeNow headers
  rw [SortedMap.find?_eq, Option.map_eq_some_iff] at hfound
  rcases hfound with ⟨header, hentry, hvalue⟩
  have hkey : SortedMap.equivalent caseInsensitiveLess header.1 (bytes "Date") = true := by
    have hpred := List.find?_some hentry
    exact hpred
  have hmem : header ∈ (stampToken cred (stampDates timeNow headers)).entries := by
    rw [SortedMap.mem_entries_iff, SortedMap.findEntry_congr _ hkey]
    exact hentry
  have hlisted : Listed names header := by
    refine ⟨⟨name, hname, SortedMap.equivalent_of_both hsame hkey⟩, ?_⟩
    rw [hvalue]
    exact Trim_ToGmtTime_ne_nil _
  have hdefault := hheaders header hmem hlisted
  rw [ToLower_congr hkey] at hdefault
  exact absurd hdefault (by decide)

/-- Whether the headers are looked at before or after they have been stamped. -/
theorem alwaysSigned_iff (p : Platform σ) (names : List ByteString)
    (request : RequestMessage σ) (context : SigningContext) (env : σ) :
    AlwaysSigned names request context ↔
      forall header, header ∈ (signingHeaders p request context env).entries ->
        Listed names header -> isDefaultSignedHeader (ToLower header.1) = true := by
  unfold signingHeaders
  cases hquery : context.authMethodQuery with
  | true =>
      rw [if_pos rfl]
      constructor
      · exact fun halways => halways.carried
      · intro hheaders
        refine ⟨hheaders, fun hnot => ?_⟩
        rw [hquery] at hnot
        cases hnot
  | false =>
      rw [if_neg Bool.false_ne_true]
      constructor
      · intro halways header hmem hlisted
        by_contra hother
        rw [Bool.not_eq_true] at hother
        rw [mem_stamped_iff _ _ _ hlisted hother (halways.dated hquery)] at hmem
        have hcarried := halways.carried header hmem hlisted
        rw [hother] at hcarried
        cases hcarried
      · intro hheaders
        have hdated := fun name => @dated_of_stamped _ _ _ names hheaders name
        refine ⟨fun header hmem hlisted => ?_, fun _ => hdated⟩
        by_contra hother
        rw [Bool.not_eq_true] at hother
        have hstamped := hheaders header
          ((mem_stamped_iff _ _ _ hlisted hother hdated).mpr hmem) hlisted
        rw [hother] at hstamped
        cases hstamped

theorem protects_iff {p : Platform σ} {names : List ByteString}
    {request : RequestMessage σ} {context : SigningContext} {env : σ}
    (hnone : context.additionalHeaders = []) :
    Protects p names request context env ↔
      AlwaysSigned names request context := by
  rw [alwaysSigned_iff p names request context env]
  have hset : forall headers : HeaderCollection,
      signedAdditionalHeaders headers context.additionalHeaders = SortedMap.empty := by
    intro headers
    rw [hnone]
    rfl
  constructor
  · intro hprotects header hmem hlisted
    have hcovered := hprotects.covered header hmem hlisted
    unfold coveredHeaders canonicalHeaders at hcovered
    rw [hset] at hcovered
    rcases List.mem_filterMap.mp hcovered with ⟨other, _, hother⟩
    have hname := congrArg Prod.fst (canonicalHeader_some hother).1
    simp only at hname
    unfold canonicalHeader at hother
    simp only at hother
    split at hother
    · cases hother
    · split at hother
      · rename_i hdefault
        rw [hname]
        exact hdefault
      · cases hother
  · intro halways
    constructor
    · intro header hmem hlisted
      have hdefault := halways header hmem hlisted
      refine List.mem_filterMap.mpr ⟨header, hmem, ?_⟩
      unfold canonicalHeader
      simp only [hdefault, if_true]
      exact if_neg fun hempty => hlisted.2 (List.isEmpty_iff.mp hempty)
    · intro header value hmem hlisted hother
      have hdefault := halways header hmem hlisted
      obtain ⟨headers, hheaders⟩ : exists headers,
        headers = signingHeaders p request context env := ⟨_, rfl⟩
      rw [← hheaders] at hmem ⊢
      rw [SortedMap.mem_entries_iff] at hmem
      have hfound : headers.find? header.1 = some header.2 := by
        rw [SortedMap.find?_eq, hmem]
        rfl
      have hself := SortedMap.insertOrAssign_eq_self hfound
      have hne : forall parameters, buildCanonicalReuqest request.method
            (toResource context.bucket context.key) parameters
            (headers.insertOrAssign header.1 value) SortedMap.empty ≠
          buildCanonicalReuqest request.method
            (toResource context.bucket context.key) parameters headers
            SortedMap.empty := by
        intro parameters
        have hchanged := buildCanonicalReuqest_ne request.method
          (toResource context.bucket context.key) parameters SortedMap.empty
          (by rw [hfound]; rfl) hdefault hother
        rwa [hself] at hchanged
      unfold canonicalRequest
      split
      · unfold queryCanonical
        simp only [hset]
        exact hne _
      · unfold headerCanonical
        rw [hset, hset]
        exact hne _

end V4
end Signer

namespace Internal

open Foundation
open Signer.V4
open StackAgreement
open Sync
open Async

variable {σ : Type}

/-!
# The list in the context of an operation
-/

/-- What an attempt calls the signer with, where it comes to that. -/
def Sync.ClientImpl.signing (c : ClientImpl σ) (x : Exchange σ) :
    Option (RequestMessage σ × SigningContext × σ) :=
  match c.options.credentialsProvider with
  | none => none
  | some provider =>
      if provider.getAuthType = .anonymous then none
      else
        let (cred, env) := provider.getCredentials x.runtime.env
        if !cred.hasKeys then none
        else some (x.request, { x.context.signingContext with credentials := cred }, env)

/-- The transport is handed the request that the signer has signed. -/
theorem handsOver_signing {c : ClientImpl σ} {x : Exchange σ}
    {request : RequestMessage σ} {context : SigningContext} {env : σ}
    (hsigning : c.signing x = some (request, context, env))
    (hsigned : (c.options.signer.sign request context env).1 = true) :
    c.handsOver x =
      Exchange.unlessCanceled
        { x.setEnv (c.options.signer.sign request context env).2.2.2 with
          request := (c.options.signer.sign request context env).2.1
          context :=
            { x.context with
              signingContext :=
                (c.options.signer.sign request context env).2.2.1 } } := by
  unfold ClientImpl.signing at hsigning
  unfold ClientImpl.handsOver
  cases hprovider : c.options.credentialsProvider with
  | none =>
      rw [hprovider] at hsigning
      cases hsigning
  | some provider =>
      rw [hprovider] at hsigning
      simp only at hsigning ⊢
      split at hsigning
      · cases hsigning
      · rename_i hauth
        rw [if_neg hauth]
        rcases hcred : provider.getCredentials x.runtime.env with ⟨cred, env'⟩
        simp only [hcred] at hsigning ⊢
        split at hsigning
        · cases hsigning
        · rename_i hkeys
          rw [if_neg hkeys]
          cases hsigning
          simp only [Exchange.setEnv_request, Exchange.setEnv_context,
            Exchange.setEnv_runtime, Exchange.setEnv_setEnv, hsigned, Bool.not_true,
            Bool.false_eq_true, if_false]

/-- A check that leaves the list of the signing context alone. -/
def KeepsList (fn : ResponseMessageFn σ) : Prop :=
  forall c, (fn c).2.signingContext.additionalHeaders =
    c.signingContext.additionalHeaders

theorem serviceChecks_keepsList (c : ClientImplBase σ) :
    forall fn, fn ∈ serviceChecks c -> KeepsList fn := by
  intro fn hfn checked
  simp only [serviceChecks, List.mem_append, List.mem_singleton] at hfn
  rcases hfn with (hpre | hclock) | hpost
  · rw [hpre]
    unfold onPreServiceError
    split
    · rfl
    · rfl
  · split at hclock
    · rw [List.mem_singleton.mp hclock]
      unfold onClockSkewError
      split
      · rfl
      · simp only
        split
        · rfl
        · split
          · rfl
          · rfl
    · cases hclock
  · rw [hpost]
    rfl

theorem crc64ResponseChecker_keepsList (crcAsString : Option (σ -> ByteString)) :
    KeepsList (CRC64ResponseChecker crcAsString) := by
  intro checked
  unfold CRC64ResponseChecker
  split
  · simp only
    split
    · rfl
    · rfl
  · rfl

theorem runChecks_keepsList {fns : List (ResponseMessageFn σ)}
    (hfns : forall fn, fn ∈ fns -> KeepsList fn) (c : Checked σ) :
    (runChecks fns c).signingContext.additionalHeaders =
      c.signingContext.additionalHeaders := by
  induction fns generalizing c with
  | nil => rfl
  | cons fn rest ih =>
      have hfirst := hfns fn List.mem_cons_self c
      rw [runChecks_cons]
      split
      · rw [ih fun g hg => hfns g (List.mem_cons_of_mem fn hg), hfirst]
      · exact hfirst

/-- Nothing is listed in the context of the exchange, and no check changes that. -/
structure NothingListed (x : Exchange σ) : Prop where
  list : x.context.signingContext.additionalHeaders = []
  checks : forall fn, fn ∈ x.context.onResponseMessage -> KeepsList fn

theorem SignerV4_keepsList (p : Signer.Platform σ) (request : RequestMessage σ)
    (context : SigningContext) (env : σ) :
    ((Signer.SignerV4 p).sign request context env).2.2.1.additionalHeaders =
      context.additionalHeaders := by
  unfold Signer.SignerV4
  simp only
  split
  · rfl
  · split
    · rfl
    · rfl

theorem exchanged_nothingListed {c : ClientImpl σ} {y : Exchange σ}
    (hy : NothingListed y) :
    (checkResponse (c.exchanged y)).2.context.signingContext.additionalHeaders = [] := by
  unfold ClientImpl.exchanged
  rcases c.httpTransport.send y.request y.context.transportContext y.runtime.env with
    ⟨result, request, env⟩
  cases result with
  | error te => exact hy.list
  | response r =>
      simp only [receive, checkResponse]
      split
      · exact hy.list
      · exact (runChecks_keepsList hy.checks _).trans hy.list

theorem attempt_nothingListed {c : ClientImpl σ} {p : Signer.Platform σ}
    (hsigner : c.options.signer = Signer.SignerV4 p) {x : Exchange σ}
    (hx : NothingListed x) : NothingListed (c.attempt x).2 := by
  have hsame := (attempt_same c x).onResponseMessage
  refine ⟨?_, by rw [hsame]; exact hx.checks⟩
  have hnext : forall y : Exchange σ, NothingListed y ->
      (ResponseCheckerExecuteMiddleware (TransportExecuteMiddleware c.httpTransport)
        y).2.context.signingContext.additionalHeaders = [] := by
    intro y hy
    unfold ResponseCheckerExecuteMiddleware TransportExecuteMiddleware
    split
    · exact hy.list
    · exact exchanged_nothingListed hy
  unfold ClientImpl.attempt SignerExecuteMiddleware
  split
  · exact hx.list
  · rename_i provider _
    split
    · exact hnext x hx
    · rcases provider.getCredentials x.runtime.env with ⟨cred, env⟩
      simp only
      split
      · exact hx.list
      · have hkept := SignerV4_keepsList p x.request
          { x.context.signingContext with credentials := cred } env
        rw [hsigner]
        split
        · exact hkept.trans hx.list
        · exact hnext _ ⟨hkept.trans hx.list, hx.checks⟩

theorem RetriedBy.nothingListed {c : ClientImpl σ} {kind : ClientKind}
    {p : Signer.Platform σ} (hsigner : c.options.signer = Signer.SignerV4 p)
    {x y : Exchange σ}
    (hretried : RetriedBy c kind x y)
    (hx : NothingListed x) : NothingListed y := by
  have hleft := attempt_nothingListed hsigner hx
  rcases hretried.context with ⟨signTime, expiration, hcontext⟩
  constructor
  · rw [hcontext]
    exact hleft.list
  · rw [hcontext]
    exact hleft.checks

/-!
# Every signature of an operation
-/

theorem applyOperationInput_list (c : ClientImplBase σ) (clockOffset : Int)
    (context : ExecuteContext σ) (input : OperationInput σ) :
    (applyOperationInput c clockOffset context
        input).1.signingContext.additionalHeaders =
      context.signingContext.additionalHeaders := by
  unfold applyOperationInput
  cases c.options.endpointProvider with
  | none => rfl
  | some provider =>
      rcases hurl : provider input with ⟨url, ec, message⟩
      cases hec : ec.isError with
      | false => simp [hurl, hec]
      | true => simp [hurl, hec]

theorem prepare_list {c : ClientImplBase σ} {clockOffset : Int}
    {input : OperationInput σ} {opts : Option (OperationOptions σ)}
    {innerOpts : Option (OperationInnerOptions σ)}
    {context : ExecuteContext σ} {request : RequestMessage σ}
    (hprepare : prepare c clockOffset input opts innerOpts =
      .ok (context, request)) :
    context.signingContext.additionalHeaders = [] := by
  unfold prepare at hprepare
  split at hprepare
  · cases hprepare
  · split at hprepare
    · cases hprepare
    · simp only at hprepare
      split at hprepare
      · cases hprepare
      · cases hprepare
        exact applyOperationInput_list c clockOffset _ input

theorem presignStart_list {c : ClientImpl σ} {input : OperationInput σ}
    {opts : Option (OperationOptions σ)} {w : Runtime σ}
    {context : ExecuteContext σ} {request : RequestMessage σ}
    (hstart : c.presignStart input opts w = .ok (context, request)) :
    context.signingContext.additionalHeaders = [] := by
  unfold ClientImpl.presignStart at hstart
  split at hstart
  · cases hstart
  · split at hstart
    · cases hstart
    · split at hstart
      · cases hstart
      · simp only at hstart
        split at hstart
        · cases hstart
        · cases hstart
          exact applyOperationInput_list c.toClientImplBase w.clockOffset _ input

/-- The attempts of a run follow from the first, which is what was prepared. -/
theorem Operates.begins {c : ClientImpl σ} {input : OperationInput σ}
    {opts : Option (OperationOptions σ)}
    {innerOpts : Option (OperationInnerOptions σ)} {w w' : Runtime σ}
    {kind : ClientKind} {attempts : List (Exchange σ)} {result : OperationResult}
    (hoperates : Operates c input opts innerOpts w kind attempts result w') :
    attempts.IsChain (RetriedBy c kind) ∧
      forall x, attempts.head? = some x ->
        exists context request,
          prepare c.toClientImplBase w.clockOffset input opts innerOpts =
            .ok (context, request) ∧ x = ⟨request, context, w⟩ := by
  have hnothing : ([] : List (Exchange σ)).IsChain (RetriedBy c kind) ∧
      forall x, ([] : List (Exchange σ)).head? = some x ->
        exists context request,
          prepare c.toClientImplBase w.clockOffset input opts innerOpts =
            .ok (context, request) ∧ x = ⟨request, context, w⟩ :=
    ⟨List.isChain_nil, fun x hx => absurd hx (by simp)⟩
  cases hoperates with
  | sync =>
      unfold ClientImpl.attemptsOf
      split
      · exact hnothing
      · cases hprepare : prepare c.toClientImplBase w.clockOffset input opts
          innerOpts with
        | error e => rwa [hprepare] at hnothing
        | ok prepared =>
            rcases prepared with ⟨context, request⟩
            rcases attempts_chain c context.signingContext.signTimeInEpoch
              context.signingContext.expirationInEpoch
              (context.retryMaxAttempts - 1).toNat 0 ⟨request, context, w⟩ with
              ⟨hhead, hchain, _, _⟩
            refine ⟨hchain, fun x hx => ⟨context, request, rfl, ?_⟩⟩
            rw [hhead] at hx
            exact (Option.some.inj hx).symm
  | async hexecute =>
      unfold executeAsyncOn at hexecute
      unfold ClientImpl.attemptsAsync
      unfold AsyncClientImpl.start at hexecute ⊢
      cases hprepare : prepare c.toClientImplBase w.clockOffset input opts
        innerOpts with
      | error e => rwa [hprepare] at hnothing
      | ok prepared =>
          rcases prepared with ⟨context, request⟩
          rw [hprepare] at hexecute
          rcases taskAttempts_chain c
            (AsyncClientImpl.stack ⟨c.toClientImplBase⟩) rfl rfl rfl _
            (Eq.refl (some request)) hexecute with ⟨hhead, hchain, _, _⟩
          refine ⟨hchain, fun x hx => ⟨context, request, rfl, ?_⟩⟩
          rw [hhead] at hx
          exact (Option.some.inj hx).symm

/-- Whatever a client is configured with, no signing context of it lists a header. -/
theorem Operates.nothingListed {c : ClientImpl σ} {p : Signer.Platform σ}
    (hsigner : c.options.signer = Signer.SignerV4 p)
    {input : OperationInput σ} {opts : Option (OperationOptions σ)}
    {innerOpts : Option (OperationInnerOptions σ)} {w w' : Runtime σ}
    {kind : ClientKind} {attempts : List (Exchange σ)} {result : OperationResult}
    (hown : forall fn, fn ∈ ownChecks innerOpts -> KeepsList fn)
    (hoperates : Operates c input opts innerOpts w kind attempts result w') :
    forall x, x ∈ attempts -> NothingListed x := by
  rcases Operates.begins hoperates with ⟨hchain, hhead⟩
  refine hchain.induction NothingListed attempts ?_ ?_
  · intro x y hretried hx
    exact RetriedBy.nothingListed hsigner hretried hx
  · intro hne
    rcases hhead _ (List.head?_eq_some_head hne) with ⟨context, request, hprepare, hx⟩
    rw [hx]
    refine ⟨prepare_list hprepare, ?_⟩
    intro fn hfn
    rw [(prepare_context hprepare).checks] at hfn
    rcases List.mem_append.mp hfn with hservice | hfn
    · exact serviceChecks_keepsList _ fn hservice
    · exact hown fn hfn

theorem signing_list {c : ClientImpl σ} {x : Exchange σ}
    {request : RequestMessage σ} {context : SigningContext} {env : σ}
    (hx : NothingListed x)
    (hsigning : c.signing x = some (request, context, env)) :
    context.additionalHeaders = [] := by
  unfold ClientImpl.signing at hsigning
  split at hsigning
  · cases hsigning
  · split at hsigning
    · cases hsigning
    · simp only at hsigning
      split at hsigning
      · cases hsigning
      · cases hsigning
        exact hx.list

theorem presignSigning_list {c : ClientImpl σ} {input : OperationInput σ}
    {opts : Option (OperationOptions σ)} {w : Runtime σ}
    {request : RequestMessage σ} {context : SigningContext} {env : σ}
    (hsigning : c.presignSigning input opts w = some (request, context, env)) :
    context.additionalHeaders = [] := by
  unfold ClientImpl.presignSigning at hsigning
  cases hstart : c.presignStart input opts w with
  | error e =>
      rw [hstart] at hsigning
      cases hsigning
  | ok started =>
      rcases started with ⟨prepared, first⟩
      have hlist := presignStart_list hstart
      rw [hstart] at hsigning
      split at hsigning
      · rename_i heq _
        cases heq
        split at hsigning
        · cases hsigning
        · simp only at hsigning
          split at hsigning
          · cases hsigning
          · cases hsigning
            exact hlist
      · cases hsigning

/-- A call of the signer, for a request that is sent or for a URL. -/
inductive Signs (c : ClientImpl σ) (input : OperationInput σ)
    (opts : Option (OperationOptions σ))
    (innerOpts : Option (OperationInnerOptions σ)) (w : Runtime σ) :
    RequestMessage σ -> SigningContext -> σ -> Prop where
  | sent {kind : ClientKind} {attempts : List (Exchange σ)} {result : OperationResult}
      {w' : Runtime σ} {x : Exchange σ} {request : RequestMessage σ}
      {context : SigningContext} {env : σ} :
      Operates c input opts innerOpts w kind attempts result w' -> x ∈ attempts ->
      c.signing x = some (request, context, env) ->
      Signs c input opts innerOpts w request context env
  | presigned {request : RequestMessage σ} {context : SigningContext} {env : σ} :
      c.presignSigning input opts w = some (request, context, env) ->
      Signs c input opts innerOpts w request context env

/-- The hash functions, on what the signer hashes for the URL below. -/
def presignPlatform : Signer.Platform Unit where
  time _ := 1702743657
  sha256 _ := Signer.digest 32
    0x739397473686cdbbfe9635874460da6374fee8a039749dff77eb32c5d5a2d9b8
  hmacSha256 data _ := Signer.digest 32
    (if data = bytes "20231216" then
      0x151acc75ab7203acc219c35ef7415d0c604d059c7140665fe78233ec8ae7f9ea
    else if data = bytes "cn-hangzhou" then
      0xcd7fb718a1d15d167938c1ea34698de973b43added106b102eba0973c9aad028
    else if data = bytes "oss" then
      0xfde9c360ae5165f5a84690330c8bc545e6bde502ba8ba4972db81e5a2ea80bec
    else if data = bytes "aliyun_v4_request" then
      0xb412a03b134ebddd720f5167b5de6db66620ebb3b01cff4d49e3ccb09f8de97f
    else 0xdf470997377c20b8218ce50840ce0c334d085280f97fa91771fc4aaeb2663bf4)
  hmacSha1 _ _ := Signer.digest 20 0

def presigningClient : ClientImpl Unit where
  toClientImplBase :=
    { anonymousBase Unit with
      options :=
        { (anonymousBase Unit).options with
          credentialsProvider :=
            some ⟨.default, fun env =>
              (⟨bytes "ak", bytes "sk", [], none, false⟩, env)⟩
          signer := Signer.SignerV4 presignPlatform
          additionalHeaders := [bytes "user-key1"] } }
  httpTransport :=
    ⟨fun request _ env =>
      (.error (TransportError.make .ConnectionFailed [] []), request, env)⟩
  disableState := ⟨fun _ => false, fun _ env => (false, env)⟩

def putObjectInput (headers : HeaderCollection) : OperationInput Unit where
  opName := bytes "PutObject"
  method := bytes "PUT"
  headers := headers
  parameters := SortedMap.empty
  bucket := some (bytes "bucket")
  key := some (bytes "key")
  opMetadata := SortedMap.ofList [(bytes "EXPIRATION_TIME", .int64 1702747257)]
  body := none

def presignedRequest (headers : HeaderCollection) : RequestMessage Unit where
  method := bytes "PUT"
  uri := bytes "https://bucket.oss-cn-hangzhou.aliyuncs.com/key"
  headers :=
    headers.insertOrAssign (bytes "User-Agent") (bytes "alibabacloud-cpp-sdk-v2")
  body := none

def presignedContext : SigningContext :=
  { SigningContext.empty with
    product := bytes "oss"
    region := bytes "cn-hangzhou"
    bucket := bytes "bucket"
    key := bytes "key"
    authMethodQuery := true
    credentials := ⟨bytes "ak", bytes "sk", [], none, false⟩
    expirationInEpoch := 1702747257 }

def userHeaders : HeaderCollection :=
  SortedMap.ofList [(bytes "user-key1", bytes "user-value1"),
    (bytes "Content-Type", bytes "text/plain")]

def plainHeaders : HeaderCollection :=
  SortedMap.ofList [(bytes "Content-Type", bytes "text/plain")]

theorem presignSigning_userHeaders :
    presigningClient.presignSigning (putObjectInput userHeaders) none ⟨0, ()⟩ =
      some (presignedRequest userHeaders, presignedContext, ()) := by
  rfl

end Internal
end OssSdk
