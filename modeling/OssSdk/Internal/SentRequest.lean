import OssSdk.Internal.LastAttempt
import OssSdk.Utils.QueryParameters

/-!
# The request that is sent in the end

A request goes from attempt to attempt, and the signer and the transport may change
it.  What they keep, and every prepared request has, the request of the last attempt
has too.
-/

namespace OssSdk
namespace Internal

open Foundation
open Sync

variable {σ : Type}

/-- The parts of a client that change requests keep this property. -/
structure KeepsRequests (c : ClientImpl σ) (P : RequestMessage σ -> Prop) : Prop where
  sign : forall (request : RequestMessage σ) (context : SigningContext) (env : σ),
    P request -> P (c.options.signer.sign request context env).2.1
  send : forall (request : RequestMessage σ) (options : RequestOptions σ) (env : σ),
    P request -> P (c.httpTransport.send request options env).2.1

section Kept

variable {c : ClientImpl σ} {P : RequestMessage σ -> Prop}

theorem TransportExecuteMiddleware_kept (hkeeps : KeepsRequests c P)
    {x : Exchange σ}
    (hx : P x.request) :
    P (TransportExecuteMiddleware c.httpTransport x).2.request := by
  have hsend := hkeeps.send x.request x.context.transportContext x.runtime.env hx
  unfold TransportExecuteMiddleware
  rcases hsent : c.httpTransport.send x.request x.context.transportContext
    x.runtime.env with ⟨result, request, env⟩
  rw [hsent] at hsend
  simp only
  split
  · exact hx
  · cases result with
    | error te => exact hsend
    | response r => exact hsend

theorem checkResponse_request (e : Option ResponseMessage × Exchange σ) :
    (checkResponse e).2.request = e.2.request := by
  rcases e with ⟨response, x⟩
  cases response with
  | none => rfl
  | some r =>
      simp only [checkResponse]
      split
      · rfl
      · rfl

/-- The request of the exchange that an attempt leaves. -/
theorem attempt_kept (hkeeps : KeepsRequests c P)
    {x : Exchange σ}
    (hx : P x.request) : P (c.attempt x).2.request := by
  have hnext : forall y : Exchange σ, P y.request ->
      P (ResponseCheckerExecuteMiddleware
        (TransportExecuteMiddleware c.httpTransport) y).2.request := by
    intro y hy
    rw [ResponseCheckerExecuteMiddleware, checkResponse_request]
    exact TransportExecuteMiddleware_kept hkeeps hy
  unfold ClientImpl.attempt SignerExecuteMiddleware
  split
  · exact hx
  · rename_i provider _
    split
    · exact hnext x hx
    · rcases provider.getCredentials x.runtime.env with ⟨cred, env⟩
      simp only
      split
      · exact hx
      · have hsign := hkeeps.sign x.request
          { x.context.signingContext with credentials := cred } env hx
        split
        · exact hsign
        · exact hnext _ hsign

theorem handsOver_kept (hkeeps : KeepsRequests c P)
    {x y : Exchange σ}
    (hx : P x.request)
    (hhands : c.handsOver x = some y) : P y.request := by
  have hnext : forall z : Exchange σ, P z.request -> z.unlessCanceled = some y ->
      P y.request := by
    intro z hz hsame
    unfold Exchange.unlessCanceled at hsame
    rw [Option.ite_none_left_eq_some] at hsame
    rw [← Option.some.inj hsame.2]
    exact hz
  unfold ClientImpl.handsOver at hhands
  split at hhands
  · cases hhands
  · rename_i provider _
    split at hhands
    · exact hnext x hx hhands
    · rcases hcred : provider.getCredentials x.runtime.env with ⟨cred, env⟩
      simp only [hcred] at hhands
      split at hhands
      · cases hhands
      · have hsign := hkeeps.sign x.request
          { x.context.signingContext with credentials := cred } env hx
        split at hhands
        · cases hhands
        · exact hnext _ hsign hhands

theorem decideRetry_request {retryer : Retryer σ} {disableState : DisableState σ}
    {signTime expiration retries : Int} {x y : Exchange σ}
    (hretry : decideRetry retryer disableState signTime expiration retries x =
      .retry y) :
    y.request = x.request := by
  simp only [decideRetry] at hretry
  split at hretry
  · cases hretry
  · split at hretry
    · cases hretry
    · split at hretry
      · cases hretry
      · split at hretry
        · cases hretry
        · cases hretry
          rfl

/-- From attempt to attempt the request keeps the property. -/
theorem lastAttempt_kept (hkeeps : KeepsRequests c P)
    (signTime expiration : Int) (left : Nat) (retries : Int)
    {x : Exchange σ}
    (hx : P x.request) :
    P (c.lastAttempt signTime expiration left retries x).request := by
  induction left generalizing retries x with
  | zero =>
      unfold ClientImpl.lastAttempt
      split
      · exact hx
      · exact hx
  | succ left ih =>
      unfold ClientImpl.lastAttempt
      split
      · exact hx
      · simp only
        split
        · exact hx
        · rename_i y hretry
          refine ih (retries + 1) ?_
          rw [decideRetry_request hretry]
          exact attempt_kept hkeeps hx

end Kept

theorem applyOther_headers (request : RequestMessage σ)
    (innerOpts : Option (OperationInnerOptions σ)) :
    (applyOther request innerOpts).headers = request.headers := by
  unfold applyOther
  split
  · split
    · rfl
    · rfl
  · rfl

/-- The headers of the input, and the user agent. -/
theorem prepare_headers {c : ClientImplBase σ} {clockOffset : Int}
    {input : OperationInput σ} {opts : Option (OperationOptions σ)}
    {innerOpts : Option (OperationInnerOptions σ)}
    {context : ExecuteContext σ} {request : RequestMessage σ}
    (hprepare : prepare c clockOffset input opts innerOpts =
      .ok (context, request)) :
    request.headers = input.headers.insertOrAssign (bytes "User-Agent")
      c.innerOptions.userAgent := by
  unfold prepare at hprepare
  split at hprepare
  · cases hprepare
  · split at hprepare
    · cases hprepare
    · simp only at hprepare
      split at hprepare
      · cases hprepare
      · rename_i hok
        cases hprepare
        rw [applyOther_headers]
        unfold applyOperationInput at hok ⊢
        cases hprovider : c.options.endpointProvider with
        | none => rfl
        | some provider =>
            rw [hprovider] at hok
            rcases hurl : provider input with ⟨url, ec, message⟩
            cases hec : ec.isError with
            | false => simp [hurl, hec]
            | true => simp [hurl, hec] at hok

/-- The URL of an operation before its query, when there is one. -/
def ClientImplBase.urlOf (c : ClientImplBase σ) (input : OperationInput σ) :
    Option ByteString :=
  match c.options.endpointProvider with
  | some provider =>
      let (url, ec, _) := provider input
      if ec.isError then none else some url
  | none =>
      some (c.innerOptions.endpointScheme ++ bytes "://" ++
        buildHostPath input c.innerOptions.endpointAuthority c.options.addressStyle)

theorem requestUri_withQuery (input : OperationInput σ) (url : ByteString) :
    requestUri input url = Utils.withQuery url input.parameters := by
  unfold requestUri Utils.withQuery
  simp only
  split
  · rw [List.append_nil]
  · rw [List.append_assoc]

theorem applyOther_target (request : RequestMessage σ)
    (innerOpts : Option (OperationInnerOptions σ)) :
    (applyOther request innerOpts).method = request.method ∧
      (applyOther request innerOpts).uri = request.uri := by
  unfold applyOther
  split
  · split
    · exact ⟨rfl, rfl⟩
    · exact ⟨rfl, rfl⟩
  · exact ⟨rfl, rfl⟩

/-- A prepared request asks with the parameters of the input. -/
theorem prepare_target {c : ClientImplBase σ} {clockOffset : Int}
    {input : OperationInput σ} {opts : Option (OperationOptions σ)}
    {innerOpts : Option (OperationInnerOptions σ)}
    {context : ExecuteContext σ} {request : RequestMessage σ}
    (hprepare : prepare c clockOffset input opts innerOpts =
      .ok (context, request)) :
    request.method = input.method ∧
      exists url, c.urlOf input = some url ∧
        request.uri = Utils.withQuery url input.parameters := by
  unfold prepare at hprepare
  split at hprepare
  · cases hprepare
  · split at hprepare
    · cases hprepare
    · simp only at hprepare
      split at hprepare
      · cases hprepare
      · rename_i hok
        cases hprepare
        rw [(applyOther_target _ _).1, (applyOther_target _ _).2]
        unfold applyOperationInput ClientImplBase.urlOf at *
        cases hprovider : c.options.endpointProvider with
        | none => exact ⟨rfl, _, rfl, requestUri_withQuery input _⟩
        | some provider =>
            rw [hprovider] at hok
            rcases hurl : provider input with ⟨url, ec, message⟩
            cases hec : ec.isError with
            | false =>
                simp only [hurl, hec]
                exact ⟨rfl, _, rfl, requestUri_withQuery input _⟩
            | true => simp [hurl, hec] at hok

/-- What every prepared request has, the request that is sent last has. -/
theorem lastSent_kept {c : ClientImpl σ} {P : RequestMessage σ -> Prop}
    (hkeeps : KeepsRequests c P)
    {input : OperationInput σ} {opts : Option (OperationOptions σ)}
    {innerOpts : Option (OperationInnerOptions σ)} {w : Runtime σ} {y : Exchange σ}
    (hprepared : forall context request,
      prepare c.toClientImplBase w.clockOffset input opts innerOpts =
        .ok (context, request) -> P request)
    (hsent : c.lastSent input opts innerOpts w = some y) : P y.request := by
  unfold ClientImpl.lastSent at hsent
  split at hsent
  · cases hsent
  · cases hprepare : prepare c.toClientImplBase w.clockOffset input opts innerOpts with
    | error e =>
        rw [hprepare] at hsent
        cases hsent
    | ok prepared =>
        rcases prepared with ⟨context, request⟩
        rw [hprepare] at hsent
        exact handsOver_kept hkeeps
          (lastAttempt_kept hkeeps _ _ _ _ (hprepared _ _ hprepare)) hsent

end Internal
end OssSdk
