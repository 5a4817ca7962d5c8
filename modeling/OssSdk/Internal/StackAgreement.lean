import OssSdk.Internal.Sync.ClientImpl
import OssSdk.Internal.Async.AsyncExecuteStack
import Mathlib.Data.List.ReduceOption

/-!
# The two execution stacks against each other

Both stacks are run against the same script: one environment that decides what
the credential provider, the signer, the transport, the retryer and the response
checks answer.  The asynchronous client is followed until its callback is called,
with the transport calling back at once and the scheduler running every task.
-/

namespace OssSdk
namespace Internal
namespace StackAgreement

open Foundation
open Sync
open Async

variable {σ : Type}

/-!
# The asynchronous client on a script
-/

section Drive

variable (transport : HttpTransport σ) (stack : AsyncExecuteStack σ)

/-- The transport takes the request, answers it, and hands it back. -/
def answer (s : AsyncExecuteState σ) (w : Runtime σ)
    (request : RequestMessage σ) : Option (Step σ) :=
  let (result, request, env) :=
    transport.send request s.context.transportContext w.env
  stack.onSent result request s { w with env := env }

def afterRequest : Option (Step σ) -> Option (Step σ)
  | some ⟨s, w, .sendAsync request⟩ => answer transport stack s w request
  | other => other

/-- The tasks of one operation, each run by the scheduler in its turn. -/
def runTasks : Nat -> AsyncExecuteState σ -> Runtime σ ->
    Option (OperationResult × Runtime σ)
  | 0, _, _ => none
  | fuel + 1, s, w =>
      match afterRequest transport stack (stack.executeAsync s w) with
      | some ⟨s, w, .onFinished⟩ =>
          if s.action = .Continue then runTasks fuel s w
          else s.result.map fun result => (result, w)
      | _ => none

end Drive

def executeAsyncOn (transport : HttpTransport σ) (c : AsyncClientImpl σ)
    (fuel : Nat) (input : OperationInput σ) (opts : Option (OperationOptions σ))
    (innerOpts : Option (OperationInnerOptions σ)) (w : Runtime σ) :
    Option (OperationResult × Runtime σ) :=
  match c.start w.clockOffset input opts innerOpts with
  | .error e => some (.error e, w)
  | .ok s => runTasks transport c.stack fuel s w

/-!
# One attempt

What the synchronous stack below the retryer leaves behind is what the
asynchronous retryer finds, but for the response: an attempt that got none
leaves the last one where it is.
-/

/-- The state that the asynchronous retryer finds after an attempt. -/
def settled (s : AsyncExecuteState σ) (response : Option ResponseMessage)
    (x : Exchange σ) : AsyncExecuteState σ :=
  { s with
    request := some x.request
    context := x.context
    response := response.or s.response }

theorem checkerResponse_of_error
    (stack : AsyncExecuteStack σ)
    (s : AsyncExecuteState σ)
    (w : Runtime σ)
    (herror : s.error.isError = true) :
    stack.checkerResponse s w = stack.retryerResponse s w := by
  unfold AsyncExecuteStack.checkerResponse
  unfold ResponseCheckerAsyncMiddleware.handleResponse
  cases s.response with
  | none => rfl
  | some response =>
      simp only [herror, if_true, SignerAsyncMiddleware.handleResponse]

theorem canceledByToken_isError (c : ErrorContext) :
    c.canceledByToken.error.isError = true := by
  simp [ErrorContext.canceledByToken]

theorem ofTransportError_isError (c : ErrorContext) (te : TransportError) :
    (c.ofTransportError te).error.isError = true := by
  simp [ErrorContext.ofTransportError, te.isError]

/-- The transport's callback and the way back to the retryer. -/
theorem onSent_agrees
    (stack : AsyncExecuteStack σ)
    (s : AsyncExecuteState σ)
    (w : Runtime σ)
    (result : ResponseResult)
    (request : RequestMessage σ) :
    let e := checkResponse (receive ⟨request, s.context, w⟩ result)
    stack.onSent result request s w =
      stack.retryerResponse (settled s e.1 e.2) e.2.runtime := by
  intro e
  cases result with
  | error te =>
      exact checkerResponse_of_error stack _ w
        (ofTransportError_isError s.context.errorContext te)
  | response r =>
      by_cases herror : s.context.errorContext.error.isError = true
      · have he : e = (some r, ⟨request, s.context, w⟩) := by
          simp only [e, receive, checkResponse, Exchange.error, herror, if_true]
        rw [he]
        exact checkerResponse_of_error stack
          { s with request := some request, response := some r } w herror
      · simp only [e, receive, checkResponse, Exchange.error, herror]
        simp [settled, AsyncExecuteStack.onSent, TransportAsyncMiddleware.onSent,
          AsyncExecuteStack.transportResponse,
          TransportAsyncMiddleware.handleResponse,
          AsyncExecuteStack.checkerResponse,
          ResponseCheckerAsyncMiddleware.handleResponse,
          SignerAsyncMiddleware.handleResponse, AsyncExecuteState.error, herror]

theorem afterRequest_retryerResponse
    (transport : HttpTransport σ)
    (stack : AsyncExecuteStack σ)
    {s : AsyncExecuteState σ}
    (w : Runtime σ)
    {request : RequestMessage σ}
    (hrequest : s.request = some request) :
    afterRequest transport stack (stack.retryerResponse s w) =
      stack.retryerResponse s w := by
  rw [stack.retryerResponse_eq w hrequest]
  rfl

theorem settled_setError
    {s : AsyncExecuteState σ}
    {request : RequestMessage σ}
    (w : Runtime σ)
    (errorContext : ErrorContext)
    (hrequest : s.request = some request) :
    settled s none (Exchange.setError ⟨request, s.context, w⟩ errorContext) =
      s.setError errorContext := by
  unfold settled AsyncExecuteState.setError
  rw [hrequest]
  rfl

/-- An attempt that a middleware ends before the transport is reached. -/
theorem stopped_agrees
    (transport : HttpTransport σ)
    (stack : AsyncExecuteStack σ)
    {s : AsyncExecuteState σ}
    (w : Runtime σ)
    {request : RequestMessage σ}
    (errorContext : ErrorContext)
    (hrequest : s.request = some request) :
    afterRequest transport stack
        (stack.retryerResponse (s.setError errorContext) w) =
      stack.retryerResponse
        (settled s none
          (Exchange.setError ⟨request, s.context, w⟩ errorContext)) w := by
  have hkept : (s.setError errorContext).request = some request := hrequest
  rw [settled_setError w errorContext hrequest]
  exact afterRequest_retryerResponse transport stack w hkept

theorem transport_agrees
    (transport : HttpTransport σ)
    (stack : AsyncExecuteStack σ)
    {s : AsyncExecuteState σ}
    (w : Runtime σ)
    {request : RequestMessage σ}
    (hrequest : s.request = some request) :
    let e := ResponseCheckerExecuteMiddleware
      (TransportExecuteMiddleware transport) ⟨request, s.context, w⟩
    afterRequest transport stack
        (TransportAsyncMiddleware.handleRequest stack.checkerResponse s w) =
      stack.retryerResponse (settled s e.1 e.2) e.2.runtime := by
  intro e
  unfold TransportAsyncMiddleware.handleRequest
  by_cases hcanceled : s.context.canceled w.env = true
  · have he : e = (none, Exchange.setError ⟨request, s.context, w⟩
        s.context.errorContext.canceledByToken) := by
      simp only [e, ResponseCheckerExecuteMiddleware, TransportExecuteMiddleware,
        hcanceled, if_true, checkResponse]
    have hchecked := checkerResponse_of_error stack
      (s.setError s.context.errorContext.canceledByToken) w
      (canceledByToken_isError s.context.errorContext)
    rw [if_pos hcanceled, hchecked, he]
    exact stopped_agrees transport stack w _ hrequest
  · rw [if_neg hcanceled, hrequest]
    simp only [e, ResponseCheckerExecuteMiddleware, TransportExecuteMiddleware,
      hcanceled]
    exact onSent_agrees stack { s with request := none } _ _ _

theorem attempt_agrees
    (c : ClientImpl σ)
    (stack : AsyncExecuteStack σ)
    (hprovider : stack.provider = c.options.credentialsProvider)
    (hsigner : stack.signer = c.options.signer)
    {s : AsyncExecuteState σ}
    (w : Runtime σ)
    {request : RequestMessage σ}
    (hrequest : s.request = some request) :
    let s' := { s with action := .Stop, retryDelay := 0 }
    let e := c.attempt ⟨request, s.context, w⟩
    afterRequest c.httpTransport stack (stack.executeAsync s w) =
      stack.retryerResponse (settled s' e.1 e.2) e.2.runtime := by
  intro s' e
  have hrequest' : s'.request = some request := hrequest
  change afterRequest c.httpTransport stack
    (SignerAsyncMiddleware.handleRequest stack.provider stack.signer
      (TransportAsyncMiddleware.handleRequest stack.checkerResponse)
      stack.retryerResponse s' w) = _
  unfold SignerAsyncMiddleware.handleRequest
  rw [hprovider, hsigner]
  cases hp : c.options.credentialsProvider with
  | none =>
      simp only [e, ClientImpl.attempt, SignerExecuteMiddleware, hp]
      exact stopped_agrees c.httpTransport stack w _ hrequest'
  | some provider =>
      by_cases hanonymous : provider.getAuthType = .anonymous
      · simp only [e, ClientImpl.attempt, SignerExecuteMiddleware, hp,
          hanonymous, if_true]
        exact transport_agrees c.httpTransport stack w hrequest'
      · rcases hcred : provider.getCredentials w.env with ⟨cred, env⟩
        cases hkeys : cred.hasKeys with
        | false =>
            simp only [e, ClientImpl.attempt, SignerExecuteMiddleware, hp,
              hanonymous, if_false, hcred, hkeys, Bool.not_false, if_true]
            exact stopped_agrees c.httpTransport stack { w with env := env } _
              hrequest'
        | true =>
            rcases hsign : c.options.signer.sign request
                { s.context.signingContext with credentials := cred } env with
              ⟨signed, request', signingContext, env'⟩
            let signedState : AsyncExecuteState σ :=
              { s' with
                request := some request'
                context := { s'.context with signingContext := signingContext } }
            have hsigned : signedState.request = some request' := rfl
            cases signed with
            | false =>
                simp only [e, ClientImpl.attempt, SignerExecuteMiddleware, hp,
                  hanonymous, if_false, hcred, hkeys, hrequest,
                  Exchange.setEnv, hsign, Bool.not_true, Bool.not_false, if_true,
                  Bool.false_eq_true, s', Option.bind_some]
                exact stopped_agrees c.httpTransport stack { w with env := env' }
                  _ hsigned
            | true =>
                simp only [e, ClientImpl.attempt, SignerExecuteMiddleware, hp,
                  hanonymous, if_false, hcred, hkeys, hrequest,
                  Exchange.setEnv, hsign, Bool.not_true,
                  Bool.false_eq_true, s', Option.bind_some]
                exact transport_agrees c.httpTransport stack
                  { w with env := env' } hsigned

/-!
# Without cancellation
-/

/-- Nothing that the waits and checks of an operation look at is ever set. -/
structure NeverCanceled (disableState : DisableState σ)
    (token : Option (CancellationToken σ)) : Prop where
  flag : forall env, disableState.flag env = false
  clientWaitFor : forall delay env,
    disableState.clientWaitFor delay env = (false, env)
  isCanceled : forall t, token = some t -> forall env, t.isCanceled env = false
  waitFor : forall t, token = some t -> forall delay env,
    t.waitFor delay env = (false, env)

theorem waitForRetry_neverCanceled
    {disableState : DisableState σ}
    {token : Option (CancellationToken σ)}
    (hnever : NeverCanceled disableState token)
    (delay : Int)
    (env : σ) :
    waitForRetry disableState delay token env = (false, env) := by
  unfold waitForRetry
  split
  · rfl
  · cases token with
    | none => exact hnever.clientWaitFor delay env
    | some t =>
        simp only [hnever.clientWaitFor, hnever.waitFor t rfl,
          hnever.isCanceled t rfl, Bool.or_self, ite_self]

/-- The two retryers decide alike about the attempt that is over. -/
theorem decideRetry_agrees
    (stack : AsyncExecuteStack σ)
    {disableState : DisableState σ}
    {s : AsyncExecuteState σ}
    (w : Runtime σ)
    (request : RequestMessage σ)
    (hnever : NeverCanceled disableState
      s.context.transportContext.cancellationToken)
    (herror : s.error.isError = true)
    (hleft : s.retries + 1 < s.context.retryMaxAttempts) :
    let x : Exchange σ := ⟨request, s.context, w⟩
    let decision := decideRetry stack.retryer disableState s.signTime
      s.expiration s.retries x
    let context := s.context.resetForRetry s.signTime s.expiration
    (exists env, decision = .stop (x.setEnv env) ∧
      stack.retryerState request s w = (s, { w with env := env })) ∨
    (exists delay env,
      decision = .retry { x.setEnv env with context := context } ∧
      stack.retryerState request s w =
        ({ s with
            retryDelay := delay
            retries := s.retries + 1
            context := context
            action := .Continue }, { w with env := env })) := by
  intro x decision context
  have hxerror : x.error = s.error := rfl
  have hsame : x.setEnv w.env = x := rfl
  have hxrequest : isOneShot x.request x.context = isOneShot request s.context :=
    rfl
  have hwait := waitForRetry_neverCanceled hnever
  simp only [decision, decideRetry, AsyncExecuteStack.retryerState,
    RetryerAsyncMiddleware.mayRetry, RetryerAsyncMiddleware.retryOrStop,
    hxerror, hxrequest, herror, hleft]
  by_cases hcanceled : s.error.equivalent .Canceled = true
  · left
    exact ⟨w.env, by simp [hcanceled, hsame], by simp [hcanceled]⟩
  · by_cases hshot : isOneShot request s.context = true
    · left
      exact ⟨w.env, by simp [hcanceled, hshot, hsame],
        by simp [hcanceled, hshot]⟩
    · rcases hretryable : stack.retryer.isErrorRetryable s.error w.env with
        ⟨retryable, env⟩
      cases retryable with
      | false =>
          left
          exact ⟨env, by simp [hcanceled, hshot, hretryable, x],
            by simp [hcanceled, hshot, hretryable]⟩
      | true =>
          right
          rcases hdelay : stack.retryer.calcDelayTime s.error (s.retries + 1) env
            with ⟨delay, env'⟩
          exact ⟨delay, env',
            by simp [hcanceled, hshot, hretryable, hdelay, hxerror, hwait, x,
              context],
            by simp [hcanceled, hshot, hretryable, hdelay, context]⟩

/-!
# Whole operations
-/

theorem checkResponse_frame (e : Option ResponseMessage × Exchange σ) :
    (checkResponse e).2.context.retryMaxAttempts =
        e.2.context.retryMaxAttempts ∧
      (checkResponse e).2.context.transportContext =
        e.2.context.transportContext := by
  rcases e with ⟨response, x⟩
  cases response with
  | none => exact ⟨rfl, rfl⟩
  | some r =>
      simp only [checkResponse]
      by_cases herror : x.error.isError = true
      · rw [if_pos herror]
        exact ⟨rfl, rfl⟩
      · rw [if_neg herror]
        exact ⟨rfl, rfl⟩

theorem checkResponse_none
    {e : Option ResponseMessage × Exchange σ}
    (hnone : (checkResponse e).1 = none) :
    checkResponse e = e := by
  rcases e with ⟨response, x⟩
  cases response with
  | none => rfl
  | some r =>
      simp only [checkResponse] at hnone
      split at hnone <;> cases hnone

/-- What an attempt that got no response leaves in the context. -/
structure NoResponse (x y : Exchange σ) : Prop where
  error : y.error.isError = true
  snapshot : y.context.errorContext.snapshot = x.context.errorContext.snapshot

theorem transport_frame (transport : HttpTransport σ) (x : Exchange σ) :
    let e := TransportExecuteMiddleware transport x
    e.2.context.retryMaxAttempts = x.context.retryMaxAttempts ∧
      e.2.context.transportContext = x.context.transportContext ∧
      (e.1 = none -> NoResponse x e.2) := by
  intro e
  by_cases hcanceled : x.context.canceled x.runtime.env = true
  · have he : e = (none, x.setError x.context.errorContext.canceledByToken) := by
      simp only [e, TransportExecuteMiddleware, hcanceled, if_true]
    rw [he]
    exact ⟨rfl, rfl, fun _ =>
      ⟨canceledByToken_isError x.context.errorContext, rfl⟩⟩
  · rcases hsent : transport.send x.request x.context.transportContext
      x.runtime.env with ⟨result, request, env⟩
    have he : e = receive { x.setEnv env with request := request } result := by
      simp only [e, TransportExecuteMiddleware, hcanceled, hsent]
      rfl
    rw [he]
    cases result with
    | error te =>
        exact ⟨rfl, rfl, fun _ =>
          ⟨ofTransportError_isError x.context.errorContext te, rfl⟩⟩
    | response r =>
        refine ⟨rfl, rfl, ?_⟩
        intro hnone
        cases hnone

theorem checked_frame (transport : HttpTransport σ) (x : Exchange σ) :
    let e := ResponseCheckerExecuteMiddleware
      (TransportExecuteMiddleware transport) x
    e.2.context.retryMaxAttempts = x.context.retryMaxAttempts ∧
      e.2.context.transportContext = x.context.transportContext ∧
      (e.1 = none -> NoResponse x e.2) := by
  intro e
  rcases transport_frame transport x with ⟨hmax, htransport, hnone⟩
  rcases checkResponse_frame (TransportExecuteMiddleware transport x) with
    ⟨hmax', htransport'⟩
  refine ⟨hmax'.trans hmax, htransport'.trans htransport, ?_⟩
  intro he
  have hsame := checkResponse_none he
  simp only [e, ResponseCheckerExecuteMiddleware, hsame] at he ⊢
  exact hnone he

theorem attempt_frame (c : ClientImpl σ) (x : Exchange σ) :
    (c.attempt x).2.context.retryMaxAttempts = x.context.retryMaxAttempts ∧
      (c.attempt x).2.context.transportContext = x.context.transportContext ∧
      ((c.attempt x).1 = none -> NoResponse x (c.attempt x).2) := by
  unfold ClientImpl.attempt SignerExecuteMiddleware
  cases c.options.credentialsProvider with
  | none => exact ⟨rfl, rfl, fun _ => ⟨rfl, rfl⟩⟩
  | some provider =>
      by_cases hanonymous : provider.getAuthType = .anonymous
      · simp only [hanonymous, if_true]
        exact checked_frame c.httpTransport x
      · rcases hcred : provider.getCredentials x.runtime.env with ⟨cred, env⟩
        cases hkeys : cred.hasKeys with
        | false =>
            simp only [hanonymous, if_false, hcred, hkeys, Bool.not_false, if_true]
            refine ⟨rfl, rfl, fun _ => ⟨?_, rfl⟩⟩
            exact ErrorCode.isError_credentials _
        | true =>
            rcases hsign : c.options.signer.sign x.request
                { x.context.signingContext with credentials := cred } env with
              ⟨signed, request, signingContext, env'⟩
            simp only [hanonymous, if_false, hcred, hkeys, Bool.not_true,
              Bool.false_eq_true, Exchange.setEnv_context,
              Exchange.setEnv_request, Exchange.setEnv_runtime, hsign]
            cases signed with
            | false => exact ⟨rfl, rfl, fun _ => ⟨rfl, rfl⟩⟩
            | true =>
                simp only [Bool.not_true, Bool.false_eq_true, if_false]
                rcases checked_frame c.httpTransport
                    { x with
                      request := request
                      context := { x.context with signingContext := signingContext }
                      runtime := { x.runtime with env := env' } } with
                  ⟨hmax, htransport, hnone⟩
                refine ⟨hmax, htransport, ?_⟩
                intro he
                rcases hnone he with ⟨herror, hsnapshot⟩
                exact ⟨herror, hsnapshot⟩

/-- The responses of the attempts that are made, in order. -/
def attemptResponses (c : ClientImpl σ) (signTime expiration : Int) :
    Nat -> Int -> Exchange σ -> List (Option ResponseMessage)
  | left, retries, x =>
      let (response, x) := c.attempt x
      if !x.error.isError then [response]
      else
        match left with
        | 0 => [response]
        | left + 1 =>
            match decideRetry c.options.retryer c.disableState signTime
              expiration retries x with
            | .stop _ => [response]
            | .retry x =>
                response ::
                  attemptResponses c signTime expiration left (retries + 1) x

theorem attemptResponses_success
    {c : ClientImpl σ}
    {signTime expiration : Int}
    {x : Exchange σ}
    (left : Nat)
    (retries : Int)
    (hok : (c.attempt x).2.error.isError = false) :
    attemptResponses c signTime expiration left retries x =
      [(c.attempt x).1] := by
  rw [attemptResponses.eq_def]
  simp only [hok, Bool.not_false, if_true]

theorem attemptResponses_last
    (c : ClientImpl σ)
    (signTime expiration retries : Int)
    (x : Exchange σ) :
    attemptResponses c signTime expiration 0 retries x =
      [(c.attempt x).1] := by
  rw [attemptResponses.eq_def]
  simp only [ite_self]

theorem attemptResponses_stop
    {c : ClientImpl σ}
    {signTime expiration retries : Int}
    {x y : Exchange σ}
    (left : Nat)
    (herror : (c.attempt x).2.error.isError = true)
    (hstop : decideRetry c.options.retryer c.disableState signTime expiration
      retries (c.attempt x).2 = .stop y) :
    attemptResponses c signTime expiration (left + 1) retries x =
      [(c.attempt x).1] := by
  rw [attemptResponses.eq_def]
  simp only [herror, hstop, Bool.not_true, Bool.false_eq_true, if_false]

theorem attemptResponses_retry
    {c : ClientImpl σ}
    {signTime expiration retries : Int}
    {x y : Exchange σ}
    (left : Nat)
    (herror : (c.attempt x).2.error.isError = true)
    (hretry : decideRetry c.options.retryer c.disableState signTime expiration
      retries (c.attempt x).2 = .retry y) :
    attemptResponses c signTime expiration (left + 1) retries x =
      (c.attempt x).1 ::
        attemptResponses c signTime expiration left (retries + 1) y := by
  rw [attemptResponses.eq_def]
  simp only [herror, hretry, Bool.not_true, Bool.false_eq_true, if_false]

theorem attemptResponses_getLast
    (c : ClientImpl σ)
    (signTime expiration : Int)
    (left : Nat)
    (retries : Int)
    (x : Exchange σ) :
    (attemptResponses c signTime expiration left retries x).getLast? =
      some (retryLoop c.options.retryer c.disableState c.attempt signTime
        expiration left retries x).1 := by
  induction left generalizing retries x with
  | zero =>
      rw [attemptResponses_last, retryLoop_last]
      rfl
  | succ left ih =>
      cases herror : (c.attempt x).2.error.isError with
      | false =>
          rw [attemptResponses_success _ _ herror, retryLoop_success _ _ herror]
          rfl
      | true =>
          cases hdecide : decideRetry c.options.retryer c.disableState signTime
            expiration retries (c.attempt x).2 with
          | stop y =>
              rw [attemptResponses_stop _ herror hdecide,
                retryLoop_stop _ herror hdecide]
              rfl
          | retry y =>
              rw [attemptResponses_retry _ herror hdecide,
                retryLoop_retry _ herror hdecide, List.getLast?_cons, ih]
              rfl

/-- The response that an operation is left with when it keeps the last one. -/
def lastResponse (responses : List (Option ResponseMessage)) :
    Option ResponseMessage :=
  responses.reduceOption.getLast?

theorem lastResponse_singleton (r : Option ResponseMessage) :
    lastResponse [r] = r := by
  cases r <;> rfl

theorem lastResponse_cons_or
    (r old : Option ResponseMessage)
    (rest : List (Option ResponseMessage)) :
    (lastResponse rest).or (r.or old) = (lastResponse (r :: rest)).or old := by
  unfold lastResponse
  cases r with
  | none => simp [List.reduceOption_cons_of_none]
  | some r =>
      rw [List.reduceOption_cons_of_some, List.getLast?_cons]
      cases rest.reduceOption.getLast? <;> rfl

/-- The task that runs an attempt ends with the retryer's state. -/
theorem runTasks_succ
    (c : ClientImpl σ)
    (stack : AsyncExecuteStack σ)
    (hprovider : stack.provider = c.options.credentialsProvider)
    (hsigner : stack.signer = c.options.signer)
    {s : AsyncExecuteState σ}
    (w : Runtime σ)
    {request : RequestMessage σ}
    (hrequest : s.request = some request)
    (fuel : Nat) :
    let e := c.attempt ⟨request, s.context, w⟩
    let t := settled { s with action := .Stop, retryDelay := 0 } e.1 e.2
    let after := stack.retryerState e.2.request t e.2.runtime
    runTasks c.httpTransport stack (fuel + 1) s w =
      if after.1.action = .Continue then
        runTasks c.httpTransport stack fuel after.1 after.2
      else after.1.result.map fun result => (result, after.2) := by
  intro e t after
  have hsettled : t.request = some e.2.request := rfl
  rw [runTasks, attempt_agrees c stack hprovider hsigner w hrequest,
    stack.retryerResponse_eq e.2.runtime hsettled]

theorem retryerState_stop
    (stack : AsyncExecuteStack σ)
    (request : RequestMessage σ)
    {s : AsyncExecuteState σ}
    (w : Runtime σ)
    (hstop : s.error.isError = false ∨
      ¬ s.retries + 1 < s.context.retryMaxAttempts) :
    stack.retryerState request s w = (s, w) := by
  unfold AsyncExecuteStack.retryerState RetryerAsyncMiddleware.mayRetry
  rcases hstop with herror | hleft
  · simp [herror]
  · simp [hleft]

theorem runTasks_agrees
    (c : ClientImpl σ)
    (stack : AsyncExecuteStack σ)
    (hretryer : stack.retryer = c.options.retryer)
    (hprovider : stack.provider = c.options.credentialsProvider)
    (hsigner : stack.signer = c.options.signer)
    (left : Nat)
    {fuel : Nat}
    {s : AsyncExecuteState σ}
    (w : Runtime σ)
    {request : RequestMessage σ}
    (hrequest : s.request = some request)
    (hleft : left = (s.context.retryMaxAttempts - 1 - s.retries).toNat)
    (hfuel : left < fuel)
    (hnever : NeverCanceled c.disableState
      s.context.transportContext.cancellationToken) :
    let x : Exchange σ := ⟨request, s.context, w⟩
    let e := retryLoop c.options.retryer c.disableState c.attempt s.signTime
      s.expiration left s.retries x
    let responses := attemptResponses c s.signTime s.expiration left s.retries x
    runTasks c.httpTransport stack fuel s w =
      some (buildResult s.opName e.2.request e.2.context.errorContext
        ((lastResponse responses).or s.response), e.2.runtime) := by
  induction left generalizing fuel s w request with
  | zero =>
      intro x e responses
      obtain ⟨n, rfl⟩ := Nat.exists_eq_succ_of_ne_zero (Nat.ne_of_gt hfuel)
      rcases attempt_frame c x with ⟨hmax, _, _⟩
      have he : e = c.attempt x := retryLoop_last _ x
      have hresponses : responses = [(c.attempt x).1] :=
        attemptResponses_last c _ _ _ x
      have hlast : ¬ s.retries + 1 <
          (c.attempt x).2.context.retryMaxAttempts := by
        have hmax' : (c.attempt x).2.context.retryMaxAttempts =
            s.context.retryMaxAttempts := hmax
        omega
      rw [runTasks_succ c stack hprovider hsigner w hrequest n,
        retryerState_stop stack _ _ (Or.inr hlast), hresponses,
        lastResponse_singleton, he]
      rfl
  | succ left ih =>
      intro x e responses
      obtain ⟨n, rfl⟩ :=
        Nat.exists_eq_succ_of_ne_zero (Nat.ne_of_gt (Nat.zero_lt_of_lt hfuel))
      rcases attempt_frame c x with ⟨hmax, htransport, _⟩
      have hmax' : (c.attempt x).2.context.retryMaxAttempts =
          s.context.retryMaxAttempts := hmax
      let t := settled { s with action := .Stop, retryDelay := 0 }
        (c.attempt x).1 (c.attempt x).2
      rw [runTasks_succ c stack hprovider hsigner w hrequest n]
      cases herror : (c.attempt x).2.error.isError with
      | false =>
          have hterror : t.error.isError = false := herror
          have he : e = c.attempt x := retryLoop_success _ _ herror
          have hresponses : responses = [(c.attempt x).1] :=
            attemptResponses_success _ _ herror
          rw [retryerState_stop stack _ _ (Or.inl hterror), hresponses,
            lastResponse_singleton, he]
          rfl
      | true =>
          have hmore : s.retries + 1 <
              (c.attempt x).2.context.retryMaxAttempts := by omega
          have hnever' : NeverCanceled c.disableState
              (c.attempt x).2.context.transportContext.cancellationToken := by
            rw [htransport]
            exact hnever
          have hdecide := decideRetry_agrees (s := t) stack
            (c.attempt x).2.runtime (c.attempt x).2.request hnever' herror hmore
          rw [hretryer] at hdecide
          rcases hdecide with ⟨env, hstop, hstate⟩ | ⟨delay, env, hretry, hstate⟩
          · have he : e = ((c.attempt x).1, (c.attempt x).2.setEnv env) :=
              retryLoop_stop _ herror hstop
            have hresponses : responses = [(c.attempt x).1] :=
              attemptResponses_stop _ herror hstop
            rw [hstate, hresponses, lastResponse_singleton, he]
            rfl
          · have he : e = _ := retryLoop_retry left herror hretry
            have hresponses : responses = _ :=
              attemptResponses_retry left herror hretry
            rw [hstate, hresponses, ← lastResponse_cons_or, he, if_pos rfl]
            have hleft' : left =
                ((c.attempt x).2.context.retryMaxAttempts - 1 -
                  (s.retries + 1)).toNat := by omega
            let u : AsyncExecuteState σ :=
              { t with
                retryDelay := delay
                retries := s.retries + 1
                context := t.context.resetForRetry s.signTime s.expiration
                action := .Continue }
            exact ih (s := u) { (c.attempt x).2.runtime with env := env } rfl
              hleft' (Nat.lt_of_succ_lt_succ hfuel) hnever'

/-!
# Agreement of the results
-/

theorem decideRetry_stop
    {retryer : Retryer σ}
    {disableState : DisableState σ}
    {signTime expiration retries : Int}
    {x y : Exchange σ}
    (herror : x.error.isError = true)
    (hstop : decideRetry retryer disableState signTime expiration retries x =
      .stop y) :
    NoResponse x y := by
  simp only [decideRetry] at hstop
  split at hstop
  · cases hstop
    exact ⟨herror, rfl⟩
  · split at hstop
    · cases hstop
      exact ⟨herror, rfl⟩
    · split at hstop
      · cases hstop
        exact ⟨herror, rfl⟩
      · split at hstop
        · cases hstop
          exact ⟨ErrorCode.isError_client _, rfl⟩
        · cases hstop

theorem decideRetry_retry
    {retryer : Retryer σ}
    {disableState : DisableState σ}
    {signTime expiration retries : Int}
    {x y : Exchange σ}
    (hretry : decideRetry retryer disableState signTime expiration retries x =
      .retry y) :
    y.context.errorContext = ErrorContext.empty := by
  simp only [decideRetry] at hretry
  split at hretry
  · cases hretry
  · split at hretry
    · cases hretry
    · split at hretry
      · cases hretry
      · split at hretry
        · cases hretry
        · cases hretry
          rfl

/-- An operation left without a response has an error and no snapshot. -/
theorem retryLoop_noResponse
    (c : ClientImpl σ)
    (signTime expiration : Int)
    (left : Nat)
    (retries : Int)
    {x : Exchange σ}
    (hsnapshot : x.context.errorContext.snapshot = []) :
    let e := retryLoop c.options.retryer c.disableState c.attempt signTime
      expiration left retries x
    e.1 = none ->
      e.2.error.isError = true ∧ e.2.context.errorContext.snapshot = [] := by
  induction left generalizing retries x with
  | zero =>
      intro e hnone
      have he : e = c.attempt x := retryLoop_last _ x
      rw [he] at hnone ⊢
      rcases (attempt_frame c x).2.2 hnone with ⟨herror, hkept⟩
      exact ⟨herror, hkept.trans hsnapshot⟩
  | succ left ih =>
      intro e hnone
      cases herror : (c.attempt x).2.error.isError with
      | false =>
          have he : e = c.attempt x := retryLoop_success _ _ herror
          rw [he] at hnone ⊢
          rcases (attempt_frame c x).2.2 hnone with ⟨herror', hkept⟩
          exact ⟨herror', hkept.trans hsnapshot⟩
      | true =>
          cases hdecide : decideRetry c.options.retryer c.disableState signTime
            expiration retries (c.attempt x).2 with
          | stop y =>
              have he : e = ((c.attempt x).1, y) :=
                retryLoop_stop _ herror hdecide
              rw [he] at hnone ⊢
              rcases (attempt_frame c x).2.2 hnone with ⟨_, hkept⟩
              rcases decideRetry_stop herror hdecide with ⟨herror', hkept'⟩
              exact ⟨herror', hkept'.trans (hkept.trans hsnapshot)⟩
          | retry y =>
              have he : e = _ := retryLoop_retry left herror hdecide
              have hy : y.context.errorContext.snapshot = [] := by
                rw [decideRetry_retry hdecide]
                rfl
              rw [he] at hnone ⊢
              exact ih (retries + 1) hy hnone

theorem buildResult_stale
    (opName : ByteString)
    (request : RequestMessage σ)
    {errorContext : ErrorContext}
    (r : ResponseMessage)
    (herror : errorContext.error.isError = true)
    (hsnapshot : errorContext.snapshot = []) :
    buildResult opName request errorContext (some r) =
        buildResult opName request errorContext none ↔
      r.statusCode = 0 ∧ r.headers = SortedMap.empty := by
  simp [buildResult, herror, hsnapshot, OperationError.ofCode]

/-- The last attempt got no response, and an earlier one got one that shows. -/
def EndsOnStaleResponse (responses : List (Option ResponseMessage)) : Prop :=
  exists earlier r, responses = earlier ++ [none] ∧
    lastResponse earlier = some r ∧
    ¬ (r.statusCode = 0 ∧ r.headers = SortedMap.empty)

/-- The responses of the attempts of one operation. -/
def operationResponses (c : ClientImpl σ) (input : OperationInput σ)
    (opts : Option (OperationOptions σ))
    (innerOpts : Option (OperationInnerOptions σ)) (w : Runtime σ) :
    List (Option ResponseMessage) :=
  match prepare c.toClientImplBase w.clockOffset input opts innerOpts with
  | .error _ => []
  | .ok (context, request) =>
      attemptResponses c context.signingContext.signTimeInEpoch
        context.signingContext.expirationInEpoch
        (context.retryMaxAttempts - 1).toNat 0 ⟨request, context, w⟩

theorem lastResponse_concat_some
    (earlier : List (Option ResponseMessage)) (r : ResponseMessage) :
    lastResponse (earlier ++ [some r]) = some r := by
  unfold lastResponse
  rw [List.reduceOption_append]
  exact List.getLast?_concat

theorem lastResponse_concat_none (earlier : List (Option ResponseMessage)) :
    lastResponse (earlier ++ [none]) = lastResponse earlier := by
  unfold lastResponse
  rw [List.reduceOption_append]
  exact congrArg List.getLast? (List.append_nil _)

theorem result_eq_iff
    (opName : ByteString)
    (request : RequestMessage σ)
    {errorContext : ErrorContext}
    {responses : List (Option ResponseMessage)}
    {response : Option ResponseMessage}
    (hlast : responses.getLast? = some response)
    (hnone : response = none ->
      errorContext.error.isError = true ∧ errorContext.snapshot = []) :
    buildResult opName request errorContext (lastResponse responses) =
        buildResult opName request errorContext response ↔
      ¬ EndsOnStaleResponse responses := by
  rcases List.getLast?_eq_some_iff.mp hlast with ⟨earlier, hresponses⟩
  cases response with
  | some r =>
      rw [hresponses, lastResponse_concat_some]
      refine ⟨?_, fun _ => rfl⟩
      intro _ hstale
      rcases hstale with ⟨earlier', r', heq, _, _⟩
      have hr := (List.append_inj' heq rfl).2
      cases hr
  | none =>
      rcases hnone rfl with ⟨herror, hsnapshot⟩
      rw [hresponses, lastResponse_concat_none]
      cases hold : lastResponse earlier with
      | none =>
          refine ⟨?_, fun _ => rfl⟩
          intro _ hstale
          rcases hstale with ⟨earlier', r', heq, hr', _⟩
          have hsame := (List.append_inj' heq rfl).1
          rw [← hsame, hold] at hr'
          cases hr'
      | some r =>
          rw [buildResult_stale opName request r herror hsnapshot]
          constructor
          · intro hblank hstale
            rcases hstale with ⟨earlier', r', heq, hr', hshows⟩
            have hsame := (List.append_inj' heq rfl).1
            rw [← hsame, hold] at hr'
            injection hr' with hr
            rw [← hr] at hshows
            exact hshows hblank
          · intro hstale
            by_contra hshows
            exact hstale ⟨earlier, r, rfl, hold, hshows⟩

/--
Without cancellation the two clients give the same result, and leave the same
environment behind, exactly when the operation does not end on a stale response.
-/
theorem execute_agrees_iff
    (c : ClientImpl σ)
    (input : OperationInput σ)
    (opts : Option (OperationOptions σ))
    (innerOpts : Option (OperationInnerOptions σ))
    (w : Runtime σ)
    (hnever : NeverCanceled c.disableState (tokenOf opts)) :
    exists attempts result,
      (forall fuel, attempts ≤ fuel ->
        executeAsyncOn c.httpTransport ⟨c.toClientImplBase⟩ fuel input opts
          innerOpts w = some result) ∧
      (result = c.Execute input opts innerOpts w ↔
        ¬ EndsOnStaleResponse (operationResponses c input opts innerOpts w)) := by
  unfold ClientImpl.Execute operationResponses executeAsyncOn
    AsyncClientImpl.start
  rw [hnever.flag w.env]
  cases hprepare : prepare c.toClientImplBase w.clockOffset input opts innerOpts
    with
  | error e =>
      refine ⟨0, (.error e, w), ?_, ?_⟩
      · intro fuel _
        rfl
      · refine ⟨?_, fun _ => rfl⟩
        intro _ hstale
        rcases hstale with ⟨earlier, r, heq, _, _⟩
        simp at heq
  | ok prepared =>
      rcases prepared with ⟨context, request⟩
      rcases prepare_ok hprepare with ⟨hempty, htoken⟩
      let x : Exchange σ := ⟨request, context, w⟩
      let left := (context.retryMaxAttempts - 1).toNat
      let e := c.executeStack x
      let responses := attemptResponses c context.signingContext.signTimeInEpoch
        context.signingContext.expirationInEpoch left 0 x
      have hsnapshot : x.context.errorContext.snapshot = [] := by
        change context.errorContext.snapshot = []
        rw [hempty]
        rfl
      refine ⟨left + 1, (buildResult input.opName e.2.request
        e.2.context.errorContext (lastResponse responses), e.2.runtime), ?_, ?_⟩
      · intro fuel hfuel
        have hdrive := runTasks_agrees c (AsyncClientImpl.stack ⟨c.toClientImplBase⟩)
          rfl rfl rfl left
          (s := ⟨input.opName, context, some request, none, .Stop, 0, 0,
            context.signingContext.signTimeInEpoch,
            context.signingContext.expirationInEpoch⟩)
          w rfl (by simp [left]) hfuel (by rw [htoken]; exact hnever)
        simp only [Option.or_none] at hdrive
        exact hdrive
      · have hresult := result_eq_iff input.opName e.2.request
          (attemptResponses_getLast c context.signingContext.signTimeInEpoch
            context.signingContext.expirationInEpoch left 0 x)
          (retryLoop_noResponse c _ _ left 0 hsnapshot)
        rw [← hresult]
        simp only [Bool.false_eq_true, if_false, Prod.mk.injEq]
        exact and_iff_left rfl

/-!
# A refused connection after a 503
-/

/-- A transport that answers from a list. -/
def scriptedTransport : HttpTransport (List ResponseResult) where
  send request _ script :=
    match script with
    | [] => (.error (TransportError.make .Unknown [] []), request, [])
    | result :: rest => (result, request, rest)

def anonymousClient : ClientImpl (List ResponseResult) where
  toClientImplBase := anonymousBase _
  httpTransport := scriptedTransport
  disableState := ⟨fun _ => false, fun _ script => (false, script)⟩

def unavailableThenRefused : List ResponseResult :=
  [.response ⟨503, bytes "Service Unavailable", SortedMap.empty, none⟩,
    .error (TransportError.make .ConnectionFailed [] []),
    .error (TransportError.make .ConnectionFailed [] [])]

def statusOf : OperationResult -> Int
  | .output o => o.statusCode
  | .error e => e.statusCode

theorem execute_disagrees_after_503 :
    (executeAsyncOn anonymousClient.httpTransport
        ⟨anonymousClient.toClientImplBase⟩ 3 (headObjectInput _) none none
        ⟨0, unavailableThenRefused⟩).map (fun result => statusOf result.1) =
          some 503 ∧
      statusOf (anonymousClient.Execute (headObjectInput _) none none
        ⟨0, unavailableThenRefused⟩).1 = 0 := by
  decide +kernel

theorem anonymousClient_neverCanceled :
    NeverCanceled anonymousClient.disableState
      (tokenOf (none : Option (OperationOptions (List ResponseResult)))) where
  flag _ := rfl
  clientWaitFor _ _ := rfl
  isCanceled _ ht := by cases ht
  waitFor _ ht := by cases ht

theorem execute_agrees_on_empty_script :
    exists attempts result,
      (forall fuel, attempts ≤ fuel ->
        executeAsyncOn anonymousClient.httpTransport
          ⟨anonymousClient.toClientImplBase⟩ fuel (headObjectInput _) none none
          ⟨0, []⟩ = some result) ∧
      (result = anonymousClient.Execute (headObjectInput _) none none ⟨0, []⟩ ↔
        ¬ EndsOnStaleResponse
          (operationResponses anonymousClient (headObjectInput _) none none ⟨0, []⟩)) :=
  execute_agrees_iff anonymousClient (headObjectInput _) none none ⟨0, []⟩
    anonymousClient_neverCanceled

end StackAgreement
end Internal
end OssSdk
