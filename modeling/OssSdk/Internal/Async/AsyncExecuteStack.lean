import OssSdk.Internal.ClientImplBase

/-!
# The asynchronous stack

A request travels through the middlewares from left to right, and what becomes
of it travels back from right to left, on a state that the callbacks share.  The
request itself is moved out of that state while the transport has it.

A handler is followed to the point where the stack is left: either the request
has been handed to the transport, or the operation's attempt is over.  Following
a null pointer leaves the behaviour undefined, and the handler without a value.
-/

namespace OssSdk
namespace Internal
namespace Async

open Foundation

variable {σ : Type}

inductive ResponseAction where
  | Stop
  | Continue
deriving DecidableEq

structure AsyncExecuteState (σ : Type) where
  opName : ByteString
  context : ExecuteContext σ
  request : Option (RequestMessage σ)
  response : Option ResponseMessage
  action : ResponseAction
  retryDelay : Int
  retries : Int
  signTime : Int
  expiration : Int

/-- How the stack is left. -/
inductive Exit (σ : Type) where
  /-- `transport_->sendAsync` has been called. -/
  | sendAsync (request : RequestMessage σ)
  /-- `onFinished_` has been called. -/
  | onFinished

structure Step (σ : Type) where
  state : AsyncExecuteState σ
  runtime : Runtime σ
  exit : Exit σ

abbrev Handler (σ : Type) : Type :=
  AsyncExecuteState σ -> Runtime σ -> Option (Step σ)

def AsyncExecuteState.setError (s : AsyncExecuteState σ)
    (errorContext : ErrorContext) : AsyncExecuteState σ :=
  { s with context := { s.context with errorContext := errorContext } }

def AsyncExecuteState.error (s : AsyncExecuteState σ) : ErrorCode :=
  s.context.errorContext.error

/-!
# The way back
-/

def OnFinishedAsyncMiddleware.handleResponse : Handler σ := fun s w =>
  some ⟨s, w, .onFinished⟩

def RetryerAsyncMiddleware.mayRetry (s : AsyncExecuteState σ) : Bool :=
  s.error.isError && !s.error.equivalent .Canceled &&
    decide (s.retries + 1 < s.context.retryMaxAttempts)

/-- `canRetry`, the retryer's decision, and the way back to the first state. -/
def RetryerAsyncMiddleware.retryOrStop (retryer : Retryer σ)
    (request : RequestMessage σ) (s : AsyncExecuteState σ) (w : Runtime σ) :
    AsyncExecuteState σ × Runtime σ :=
  if isOneShot request s.context then (s, w)
  else
    let (retryable, env) := retryer.isErrorRetryable s.error w.env
    if !retryable then (s, { w with env := env })
    else
      let (delay, env) := retryer.calcDelayTime s.error (s.retries + 1) env
      ({ s with
          retryDelay := delay
          retries := s.retries + 1
          context := s.context.resetForRetry s.signTime s.expiration
          action := .Continue },
        { w with env := env })

def RetryerAsyncMiddleware.handleResponse (retryer : Retryer σ)
    (prev : Handler σ) : Handler σ := fun s w =>
  if RetryerAsyncMiddleware.mayRetry s then
    s.request.bind fun request =>
      let (s, w) := RetryerAsyncMiddleware.retryOrStop retryer request s w
      prev s w
  else prev s w

def SignerAsyncMiddleware.handleResponse (prev : Handler σ) : Handler σ := prev

def ResponseCheckerAsyncMiddleware.handleResponse (prev : Handler σ) :
    Handler σ := fun s w =>
  match s.response with
  | none => prev s w
  | some response =>
      if s.error.isError then prev s w
      else
        let checked :=
          runChecks s.context.onResponseMessage
            ⟨response, s.context.signingContext, s.context.errorContext, w⟩
        prev
          { s with
            response := some checked.response
            context :=
              { s.context with
                signingContext := checked.signingContext
                errorContext := checked.errorContext } }
          checked.runtime

def TransportAsyncMiddleware.handleResponse (prev : Handler σ) : Handler σ :=
  prev

/-!
# The way in
-/

def TransportAsyncMiddleware.handleRequest (prev : Handler σ) : Handler σ :=
  fun s w =>
  if s.context.canceled w.env then
    prev (s.setError s.context.errorContext.canceledByToken) w
  else
    s.request.bind fun request =>
      some ⟨{ s with request := none }, w, .sendAsync request⟩

/-- The callback that `sendAsync` is given. -/
def TransportAsyncMiddleware.onSent (self : Handler σ)
    (result : ResponseResult) (request : RequestMessage σ) : Handler σ :=
  fun s w =>
  let s := { s with request := some request }
  match result with
  | .error te => self (s.setError (s.context.errorContext.ofTransportError te)) w
  | .response r => self { s with response := some r } w

def ResponseCheckerAsyncMiddleware.handleRequest (next : Handler σ) :
    Handler σ := next

def SignerAsyncMiddleware.handleRequest
    (provider : Option (CredentialsProvider σ)) (signer : Signer σ)
    (next prev : Handler σ) : Handler σ := fun s w =>
  match provider with
  | none =>
      prev (s.setError (s.context.errorContext.update
        (ErrorCode.credentials .ProviderNull) (bytes "IllegalArgument")
        (bytes "Credentials provider is null."))) w
  | some provider =>
      if provider.getAuthType = .anonymous then next s w
      else
        let (cred, env) := provider.getCredentials w.env
        let w := { w with env := env }
        if !cred.hasKeys then
          let code : CredentialsErrorCode :=
            if cred.retryable then .FetchError else .Empty
          prev (s.setError (s.context.errorContext.update
            (ErrorCode.credentials code) (bytes "CredentialsError")
            (cred.error.getD (bytes "Credentials is null or empty.")))) w
        else
          s.request.bind fun request =>
            let signingContext :=
              { s.context.signingContext with credentials := cred }
            let (signed, request, signingContext, env) :=
              signer.sign request signingContext w.env
            let s :=
              { s with
                request := some request
                context := { s.context with signingContext := signingContext } }
            let w := { w with env := env }
            if !signed then
              prev (s.setError (s.context.errorContext.update
                (ErrorCode.signer .SignFailed) (bytes "SignatureError")
                (bytes "The signer encountered an error while signing."))) w
            else next s w

def RetryerAsyncMiddleware.handleRequest (next : Handler σ) : Handler σ :=
  fun s w => next { s with action := .Stop, retryDelay := 0 } w

/-!
# The stack
-/

/-- `resolve` links the middlewares in this order, each to the one before it. -/
structure AsyncExecuteStack (σ : Type) where
  retryer : Retryer σ
  provider : Option (CredentialsProvider σ)
  signer : Signer σ

namespace AsyncExecuteStack

def retryerResponse (stack : AsyncExecuteStack σ) : Handler σ :=
  RetryerAsyncMiddleware.handleResponse stack.retryer
    OnFinishedAsyncMiddleware.handleResponse

def checkerResponse (stack : AsyncExecuteStack σ) : Handler σ :=
  ResponseCheckerAsyncMiddleware.handleResponse
    (SignerAsyncMiddleware.handleResponse stack.retryerResponse)

def transportResponse (stack : AsyncExecuteStack σ) : Handler σ :=
  TransportAsyncMiddleware.handleResponse stack.checkerResponse

/-- The transport calls back. -/
def onSent (stack : AsyncExecuteStack σ) (result : ResponseResult)
    (request : RequestMessage σ) : Handler σ :=
  TransportAsyncMiddleware.onSent stack.transportResponse result request

def executeAsync (stack : AsyncExecuteStack σ) : Handler σ :=
  RetryerAsyncMiddleware.handleRequest
    (SignerAsyncMiddleware.handleRequest stack.provider stack.signer
      (ResponseCheckerAsyncMiddleware.handleRequest
        (TransportAsyncMiddleware.handleRequest stack.checkerResponse))
      stack.retryerResponse)

/-- What the retryer makes of a state that holds its request. -/
def retryerState (stack : AsyncExecuteStack σ) (request : RequestMessage σ)
    (s : AsyncExecuteState σ) (w : Runtime σ) :
    AsyncExecuteState σ × Runtime σ :=
  if RetryerAsyncMiddleware.mayRetry s then
    RetryerAsyncMiddleware.retryOrStop stack.retryer request s w
  else (s, w)

theorem retryerResponse_eq
    (stack : AsyncExecuteStack σ)
    {request : RequestMessage σ}
    {s : AsyncExecuteState σ}
    (w : Runtime σ)
    (hrequest : s.request = some request) :
    stack.retryerResponse s w =
      some ⟨(stack.retryerState request s w).1,
        (stack.retryerState request s w).2, .onFinished⟩ := by
  unfold retryerResponse retryerState RetryerAsyncMiddleware.handleResponse
  split
  · rw [hrequest]
    rfl
  · rfl

/-!
# The end of an attempt
-/

/-- What holds of the state when `onFinished_` is called. -/
structure AttemptOver (s t : AsyncExecuteState σ) : Prop where
  request : t.request.isSome = true
  retryMaxAttempts : t.context.retryMaxAttempts = s.context.retryMaxAttempts
  decision :
    (t.action = .Stop ∧ t.retries = s.retries) ∨
      (t.action = .Continue ∧ t.retries = s.retries + 1 ∧
        t.retries < s.context.retryMaxAttempts)

theorem retryerState_over
    (stack : AsyncExecuteStack σ)
    {request : RequestMessage σ}
    {s : AsyncExecuteState σ}
    (w : Runtime σ)
    (hrequest : s.request = some request)
    (haction : s.action = .Stop) :
    AttemptOver s (stack.retryerState request s w).1 := by
  have hkept : AttemptOver s s :=
    ⟨by rw [hrequest]; rfl, rfl, Or.inl ⟨haction, rfl⟩⟩
  unfold retryerState
  split
  · rename_i hmay
    have hleft : s.retries + 1 < s.context.retryMaxAttempts := by
      simp only [RetryerAsyncMiddleware.mayRetry, Bool.and_eq_true,
        decide_eq_true_eq] at hmay
      exact hmay.2
    simp only [RetryerAsyncMiddleware.retryOrStop]
    split
    · exact hkept
    · split
      · exact hkept
      · exact ⟨hkept.request, rfl, Or.inr ⟨rfl, rfl, hleft⟩⟩
  · exact hkept

theorem retryerResponse_over
    (stack : AsyncExecuteStack σ)
    {s : AsyncExecuteState σ}
    (w : Runtime σ)
    (hrequest : s.request.isSome = true)
    (haction : s.action = .Stop) :
    exists t w', stack.retryerResponse s w = some ⟨t, w', .onFinished⟩ ∧
      AttemptOver s t := by
  rcases Option.isSome_iff_exists.mp hrequest with ⟨request, hsome⟩
  exact ⟨_, _, stack.retryerResponse_eq w hsome,
    stack.retryerState_over w hsome haction⟩

theorem checkerResponse_over
    (stack : AsyncExecuteStack σ)
    {s : AsyncExecuteState σ}
    (w : Runtime σ)
    (hrequest : s.request.isSome = true)
    (haction : s.action = .Stop) :
    exists t w', stack.checkerResponse s w = some ⟨t, w', .onFinished⟩ ∧
      AttemptOver s t := by
  unfold checkerResponse ResponseCheckerAsyncMiddleware.handleResponse
    SignerAsyncMiddleware.handleResponse
  cases s.response with
  | none => exact stack.retryerResponse_over w hrequest haction
  | some response =>
      simp only
      split
      · exact stack.retryerResponse_over w hrequest haction
      · let checked := runChecks s.context.onResponseMessage
          ⟨response, s.context.signingContext, s.context.errorContext, w⟩
        let s' : AsyncExecuteState σ :=
          { s with
            response := some checked.response
            context :=
              { s.context with
                signingContext := checked.signingContext
                errorContext := checked.errorContext } }
        rcases stack.retryerResponse_over (s := s') checked.runtime hrequest
          haction with ⟨t, w', hstep, hover⟩
        exact ⟨t, w', hstep, ⟨hover.request, hover.retryMaxAttempts,
          hover.decision⟩⟩

theorem onSent_over
    (stack : AsyncExecuteStack σ)
    (result : ResponseResult)
    (request : RequestMessage σ)
    {s : AsyncExecuteState σ}
    (w : Runtime σ)
    (haction : s.action = .Stop) :
    exists t w', stack.onSent result request s w = some ⟨t, w', .onFinished⟩ ∧
      AttemptOver s t := by
  unfold onSent TransportAsyncMiddleware.onSent
  cases result with
  | error te =>
      let s' : AsyncExecuteState σ := { s with request := some request }
      rcases stack.checkerResponse_over
        (s := s'.setError (s.context.errorContext.ofTransportError te)) w rfl
        haction with ⟨t, w', hstep, hover⟩
      exact ⟨t, w', hstep, ⟨hover.request, hover.retryMaxAttempts,
        hover.decision⟩⟩
  | response r =>
      let s' : AsyncExecuteState σ :=
        { s with request := some request, response := some r }
      rcases stack.checkerResponse_over (s := s') w rfl haction with
        ⟨t, w', hstep, hover⟩
      exact ⟨t, w', hstep, ⟨hover.request, hover.retryMaxAttempts,
        hover.decision⟩⟩

/--
`executeAsync` either hands the request to the transport or ends the attempt,
and in both cases it does so once.
-/
inductive Executed (s : AsyncExecuteState σ) : Step σ -> Prop where
  | sent {t : AsyncExecuteState σ} {w : Runtime σ} (request : RequestMessage σ)
      (haction : t.action = .Stop)
      (hretries : t.retries = s.retries)
      (hmax : t.context.retryMaxAttempts = s.context.retryMaxAttempts) :
      Executed s ⟨t, w, .sendAsync request⟩
  | finished {t : AsyncExecuteState σ} {w : Runtime σ}
      (hover : AttemptOver s t) : Executed s ⟨t, w, .onFinished⟩

theorem Executed.of_frame
    {s s' : AsyncExecuteState σ}
    {step : Step σ}
    (hexecuted : Executed s' step)
    (hretries : s'.retries = s.retries)
    (hmax : s'.context.retryMaxAttempts = s.context.retryMaxAttempts) :
    Executed s step := by
  cases hexecuted with
  | sent request haction hr hm =>
      exact .sent request haction (hr.trans hretries) (hm.trans hmax)
  | finished hover =>
      apply Executed.finished
      refine ⟨hover.request, hover.retryMaxAttempts.trans hmax, ?_⟩
      rw [← hretries, ← hmax]
      exact hover.decision

theorem transport_executed
    (stack : AsyncExecuteStack σ)
    {s : AsyncExecuteState σ}
    (w : Runtime σ)
    (hrequest : s.request.isSome = true)
    (haction : s.action = .Stop) :
    exists step,
      TransportAsyncMiddleware.handleRequest stack.checkerResponse s w =
        some step ∧ Executed s step := by
  unfold TransportAsyncMiddleware.handleRequest
  split
  · rcases stack.checkerResponse_over
      (s := s.setError s.context.errorContext.canceledByToken) w hrequest
      haction with ⟨t, w', hstep, hover⟩
    exact ⟨_, hstep, (Executed.finished hover).of_frame rfl rfl⟩
  · rcases Option.isSome_iff_exists.mp hrequest with ⟨request, hsome⟩
    rw [hsome]
    exact ⟨_, rfl, .sent request haction rfl rfl⟩

theorem stopped_executed
    (stack : AsyncExecuteStack σ)
    {s : AsyncExecuteState σ}
    (w : Runtime σ)
    (errorContext : ErrorContext)
    (hrequest : s.request.isSome = true)
    (haction : s.action = .Stop) :
    exists step, stack.retryerResponse (s.setError errorContext) w = some step ∧
      Executed s step := by
  rcases stack.retryerResponse_over (s := s.setError errorContext) w hrequest
    haction with ⟨t, w', hstep, hover⟩
  exact ⟨_, hstep, (Executed.finished hover).of_frame rfl rfl⟩

theorem executeAsync_executed
    (stack : AsyncExecuteStack σ)
    {s : AsyncExecuteState σ}
    (w : Runtime σ)
    (hrequest : s.request.isSome = true) :
    exists step, stack.executeAsync s w = some step ∧ Executed s step := by
  let s' : AsyncExecuteState σ := { s with action := .Stop, retryDelay := 0 }
  have hframe : forall {step : Step σ}, Executed s' step -> Executed s step :=
    fun h => h.of_frame rfl rfl
  suffices hs' : exists step,
      SignerAsyncMiddleware.handleRequest stack.provider stack.signer
        (TransportAsyncMiddleware.handleRequest stack.checkerResponse)
        stack.retryerResponse s' w = some step ∧ Executed s' step by
    rcases hs' with ⟨step, hstep, hexecuted⟩
    exact ⟨step, hstep, hframe hexecuted⟩
  unfold SignerAsyncMiddleware.handleRequest
  cases stack.provider with
  | none => exact stack.stopped_executed w _ hrequest rfl
  | some provider =>
      simp only
      split
      · exact stack.transport_executed w hrequest rfl
      · split
        · exact stack.stopped_executed _ _ hrequest rfl
        · rcases Option.isSome_iff_exists.mp hrequest with ⟨request, hsome⟩
          have hsome' : s'.request = some request := hsome
          rw [hsome', Option.bind_some]
          -- the signer may have changed the request and the signing context
          let signed := stack.signer.sign request
            { s'.context.signingContext with
              credentials := (provider.getCredentials w.env).1 }
            (provider.getCredentials w.env).2
          let u : AsyncExecuteState σ :=
            { s' with
              request := some signed.2.1
              context := { s'.context with signingContext := signed.2.2.1 } }
          let w' : Runtime σ := { w with env := signed.2.2.2 }
          split
          · rcases stack.stopped_executed (s := u) w'
              (u.context.errorContext.update (ErrorCode.signer .SignFailed)
                (bytes "SignatureError")
                (bytes "The signer encountered an error while signing."))
              rfl rfl with ⟨step, hstep, h⟩
            exact ⟨step, hstep, h.of_frame rfl rfl⟩
          · rcases stack.transport_executed (s := u) w' rfl rfl with
              ⟨step, hstep, h⟩
            exact ⟨step, hstep, h.of_frame rfl rfl⟩

end AsyncExecuteStack

/-!
# The client
-/

structure AsyncClientImpl (σ : Type) extends ClientImplBase σ

def AsyncClientImpl.stack (c : AsyncClientImpl σ) : AsyncExecuteStack σ where
  retryer := c.options.retryer
  provider := c.options.credentialsProvider
  signer := c.options.signer

/-- `ExecuteAsync` up to the stack; the error goes to the callback at once. -/
def AsyncClientImpl.start (c : AsyncClientImpl σ) (clockOffset : Int)
    (input : OperationInput σ) (opts : Option (OperationOptions σ))
    (innerOpts : Option (OperationInnerOptions σ)) :
    Except OperationError (AsyncExecuteState σ) :=
  match prepare c.toClientImplBase clockOffset input opts innerOpts with
  | .error e => .error e
  | .ok (context, request) =>
      .ok
        { opName := input.opName
          context := context
          request := some request
          response := none
          action := .Stop
          retryDelay := 0
          retries := 0
          signTime := context.signingContext.signTimeInEpoch
          expiration := context.signingContext.expirationInEpoch }

/-- The task of a finished operation: what it gives to the user's callback. -/
def AsyncExecuteState.result (s : AsyncExecuteState σ) :
    Option OperationResult :=
  s.request.map fun request =>
    buildResult s.opName request s.context.errorContext s.response

end Async
end Internal
end OssSdk
