import OssSdk.Internal.ClientImplBase

/-!
# The synchronous stack

Each middleware calls the next one and looks at what it returns.  From the
outside in they are the retryer, the signer, the response checker and the
transport.
-/

namespace OssSdk
namespace Internal
namespace Sync

open Foundation

variable {σ : Type}

/-- What the middlewares hand on by reference. -/
structure Exchange (σ : Type) where
  request : RequestMessage σ
  context : ExecuteContext σ
  runtime : Runtime σ

abbrev ExecuteMiddleware (σ : Type) : Type :=
  Exchange σ -> Option ResponseMessage × Exchange σ

namespace Exchange

def setError (x : Exchange σ) (errorContext : ErrorContext) : Exchange σ :=
  { x with context := { x.context with errorContext := errorContext } }

def setEnv (x : Exchange σ) (env : σ) : Exchange σ :=
  { x with runtime := { x.runtime with env := env } }

def error (x : Exchange σ) : ErrorCode := x.context.errorContext.error

@[simp] theorem setEnv_request (x : Exchange σ) (env : σ) :
    (x.setEnv env).request = x.request := rfl

@[simp] theorem setEnv_context (x : Exchange σ) (env : σ) :
    (x.setEnv env).context = x.context := rfl

@[simp] theorem setEnv_runtime (x : Exchange σ) (env : σ) :
    (x.setEnv env).runtime = { x.runtime with env := env } := rfl

@[simp] theorem setEnv_error (x : Exchange σ) (env : σ) :
    (x.setEnv env).error = x.error := rfl

@[simp] theorem setEnv_setEnv (x : Exchange σ) (env env' : σ) :
    (x.setEnv env).setEnv env' = x.setEnv env' := rfl

@[simp] theorem setEnv_same (x : Exchange σ) : x.setEnv x.runtime.env = x := rfl

end Exchange

/-- What `send` returned is either kept as an error or handed back. -/
def receive (x : Exchange σ) :
    ResponseResult -> Option ResponseMessage × Exchange σ
  | .error te => (none, x.setError (x.context.errorContext.ofTransportError te))
  | .response r => (some r, x)

def TransportExecuteMiddleware (httpTransport : HttpTransport σ) :
    ExecuteMiddleware σ := fun x =>
  if x.context.canceled x.runtime.env then
    (none, x.setError x.context.errorContext.canceledByToken)
  else
    let (result, request, env) :=
      httpTransport.send x.request x.context.transportContext x.runtime.env
    receive { x.setEnv env with request := request } result

def checkResponse :
    Option ResponseMessage × Exchange σ -> Option ResponseMessage × Exchange σ
  | (none, x) => (none, x)
  | (some response, x) =>
      if x.error.isError then (some response, x)
      else
        let checked :=
          runChecks x.context.onResponseMessage
            ⟨response, x.context.signingContext, x.context.errorContext,
              x.runtime⟩
        (some checked.response,
          { x with
            context :=
              { x.context with
                signingContext := checked.signingContext
                errorContext := checked.errorContext }
            runtime := checked.runtime })

def ResponseCheckerExecuteMiddleware (nextHandler : ExecuteMiddleware σ) :
    ExecuteMiddleware σ := fun x => checkResponse (nextHandler x)

def SignerExecuteMiddleware (provider : Option (CredentialsProvider σ))
    (signer : Signer σ) (nextHandler : ExecuteMiddleware σ) :
    ExecuteMiddleware σ := fun x =>
  match provider with
  | none =>
      (none, x.setError (x.context.errorContext.update
        (ErrorCode.credentials .ProviderNull) (bytes "IllegalArgument")
        (bytes "Credentials provider is null.")))
  | some provider =>
      if provider.getAuthType = .anonymous then nextHandler x
      else
        let (cred, env) := provider.getCredentials x.runtime.env
        let x := x.setEnv env
        if !cred.hasKeys then
          let code : CredentialsErrorCode :=
            if cred.retryable then .FetchError else .Empty
          (none, x.setError (x.context.errorContext.update
            (ErrorCode.credentials code) (bytes "CredentialsError")
            (cred.error.getD (bytes "Credentials is null or empty."))))
        else
          let signingContext :=
            { x.context.signingContext with credentials := cred }
          let (signed, request, signingContext, env) :=
            signer.sign x.request signingContext x.runtime.env
          let x : Exchange σ :=
            { x.setEnv env with
              request := request
              context := { x.context with signingContext := signingContext } }
          if !signed then
            (none, x.setError (x.context.errorContext.update
              (ErrorCode.signer .SignFailed) (bytes "SignatureError")
              (bytes "The signer encountered an error while signing.")))
          else nextHandler x

/-!
# Retrying
-/

/-- The flag that `disableRequest` sets, and the wait that it cuts short. -/
structure DisableState (σ : Type) where
  flag : σ -> Bool
  clientWaitFor : Int -> σ -> Bool × σ

def kNotifyThreshold : Int := 200

def waitForRetry (disableState : DisableState σ) (delay : Int)
    (token : Option (CancellationToken σ)) (env : σ) : Bool × σ :=
  if delay = 0 then (false, env)
  else
    match token with
    | none => disableState.clientWaitFor delay env
    | some token =>
        if delay < kNotifyThreshold ∨ token.canBeCanceled = false then
          let (stopped, env) := disableState.clientWaitFor delay env
          (stopped || token.isCanceled env, env)
        else token.waitFor delay env

/-- What the loop does when an attempt is over. -/
inductive Decision (σ : Type) where
  | stop (x : Exchange σ)
  | retry (x : Exchange σ)

def decideRetry (retryer : Retryer σ) (disableState : DisableState σ)
    (signTime expiration retries : Int) (x : Exchange σ) : Decision σ :=
  if x.error.equivalent .Canceled then .stop x
  else if isOneShot x.request x.context then .stop x
  else
    let (retryable, env) := retryer.isErrorRetryable x.error x.runtime.env
    let x := x.setEnv env
    if !retryable then .stop x
    else
      let (delay, env) :=
        retryer.calcDelayTime x.error (retries + 1) x.runtime.env
      let (canceled, env) :=
        waitForRetry disableState delay
          x.context.transportContext.cancellationToken env
      let x := x.setEnv env
      if canceled then
        .stop (x.setError
          { x.context.errorContext with
            error := ErrorCode.client .OperationCanceled })
      else
        .retry { x with context := x.context.resetForRetry signTime expiration }

/--
The loop.  `left` is the number of attempts after this one for which
`retries + 1 >= attempts` does not hold.
-/
def retryLoop (retryer : Retryer σ) (disableState : DisableState σ)
    (nextHandler : ExecuteMiddleware σ) (signTime expiration : Int)
    (left : Nat) (retries : Int) (x : Exchange σ) :
    Option ResponseMessage × Exchange σ :=
  let (response, x) := nextHandler x
  if !x.error.isError then (response, x)
  else
    match left with
    | 0 => (response, x)
    | left + 1 =>
        match decideRetry retryer disableState signTime expiration retries x with
        | .stop x => (response, x)
        | .retry x =>
            retryLoop retryer disableState nextHandler signTime expiration left
              (retries + 1) x

section RetryLoop

variable {retryer : Retryer σ} {disableState : DisableState σ}
variable {nextHandler : ExecuteMiddleware σ} {signTime expiration : Int}

theorem retryLoop_last (retries : Int) (x : Exchange σ) :
    retryLoop retryer disableState nextHandler signTime expiration 0 retries
      x = nextHandler x :=
  ite_self _

theorem retryLoop_succ (left : Nat) (retries : Int) (x : Exchange σ) :
    retryLoop retryer disableState nextHandler signTime expiration (left + 1) retries x =
      if !(nextHandler x).2.error.isError then nextHandler x
      else
        match decideRetry retryer disableState signTime expiration retries
          (nextHandler x).2 with
        | .stop y => ((nextHandler x).1, y)
        | .retry y =>
            retryLoop retryer disableState nextHandler signTime expiration left
              (retries + 1) y := rfl

theorem retryLoop_success
    {x : Exchange σ}
    (left : Nat)
    (retries : Int)
    (hok : (nextHandler x).2.error.isError = false) :
    retryLoop retryer disableState nextHandler signTime expiration left retries
      x = nextHandler x := by
  cases left with
  | zero => exact retryLoop_last retries x
  | succ left => rw [retryLoop_succ, hok, Bool.not_false, if_pos rfl]

theorem retryLoop_stop
    {retries : Int}
    {x y : Exchange σ}
    (left : Nat)
    (herror : (nextHandler x).2.error.isError = true)
    (hstop : decideRetry retryer disableState signTime expiration retries
      (nextHandler x).2 = .stop y) :
    retryLoop retryer disableState nextHandler signTime expiration (left + 1)
      retries x = ((nextHandler x).1, y) := by
  rw [retryLoop_succ]
  simp only [herror, hstop, Bool.not_true, Bool.false_eq_true, if_false]

theorem retryLoop_retry
    {retries : Int}
    {x y : Exchange σ}
    (left : Nat)
    (herror : (nextHandler x).2.error.isError = true)
    (hretry : decideRetry retryer disableState signTime expiration retries
      (nextHandler x).2 = .retry y) :
    retryLoop retryer disableState nextHandler signTime expiration (left + 1)
        retries x =
      retryLoop retryer disableState nextHandler signTime expiration left
        (retries + 1) y := by
  rw [retryLoop_succ]
  simp only [herror, hretry, Bool.not_true, Bool.false_eq_true, if_false]

end RetryLoop

def RetryerExecuteMiddleware (retryer : Retryer σ)
    (disableState : DisableState σ) (nextHandler : ExecuteMiddleware σ) :
    ExecuteMiddleware σ := fun x =>
  retryLoop retryer disableState nextHandler
    x.context.signingContext.signTimeInEpoch
    x.context.signingContext.expirationInEpoch
    (x.context.retryMaxAttempts - 1).toNat 0 x

/-!
# The client
-/

structure ClientImpl (σ : Type) extends ClientImplBase σ where
  httpTransport : HttpTransport σ
  disableState : DisableState σ

/-- The stack below the retryer: one attempt. -/
def ClientImpl.attempt (c : ClientImpl σ) : ExecuteMiddleware σ :=
  SignerExecuteMiddleware c.options.credentialsProvider c.options.signer
    (ResponseCheckerExecuteMiddleware (TransportExecuteMiddleware c.httpTransport))

def ClientImpl.executeStack (c : ClientImpl σ) : ExecuteMiddleware σ :=
  RetryerExecuteMiddleware c.options.retryer c.disableState c.attempt

def ClientImpl.Execute (c : ClientImpl σ) (input : OperationInput σ)
    (opts : Option (OperationOptions σ))
    (innerOpts : Option (OperationInnerOptions σ)) (runtime : Runtime σ) :
    OperationResult × Runtime σ :=
  if c.disableState.flag runtime.env then
    let errorContext :=
      ErrorContext.empty.addFields (some (bytes "RequestDisabled"))
        (some (bytes "Request disabled by client"))
    (.error (OperationError.ofCode (ErrorCode.client .OperationCanceled)
      errorContext.errorFields), runtime)
  else
    match prepare c.toClientImplBase runtime.clockOffset input opts innerOpts with
    | .error e => (.error e, runtime)
    | .ok (context, request) =>
        let (response, x) := c.executeStack ⟨request, context, runtime⟩
        (buildResult input.opName x.request x.context.errorContext response,
          x.runtime)

end Sync
end Internal
end OssSdk
