import OssSdk.Internal.StackAgreement

/-!
# The attempt that an operation ends with

Whatever came of the attempts before it, an operation that yields an output
yields the response of its last attempt.  This holds of both clients.
-/

namespace OssSdk
namespace Internal

open Foundation
open Sync
open Async
open StackAgreement

variable {σ : Type}

/-!
# What an attempt hands to the transport
-/

def Sync.Exchange.unlessCanceled (x : Exchange σ) : Option (Exchange σ) :=
  if x.context.canceled x.runtime.env then none else some x

/-- The exchange that reaches the transport, where one does. -/
def Sync.ClientImpl.handsOver (c : ClientImpl σ) (x : Exchange σ) :
    Option (Exchange σ) :=
  match c.options.credentialsProvider with
  | none => none
  | some provider =>
      if provider.getAuthType = .anonymous then x.unlessCanceled
      else
        let (cred, env) := provider.getCredentials x.runtime.env
        let x := x.setEnv env
        if !cred.hasKeys then none
        else
          let (signed, request, signingContext, env) :=
            c.options.signer.sign x.request
              { x.context.signingContext with credentials := cred }
              x.runtime.env
          if !signed then none
          else
            Exchange.unlessCanceled
              { x.setEnv env with
                request := request
                context := { x.context with signingContext := signingContext } }

/-- The transport's answer to an exchange that has reached it. -/
def Sync.ClientImpl.exchanged (c : ClientImpl σ) (x : Exchange σ) :
    Option ResponseMessage × Exchange σ :=
  let (result, request, env) :=
    c.httpTransport.send x.request x.context.transportContext x.runtime.env
  receive { x.setEnv env with request := request } result

/-- What stays the same from attempt to attempt. -/
structure SameOperation (x y : Exchange σ) : Prop where
  transportContext : y.context.transportContext = x.context.transportContext
  onResponseMessage : y.context.onResponseMessage = x.context.onResponseMessage
  retryMaxAttempts : y.context.retryMaxAttempts = x.context.retryMaxAttempts

theorem SameOperation.refl (x : Exchange σ) : SameOperation x x :=
  ⟨rfl, rfl, rfl⟩

theorem SameOperation.trans {x y z : Exchange σ} (hxy : SameOperation x y)
    (hyz : SameOperation y z) : SameOperation x z :=
  ⟨hyz.transportContext.trans hxy.transportContext,
    hyz.onResponseMessage.trans hxy.onResponseMessage,
    hyz.retryMaxAttempts.trans hxy.retryMaxAttempts⟩

/-- How an attempt goes, up to the transport. -/
inductive Attempted (c : ClientImpl σ) (x : Exchange σ) : Prop where
  | stopped (y : Exchange σ) :
      c.handsOver x = none -> c.attempt x = (none, y) ->
      y.error.isError = true -> SameOperation x y -> Attempted c x
  | sent (y : Exchange σ) :
      c.handsOver x = some y -> c.attempt x = checkResponse (c.exchanged y) ->
      y.context.errorContext = x.context.errorContext -> SameOperation x y ->
      Attempted c x

theorem transport_attempted {c : ClientImpl σ} {x y : Exchange σ}
    (hattempt : c.attempt x = ResponseCheckerExecuteMiddleware
      (TransportExecuteMiddleware c.httpTransport) y)
    (hhands : c.handsOver x = y.unlessCanceled)
    (herror : y.context.errorContext = x.context.errorContext)
    (hsame : SameOperation x y) :
    Attempted c x := by
  by_cases hcanceled : y.context.canceled y.runtime.env = true
  · refine .stopped (y.setError y.context.errorContext.canceledByToken) ?_ ?_
      (canceledByToken_isError y.context.errorContext)
      ⟨hsame.transportContext, hsame.onResponseMessage, hsame.retryMaxAttempts⟩
    · rw [hhands, Exchange.unlessCanceled, if_pos hcanceled]
    · rw [hattempt]
      simp only [ResponseCheckerExecuteMiddleware, TransportExecuteMiddleware,
        if_pos hcanceled, checkResponse]
  · refine .sent y ?_ ?_ herror hsame
    · rw [hhands, Exchange.unlessCanceled, if_neg hcanceled]
    · rw [hattempt]
      simp only [ResponseCheckerExecuteMiddleware, TransportExecuteMiddleware,
        if_neg hcanceled, ClientImpl.exchanged]

theorem attempt_attempted (c : ClientImpl σ) (x : Exchange σ) :
    Attempted c x := by
  have hhands : c.handsOver x = c.handsOver x := rfl
  have hattempt : c.attempt x = c.attempt x := rfl
  conv at hhands => rhs; unfold ClientImpl.handsOver
  conv at hattempt => rhs; unfold ClientImpl.attempt SignerExecuteMiddleware
  cases hprovider : c.options.credentialsProvider with
  | none =>
      simp only [hprovider] at hhands hattempt
      exact .stopped _ hhands hattempt rfl ⟨rfl, rfl, rfl⟩
  | some provider =>
      simp only [hprovider] at hhands hattempt
      by_cases hanonymous : provider.getAuthType = .anonymous
      · simp only [hanonymous, if_true] at hhands hattempt
        exact transport_attempted hattempt hhands rfl (SameOperation.refl x)
      · rcases hcred : provider.getCredentials x.runtime.env with ⟨cred, env⟩
        simp only [hanonymous, if_false, hcred] at hhands hattempt
        cases hkeys : cred.hasKeys with
        | false =>
            simp only [hkeys, Bool.not_false, if_true] at hhands hattempt
            refine .stopped _ hhands hattempt ?_ ⟨rfl, rfl, rfl⟩
            exact ErrorCode.isError_credentials _
        | true =>
            rcases hsign : c.options.signer.sign x.request
                { x.context.signingContext with credentials := cred } env with
              ⟨signed, request, signingContext, env'⟩
            simp only [hkeys, Bool.not_true, Bool.false_eq_true, if_false,
              Exchange.setEnv_context, Exchange.setEnv_request,
              Exchange.setEnv_runtime, hsign] at hhands hattempt
            cases signed with
            | false =>
                simp only [Bool.not_false, if_true] at hhands hattempt
                exact .stopped _ hhands hattempt rfl ⟨rfl, rfl, rfl⟩
            | true =>
                simp only [Bool.not_true, Bool.false_eq_true, if_false]
                  at hhands hattempt
                exact transport_attempted hattempt hhands rfl ⟨rfl, rfl, rfl⟩

theorem checkResponse_same (e : Option ResponseMessage × Exchange σ) :
    SameOperation e.2 (checkResponse e).2 := by
  rcases e with ⟨response, x⟩
  cases response with
  | none => exact SameOperation.refl x
  | some r =>
      simp only [checkResponse]
      split
      · exact SameOperation.refl x
      · exact ⟨rfl, rfl, rfl⟩

theorem exchanged_same (c : ClientImpl σ) (y : Exchange σ) :
    SameOperation y (c.exchanged y).2 := by
  rcases hsent : c.httpTransport.send y.request y.context.transportContext
    y.runtime.env with ⟨result, request, env⟩
  simp only [ClientImpl.exchanged, hsent]
  cases result with
  | error te => exact ⟨rfl, rfl, rfl⟩
  | response r => exact ⟨rfl, rfl, rfl⟩

theorem attempt_same (c : ClientImpl σ) (x : Exchange σ) :
    SameOperation x (c.attempt x).2 := by
  cases attempt_attempted c x with
  | stopped y _ hattempt _ hsame =>
      rw [hattempt]
      exact hsame
  | sent y _ hattempt _ hsame =>
      rw [hattempt]
      exact hsame.trans ((exchanged_same c y).trans
        (checkResponse_same (c.exchanged y)))

theorem decideRetry_same {retryer : Retryer σ} {disableState : DisableState σ}
    {signTime expiration retries : Int} {x y : Exchange σ}
    (hretry : decideRetry retryer disableState signTime expiration retries x =
      .retry y) :
    SameOperation x y := by
  simp only [decideRetry] at hretry
  split at hretry
  · cases hretry
  · split at hretry
    · cases hretry
    · split at hretry
      · cases hretry
      · split at hretry
        · cases hretry
        · cases hretry
          exact ⟨rfl, rfl, rfl⟩

/-!
# The last attempt of the synchronous loop
-/

/-- The exchange that the last attempt begins with. -/
def Sync.ClientImpl.lastAttempt (c : ClientImpl σ)
    (signTime expiration : Int) : Nat -> Int -> Exchange σ -> Exchange σ
  | left, retries, x =>
      if !(c.attempt x).2.error.isError then x
      else
        match left with
        | 0 => x
        | left + 1 =>
            match decideRetry c.options.retryer c.disableState signTime
              expiration retries (c.attempt x).2 with
            | .stop _ => x
            | .retry y =>
                lastAttempt c signTime expiration left (retries + 1) y

/-- An exchange that an attempt of the operation of `x` may begin with. -/
structure Begins (x z : Exchange σ) : Prop where
  same : SameOperation x z
  error : z.context.errorContext = ErrorContext.empty

/-- The loop is successful exactly when its last attempt is. -/
theorem retryLoop_lastAttempt (c : ClientImpl σ) (signTime expiration : Int)
    (left : Nat) (retries : Int) {x : Exchange σ}
    (hempty : x.context.errorContext = ErrorContext.empty) :
    let e := retryLoop c.options.retryer c.disableState c.attempt signTime
      expiration left retries x
    let z := c.lastAttempt signTime expiration left retries x
    Begins x z ∧
      ((e.2.error.isError = false ∨ (c.attempt z).2.error.isError = false) ->
        e = c.attempt z) := by
  induction left generalizing retries x with
  | zero =>
      intro e z
      have hz : z = x := by
        simp only [z, ClientImpl.lastAttempt, ite_self]
      rw [hz]
      exact ⟨⟨SameOperation.refl x, hempty⟩, fun _ => retryLoop_last _ x⟩
  | succ left ih =>
      intro e z
      cases herror : (c.attempt x).2.error.isError with
      | false =>
          have hz : z = x := by
            simp only [z]
            rw [ClientImpl.lastAttempt.eq_def]
            simp only [herror, Bool.not_false, if_true]
          rw [hz]
          exact ⟨⟨SameOperation.refl x, hempty⟩,
            fun _ => retryLoop_success _ _ herror⟩
      | true =>
          cases hdecide : decideRetry c.options.retryer c.disableState signTime
            expiration retries (c.attempt x).2 with
          | stop y =>
              have hz : z = x := by
                simp only [z]
                rw [ClientImpl.lastAttempt.eq_def]
                simp only [herror, hdecide, Bool.not_true, Bool.false_eq_true,
                  if_false]
              have he : e = ((c.attempt x).1, y) :=
                retryLoop_stop _ herror hdecide
              rw [hz, he, herror, (decideRetry_stop herror hdecide).error]
              refine ⟨⟨SameOperation.refl x, hempty⟩, fun hor => ?_⟩
              rcases hor with h | h <;> cases h
          | retry y =>
              have hz : z =
                  c.lastAttempt signTime expiration left (retries + 1) y := by
                simp only [z]
                rw [ClientImpl.lastAttempt.eq_def]
                simp only [herror, hdecide, Bool.not_true, Bool.false_eq_true,
                  if_false]
              have he : e = _ := retryLoop_retry left herror hdecide
              have hy : SameOperation x y :=
                (attempt_same c x).trans (decideRetry_same hdecide)
              rcases ih (retries + 1) (decideRetry_retry hdecide) with
                ⟨⟨hsame, hempty'⟩, hsuccess⟩
              rw [hz, he]
              exact ⟨⟨hy.trans hsame, hempty'⟩, hsuccess⟩

/-!
# The checks that every operation has
-/

/-- The checks of a response that are not the operation's own. -/
def serviceChecks (c : ClientImplBase σ) : List (ResponseMessageFn σ) :=
  [onPreServiceError c.platform] ++
    (if c.hasFlag .CorrectClockSkew then [onClockSkewError c.platform] else []) ++
    [onPostServiceError]

/-- A check that leaves the response and the environment as they are. -/
def Quiet (fn : ResponseMessageFn σ) : Prop :=
  forall c, (fn c).2.response = c.response ∧
    (fn c).2.runtime.env = c.runtime.env

theorem runChecks_quiet {fns : List (ResponseMessageFn σ)}
    (hquiet : forall fn, fn ∈ fns -> Quiet fn) (c : Checked σ) :
    (runChecks fns c).response = c.response ∧
      (runChecks fns c).runtime.env = c.runtime.env := by
  induction fns generalizing c with
  | nil => exact ⟨rfl, rfl⟩
  | cons fn rest ih =>
      have hfirst := hquiet fn List.mem_cons_self c
      have hrest := ih (fun fn h => hquiet fn (List.mem_cons_of_mem _ h)) (fn c).2
      simp only [runChecks]
      rcases hfn : fn c with ⟨goOn, c'⟩
      rw [hfn] at hfirst hrest
      cases goOn with
      | false => exact hfirst
      | true => exact ⟨hrest.1.trans hfirst.1, hrest.2.trans hfirst.2⟩

theorem onPreServiceError_quiet (p : Platform σ) :
    Quiet (onPreServiceError p) := by
  intro c
  unfold onPreServiceError
  split
  · exact ⟨rfl, rfl⟩
  · exact ⟨rfl, rfl⟩

theorem onClockSkewError_quiet (p : Platform σ) :
    Quiet (onClockSkewError p) := by
  intro c
  unfold onClockSkewError
  split
  · exact ⟨rfl, rfl⟩
  · simp only
    split
    · exact ⟨rfl, rfl⟩
    · split
      · exact ⟨rfl, rfl⟩
      · exact ⟨rfl, rfl⟩

theorem serviceChecks_quiet (c : ClientImplBase σ) :
    forall fn, fn ∈ serviceChecks c -> Quiet fn := by
  intro fn hfn
  simp only [serviceChecks, List.mem_append, List.mem_singleton] at hfn
  rcases hfn with (hpre | hclock) | hpost
  · rw [hpre]
    exact onPreServiceError_quiet c.platform
  · split at hclock
    · rw [List.mem_singleton] at hclock
      rw [hclock]
      exact onClockSkewError_quiet c.platform
    · cases hclock
  · rw [hpost]
    intro _
    exact ⟨rfl, rfl⟩

/-- A successful status passes all of these checks. -/
theorem serviceChecks_pass (base : ClientImplBase σ) {c : Checked σ}
    (herror : c.errorContext.error.isError = false)
    (hstatus : c.response.statusCode.tdiv 100 = 2) :
    runChecks (serviceChecks base) c = c := by
  have hpre : onPreServiceError base.platform c = (true, c) := if_pos hstatus
  have hskew : isClockSkewError c.response.statusCode
      c.errorContext.errorFields = false := by
    unfold isClockSkewError
    split
    · rename_i h403
      rw [h403] at hstatus
      cases hstatus
    · split
      · rename_i h400
        rw [h400] at hstatus
        cases hstatus
      · rfl
  have hclock : onClockSkewError base.platform c = (true, c) := by
    unfold onClockSkewError
    rw [hskew]
    rfl
  have hpost : onPostServiceError c = (true, c) := by
    unfold onPostServiceError
    rw [herror]
    rfl
  unfold serviceChecks
  cases base.hasFlag .CorrectClockSkew with
  | false =>
      simp [runChecks, hpre, hpost]
  | true =>
      simp [runChecks, hpre, hclock, hpost]

/-!
# What a successful attempt is
-/

/-- The transport answers this exchange with a response. -/
def Sync.ClientImpl.Answers (c : ClientImpl σ) (y : Exchange σ)
    (r : ResponseMessage) (env : σ) : Prop :=
  exists request, c.httpTransport.send y.request y.context.transportContext
    y.runtime.env = (.response r, request, env)

theorem attempt_success {c : ClientImpl σ} {z : Exchange σ}
    (hchecks : z.context.onResponseMessage = serviceChecks c.toClientImplBase)
    (hsuccess : (c.attempt z).2.error.isError = false) :
    exists y r env, c.handsOver z = some y ∧ SameOperation z y ∧
      c.Answers y r env ∧ (c.attempt z).1 = some r ∧
      (c.attempt z).2.runtime.env = env := by
  cases attempt_attempted c z with
  | stopped y _ hattempt herror _ =>
      rw [hattempt, herror] at hsuccess
      cases hsuccess
  | sent y hhands hattempt _ hsame =>
      rcases hsent : c.httpTransport.send y.request y.context.transportContext
        y.runtime.env with ⟨result, request, env⟩
      have hexchanged : c.exchanged y =
          receive { y.setEnv env with request := request } result := by
        simp only [ClientImpl.exchanged, hsent]
      cases result with
      | error te =>
          rw [hattempt, hexchanged] at hsuccess
          have herror := ofTransportError_isError y.context.errorContext te
          simp only [receive, checkResponse, Exchange.error, Exchange.setError,
            herror, Exchange.setEnv_context] at hsuccess
          cases hsuccess
      | response r =>
          refine ⟨y, r, env, hhands, hsame, ⟨request, hsent⟩, ?_⟩
          have hquiet := runChecks_quiet
            (serviceChecks_quiet c.toClientImplBase)
            ⟨r, y.context.signingContext, y.context.errorContext,
              { y.runtime with env := env }⟩
          rw [← hchecks, ← hsame.onResponseMessage] at hquiet
          rw [hattempt, hexchanged]
          simp only [receive, checkResponse]
          split
          · exact ⟨rfl, rfl⟩
          · exact ⟨congrArg some hquiet.1, hquiet.2⟩

theorem attempt_answered {c : ClientImpl σ} {z y : Exchange σ}
    {r : ResponseMessage} {env : σ}
    (hchecks : z.context.onResponseMessage = serviceChecks c.toClientImplBase)
    (hempty : z.context.errorContext = ErrorContext.empty)
    (hhands : c.handsOver z = some y)
    (hanswers : c.Answers y r env)
    (hstatus : r.statusCode.tdiv 100 = 2) :
    (c.attempt z).2.error.isError = false := by
  rcases hanswers with ⟨request, hsent⟩
  cases attempt_attempted c z with
  | stopped y' hnone _ _ _ =>
      rw [hnone] at hhands
      cases hhands
  | sent y' hhands' hattempt herror hsame =>
      rw [hhands'] at hhands
      cases hhands
      have hclean : y.context.errorContext.error.isError = false := by
        rw [herror, hempty]
        rfl
      have hpass := serviceChecks_pass c.toClientImplBase
        (c := ⟨r, y.context.signingContext, y.context.errorContext,
          { y.runtime with env := env }⟩) hclean hstatus
      rw [← hchecks, ← hsame.onResponseMessage] at hpass
      rw [hattempt]
      simp only [ClientImpl.exchanged, hsent, receive, checkResponse,
        Exchange.error, Exchange.setEnv_context, Exchange.setEnv_runtime, hclean,
        Bool.false_eq_true, if_false, hpass]

/-!
# The last task of the asynchronous client
-/

/-- The exchange that the last of the tasks begins with. -/
def lastTask (transport : HttpTransport σ) (stack : AsyncExecuteStack σ) :
    Nat -> AsyncExecuteState σ -> Runtime σ -> Option (Exchange σ)
  | 0, _, _ => none
  | fuel + 1, s, w =>
      match afterRequest transport stack (stack.executeAsync s w) with
      | some ⟨s', w', .onFinished⟩ =>
          if s'.action = .Continue then lastTask transport stack fuel s' w'
          else s.request.map fun request => ⟨request, s.context, w⟩
      | _ => none

theorem lastTask_succ (c : ClientImpl σ) (stack : AsyncExecuteStack σ)
    (hprovider : stack.provider = c.options.credentialsProvider)
    (hsigner : stack.signer = c.options.signer)
    {s : AsyncExecuteState σ}
    (w : Runtime σ)
    {request : RequestMessage σ}
    (hrequest : s.request = some request)
    (fuel : Nat) :
    let e := c.attempt ⟨request, s.context, w⟩
    let t := settled { s with action := .Stop, retryDelay := 0 } e.1 e.2
    let after := stack.retryerState e.2.request t e.2.runtime
    lastTask c.httpTransport stack (fuel + 1) s w =
      if after.1.action = .Continue then
        lastTask c.httpTransport stack fuel after.1 after.2
      else some ⟨request, s.context, w⟩ := by
  intro e t after
  have hsettled : t.request = some e.2.request := rfl
  rw [lastTask, attempt_agrees c stack hprovider hsigner w hrequest,
    stack.retryerResponse_eq e.2.runtime hsettled, hrequest]
  rfl

/-- What the retryer may make of a state: it stays, or starts an attempt. -/
theorem retryerState_cases (stack : AsyncExecuteStack σ)
    (request : RequestMessage σ) (s : AsyncExecuteState σ) (w : Runtime σ) :
    (stack.retryerState request s w).1 = s ∨
      ((stack.retryerState request s w).1.action = .Continue ∧
        s.error.isError = true ∧
        (stack.retryerState request s w).1.request = s.request ∧
        (stack.retryerState request s w).1.context =
          s.context.resetForRetry s.signTime s.expiration) := by
  unfold AsyncExecuteStack.retryerState
  split
  · rename_i hmay
    have herror : s.error.isError = true := by
      simp only [RetryerAsyncMiddleware.mayRetry, Bool.and_eq_true] at hmay
      exact hmay.1.1
    simp only [RetryerAsyncMiddleware.retryOrStop]
    split
    · exact Or.inl rfl
    · split
      · exact Or.inl rfl
      · exact Or.inr ⟨rfl, herror, rfl, rfl⟩
  · exact Or.inl rfl

theorem buildResult_error (opName : ByteString) (request : RequestMessage σ)
    {errorContext : ErrorContext} (response : Option ResponseMessage)
    (herror : errorContext.error.isError = true) :
    exists e, buildResult opName request errorContext response = .error e := by
  cases response with
  | none => exact ⟨_, rfl⟩
  | some r =>
      simp only [buildResult, herror, if_true]
      exact ⟨_, rfl⟩

theorem buildResult_output (opName : ByteString) (request : RequestMessage σ)
    {errorContext : ErrorContext}
    (hok : errorContext.error.isError = false)
    (r : ResponseMessage) :
    buildResult opName request errorContext (some r) =
      .output ⟨r.statusCode, r.headers, r.body⟩ := by
  simp only [buildResult, hok, Bool.false_eq_true, if_false]

/-- The tasks of an operation are successful exactly when the last of them is. -/
theorem runTasks_lastTask (c : ClientImpl σ) (stack : AsyncExecuteStack σ)
    (hprovider : stack.provider = c.options.credentialsProvider)
    (hsigner : stack.signer = c.options.signer)
    (fuel : Nat)
    {s : AsyncExecuteState σ}
    {w w' : Runtime σ}
    {request : RequestMessage σ}
    {result : OperationResult}
    (hrequest : s.request = some request)
    (hempty : s.context.errorContext = ErrorContext.empty)
    (hrun : runTasks c.httpTransport stack fuel s w = some (result, w')) :
    exists z, lastTask c.httpTransport stack fuel s w = some z ∧
      Begins ⟨request, s.context, w⟩ z ∧
      ((c.attempt z).2.error.isError = true -> exists e, result = .error e) ∧
      ((c.attempt z).2.error.isError = false ->
        forall r, (c.attempt z).1 = some r ->
          result = .output ⟨r.statusCode, r.headers, r.body⟩ ∧
            w' = (c.attempt z).2.runtime) := by
  induction fuel generalizing s w request with
  | zero => cases hrun
  | succ fuel ih =>
      have hruns := runTasks_succ c stack hprovider hsigner w hrequest fuel
      have hlast := lastTask_succ c stack hprovider hsigner w hrequest fuel
      let e := c.attempt ⟨request, s.context, w⟩
      let t := settled { s with action := .Stop, retryDelay := 0 } e.1 e.2
      have hsame : SameOperation ⟨request, s.context, w⟩ e.2 :=
        attempt_same c ⟨request, s.context, w⟩
      rcases retryerState_cases stack e.2.request t e.2.runtime with
        hstay | ⟨haction, herror, hrequest', hcontext⟩
      · have hstop : ¬ (stack.retryerState e.2.request t
            e.2.runtime).1.action = .Continue := by
          rw [hstay]
          exact fun h => nomatch h
        rw [hruns] at hrun
        simp only at hrun hlast
        rw [if_neg hstop] at hrun hlast
        have hbuild : buildResult s.opName e.2.request e.2.context.errorContext
            (e.1.or s.response) = result ∧
              (stack.retryerState e.2.request t e.2.runtime).2 = w' := by
          rw [hstay] at hrun
          simpa [AsyncExecuteState.result, t, settled] using hrun
        refine ⟨_, hlast, ⟨SameOperation.refl _, hempty⟩, ?_, ?_⟩
        · intro herror
          rw [← hbuild.1]
          exact buildResult_error _ _ _ herror
        · intro hok r hr
          have hend := retryerState_stop stack e.2.request (s := t) e.2.runtime
            (Or.inl hok)
          rw [← hbuild.1, ← hbuild.2, hend, show e.1 = some r from hr]
          exact ⟨buildResult_output _ _ hok r, rfl⟩
      · rw [hruns] at hrun
        simp only at hrun hlast
        rw [if_pos haction] at hrun hlast
        have hempty' : (stack.retryerState e.2.request t
            e.2.runtime).1.context.errorContext = ErrorContext.empty := by
          rw [hcontext]
          rfl
        rcases ih (hrequest'.trans rfl) hempty' hrun with
          ⟨z, hz, ⟨hsame', hempty''⟩, hrest⟩
        refine ⟨z, hlast.trans hz, ⟨?_, hempty''⟩, hrest⟩
        refine hsame.trans (SameOperation.trans ⟨?_, ?_, ?_⟩ hsame')
        · rw [hcontext]
          rfl
        · rw [hcontext]
          rfl
        · rw [hcontext]
          rfl

/-!
# Runs of an operation
-/

inductive ClientKind where
  | sync
  | async
deriving DecidableEq

/-- What the transport is given in the last attempt of `Execute`. -/
def Sync.ClientImpl.lastSent (c : ClientImpl σ) (input : OperationInput σ)
    (opts : Option (OperationOptions σ))
    (innerOpts : Option (OperationInnerOptions σ)) (w : Runtime σ) :
    Option (Exchange σ) :=
  if c.disableState.flag w.env then none
  else
    match prepare c.toClientImplBase w.clockOffset input opts innerOpts with
    | .error _ => none
    | .ok (context, request) =>
        c.handsOver (c.lastAttempt context.signingContext.signTimeInEpoch
          context.signingContext.expirationInEpoch
          (context.retryMaxAttempts - 1).toNat 0 ⟨request, context, w⟩)

/-- The same of `ExecuteAsync`, whose tasks run on `fuel`. -/
def Sync.ClientImpl.lastSentAsync (c : ClientImpl σ) (fuel : Nat)
    (input : OperationInput σ) (opts : Option (OperationOptions σ))
    (innerOpts : Option (OperationInnerOptions σ)) (w : Runtime σ) :
    Option (Exchange σ) :=
  match AsyncClientImpl.start ⟨c.toClientImplBase⟩ w.clockOffset input opts
    innerOpts with
  | .error _ => none
  | .ok s =>
      (lastTask c.httpTransport (AsyncClientImpl.stack ⟨c.toClientImplBase⟩)
        fuel s w).bind c.handsOver

/-- A run of an operation: what was sent last, the result, and what is left. -/
inductive Runs (c : ClientImpl σ) (input : OperationInput σ)
    (opts : Option (OperationOptions σ))
    (innerOpts : Option (OperationInnerOptions σ)) (w : Runtime σ) :
    ClientKind -> Option (Exchange σ) -> OperationResult -> Runtime σ -> Prop where
  | sync :
      Runs c input opts innerOpts w .sync (c.lastSent input opts innerOpts w)
        (c.Execute input opts innerOpts w).1 (c.Execute input opts innerOpts w).2
  | async {fuel : Nat} {result : OperationResult} {w' : Runtime σ} :
      executeAsyncOn c.httpTransport ⟨c.toClientImplBase⟩ fuel input opts
        innerOpts w = some (result, w') ->
      Runs c input opts innerOpts w .async
        (c.lastSentAsync fuel input opts innerOpts w) result w'

theorem applyOperationInput_kept (c : ClientImplBase σ) (clockOffset : Int)
    (context : ExecuteContext σ) (input : OperationInput σ) :
    let after := (applyOperationInput c clockOffset context input).1
    after.onResponseMessage = context.onResponseMessage ∧
      after.retryMaxAttempts = context.retryMaxAttempts := by
  unfold applyOperationInput
  cases c.options.endpointProvider with
  | none => exact ⟨rfl, rfl⟩
  | some provider =>
      rcases hurl : provider input with ⟨url, ec, message⟩
      cases hec : ec.isError with
      | false => simp [hurl, hec]
      | true => simp [hurl, hec]

/-- The checks that an operation has of its own. -/
def ownChecks (innerOpts : Option (OperationInnerOptions σ)) :
    List (ResponseMessageFn σ) :=
  (innerOpts.getD ⟨none, [], []⟩).onResponseMessage

/-- The number of attempts that an operation is allowed. -/
def maxAttempts (c : ClientImplBase σ) (opts : Option (OperationOptions σ)) : Int :=
  (opts.getD ⟨none, none⟩).retryMaxAttempts.getD c.options.retryer.getMaxAttempts

/-- What the context of an operation begins with. -/
structure Prepared (c : ClientImplBase σ) (opts : Option (OperationOptions σ))
    (innerOpts : Option (OperationInnerOptions σ)) (context : ExecuteContext σ) :
    Prop where
  checks : context.onResponseMessage = serviceChecks c ++ ownChecks innerOpts
  attempts : context.retryMaxAttempts = maxAttempts c opts
  sinkFactory :
    context.transportContext.sinkFactory = innerOpts.bind (·.sinkFactory)

theorem prepare_context {c : ClientImplBase σ} {clockOffset : Int}
    {input : OperationInput σ} {opts : Option (OperationOptions σ)}
    {innerOpts : Option (OperationInnerOptions σ)}
    {context : ExecuteContext σ} {request : RequestMessage σ}
    (hprepare : prepare c clockOffset input opts innerOpts =
      .ok (context, request)) :
    Prepared c opts innerOpts context := by
  unfold prepare at hprepare
  split at hprepare
  · cases hprepare
  · split at hprepare
    · cases hprepare
    · simp only at hprepare
      split at hprepare
      · cases hprepare
      · rename_i hok
        cases hprepare
        rw [Bool.not_eq_true] at hok
        rcases applyOperationInput_frame hok with ⟨_, htransport⟩
        rcases applyOperationInput_kept c clockOffset
          (applyOperationOptions c (ExecuteContext.empty σ) opts innerOpts) input
          with ⟨hchecks, hattempts⟩
        refine ⟨?_, ?_, ?_⟩
        · rw [hchecks]
          simp only [applyOperationOptions, ExecuteContext.empty,
            List.nil_append]
          rfl
        · rw [hattempts]
          rfl
        · rw [htransport]
          cases innerOpts with
          | none => rfl
          | some o => exact Option.or_none

/-- Without checks of its own, an operation has those that every one has. -/
theorem Prepared.serviceChecks {c : ClientImplBase σ}
    {opts : Option (OperationOptions σ)}
    {innerOpts : Option (OperationInnerOptions σ)} {context : ExecuteContext σ}
    (hprepared : Prepared c opts innerOpts context)
    (hown : forall o, innerOpts = some o -> o.onResponseMessage = []) :
    context.onResponseMessage = Internal.serviceChecks c := by
  have hnone : ownChecks innerOpts = [] := by
    cases innerOpts with
    | none => rfl
    | some o => exact hown o rfl
  rw [hprepared.checks, hnone, List.append_nil]

/-- The result of an operation, by the attempt `z` that was its last. -/
structure EndsWith (c : ClientImpl σ) (z : Exchange σ) (result : OperationResult)
    (w' : Runtime σ) : Prop where
  error : (c.attempt z).2.error.isError = true -> exists e, result = .error e
  success : (c.attempt z).2.error.isError = false ->
    forall r, (c.attempt z).1 = some r ->
      result = .output ⟨r.statusCode, r.headers, r.body⟩ ∧
        w' = (c.attempt z).2.runtime

theorem executeStack_endsWith (c : ClientImpl σ) (opName : ByteString)
    {x : Exchange σ}
    (hempty : x.context.errorContext = ErrorContext.empty) :
    let e := c.executeStack x
    let z := c.lastAttempt x.context.signingContext.signTimeInEpoch
      x.context.signingContext.expirationInEpoch
      (x.context.retryMaxAttempts - 1).toNat 0 x
    Begins x z ∧
      EndsWith c z
        (buildResult opName e.2.request e.2.context.errorContext e.1)
        e.2.runtime := by
  intro e z
  rcases retryLoop_lastAttempt c x.context.signingContext.signTimeInEpoch
    x.context.signingContext.expirationInEpoch
    (x.context.retryMaxAttempts - 1).toNat 0 hempty with ⟨hbegins, hsuccess⟩
  refine ⟨hbegins, ⟨?_, ?_⟩⟩
  · intro herror
    refine buildResult_error _ _ _ ?_
    by_contra hok
    have hsame : e = c.attempt z := hsuccess (Or.inl (Bool.eq_false_of_not_eq_true hok))
    rw [hsame] at hok
    exact hok herror
  · intro hok r hr
    have hsame : e = c.attempt z := hsuccess (Or.inr hok)
    rw [hsame, hr]
    exact ⟨buildResult_output _ _ hok r, rfl⟩

/-- A run either makes no attempt, or ends with one. -/
theorem Runs.lastAttempt {c : ClientImpl σ} {input : OperationInput σ}
    {opts : Option (OperationOptions σ)}
    {innerOpts : Option (OperationInnerOptions σ)} {w w' : Runtime σ}
    {kind : ClientKind} {sent : Option (Exchange σ)} {result : OperationResult}
    (hown : forall o, innerOpts = some o -> o.onResponseMessage = [])
    (hrun : Runs c input opts innerOpts w kind sent result w') :
    (sent = none ∧ exists e, result = .error e) ∨
      exists z, sent = c.handsOver z ∧
        z.context.onResponseMessage = serviceChecks c.toClientImplBase ∧
        z.context.errorContext = ErrorContext.empty ∧
        z.context.transportContext.sinkFactory =
          innerOpts.bind (·.sinkFactory) ∧
        EndsWith c z result w' := by
  cases hrun with
  | sync =>
      unfold ClientImpl.lastSent ClientImpl.Execute
      split
      · exact Or.inl ⟨rfl, _, rfl⟩
      · cases hprepare : prepare c.toClientImplBase w.clockOffset input opts
          innerOpts with
        | error e => exact Or.inl ⟨rfl, _, rfl⟩
        | ok prepared =>
            rcases prepared with ⟨context, request⟩
            have hprepared := prepare_context hprepare
            have hchecks := hprepared.serviceChecks hown
            have hsink := hprepared.sinkFactory
            rcases executeStack_endsWith c input.opName
              (x := ⟨request, context, w⟩) (prepare_ok hprepare).1 with
              ⟨⟨hsame, hempty⟩, hends⟩
            refine Or.inr ⟨_, rfl, hsame.onResponseMessage.trans hchecks, hempty,
              ?_, hends⟩
            rw [hsame.transportContext]
            exact hsink
  | @async fuel result w' hexecute =>
      unfold executeAsyncOn at hexecute
      unfold ClientImpl.lastSentAsync
      unfold AsyncClientImpl.start at hexecute ⊢
      cases hprepare : prepare c.toClientImplBase w.clockOffset input opts
        innerOpts with
      | error e =>
          rw [hprepare] at hexecute
          cases hexecute
          exact Or.inl ⟨rfl, _, rfl⟩
      | ok prepared =>
          rcases prepared with ⟨context, request⟩
          rw [hprepare] at hexecute
          have hprepared := prepare_context hprepare
          have hchecks := hprepared.serviceChecks hown
          have hsink := hprepared.sinkFactory
          rcases runTasks_lastTask c
            (AsyncClientImpl.stack ⟨c.toClientImplBase⟩) rfl rfl fuel
            (Eq.refl (some request)) (prepare_ok hprepare).1 hexecute with
            ⟨z, hz, ⟨hsame, hempty⟩, herror, hsuccess⟩
          refine Or.inr ⟨z, ?_, hsame.onResponseMessage.trans hchecks, hempty,
            ?_, ⟨herror, hsuccess⟩⟩
          · simp only [hz, Option.bind_some]
          · rw [hsame.transportContext]
            exact hsink

/-- A run that yields an output yields the response to what was sent last. -/
theorem Runs.of_output {c : ClientImpl σ} {input : OperationInput σ}
    {opts : Option (OperationOptions σ)}
    {innerOpts : Option (OperationInnerOptions σ)} {w w' : Runtime σ}
    {kind : ClientKind} {sent : Option (Exchange σ)} {result : OperationResult}
    {o : OperationOutput}
    (hown : forall o, innerOpts = some o -> o.onResponseMessage = [])
    (hrun : Runs c input opts innerOpts w kind sent result w')
    (hresult : result = .output o) :
    exists y r env, sent = some y ∧
      y.context.transportContext.sinkFactory = innerOpts.bind (·.sinkFactory) ∧
      c.Answers y r env ∧ o = ⟨r.statusCode, r.headers, r.body⟩ ∧
      w'.env = env := by
  rcases hrun.lastAttempt hown with ⟨_, e, herror⟩ |
    ⟨z, hsent, hchecks, _, hsink, hends⟩
  · rw [herror] at hresult
    cases hresult
  · have hok : (c.attempt z).2.error.isError = false := by
      by_contra hnot
      rcases hends.error (by simpa using hnot) with ⟨e, he⟩
      rw [he] at hresult
      cases hresult
    rcases attempt_success hchecks hok with
      ⟨y, r, env, hhands, hsame, hanswers, hresponse, henv⟩
    rcases hends.success hok r hresponse with ⟨hout, hw⟩
    refine ⟨y, r, env, hsent.trans hhands, ?_, hanswers, ?_, ?_⟩
    · rw [hsame.transportContext]
      exact hsink
    · rw [hout] at hresult
      cases hresult
      rfl
    · rw [hw]
      exact henv

/-- A response of a successful status to what was sent last is the output. -/
theorem Runs.of_answered {c : ClientImpl σ} {input : OperationInput σ}
    {opts : Option (OperationOptions σ)}
    {innerOpts : Option (OperationInnerOptions σ)} {w w' : Runtime σ}
    {kind : ClientKind} {y : Exchange σ} {result : OperationResult}
    {r : ResponseMessage} {env : σ}
    (hown : forall o, innerOpts = some o -> o.onResponseMessage = [])
    (hrun : Runs c input opts innerOpts w kind (some y) result w')
    (hanswers : c.Answers y r env)
    (hstatus : r.statusCode.tdiv 100 = 2) :
    y.context.transportContext.sinkFactory = innerOpts.bind (·.sinkFactory) ∧
      result = .output ⟨r.statusCode, r.headers, r.body⟩ ∧ w'.env = env := by
  rcases hrun.lastAttempt hown with ⟨hnone, _⟩ |
    ⟨z, hsent, hchecks, hempty, hsink, hends⟩
  · cases hnone
  · have hok := attempt_answered hchecks hempty hsent.symm hanswers hstatus
    rcases attempt_success hchecks hok with
      ⟨y', r', env', hhands, hsame, hanswers', hresponse, henv⟩
    rw [← hsent] at hhands
    cases hhands
    rcases hanswers with ⟨request, hsend⟩
    rcases hanswers' with ⟨request', hsend'⟩
    rw [hsend] at hsend'
    cases hsend'
    rcases hends.success hok r hresponse with ⟨hout, hw⟩
    refine ⟨?_, hout, ?_⟩
    · rw [hsame.transportContext]
      exact hsink
    · rw [hw]
      exact henv

end Internal
end OssSdk
