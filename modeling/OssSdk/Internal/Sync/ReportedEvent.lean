import OssSdk.Internal.LastAttempt

/-!
# What an error reports

The error of an operation, its fields and its response come from different slots of the
context.  They are compared with the event that the operation ended with: a refusal
before the first attempt, what became of the last attempt, or a cancellation that cut the
wait behind it short.
-/

namespace OssSdk
namespace Internal
namespace Sync

open Foundation

variable {σ : Type}

/-!
# The wait behind an attempt
-/

/-- Whether the wait is cut short, where the retryer gets as far as waiting. -/
def retryWait (retryer : Retryer σ) (disableState : DisableState σ) (retries : Int)
    (x : Exchange σ) : Option Bool :=
  if x.error.equivalent .Canceled then none
  else if isOneShot x.request x.context then none
  else
    let (retryable, env) := retryer.isErrorRetryable x.error x.runtime.env
    if !retryable then none
    else
      let (delay, env) := retryer.calcDelayTime x.error (retries + 1) env
      some
        (waitForRetry disableState delay x.context.transportContext.cancellationToken
          env).1

/-- What the retryer decides, by the wait. -/
inductive Decided (x : Exchange σ) : Option Bool -> Decision σ -> Prop where
  | stops (env : σ) : Decided x none (.stop (x.setEnv env))
  | cut (env : σ) :
      Decided x (some true)
        (.stop ((x.setEnv env).setError
          { x.context.errorContext with
            error := ErrorCode.client .OperationCanceled }))
  | waited {y : Exchange σ} :
      y.context.errorContext = ErrorContext.empty -> Decided x (some false) (.retry y)

theorem decideRetry_decided (retryer : Retryer σ) (disableState : DisableState σ)
    (signTime expiration retries : Int) (x : Exchange σ) :
    Decided x (retryWait retryer disableState retries x)
      (decideRetry retryer disableState signTime expiration retries x) := by
  unfold retryWait decideRetry
  by_cases hcanceled : x.error.equivalent .Canceled = true
  · simp only [hcanceled, if_true]
    exact .stops x.runtime.env
  · by_cases hshot : isOneShot x.request x.context = true
    · simp only [hcanceled, hshot, if_true]
      exact .stops x.runtime.env
    · rcases hretryable : retryer.isErrorRetryable x.error x.runtime.env with
        ⟨retryable, env⟩
      cases retryable with
      | false =>
          simp only [hcanceled, hshot, Bool.not_false, if_true]
          exact .stops env
      | true =>
          rcases hdelay : retryer.calcDelayTime x.error (retries + 1) env with
            ⟨delay, env'⟩
          rcases hwait : waitForRetry disableState delay
            x.context.transportContext.cancellationToken env' with ⟨canceled, env''⟩
          have hdelay' : retryer.calcDelayTime (x.setEnv env).error (retries + 1)
              (x.setEnv env).runtime.env = (delay, env') := hdelay
          have hwait' : waitForRetry disableState delay
              (x.setEnv env).context.transportContext.cancellationToken env' =
                (canceled, env'') := hwait
          simp only [hcanceled, hshot, if_false, hdelay, hdelay', hwait, hwait',
            Bool.not_true, Bool.false_eq_true]
          cases canceled with
          | true => exact .cut env''
          | false => exact .waited rfl

/-!
# The event that an operation ends with
-/

/-- `cut` is a wait that is cut short, behind the attempt that began with `z`. -/
inductive LastEvent (σ : Type) where
  | refused (e : OperationError)
  | attempted (z : Exchange σ)
  | cut (z : Exchange σ)

/-- The event that the loop ends with. -/
def ClientImpl.loopEvent (c : ClientImpl σ) (signTime expiration : Int) :
    Nat -> Int -> Exchange σ -> LastEvent σ
  | left, retries, x =>
      if !(c.attempt x).2.error.isError then .attempted x
      else
        match left with
        | 0 => .attempted x
        | left + 1 =>
            match decideRetry c.options.retryer c.disableState signTime expiration
              retries (c.attempt x).2 with
            | .stop _ =>
                if retryWait c.options.retryer c.disableState retries
                  (c.attempt x).2 = some true
                then .cut x
                else .attempted x
            | .retry y => loopEvent c signTime expiration left (retries + 1) y

def ClientImpl.lastEvent (c : ClientImpl σ) (input : OperationInput σ)
    (opts : Option (OperationOptions σ))
    (innerOpts : Option (OperationInnerOptions σ)) (w : Runtime σ) : LastEvent σ :=
  if c.disableState.flag w.env then
    .refused
      (OperationError.ofCode (ErrorCode.client .OperationCanceled)
        (ErrorContext.empty.addFields (some (bytes "RequestDisabled"))
          (some (bytes "Request disabled by client"))).errorFields)
  else
    match prepare c.toClientImplBase w.clockOffset input opts innerOpts with
    | .error e => .refused e
    | .ok (context, request) =>
        c.loopEvent context.signingContext.signTimeInEpoch
          context.signingContext.expirationInEpoch
          (context.retryMaxAttempts - 1).toNat 0 ⟨request, context, w⟩

/-!
# Reports
-/

/-- What an error says of a response. -/
structure Shown where
  statusCode : Int
  headers : HeaderCollection
  snapshot : ByteString
deriving DecidableEq

def Shown.nothing : Shown := ⟨0, SortedMap.empty, []⟩

def OperationError.shown (e : OperationError) : Shown :=
  ⟨e.statusCode, e.headers, e.snapshot⟩

/-- What is shown of the response of an attempt, if there is one. -/
def shownOf (response : Option ResponseMessage) (errorContext : ErrorContext) : Shown :=
  match response with
  | none => Shown.nothing
  | some r => ⟨r.statusCode, r.headers, errorContext.snapshot⟩

/-- The error, the fields and the response of one event. -/
structure Reports (e : OperationError) (error : ErrorContext) (shown : Shown) : Prop where
  errorCode : e.errorCode = error.error
  errorFields : e.errorFields = error.errorFields
  shown : OperationError.shown e = shown

/--
What becomes of an attempt, told without what there was before it: it does not reach the
transport, it gets no response, or its response is checked.
-/
def ReportsAttempt (c : ClientImpl σ) (z : Exchange σ) (e : OperationError) : Prop :=
  match c.handsOver z with
  | none =>
      Reports e (c.attempt (z.setError ErrorContext.empty)).2.context.errorContext
        Shown.nothing
  | some y =>
      match c.httpTransport.send y.request y.context.transportContext y.runtime.env with
      | (.error te, _) => Reports e (ErrorContext.empty.ofTransportError te) Shown.nothing
      | (.response r, _, env) =>
          let checked := runChecks z.context.onResponseMessage
            ⟨r, y.context.signingContext, ErrorContext.empty,
              { y.runtime with env := env }⟩
          Reports e checked.errorContext
            ⟨checked.response.statusCode, checked.response.headers,
              checked.errorContext.snapshot⟩

/-- A cancellation has no response, and what the attempt before it left is not its own. -/
structure ReportsCut (c : ClientImpl σ) (z : Exchange σ) (e : OperationError) : Prop where
  errorCode : e.errorCode = ErrorCode.client .OperationCanceled
  errorFields : forall name value,
    (c.attempt z).2.context.errorContext.errorFields.find? name = some value ->
      e.errorFields.find? name ≠ some value
  shown : OperationError.shown e = Shown.nothing

def Describes (c : ClientImpl σ) (e : OperationError) : LastEvent σ -> Prop
  | .refused e' => e = e'
  | .attempted z => ReportsAttempt c z e
  | .cut z => ReportsCut c z e

/-- The failed attempt has left no field, and nothing of a response. -/
def LeavesNothing (c : ClientImpl σ) (z : Exchange σ) : Prop :=
  (forall name, (c.attempt z).2.context.errorContext.errorFields.find? name = none) ∧
    shownOf (c.attempt z).1 (c.attempt z).2.context.errorContext = Shown.nothing

/-!
# The report of an operation
-/

section Reported

variable {c : ClientImpl σ}

/-- What the loop returns, by the event that it ends with. -/
inductive EndsAs (c : ClientImpl σ) (e : Option ResponseMessage × Exchange σ) :
    LastEvent σ -> Prop where
  | attempted {z : Exchange σ} :
      z.context.errorContext = ErrorContext.empty -> e.1 = (c.attempt z).1 ->
      e.2.context.errorContext = (c.attempt z).2.context.errorContext ->
      EndsAs c e (.attempted z)
  | cut {z : Exchange σ} :
      e.1 = (c.attempt z).1 ->
      e.2.context.errorContext =
        { (c.attempt z).2.context.errorContext with
          error := ErrorCode.client .OperationCanceled } ->
      EndsAs c e (.cut z)

theorem loop_endsAs (c : ClientImpl σ) (signTime expiration : Int) (left : Nat)
    (retries : Int) {x : Exchange σ}
    (hclean : x.context.errorContext = ErrorContext.empty) :
    EndsAs c
      (retryLoop c.options.retryer c.disableState c.attempt signTime expiration left
        retries x)
      (c.loopEvent signTime expiration left retries x) := by
  induction left generalizing retries x with
  | zero =>
      have hevent : c.loopEvent signTime expiration 0 retries x = .attempted x := by
        rw [ClientImpl.loopEvent.eq_def]
        simp only [ite_self]
      rw [hevent, retryLoop_last]
      exact .attempted hclean rfl rfl
  | succ left ih =>
      cases herror : (c.attempt x).2.error.isError with
      | false =>
          have hevent : c.loopEvent signTime expiration (left + 1) retries x =
              .attempted x := by
            rw [ClientImpl.loopEvent.eq_def]
            simp only [herror, Bool.not_false, if_true]
          rw [hevent, retryLoop_success _ _ herror]
          exact .attempted hclean rfl rfl
      | true =>
          have hdecided := decideRetry_decided c.options.retryer c.disableState signTime
            expiration retries (c.attempt x).2
          cases hdecide : decideRetry c.options.retryer c.disableState signTime
            expiration retries (c.attempt x).2 with
          | stop y =>
              have hevent : c.loopEvent signTime expiration (left + 1) retries x =
                  if retryWait c.options.retryer c.disableState retries
                    (c.attempt x).2 = some true
                  then .cut x
                  else .attempted x := by
                rw [ClientImpl.loopEvent.eq_def]
                simp only [herror, hdecide, Bool.not_true, Bool.false_eq_true, if_false]
              rw [hevent, retryLoop_stop left herror hdecide]
              rw [hdecide] at hdecided
              generalize retryWait c.options.retryer c.disableState retries
                (c.attempt x).2 = wait at hdecided ⊢
              cases hdecided with
              | stops env => exact .attempted hclean rfl rfl
              | cut env => exact .cut rfl rfl
          | retry y =>
              have hevent : c.loopEvent signTime expiration (left + 1) retries x =
                  c.loopEvent signTime expiration left (retries + 1) y := by
                rw [ClientImpl.loopEvent.eq_def]
                simp only [herror, hdecide, Bool.not_true, Bool.false_eq_true, if_false]
              rw [hevent, retryLoop_retry left herror hdecide]
              exact ih (retries + 1) (StackAgreement.decideRetry_retry hdecide)

theorem buildResult_reports {opName : ByteString} {request : RequestMessage σ}
    {errorContext : ErrorContext} {response : Option ResponseMessage}
    {e : OperationError}
    (hresult : buildResult opName request errorContext response = .error e) :
    Reports e errorContext (shownOf response errorContext) := by
  unfold buildResult at hresult
  cases response with
  | none =>
      cases hresult
      exact ⟨rfl, rfl, rfl⟩
  | some r =>
      simp only at hresult
      split at hresult
      · cases hresult
        exact ⟨rfl, rfl, rfl⟩
      · cases hresult

/-- The error of an attempt that began without one describes this attempt. -/
theorem attempt_reports {z : Exchange σ} {e : OperationError}
    (hclean : z.context.errorContext = ErrorContext.empty)
    (hreports : Reports e (c.attempt z).2.context.errorContext
      (shownOf (c.attempt z).1 (c.attempt z).2.context.errorContext)) :
    ReportsAttempt c z e := by
  unfold ReportsAttempt
  cases attempt_attempted c z with
  | stopped y hnone hattempt herror _ =>
      have hsame : z.setError ErrorContext.empty = z := by
        rw [← hclean]
        rfl
      rw [hnone, hsame]
      rw [hattempt] at hreports ⊢
      exact hreports
  | sent y hhands hattempt herror hsame =>
      rcases hsent : c.httpTransport.send y.request y.context.transportContext
        y.runtime.env with ⟨result, request, env⟩
      have hexchanged : c.exchanged y =
          receive { y.setEnv env with request := request } result := by
        simp only [ClientImpl.exchanged, hsent]
      rw [hattempt, hexchanged] at hreports
      simp only [hhands, hsent]
      rw [hclean] at herror
      cases result with
      | error te =>
          rw [← herror]
          exact hreports
      | response r =>
          have hok : y.error.isError = false := by
            unfold Exchange.error
            rw [herror]
            rfl
          simp only [receive, checkResponse, Exchange.error, Exchange.setEnv_context,
            Exchange.setEnv_runtime, herror, ErrorContext.empty, ErrorCode.isError_none,
            Bool.false_eq_true, if_false, hsame.onResponseMessage] at hreports
          exact hreports

/-- The error of a cancelled wait is that of the attempt, but for its code. -/
theorem cut_reports_iff {z : Exchange σ} {e : OperationError}
    (hreports : Reports e
      { (c.attempt z).2.context.errorContext with
        error := ErrorCode.client .OperationCanceled }
      (shownOf (c.attempt z).1 (c.attempt z).2.context.errorContext)) :
    ReportsCut c z e ↔ LeavesNothing c z := by
  constructor
  · intro hcut
    refine ⟨fun name => ?_, hreports.shown.symm.trans hcut.shown⟩
    cases hfound : (c.attempt z).2.context.errorContext.errorFields.find? name with
    | none => rfl
    | some value =>
        have hshown : e.errorFields.find? name = some value := by
          rw [hreports.errorFields]
          exact hfound
        exact absurd hshown (hcut.errorFields name value hfound)
  · intro hnothing
    refine ⟨hreports.errorCode, ?_, hreports.shown.trans hnothing.2⟩
    intro name value hfound
    rw [hnothing.1 name] at hfound
    cases hfound

end Reported

/--
An error describes the last event, if and only if the last event is not a cancellation in
a wait behind an attempt that has left fields or a response.
-/
theorem execute_describes_iff (c : ClientImpl σ) (input : OperationInput σ)
    (opts : Option (OperationOptions σ))
    (innerOpts : Option (OperationInnerOptions σ)) (w : Runtime σ) (e : OperationError)
    (herror : (c.Execute input opts innerOpts w).1 = .error e) :
    Describes c e (c.lastEvent input opts innerOpts w) ↔
      forall z, c.lastEvent input opts innerOpts w = .cut z -> LeavesNothing c z := by
  have hrefused : forall e', OperationResult.error e' = .error e ->
      (Describes c e (.refused e') ↔
        forall z, LastEvent.refused e' = .cut z -> LeavesNothing c z) := by
    intro e' he'
    cases he'
    exact ⟨fun _ _ h => (nomatch h), fun _ => rfl⟩
  unfold ClientImpl.Execute at herror
  unfold ClientImpl.lastEvent
  split at herror
  · rename_i hflag
    rw [if_pos hflag]
    exact hrefused _ herror
  · rename_i hflag
    rw [if_neg hflag]
    cases hprepare : prepare c.toClientImplBase w.clockOffset input opts innerOpts with
    | error e' =>
        rw [hprepare] at herror
        exact hrefused e' herror
    | ok prepared =>
        rcases prepared with ⟨context, request⟩
        rw [hprepare] at herror
        have hends := loop_endsAs c context.signingContext.signTimeInEpoch
          context.signingContext.expirationInEpoch
          (context.retryMaxAttempts - 1).toNat 0 (x := ⟨request, context, w⟩)
          (prepare_ok hprepare).1
        have hreports := buildResult_reports herror
        simp only
        unfold ClientImpl.executeStack RetryerExecuteMiddleware at hreports
        generalize retryLoop c.options.retryer c.disableState c.attempt
          context.signingContext.signTimeInEpoch
          context.signingContext.expirationInEpoch
          (context.retryMaxAttempts - 1).toNat 0 ⟨request, context, w⟩ = returned
          at hends hreports
        generalize c.loopEvent context.signingContext.signTimeInEpoch
          context.signingContext.expirationInEpoch
          (context.retryMaxAttempts - 1).toNat 0 ⟨request, context, w⟩ = event
          at hends ⊢
        cases hends with
        | attempted hclean hresponse hcontext =>
            rw [hresponse, hcontext] at hreports
            exact ⟨fun _ _ h => (nomatch h), fun _ => attempt_reports hclean hreports⟩
        | cut hresponse hcontext =>
            rename_i z
            rw [hresponse, hcontext] at hreports
            have hshown : forall (response : Option ResponseMessage)
                (errorContext : ErrorContext) (error : ErrorCode),
                shownOf response { errorContext with error := error } =
                  shownOf response errorContext := by
              intro response errorContext error
              cases response with
              | none => rfl
              | some r => rfl
            rw [hshown] at hreports
            have hiff := cut_reports_iff hreports
            constructor
            · intro hdescribes z' hz'
              cases hz'
              exact hiff.mp hdescribes
            · intro hnothing
              exact hiff.mpr (hnothing z rfl)

/-- The last of three attempts gets no connection. -/
def notConnected : OperationError :=
  { OperationError.ofCode (ErrorCode.transport .ConnectionFailed) SortedMap.empty with
    opName := bytes "HeadObject"
    method := bytes "HEAD"
    requestTarget := bytes "https://bucket.oss-cn-hangzhou.aliyuncs.com/key" }

theorem execute_describes_iff_notConnected :
    Describes StackAgreement.anonymousClient notConnected
        (StackAgreement.anonymousClient.lastEvent (headObjectInput _) none none
          ⟨0, StackAgreement.unavailableThenRefused⟩) ↔
      forall z, StackAgreement.anonymousClient.lastEvent (headObjectInput _) none none
          ⟨0, StackAgreement.unavailableThenRefused⟩ = .cut z ->
        LeavesNothing StackAgreement.anonymousClient z :=
  execute_describes_iff _ _ _ _ _ _ (by decide +kernel)

/-- A client whose requests are disabled while it waits for its second attempt. -/
def disabledInWait : ClientImpl (List ResponseResult) :=
  { StackAgreement.anonymousClient with
    options :=
      { StackAgreement.anonymousClient.options with
        retryer :=
          { StackAgreement.anonymousClient.options.retryer with
            calcDelayTime := fun _ _ script => (100, script) } }
    disableState := ⟨fun _ => false, fun _ script => (true, script)⟩ }

/-- The status of the attempt before it comes with the cancellation. -/
theorem not_describes_disabledInWait :
    exists e, (disabledInWait.Execute (headObjectInput _) none none
        ⟨0, StackAgreement.unavailableThenRefused⟩).1 = .error e ∧
      e.errorCode = ErrorCode.client .OperationCanceled ∧ e.statusCode = 503 ∧
      ¬ Describes disabledInWait e
          (disabledInWait.lastEvent (headObjectInput _) none none
            ⟨0, StackAgreement.unavailableThenRefused⟩) := by
  refine ⟨_, rfl, rfl, rfl, ?_⟩
  intro hdescribes
  have hshown := ReportsCut.shown hdescribes
  exact absurd (congrArg Shown.statusCode hshown) (by decide)

end Sync
end Internal
end OssSdk
