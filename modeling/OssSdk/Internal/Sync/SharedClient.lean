import OssSdk.Foundation.Transition
import OssSdk.Internal.RetryDiscipline

/-!
# A client that threads share

Every thread is in a call of `Execute`.  Another one may go on before an attempt, while
the transport has a request, and before the retryer looks at an attempt that has failed.
Between any two steps the environment may change as it likes.
-/

namespace OssSdk
namespace Internal
namespace Sync

open Foundation

variable {σ : Type}

/-- What a thread does next. -/
inductive Stage where
  | ready
  | sent
  | failed
  | over
deriving DecidableEq

structure Operation (σ : Type) where
  opName : ByteString
  request : RequestMessage σ
  context : ExecuteContext σ
  response : Option ResponseMessage
  signTime : Int
  expiration : Int
  left : Nat
  retries : Int
  stage : Stage

/-- What a step leaves of the operation. -/
def Operation.after (o : Operation σ) (e : Option ResponseMessage × Exchange σ)
    (stage : Stage) : Operation σ :=
  { o with
    request := e.2.request
    context := e.2.context
    response := e.1
    stage := stage }

def Operation.result (o : Operation σ) : OperationResult :=
  buildResult o.opName o.request o.context.errorContext o.response

structure SharedClient (σ : Type) where
  runtime : Runtime σ
  operations : List (Operation σ)

inductive Event (σ : Type) where
  | begins (input : OperationInput σ) (opts : Option (OperationOptions σ))
      (innerOpts : Option (OperationInnerOptions σ))
  | attempts (id : Nat)
  | answers (id : Nat) (result : ResponseResult) (request : RequestMessage σ)
  | decides (id : Nat)
  | environment (env : σ)

/-- An attempt as far as the transport. -/
def ClientImpl.handOver (c : ClientImpl σ) : ExecuteMiddleware σ :=
  SignerExecuteMiddleware c.options.credentialsProvider c.options.signer fun x =>
    if x.context.canceled x.runtime.env then
      (none, x.setError x.context.errorContext.canceledByToken)
    else (none, x)

namespace SharedClient

def exchange (s : SharedClient σ) (o : Operation σ) : Exchange σ :=
  ⟨o.request, o.context, s.runtime⟩

def put (s : SharedClient σ) (id : Nat) (o : Operation σ)
    (e : Option ResponseMessage × Exchange σ) (stage : Stage) : SharedClient σ where
  runtime := e.2.runtime
  operations := s.operations.set id (o.after e stage)

def begin (c : ClientImpl σ) (s : SharedClient σ) (input : OperationInput σ)
    (opts : Option (OperationOptions σ))
    (innerOpts : Option (OperationInnerOptions σ)) : SharedClient σ :=
  if c.disableState.flag s.runtime.env then s
  else
    match prepare c.toClientImplBase s.runtime.clockOffset input opts innerOpts with
    | .error _ => s
    | .ok (context, request) =>
        { s with
          operations :=
            s.operations ++
              [{ opName := input.opName
                 request := request
                 context := context
                 response := none
                 signTime := context.signingContext.signTimeInEpoch
                 expiration := context.signingContext.expirationInEpoch
                 left := (context.retryMaxAttempts - 1).toNat
                 retries := 0
                 stage := .ready }] }

def attempt (c : ClientImpl σ) (s : SharedClient σ) (id : Nat) (o : Operation σ) :
    SharedClient σ :=
  let e := c.handOver (s.exchange o)
  s.put id o e (if e.2.error.isError then .failed else .sent)

def answer (s : SharedClient σ) (id : Nat) (result : ResponseResult)
    (request : RequestMessage σ) (o : Operation σ) : SharedClient σ :=
  let e := checkResponse (receive { s.exchange o with request := request } result)
  s.put id o e (if e.2.error.isError then .failed else .over)

def decideRetry (c : ClientImpl σ) (s : SharedClient σ) (id : Nat) (o : Operation σ) :
    SharedClient σ :=
  match o.left with
  | 0 => s.put id o (o.response, s.exchange o) .over
  | left + 1 =>
      match Sync.decideRetry c.options.retryer c.disableState o.signTime o.expiration
        o.retries (s.exchange o) with
      | .stop x => s.put id o (o.response, x) .over
      | .retry x =>
          s.put id { o with left := left, retries := o.retries + 1 } (o.response, x)
            .ready

/-- The operation, if that is what it does next. -/
def operation (s : SharedClient σ) (id : Nat) (stage : Stage) : Option (Operation σ) :=
  s.operations[id]?.filter (·.stage == stage)

def step (c : ClientImpl σ) (s : SharedClient σ) :
    Event σ -> Option (SharedClient σ)
  | .begins input opts innerOpts => some (begin c s input opts innerOpts)
  | .attempts id => (s.operation id .ready).map (attempt c s id)
  | .answers id result request =>
      (s.operation id .sent).map (answer s id result request)
  | .decides id => (s.operation id .failed).map (decideRetry c s id)
  | .environment env => some { s with runtime := { s.runtime with env := env } }

def system (c : ClientImpl σ) : TransitionSystem (SharedClient σ) (Event σ) where
  initial s := exists env, s = ⟨⟨0, env⟩, []⟩
  step := step c

end SharedClient

/-!
# What comes before the transport
-/

/-- The signer ends the attempt, or hands it on, whatever comes after it. -/
theorem signer_splits (provider : Option (CredentialsProvider σ)) (signer : Signer σ)
    (x : Exchange σ) :
    (exists y, y.error.isError = true ∧
      forall next, SignerExecuteMiddleware provider signer next x = (none, y)) ∨
    (exists y, y.context.errorContext = x.context.errorContext ∧
      forall next, SignerExecuteMiddleware provider signer next x = next y) := by
  unfold SignerExecuteMiddleware
  cases provider with
  | none =>
      refine Or.inl ⟨_, ?_, fun _ => rfl⟩
      rfl
  | some provider =>
      by_cases hanonymous : provider.getAuthType = .anonymous
      · simp only [hanonymous, if_true]
        exact Or.inr ⟨x, rfl, fun _ => rfl⟩
      · rcases hcred : provider.getCredentials x.runtime.env with ⟨cred, env⟩
        simp only [hanonymous, if_false, hcred]
        cases hkeys : cred.hasKeys with
        | false =>
            simp only [Bool.not_false, if_true]
            refine Or.inl ⟨_, ?_, fun _ => rfl⟩
            exact ErrorCode.isError_credentials _
        | true =>
            simp only [Bool.not_true, Bool.false_eq_true, if_false]
            rcases hsign : signer.sign (x.setEnv env).request
                { (x.setEnv env).context.signingContext with credentials := cred }
                (x.setEnv env).runtime.env with ⟨signed, request, signingContext, env'⟩
            simp only [hsign]
            cases signed with
            | false =>
                refine Or.inl ⟨_, ?_, fun _ => rfl⟩
                rfl
            | true =>
                refine Or.inr ⟨_, ?_, fun _ => rfl⟩
                rfl

/-- An attempt is what comes before the transport, and the answer of the transport. -/
theorem attempt_handOver (c : ClientImpl σ) {x : Exchange σ}
    (hclean : x.error.isError = false) :
    c.attempt x =
      if (c.handOver x).2.error.isError then c.handOver x
      else checkResponse (c.exchanged (c.handOver x).2) := by
  rcases signer_splits c.options.credentialsProvider c.options.signer x with
    ⟨y, herror, hsigner⟩ | ⟨y, hsame, hsigner⟩
  · have hhands : c.handOver x = (none, y) := hsigner _
    rw [hhands, herror]
    exact hsigner _
  · have hy : y.error.isError = false := by
      unfold Exchange.error
      rw [hsame]
      exact hclean
    have hattempt : c.attempt x = checkResponse (TransportExecuteMiddleware
        c.httpTransport y) := hsigner _
    have hhands : c.handOver x =
        if y.context.canceled y.runtime.env then
          (none, y.setError y.context.errorContext.canceledByToken)
        else (none, y) := hsigner _
    rw [hattempt, hhands]
    unfold TransportExecuteMiddleware
    by_cases hcanceled : y.context.canceled y.runtime.env = true
    · have hset : (y.setError y.context.errorContext.canceledByToken).error.isError =
          true := StackAgreement.canceledByToken_isError _
      simp only [hcanceled, if_true, hset, checkResponse]
    · simp only [hcanceled, hy, Bool.false_eq_true, if_false]
      rfl

/-!
# One thread alone
-/

section Alone

variable {c : ClientImpl σ} {o : Operation σ} {w : Runtime σ}

/-- The operation, after the attempt that it was ready for. -/
def Operation.attempted (c : ClientImpl σ) (o : Operation σ) (w : Runtime σ) :
    SharedClient σ :=
  let e := c.attempt ⟨o.request, o.context, w⟩
  SharedClient.put ⟨w, [o]⟩ 0 o e (if e.2.error.isError then .failed else .over)

/-- The transport's answers are those of the client's own transport. -/
theorem attempt_runs (hstage : o.stage = .ready)
    (hclean : o.context.errorContext = ErrorContext.empty) :
    exists events, (SharedClient.system c).run ⟨w, [o]⟩ events =
      some (o.attempted c w) := by
  have hfirst : (SharedClient.system c).step ⟨w, [o]⟩ (.attempts 0) =
      some (SharedClient.attempt c ⟨w, [o]⟩ 0 o) := by
    have hready : (⟨w, [o]⟩ : SharedClient σ).operation 0 .ready = some o := by
      simp [SharedClient.operation, hstage]
    exact congrArg (Option.map (SharedClient.attempt c ⟨w, [o]⟩ 0)) hready
  have hattempt := attempt_handOver c (x := ⟨o.request, o.context, w⟩)
    (by rw [Exchange.error, hclean]; rfl)
  unfold Operation.attempted
  rw [hattempt]
  cases hfailed : (c.handOver ⟨o.request, o.context, w⟩).2.error.isError with
  | true =>
      refine ⟨[.attempts 0], ?_⟩
      rw [TransitionSystem.run_cons_of_step [] hfirst]
      simp only [TransitionSystem.run_nil, SharedClient.attempt, SharedClient.exchange,
        hfailed, if_true]
  | false =>
      rcases hhands : c.handOver ⟨o.request, o.context, w⟩ with ⟨response, y⟩
      rw [hhands] at hfailed
      rcases hsent : c.httpTransport.send y.request y.context.transportContext
        y.runtime.env with ⟨result, request, env⟩
      have hhanded : SharedClient.attempt c ⟨w, [o]⟩ 0 o =
          SharedClient.put ⟨w, [o]⟩ 0 o (response, y) .sent := by
        unfold SharedClient.attempt SharedClient.exchange
        simp only [hhands, hfailed, Bool.false_eq_true, if_false]
      refine ⟨[.attempts 0, .environment env, .answers 0 result request], ?_⟩
      rw [TransitionSystem.run_cons_of_step _ hfirst, hhanded]
      have hexchanged : c.exchanged y =
          receive { y.setEnv env with request := request } result := by
        simp only [ClientImpl.exchanged, hsent]
      simp only [Bool.false_eq_true, if_false, hexchanged]
      rfl

theorem decideRetry_last (hleft : o.left = 0) :
    SharedClient.decideRetry c ⟨w, [o]⟩ 0 o =
      ⟨w, [o.after (o.response, ⟨o.request, o.context, w⟩) .over]⟩ := by
  unfold SharedClient.decideRetry
  rw [hleft]
  rfl

theorem decideRetry_stops {left : Nat} {y : Exchange σ} (hleft : o.left = left + 1)
    (hdecide : decideRetry c.options.retryer c.disableState o.signTime o.expiration
      o.retries ⟨o.request, o.context, w⟩ = .stop y) :
    SharedClient.decideRetry c ⟨w, [o]⟩ 0 o =
      ⟨y.runtime, [o.after (o.response, y) .over]⟩ := by
  have hsame : decideRetry c.options.retryer c.disableState o.signTime o.expiration
      o.retries (SharedClient.exchange ⟨w, [o]⟩ o) = .stop y := hdecide
  unfold SharedClient.decideRetry
  simp only [hleft, hsame]
  rfl

theorem decideRetry_retries {left : Nat} {y : Exchange σ} (hleft : o.left = left + 1)
    (hdecide : decideRetry c.options.retryer c.disableState o.signTime o.expiration
      o.retries ⟨o.request, o.context, w⟩ = .retry y) :
    SharedClient.decideRetry c ⟨w, [o]⟩ 0 o =
      ⟨y.runtime, [{ o with left := left, retries := o.retries + 1 }.after
        (o.response, y) .ready]⟩ := by
  have hsame : decideRetry c.options.retryer c.disableState o.signTime o.expiration
      o.retries (SharedClient.exchange ⟨w, [o]⟩ o) = .retry y := hdecide
  unfold SharedClient.decideRetry
  simp only [hleft, hsame]
  rfl

/-- The steps of a thread that is alone come to what the retryer's loop returns. -/
theorem loop_runs (c : ClientImpl σ) (left : Nat) {o : Operation σ} {w : Runtime σ}
    (hstage : o.stage = .ready)
    (hclean : o.context.errorContext = ErrorContext.empty) (hleft : o.left = left) :
    let e := retryLoop c.options.retryer c.disableState c.attempt o.signTime
      o.expiration left o.retries ⟨o.request, o.context, w⟩
    exists events o', (SharedClient.system c).run ⟨w, [o]⟩ events =
        some ⟨e.2.runtime, [o']⟩ ∧
      o'.stage = .over ∧
      o'.result = buildResult o.opName e.2.request e.2.context.errorContext e.1 := by
  induction left using Nat.strongRecOn generalizing o w with | ind left ih => ?_
  intro e
  rcases attempt_runs (c := c) (w := w) hstage hclean with ⟨events, hrun⟩
  unfold Operation.attempted at hrun
  cases hfailed : (c.attempt ⟨o.request, o.context, w⟩).2.error.isError with
  | false =>
      have he : e = c.attempt ⟨o.request, o.context, w⟩ :=
        retryLoop_success _ _ hfailed
      simp only [hfailed, Bool.false_eq_true, if_false] at hrun
      rw [he]
      exact ⟨events, _, hrun, rfl, rfl⟩
  | true =>
      rcases hattempt : c.attempt ⟨o.request, o.context, w⟩ with ⟨response, x⟩
      rw [hattempt] at hrun hfailed
      simp only [hfailed, if_true] at hrun
      let o1 := o.after (response, x) .failed
      have hdecides : forall rest, (SharedClient.system c).run ⟨w, [o]⟩
          (events ++ .decides 0 :: rest) =
            (SharedClient.system c).run
              (SharedClient.decideRetry c ⟨x.runtime, [o1]⟩ 0 o1) rest := by
        intro rest
        rw [TransitionSystem.run_append, hrun]
        rfl
      cases left with
      | zero =>
          have he : e = (response, x) := (retryLoop_last _ _).trans hattempt
          refine ⟨events ++ [.decides 0], o1.after (response, x) .over, ?_, rfl, ?_⟩
          · have hleft' : o1.left = 0 := hleft
            rw [hdecides, he, decideRetry_last hleft']
            rfl
          · rw [he]
            rfl
      | succ left =>
          have hfailed' : (c.attempt ⟨o.request, o.context, w⟩).2.error.isError =
              true := by
            rw [hattempt]
            exact hfailed
          have hleft' : o1.left = left + 1 := hleft
          cases hdecide : decideRetry c.options.retryer c.disableState o.signTime
            o.expiration o.retries x with
          | stop y =>
              have he : e = (response, y) := by
                have hstop := @retryLoop_stop _ _ _ c.attempt _ _ _
                  ⟨o.request, o.context, w⟩ _ left hfailed'
                  (by rw [hattempt]; exact hdecide)
                rw [hattempt] at hstop
                exact hstop
              refine ⟨events ++ [.decides 0], o1.after (response, y) .over, ?_, rfl, ?_⟩
              · rw [hdecides, decideRetry_stops hleft' hdecide, he]
                rfl
              · rw [he]
                rfl
          | retry y =>
              have he : e = retryLoop c.options.retryer c.disableState c.attempt
                  o.signTime o.expiration left (o.retries + 1) y :=
                retryLoop_retry left hfailed' (by rw [hattempt]; exact hdecide)
              let o2 := { o1 with left := left, retries := o.retries + 1 }.after
                (response, y) .ready
              rcases ih left (Nat.lt_succ_self left) (o := o2) (w := y.runtime) rfl
                (StackAgreement.decideRetry_retry hdecide) rfl with
                ⟨more, o', hmore, hover, hresult⟩
              refine ⟨events ++ .decides 0 :: more, o', ?_, hover, ?_⟩
              · rw [hdecides, decideRetry_retries hleft' hdecide, he]
                exact hmore
              · rw [he]
                exact hresult

/-- A call of `Execute` is a run of the client in which there is no other one. -/
theorem execute_runs (c : ClientImpl σ) (input : OperationInput σ)
    (opts : Option (OperationOptions σ))
    (innerOpts : Option (OperationInnerOptions σ)) (w : Runtime σ) :
    exists events operations,
      (SharedClient.system c).run ⟨w, []⟩ (.begins input opts innerOpts :: events) =
        some ⟨(c.Execute input opts innerOpts w).2, operations⟩ ∧
      forall o, o ∈ operations ->
        o.stage = .over ∧ o.result = (c.Execute input opts innerOpts w).1 := by
  have hbegins : forall events, (SharedClient.system c).run ⟨w, []⟩
      (.begins input opts innerOpts :: events) =
        (SharedClient.system c).run
          (SharedClient.begin c ⟨w, []⟩ input opts innerOpts) events := fun _ => rfl
  unfold ClientImpl.Execute
  unfold SharedClient.begin at hbegins
  split
  · rename_i hflag
    refine ⟨[], [], ?_, fun o ho => (nomatch ho)⟩
    rw [hbegins, if_pos hflag]
    rfl
  · rename_i hflag
    simp only [if_neg hflag] at hbegins
    cases hprepare : prepare c.toClientImplBase w.clockOffset input opts innerOpts with
    | error e =>
        simp only [hprepare] at hbegins
        exact ⟨[], [], hbegins [], fun o ho => (nomatch ho)⟩
    | ok prepared =>
        rcases prepared with ⟨context, request⟩
        simp only [hprepare, List.nil_append] at hbegins
        rcases loop_runs c (context.retryMaxAttempts - 1).toNat
          (o := ⟨input.opName, request, context, none,
            context.signingContext.signTimeInEpoch,
            context.signingContext.expirationInEpoch,
            (context.retryMaxAttempts - 1).toNat, 0, .ready⟩) (w := w) rfl
          (prepare_ok hprepare).1 rfl with ⟨events, o', hrun, hover, hresult⟩
        refine ⟨events, [o'], (hbegins events).trans hrun, fun o ho => ?_⟩
        rw [List.mem_singleton.mp ho]
        exact ⟨hover, hresult⟩

end Alone

end Sync
end Internal
end OssSdk
