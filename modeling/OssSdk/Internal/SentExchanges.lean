import OssSdk.Internal.SentRequest

/-!
# All that an operation sends

A part of the environment that only the transport touches ends as what the exchanges
that were sent have made of it, one after the other.
-/

namespace OssSdk
namespace Internal

open Foundation
open Sync
open Async
open StackAgreement

variable {σ α : Type}

/-- What is supplied to a client, apart from its transport, leaves this part alone. -/
structure Sync.ClientImpl.Leaves (c : ClientImpl σ) (part : σ -> α) : Prop where
  getCredentials : forall provider, c.options.credentialsProvider = some provider ->
    forall env, part (provider.getCredentials env).2 = part env
  sign : forall request context env,
    part (c.options.signer.sign request context env).2.2.2 = part env
  isErrorRetryable : forall e env,
    part (c.options.retryer.isErrorRetryable e env).2 = part env
  calcDelayTime : forall e retries env,
    part (c.options.retryer.calcDelayTime e retries env).2 = part env

def Signer.KeepsHeader (signer : Signer σ) (name : ByteString) : Prop :=
  forall (request : RequestMessage σ) (context : SigningContext) (env : σ),
    (signer.sign request context env).2.1.headers.find? name =
      request.headers.find? name

/-- What was sent, what is left, and which exchange was the last. -/
structure SentBy (part : σ -> α) (effect : α -> Exchange σ -> α)
    (sink : Option (SinkFactory σ)) (P : RequestMessage σ -> Prop) (start : α)
    (sent : List (Exchange σ)) (left : σ) (last : Option (Exchange σ)) : Prop where
  part : part left = sent.foldl effect start
  sinkFactory : forall y, y ∈ sent -> y.context.transportContext.sinkFactory = sink
  request : forall y, y ∈ sent -> P y.request
  last : forall y, last = some y -> sent.getLast? = some y

/-!
# One attempt
-/

section Attempt

variable {c : ClientImpl σ} {part : σ -> α}

theorem unlessCanceled_env {x y : Exchange σ} (hsame : x.unlessCanceled = some y) :
    y = x := by
  unfold Exchange.unlessCanceled at hsame
  rw [Option.ite_none_left_eq_some] at hsame
  exact (Option.some.inj hsame.2).symm

/-- The stack below the signer sends nothing where the token is canceled. -/
theorem transport_unsent {x : Exchange σ} (hnone : x.unlessCanceled = none) :
    (ResponseCheckerExecuteMiddleware
      (TransportExecuteMiddleware c.httpTransport) x).2.runtime.env = x.runtime.env := by
  have hcanceled : x.context.canceled x.runtime.env = true := by
    by_contra hnot
    rw [Exchange.unlessCanceled, if_neg hnot] at hnone
    cases hnone
  simp only [ResponseCheckerExecuteMiddleware, TransportExecuteMiddleware,
    if_pos hcanceled, checkResponse]
  rfl

/-- Up to the transport, an attempt leaves the part alone. -/
theorem handsOver_part (hleaves : c.Leaves part) (x : Exchange σ) :
    (c.handsOver x = none ->
        part (c.attempt x).2.runtime.env = part x.runtime.env) ∧
      (forall y, c.handsOver x = some y ->
        part y.runtime.env = part x.runtime.env) := by
  unfold ClientImpl.handsOver ClientImpl.attempt SignerExecuteMiddleware
  cases hprovider : c.options.credentialsProvider with
  | none => exact ⟨fun _ => rfl, fun y hnone => nomatch hnone⟩
  | some provider =>
      simp only
      by_cases hanonymous : provider.getAuthType = .anonymous
      · rw [if_pos hanonymous, if_pos hanonymous]
        exact ⟨fun hnone => congrArg part (transport_unsent hnone),
          fun y hsame => by rw [unlessCanceled_env hsame]⟩
      · rw [if_neg hanonymous, if_neg hanonymous]
        have hgot := hleaves.getCredentials provider hprovider x.runtime.env
        rcases hcred : provider.getCredentials x.runtime.env with ⟨cred, env⟩
        rw [hcred] at hgot
        simp only [hcred, Exchange.setEnv_runtime, Exchange.setEnv_context,
          Exchange.setEnv_request]
        cases hkeys : cred.hasKeys with
        | false =>
            simp only [Bool.not_false, if_true]
            exact ⟨fun _ => hgot, fun y hnone => nomatch hnone⟩
        | true =>
            have hsigned := hleaves.sign x.request
              { x.context.signingContext with credentials := cred } env
            rcases hsign : c.options.signer.sign x.request
                { x.context.signingContext with credentials := cred } env with
              ⟨signed, request, signingContext, env'⟩
            rw [hsign] at hsigned
            simp only [hsign, Bool.not_true, Bool.false_eq_true, if_false]
            cases signed with
            | false =>
                simp only [Bool.not_false, if_true]
                exact ⟨fun _ => hsigned.trans hgot, fun y hnone => nomatch hnone⟩
            | true =>
                simp only [Bool.not_true, Bool.false_eq_true, if_false]
                refine ⟨fun hnone => ?_, fun y hsame => ?_⟩
                · exact (congrArg part (transport_unsent hnone)).trans
                    (hsigned.trans hgot)
                · rw [unlessCanceled_env hsame]
                  exact hsigned.trans hgot

/-- The checks that every operation has do not touch the environment. -/
theorem checkResponse_env {base : ClientImplBase σ}
    (e : Option ResponseMessage × Exchange σ)
    (hchecks : e.2.context.onResponseMessage = serviceChecks base) :
    (checkResponse e).2.runtime.env = e.2.runtime.env := by
  rcases e with ⟨response, x⟩
  cases response with
  | none => rfl
  | some r =>
      simp only [checkResponse]
      split
      · rfl
      · rw [hchecks]
        exact (runChecks_quiet (serviceChecks_quiet base)
          ⟨r, x.context.signingContext, x.context.errorContext, x.runtime⟩).2

/-- What an exchange makes of the part, where its sink is that of the operation. -/
def HasEffect (c : ClientImpl σ) (part : σ -> α) (effect : α -> Exchange σ -> α)
    (sink : Option (SinkFactory σ)) : Prop :=
  forall y : Exchange σ, y.context.transportContext.sinkFactory = sink ->
    part (c.exchanged y).2.runtime.env = effect (part y.runtime.env) y

variable {effect : α -> Exchange σ -> α} {sink : Option (SinkFactory σ)}
variable {P : RequestMessage σ -> Prop}

theorem attempt_sentBy (hleaves : c.Leaves part)
    (heffect : HasEffect c part effect sink) (hkeeps : KeepsRequests c P)
    {x : Exchange σ}
    (hchecks : x.context.onResponseMessage = serviceChecks c.toClientImplBase)
    (hsink : x.context.transportContext.sinkFactory = sink)
    (hrequest : P x.request) :
    SentBy part effect sink P (part x.runtime.env) (c.handsOver x).toList
      (c.attempt x).2.runtime.env (c.handsOver x) := by
  rcases handsOver_part hleaves x with ⟨hunsent, hsent⟩
  cases hhands : c.handsOver x with
  | none =>
      exact ⟨hunsent hhands, fun y hy => (nomatch hy), fun y hy => (nomatch hy),
        fun y hy => (nomatch hy)⟩
  | some y =>
      have hy : y.context.transportContext.sinkFactory = sink ∧
          (c.attempt x).2.runtime.env = (c.exchanged y).2.runtime.env := by
        cases attempt_attempted c x with
        | stopped _ hnone _ _ _ =>
            rw [hnone] at hhands
            cases hhands
        | sent y' hhands' hattempt _ hsame =>
            rw [hhands'] at hhands
            cases hhands
            constructor
            · rw [hsame.transportContext]
              exact hsink
            · rw [hattempt]
              refine @checkResponse_env _ c.toClientImplBase _ ?_
              rw [(exchanged_same c y).onResponseMessage, hsame.onResponseMessage]
              exact hchecks
      constructor
      · rw [hy.2, heffect y hy.1, hsent y hhands]
        rfl
      · intro z hz
        rw [List.mem_singleton.mp hz]
        exact hy.1
      · intro z hz
        rw [List.mem_singleton.mp hz]
        exact handsOver_kept hkeeps hrequest hhands
      · intro z hz
        cases hz
        rfl

end Attempt

/-!
# A synchronous operation that makes a single attempt
-/

section OneShot

variable {c : ClientImpl σ}

/-- A sink that can be used only once is not tried with again. -/
theorem executeStack_oneShot {x : Exchange σ} {factory : SinkFactory σ}
    (hsink : x.context.transportContext.sinkFactory = some factory)
    (hshot : factory.isOneShot = true) :
    c.executeStack x = c.attempt x ∧
      forall signTime expiration left retries,
        c.lastAttempt signTime expiration left retries x = x := by
  have hafter : isOneShot (c.attempt x).2.request (c.attempt x).2.context = true := by
    unfold isOneShot
    rw [(attempt_same c x).transportContext, hsink]
    simp [hshot]
  have hstop : forall signTime expiration retries,
      decideRetry c.options.retryer c.disableState signTime expiration retries
        (c.attempt x).2 = .stop (c.attempt x).2 := by
    intro signTime expiration retries
    unfold decideRetry
    rw [hafter]
    exact ite_self _
  constructor
  · unfold ClientImpl.executeStack RetryerExecuteMiddleware
    cases (x.context.retryMaxAttempts - 1).toNat with
    | zero => exact retryLoop_last _ x
    | succ left =>
        cases herror : (c.attempt x).2.error.isError with
        | false => exact retryLoop_success _ _ herror
        | true => exact retryLoop_stop left herror (hstop _ _ _)
  · intro signTime expiration left retries
    unfold ClientImpl.lastAttempt
    split
    · rfl
    · cases left with
      | zero => rfl
      | succ left => simp only [hstop]

variable {part : σ -> α} {effect : α -> Exchange σ -> α}
variable {P : RequestMessage σ -> Prop}

theorem execute_sentBy {factory : SinkFactory σ} (hleaves : c.Leaves part)
    (heffect : HasEffect c part effect (some factory)) (hkeeps : KeepsRequests c P)
    (hshot : factory.isOneShot = true)
    {input : OperationInput σ} {opts : Option (OperationOptions σ)} {w : Runtime σ}
    (hprepared : forall context request,
      prepare c.toClientImplBase w.clockOffset input opts (some ⟨some factory, [], []⟩) =
        .ok (context, request) -> P request) :
    SentBy part effect (some factory) P (part w.env)
      (c.lastSent input opts (some ⟨some factory, [], []⟩) w).toList
      (c.Execute input opts (some ⟨some factory, [], []⟩) w).2.env
      (c.lastSent input opts (some ⟨some factory, [], []⟩) w) := by
  have hnothing : SentBy part effect (some factory) P (part w.env) [] w.env none :=
    ⟨rfl, fun y hy => (nomatch hy), fun y hy => (nomatch hy), fun y hy => (nomatch hy)⟩
  unfold ClientImpl.lastSent ClientImpl.Execute
  split
  · exact hnothing
  · cases hprepare : prepare c.toClientImplBase w.clockOffset input opts
      (some ⟨some factory, [], []⟩) with
    | error e => exact hnothing
    | ok prepared =>
        rcases prepared with ⟨context, request⟩
        have hcontext := prepare_context hprepare
        rcases executeStack_oneShot (c := c) (x := ⟨request, context, w⟩)
          hcontext.sinkFactory hshot with ⟨hstack, hlast⟩
        simp only [hstack, hlast]
        exact attempt_sentBy (x := ⟨request, context, w⟩) hleaves heffect hkeeps
          (hcontext.serviceChecks fun o ho => by cases ho; rfl)
          hcontext.sinkFactory (hprepared _ _ hprepare)

end OneShot

/-!
# The tasks of an asynchronous operation
-/

/-- What the transport is given in all the tasks of an operation. -/
def tasksSent (c : ClientImpl σ) (stack : AsyncExecuteStack σ) :
    Nat -> AsyncExecuteState σ -> Runtime σ -> List (Exchange σ)
  | 0, _, _ => []
  | fuel + 1, s, w =>
      match afterRequest c.httpTransport stack (stack.executeAsync s w) with
      | some ⟨s', w', .onFinished⟩ =>
          let first := s.request.bind fun request => c.handsOver ⟨request, s.context, w⟩
          if s'.action = .Continue then first.toList ++ tasksSent c stack fuel s' w'
          else first.toList
      | _ => []

/-- What `ExecuteAsync` sends in all. -/
def Sync.ClientImpl.allSentAsync (c : ClientImpl σ) (fuel : Nat)
    (input : OperationInput σ) (opts : Option (OperationOptions σ))
    (innerOpts : Option (OperationInnerOptions σ)) (w : Runtime σ) :
    List (Exchange σ) :=
  match AsyncClientImpl.start ⟨c.toClientImplBase⟩ w.clockOffset input opts
    innerOpts with
  | .error _ => []
  | .ok s => tasksSent c (AsyncClientImpl.stack ⟨c.toClientImplBase⟩) fuel s w

section Tasks

variable {c : ClientImpl σ} {stack : AsyncExecuteStack σ}
variable {part : σ -> α} {effect : α -> Exchange σ -> α}
variable {sink : Option (SinkFactory σ)} {P : RequestMessage σ -> Prop}

theorem tasksSent_succ (hprovider : stack.provider = c.options.credentialsProvider)
    (hsigner : stack.signer = c.options.signer)
    {s : AsyncExecuteState σ} (w : Runtime σ) {request : RequestMessage σ}
    (hrequest : s.request = some request) (fuel : Nat) :
    let x : Exchange σ := ⟨request, s.context, w⟩
    let e := c.attempt x
    let t := settled { s with action := .Stop, retryDelay := 0 } e.1 e.2
    let after := stack.retryerState e.2.request t e.2.runtime
    tasksSent c stack (fuel + 1) s w =
      if after.1.action = .Continue then
        (c.handsOver x).toList ++ tasksSent c stack fuel after.1 after.2
      else (c.handsOver x).toList := by
  intro x e t after
  have hsettled : t.request = some e.2.request := rfl
  rw [tasksSent, attempt_agrees c stack hprovider hsigner w hrequest,
    stack.retryerResponse_eq e.2.runtime hsettled, hrequest]
  rfl

/-- The retryer does not touch the part. -/
theorem retryerState_part (hretryer : stack.retryer = c.options.retryer)
    (hleaves : c.Leaves part) (request : RequestMessage σ)
    (s : AsyncExecuteState σ) (w : Runtime σ) :
    part (stack.retryerState request s w).2.env = part w.env := by
  have hretryable := hleaves.isErrorRetryable s.error w.env
  rw [← hretryer] at hretryable
  unfold AsyncExecuteStack.retryerState RetryerAsyncMiddleware.retryOrStop
  rcases hasked : stack.retryer.isErrorRetryable s.error w.env with ⟨retryable, env⟩
  have hdelay := hleaves.calcDelayTime s.error (s.retries + 1) env
  rw [← hretryer] at hdelay
  rw [hasked] at hretryable
  simp only
  split
  · split
    · rfl
    · split
      · exact hretryable
      · exact hdelay.trans hretryable
  · rfl

theorem runTasks_sentBy (hprovider : stack.provider = c.options.credentialsProvider)
    (hsigner : stack.signer = c.options.signer)
    (hretryer : stack.retryer = c.options.retryer)
    (hleaves : c.Leaves part) (heffect : HasEffect c part effect sink)
    (hkeeps : KeepsRequests c P)
    (fuel : Nat)
    {s : AsyncExecuteState σ} {w w' : Runtime σ} {request : RequestMessage σ}
    {result : OperationResult}
    (hrequest : s.request = some request)
    (hP : P request)
    (hchecks : s.context.onResponseMessage = serviceChecks c.toClientImplBase)
    (hsink : s.context.transportContext.sinkFactory = sink)
    (hrun : runTasks c.httpTransport stack fuel s w = some (result, w')) :
    SentBy part effect sink P (part w.env) (tasksSent c stack fuel s w) w'.env
      ((lastTask c.httpTransport stack fuel s w).bind c.handsOver) := by
  induction fuel generalizing s w request with
  | zero => cases hrun
  | succ fuel ih =>
      have hruns := runTasks_succ c stack hprovider hsigner w hrequest fuel
      have hlast := lastTask_succ c stack hprovider hsigner w hrequest fuel
      have hsent := tasksSent_succ hprovider hsigner w hrequest fuel
      let x : Exchange σ := ⟨request, s.context, w⟩
      let e := c.attempt x
      let t := settled { s with action := .Stop, retryDelay := 0 } e.1 e.2
      have hfirst := attempt_sentBy (x := x) hleaves heffect hkeeps hchecks hsink hP
      have hpart := retryerState_part hretryer hleaves e.2.request t e.2.runtime
      have hsame : SameOperation x e.2 := attempt_same c x
      simp only at hruns hlast hsent
      by_cases haction :
          (stack.retryerState e.2.request t e.2.runtime).1.action = .Continue
      · rcases retryerState_cases stack e.2.request t e.2.runtime with
          hstay | ⟨_, _, hrequest', hcontext⟩
        · rw [hstay] at haction
          cases haction
        · rw [hruns, if_pos haction] at hrun
          have hrest := ih (hrequest'.trans rfl) (attempt_kept hkeeps hP)
            (by rw [hcontext]; exact hsame.onResponseMessage.trans hchecks)
            (by
              rw [hcontext]
              exact (congrArg (·.sinkFactory) hsame.transportContext).trans hsink) hrun
          rw [hsent, if_pos haction, hlast, if_pos haction]
          refine ⟨?_, ?_, ?_, ?_⟩
          · rw [hrest.part, hpart, hfirst.part, List.foldl_append]
          · intro y hy
            exact (List.mem_append.mp hy).elim (hfirst.sinkFactory y)
              (hrest.sinkFactory y)
          · intro y hy
            exact (List.mem_append.mp hy).elim (hfirst.request y) (hrest.request y)
          · intro y hy
            rw [List.getLast?_append, hrest.last y hy]
            rfl
      · rw [hruns, if_neg haction, Option.map_eq_some_iff] at hrun
        rcases hrun with ⟨_, _, hw⟩
        cases hw
        rw [hsent, if_neg haction, hlast, if_neg haction]
        exact ⟨hpart.trans hfirst.part, hfirst.sinkFactory, hfirst.request, hfirst.last⟩

theorem executeAsync_sentBy {factory : SinkFactory σ} (hleaves : c.Leaves part)
    (heffect : HasEffect c part effect (some factory)) (hkeeps : KeepsRequests c P)
    {fuel : Nat} {input : OperationInput σ} {opts : Option (OperationOptions σ)}
    {w w' : Runtime σ} {result : OperationResult}
    (hprepared : forall context request,
      prepare c.toClientImplBase w.clockOffset input opts (some ⟨some factory, [], []⟩) =
        .ok (context, request) -> P request)
    (hrun : executeAsyncOn c.httpTransport ⟨c.toClientImplBase⟩ fuel input opts
      (some ⟨some factory, [], []⟩) w = some (result, w')) :
    SentBy part effect (some factory) P (part w.env)
      (c.allSentAsync fuel input opts (some ⟨some factory, [], []⟩) w) w'.env
      (c.lastSentAsync fuel input opts (some ⟨some factory, [], []⟩) w) := by
  unfold executeAsyncOn at hrun
  unfold ClientImpl.allSentAsync ClientImpl.lastSentAsync
  unfold AsyncClientImpl.start at hrun ⊢
  cases hprepare : prepare c.toClientImplBase w.clockOffset input opts
    (some ⟨some factory, [], []⟩) with
  | error e =>
      rw [hprepare] at hrun
      cases hrun
      exact ⟨rfl, fun y hy => (nomatch hy), fun y hy => (nomatch hy),
        fun y hy => (nomatch hy)⟩
  | ok prepared =>
      rcases prepared with ⟨context, request⟩
      rw [hprepare] at hrun
      have hcontext := prepare_context hprepare
      exact runTasks_sentBy rfl rfl rfl hleaves heffect hkeeps fuel
        (Eq.refl (some request)) (hprepared _ _ hprepare)
        (hcontext.serviceChecks fun o ho => by cases ho; rfl)
        hcontext.sinkFactory hrun

end Tasks

end Internal
end OssSdk
