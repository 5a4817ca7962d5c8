import OssSdk.Internal.LastAttempt
import Mathlib.Data.List.Chain

/-!
# When the transport is called again

The attempts of an operation form a chain: each begins where the one before it was
given up.  Both clients stop for the same reasons, and look for them in other
places.
-/

namespace OssSdk
namespace Internal

open Foundation
open Sync
open Async
open StackAgreement

variable {σ : Type}

/-!
# Passing the checks
-/

/-- `crcAsString` of the observer reads what has been read of the body. -/
def CRC64ResponseChecker (crcAsString : Option (σ -> ByteString)) :
    ResponseMessageFn σ := fun c =>
  match crcAsString, c.response.headers.find? (bytes "x-oss-hash-crc64ecma") with
  | some crcAsString, some scrc =>
      let ccrc := crcAsString c.runtime.env
      if ccrc = scrc then (true, c)
      else
        (false,
          { c with
            errorContext :=
              { c.errorContext with
                error := ErrorCode.client .CrcMismatch }.addFields
                  (some (bytes "CRCInconsistent"))
                  (some (bytes "crc is inconsistent, client crc:" ++ ccrc ++
                    bytes ", server crc:" ++ scrc)) })
  | _, _ => (true, c)

/-- Every check says to go on. -/
def passesAll : List (ResponseMessageFn σ) -> Checked σ -> Bool
  | [], _ => true
  | fn :: rest, c => (fn c).1 && passesAll rest (fn c).2

/-- A check that stops the others exactly where it sets an error. -/
def Honest (fn : ResponseMessageFn σ) : Prop :=
  forall c, c.errorContext.error.isError = false ->
    (fn c).1 = !(fn c).2.errorContext.error.isError

theorem honest_crc64ResponseChecker (crcAsString : Option (σ -> ByteString)) :
    Honest (CRC64ResponseChecker crcAsString) := by
  intro c hclean
  unfold CRC64ResponseChecker
  split
  · simp only
    split
    · rw [hclean]
      rfl
    · rfl
  · rw [hclean]
    rfl

theorem runChecks_cons (fn : ResponseMessageFn σ)
    (rest : List (ResponseMessageFn σ)) (c : Checked σ) :
    runChecks (fn :: rest) c =
      if (fn c).1 then runChecks rest (fn c).2 else (fn c).2 := by
  rw [runChecks]
  rcases fn c with ⟨goOn, c'⟩
  cases goOn <;> rfl

theorem runChecks_honest {fns : List (ResponseMessageFn σ)}
    (hhonest : forall fn, fn ∈ fns -> Honest fn)
    {c : Checked σ}
    (hclean : c.errorContext.error.isError = false) :
    (runChecks fns c).errorContext.error.isError = !passesAll fns c := by
  induction fns generalizing c with
  | nil => exact hclean
  | cons fn rest ih =>
      have hfirst := hhonest fn List.mem_cons_self c hclean
      rw [runChecks_cons, passesAll]
      cases hpassed : (fn c).1 with
      | false =>
          rw [hpassed] at hfirst
          simpa using hfirst.symm
      | true =>
          rw [hpassed] at hfirst
          rw [if_pos rfl, Bool.true_and]
          exact ih (fun g hg => hhonest g (List.mem_cons_of_mem fn hg))
            (by simpa using hfirst.symm)

theorem onPreServiceError_goesOn (p : Platform σ) (c : Checked σ) :
    (onPreServiceError p c).1 = true := by
  unfold onPreServiceError
  split <;> rfl

theorem onClockSkewError_goesOn (p : Platform σ) (c : Checked σ) :
    (onClockSkewError p c).1 = true := by
  unfold onClockSkewError
  split
  · rfl
  · simp only
    split
    · rfl
    · split <;> rfl

/-- The checks of an operation leave no error exactly where all are passed. -/
theorem runChecks_registered (base : ClientImplBase σ)
    {fns : List (ResponseMessageFn σ)}
    (hhonest : forall fn, fn ∈ fns -> Honest fn)
    (c : Checked σ) :
    (runChecks (serviceChecks base ++ fns) c).errorContext.error.isError =
      !passesAll (serviceChecks base ++ fns) c := by
  have hpost : forall c : Checked σ,
      (runChecks (onPostServiceError :: fns) c).errorContext.error.isError =
        !passesAll (onPostServiceError :: fns) c := by
    intro c
    rw [runChecks_cons, passesAll]
    cases herror : c.errorContext.error.isError with
    | true => simp [onPostServiceError, herror]
    | false =>
        simp only [onPostServiceError, herror, Bool.not_false, if_true,
          Bool.true_and]
        exact runChecks_honest hhonest herror
  have hpre := onPreServiceError_goesOn base.platform c
  unfold serviceChecks
  cases base.hasFlag .CorrectClockSkew with
  | false =>
      change (runChecks (onPreServiceError base.platform ::
        onPostServiceError :: fns) c).errorContext.error.isError =
          !passesAll (onPreServiceError base.platform ::
            onPostServiceError :: fns) c
      rw [runChecks_cons, passesAll, hpre, if_pos rfl, Bool.true_and]
      exact hpost _
  | true =>
      have hclock := onClockSkewError_goesOn base.platform
        (onPreServiceError base.platform c).2
      change (runChecks (onPreServiceError base.platform ::
        onClockSkewError base.platform ::
          onPostServiceError :: fns) c).errorContext.error.isError =
            !passesAll (onPreServiceError base.platform ::
              onClockSkewError base.platform :: onPostServiceError :: fns) c
      rw [runChecks_cons, passesAll, hpre, if_pos rfl, Bool.true_and,
        runChecks_cons, passesAll, hclock, if_pos rfl, Bool.true_and]
      exact hpost _

/-!
# The attempts of an operation
-/

/-- What the attempts of the loop begin with. -/
def Sync.ClientImpl.attempts (c : ClientImpl σ) (signTime expiration : Int) :
    Nat -> Int -> Exchange σ -> List (Exchange σ)
  | left, retries, x =>
      if !(c.attempt x).2.error.isError then [x]
      else
        match left with
        | 0 => [x]
        | left + 1 =>
            match decideRetry c.options.retryer c.disableState signTime
              expiration retries (c.attempt x).2 with
            | .stop _ => [x]
            | .retry y => x :: attempts c signTime expiration left (retries + 1) y

/-- What the tasks of the asynchronous client begin with. -/
def taskAttempts (transport : HttpTransport σ) (stack : AsyncExecuteStack σ) :
    Nat -> AsyncExecuteState σ -> Runtime σ -> List (Exchange σ)
  | 0, _, _ => []
  | fuel + 1, s, w =>
      (s.request.map fun request => ⟨request, s.context, w⟩).toList ++
        match afterRequest transport stack (stack.executeAsync s w) with
        | some ⟨s', w', .onFinished⟩ =>
            if s'.action = .Continue then taskAttempts transport stack fuel s' w'
            else []
        | _ => []

/--
The next attempt `y` after the attempt `x`, which had failed for no reason that
ends an operation.
-/
structure RetriedBy (c : ClientImpl σ) (kind : ClientKind) (x y : Exchange σ) :
    Prop where
  failed : (c.attempt x).2.error.isError = true
  notCanceled : (c.attempt x).2.error.equivalent .Canceled = false
  replayable : isOneShot (c.attempt x).2.request (c.attempt x).2.context = false
  retryable : (c.options.retryer.isErrorRetryable (c.attempt x).2.error
    (c.attempt x).2.runtime.env).1 = true
  waited : kind = .sync -> exists delay env,
    waitForRetry c.disableState delay
      (c.attempt x).2.context.transportContext.cancellationToken env =
        (false, y.runtime.env)
  request : y.request = (c.attempt x).2.request
  context : exists signTime expiration,
    y.context = (c.attempt x).2.context.resetForRetry signTime expiration

theorem decideRetry_retriedBy {c : ClientImpl σ}
    {signTime expiration retries : Int} {x y : Exchange σ}
    (herror : (c.attempt x).2.error.isError = true)
    (hretry : decideRetry c.options.retryer c.disableState signTime expiration
      retries (c.attempt x).2 = .retry y) :
    RetriedBy c .sync x y := by
  simp only [decideRetry] at hretry
  split at hretry
  · cases hretry
  · rename_i hcanceled
    split at hretry
    · cases hretry
    · rename_i honce
      split at hretry
      · cases hretry
      · rename_i hretryable
        split at hretry
        · cases hretry
        · rename_i hwait
          cases hretry
          exact
            { failed := herror
              notCanceled := by simpa using hcanceled
              replayable := by simpa using honce
              retryable := by simpa using hretryable
              waited := fun _ => ⟨_, _, Prod.ext (by simpa using hwait) rfl⟩
              request := rfl
              context := ⟨signTime, expiration, rfl⟩ }

/-- Each attempt of the loop leads to the next, and there are no more than allowed. -/
theorem attempts_chain (c : ClientImpl σ) (signTime expiration : Int) (left : Nat)
    (retries : Int) (x : Exchange σ) :
    let xs := c.attempts signTime expiration left retries x
    xs.head? = some x ∧ xs.IsChain (RetriedBy c .sync) ∧
      xs.length ≤ left + 1 ∧
      xs.getLast? = some (c.lastAttempt signTime expiration left retries x) := by
  induction left generalizing retries x with
  | zero =>
      intro xs
      have hxs : xs = [x] := by
        simp only [xs, ClientImpl.attempts, ite_self]
      have hlast : c.lastAttempt signTime expiration 0 retries x = x := by
        simp only [ClientImpl.lastAttempt, ite_self]
      rw [hxs, hlast]
      exact ⟨rfl, List.isChain_singleton x, Nat.le_refl _, rfl⟩
  | succ left ih =>
      intro xs
      cases herror : (c.attempt x).2.error.isError with
      | false =>
          have hxs : xs = [x] := by
            simp only [xs]
            rw [ClientImpl.attempts.eq_def]
            simp only [herror, Bool.not_false, if_true]
          have hlast : c.lastAttempt signTime expiration (left + 1) retries x =
              x := by
            rw [ClientImpl.lastAttempt.eq_def]
            simp only [herror, Bool.not_false, if_true]
          rw [hxs, hlast]
          exact ⟨rfl, List.isChain_singleton x, Nat.le_add_left 1 _, rfl⟩
      | true =>
          cases hdecide : decideRetry c.options.retryer c.disableState signTime
            expiration retries (c.attempt x).2 with
          | stop y =>
              have hxs : xs = [x] := by
                simp only [xs]
                rw [ClientImpl.attempts.eq_def]
                simp only [herror, hdecide, Bool.not_true, Bool.false_eq_true,
                  if_false]
              have hlast : c.lastAttempt signTime expiration (left + 1) retries
                  x = x := by
                rw [ClientImpl.lastAttempt.eq_def]
                simp only [herror, hdecide, Bool.not_true, Bool.false_eq_true,
                  if_false]
              rw [hxs, hlast]
              exact ⟨rfl, List.isChain_singleton x, Nat.le_add_left 1 _, rfl⟩
          | retry y =>
              have hxs : xs = x ::
                  c.attempts signTime expiration left (retries + 1) y := by
                simp only [xs]
                rw [ClientImpl.attempts.eq_def]
                simp only [herror, hdecide, Bool.not_true, Bool.false_eq_true,
                  if_false]
              have hlast : c.lastAttempt signTime expiration (left + 1) retries
                  x = c.lastAttempt signTime expiration left (retries + 1) y := by
                rw [ClientImpl.lastAttempt.eq_def]
                simp only [herror, hdecide, Bool.not_true, Bool.false_eq_true,
                  if_false]
              rcases ih (retries + 1) y with ⟨hhead, hchain, hlength, hend⟩
              rw [hxs, hlast]
              refine ⟨rfl, ?_, Nat.succ_le_succ hlength, ?_⟩
              · refine hchain.cons ?_
                intro z hz
                rw [hhead] at hz
                cases hz
                exact decideRetry_retriedBy herror hdecide
              · rw [List.getLast?_cons, hend]
                rfl

/-!
# The tasks of the asynchronous client
-/

/-- A task that asks for another one, and what the other one begins with. -/
theorem retryerState_retriedBy {c : ClientImpl σ} {stack : AsyncExecuteStack σ}
    (hretryer : stack.retryer = c.options.retryer)
    {x : Exchange σ} {s : AsyncExecuteState σ}
    (hcontext : s.context = (c.attempt x).2.context)
    (hcontinue : (stack.retryerState (c.attempt x).2.request s
      (c.attempt x).2.runtime).1.action = .Continue)
    (hstop : s.action = .Stop) :
    let next := stack.retryerState (c.attempt x).2.request s
      (c.attempt x).2.runtime
    s.retries + 1 < s.context.retryMaxAttempts ∧
      next.1.retries = s.retries + 1 ∧ next.1.request = s.request ∧
      RetriedBy c .async x
        ⟨(c.attempt x).2.request, next.1.context, next.2⟩ := by
  intro next
  have herror : s.error = (c.attempt x).2.error := by
    unfold AsyncExecuteState.error
    rw [hcontext]
    rfl
  simp only [next]
  unfold AsyncExecuteStack.retryerState at hcontinue ⊢
  split at hcontinue
  · rename_i hmay
    rw [if_pos hmay]
    simp only [RetryerAsyncMiddleware.mayRetry, Bool.and_eq_true,
      Bool.not_eq_true', decide_eq_true_eq] at hmay
    rcases hmay with ⟨⟨hfailed, hcanceled⟩, hleft⟩
    simp only [RetryerAsyncMiddleware.retryOrStop] at hcontinue ⊢
    split at hcontinue
    · rw [hstop] at hcontinue
      cases hcontinue
    · rename_i honce
      split at hcontinue
      · rw [hstop] at hcontinue
        cases hcontinue
      · rename_i hretryable
        rw [if_neg honce, if_neg hretryable]
        rw [hcontext] at honce
        rw [herror] at hfailed hcanceled
        rw [hretryer, herror] at hretryable
        exact ⟨hleft, rfl, rfl,
          { failed := hfailed
            notCanceled := hcanceled
            replayable := by simpa using honce
            retryable := by simpa using hretryable
            waited := fun h => by cases h
            request := rfl
            context := ⟨s.signTime, s.expiration, by rw [hcontext]⟩ }⟩
  · rw [hstop] at hcontinue
    cases hcontinue

theorem taskAttempts_succ (c : ClientImpl σ) (stack : AsyncExecuteStack σ)
    (hprovider : stack.provider = c.options.credentialsProvider)
    (hsigner : stack.signer = c.options.signer)
    {s : AsyncExecuteState σ}
    (w : Runtime σ)
    {request : RequestMessage σ}
    (hrequest : s.request = some request)
    (fuel : Nat) :
    let e := c.attempt ⟨request, s.context, w⟩
    let t := settled { s with action := .Stop, retryDelay := 0 } e.1 e.2
    let after := stack.retryerState e.2.request t e.2.runtime
    taskAttempts c.httpTransport stack (fuel + 1) s w =
      ⟨request, s.context, w⟩ ::
        if after.1.action = .Continue then
          taskAttempts c.httpTransport stack fuel after.1 after.2
        else [] := by
  intro e t after
  have hsettled : t.request = some e.2.request := rfl
  rw [taskAttempts, attempt_agrees c stack hprovider hsigner w hrequest,
    stack.retryerResponse_eq e.2.runtime hsettled, hrequest]
  rfl

/-- Each task that is run leads to the next, and there are no more than allowed. -/
theorem taskAttempts_chain (c : ClientImpl σ) (stack : AsyncExecuteStack σ)
    (hretryer : stack.retryer = c.options.retryer)
    (hprovider : stack.provider = c.options.credentialsProvider)
    (hsigner : stack.signer = c.options.signer)
    (fuel : Nat)
    {s : AsyncExecuteState σ}
    {w w' : Runtime σ}
    {request : RequestMessage σ}
    {result : OperationResult}
    (hrequest : s.request = some request)
    (hrun : runTasks c.httpTransport stack fuel s w = some (result, w')) :
    let xs := taskAttempts c.httpTransport stack fuel s w
    xs.head? = some ⟨request, s.context, w⟩ ∧
      xs.IsChain (RetriedBy c .async) ∧
      xs.length + s.retries ≤ max (s.retries + 1) s.context.retryMaxAttempts ∧
      xs.getLast? = lastTask c.httpTransport stack fuel s w := by
  induction fuel generalizing s w request with
  | zero => cases hrun
  | succ fuel ih =>
      intro xs
      have hruns := runTasks_succ c stack hprovider hsigner w hrequest fuel
      have hlast := lastTask_succ c stack hprovider hsigner w hrequest fuel
      have hxs := taskAttempts_succ c stack hprovider hsigner w hrequest fuel
      let x : Exchange σ := ⟨request, s.context, w⟩
      let e := c.attempt x
      let t := settled { s with action := .Stop, retryDelay := 0 } e.1 e.2
      have hcontext : t.context = (c.attempt x).2.context := rfl
      rw [hruns] at hrun
      simp only at hrun hlast hxs
      by_cases hcontinue : (stack.retryerState e.2.request t
          e.2.runtime).1.action = .Continue
      · rcases retryerState_retriedBy hretryer hcontext hcontinue rfl with
          ⟨hleft, hretries, hkept, hretried⟩
        rw [if_pos hcontinue] at hrun hlast hxs
        have hmax : (stack.retryerState e.2.request t
            e.2.runtime).1.context.retryMaxAttempts =
              s.context.retryMaxAttempts := by
          rcases hretried.context with ⟨_, _, hreset⟩
          simp only at hreset
          rw [hreset]
          exact (attempt_same c x).retryMaxAttempts
        have hleft' : s.retries + 1 < s.context.retryMaxAttempts := by
          rw [← (attempt_same c x).retryMaxAttempts]
          exact hleft
        rcases ih (hkept.trans rfl) hrun with ⟨hhead, hchain, hlength, hend⟩
        rw [hretries, hmax] at hlength
        have hcount : forall n : Nat,
            (n : Int) + (s.retries + 1) ≤
              max (s.retries + 1 + 1) s.context.retryMaxAttempts ->
            ((n + 1 : Nat) : Int) + s.retries ≤
              max (s.retries + 1) s.context.retryMaxAttempts := by
          intro n hn
          push_cast
          omega
        simp only [xs]
        rw [hxs, hlast]
        refine ⟨rfl, ?_, ?_, ?_⟩
        · refine hchain.cons ?_
          intro z hz
          rw [hhead] at hz
          cases hz
          exact hretried
        · rw [List.length_cons]
          exact hcount _ hlength
        · rw [List.getLast?_cons, hend]
          cases hnext : lastTask c.httpTransport stack fuel _ _ with
          | none =>
              rw [hnext, List.getLast?_eq_none_iff] at hend
              rw [hend] at hhead
              cases hhead
          | some z => rfl
      · rw [if_neg hcontinue] at hlast hxs
        simp only [xs]
        rw [hxs, hlast]
        refine ⟨rfl, List.isChain_singleton _, ?_, rfl⟩
        rw [List.length_singleton]
        omega

/-- There is an end to the tasks of an operation. -/
theorem runTasks_ends (c : ClientImpl σ) (stack : AsyncExecuteStack σ)
    (hretryer : stack.retryer = c.options.retryer)
    (hprovider : stack.provider = c.options.credentialsProvider)
    (hsigner : stack.signer = c.options.signer)
    (fuel : Nat)
    {s : AsyncExecuteState σ}
    (w : Runtime σ)
    {request : RequestMessage σ}
    (hrequest : s.request = some request)
    (hfuel : max (s.retries + 1) s.context.retryMaxAttempts ≤ fuel + s.retries) :
    exists result w',
      runTasks c.httpTransport stack fuel s w = some (result, w') := by
  induction fuel generalizing s w request with
  | zero =>
      have hleast := le_trans (le_max_left _ _) hfuel
      rw [Nat.cast_zero, Int.zero_add] at hleast
      exact absurd hleast (Int.not_le.mpr (Int.lt_succ _))
  | succ fuel ih =>
      have hruns := runTasks_succ c stack hprovider hsigner w hrequest fuel
      let x : Exchange σ := ⟨request, s.context, w⟩
      let e := c.attempt x
      let t := settled { s with action := .Stop, retryDelay := 0 } e.1 e.2
      have hcontext : t.context = (c.attempt x).2.context := rfl
      simp only at hruns
      by_cases hcontinue : (stack.retryerState e.2.request t
          e.2.runtime).1.action = .Continue
      · rcases retryerState_retriedBy hretryer hcontext hcontinue rfl with
          ⟨hleft, hretries, hkept, hretried⟩
        rw [if_pos hcontinue] at hruns
        rw [hruns]
        refine ih _ (hkept.trans rfl) ?_
        rcases hretried.context with ⟨_, _, hreset⟩
        have hmax := (attempt_same c x).retryMaxAttempts
        simp only at hreset
        rw [hretries, hreset]
        change max (s.retries + 1 + 1) (c.attempt x).2.context.retryMaxAttempts ≤
          fuel + (s.retries + 1)
        rw [hmax]
        have hleft' : s.retries + 1 < s.context.retryMaxAttempts := by
          rw [← hmax]
          exact hleft
        change max (s.retries + 1 + 1) s.context.retryMaxAttempts ≤
          fuel + (s.retries + 1)
        push_cast at hfuel
        omega
      · rcases retryerState_cases stack e.2.request t e.2.runtime with
          hstay | ⟨haction, _⟩
        · rw [if_neg hcontinue, hstay] at hruns
          exact ⟨_, _, hruns⟩
        · exact absurd haction hcontinue

/-!
# Operations
-/

/-- What the attempts of `Execute` begin with. -/
def Sync.ClientImpl.attemptsOf (c : ClientImpl σ) (input : OperationInput σ)
    (opts : Option (OperationOptions σ))
    (innerOpts : Option (OperationInnerOptions σ)) (w : Runtime σ) :
    List (Exchange σ) :=
  if c.disableState.flag w.env then []
  else
    match prepare c.toClientImplBase w.clockOffset input opts innerOpts with
    | .error _ => []
    | .ok (context, request) =>
        c.attempts context.signingContext.signTimeInEpoch
          context.signingContext.expirationInEpoch
          (context.retryMaxAttempts - 1).toNat 0 ⟨request, context, w⟩

/-- The same of `ExecuteAsync`, whose tasks run on `fuel`. -/
def Sync.ClientImpl.attemptsAsync (c : ClientImpl σ) (fuel : Nat)
    (input : OperationInput σ) (opts : Option (OperationOptions σ))
    (innerOpts : Option (OperationInnerOptions σ)) (w : Runtime σ) :
    List (Exchange σ) :=
  match AsyncClientImpl.start ⟨c.toClientImplBase⟩ w.clockOffset input opts
    innerOpts with
  | .error _ => []
  | .ok s =>
      taskAttempts c.httpTransport (AsyncClientImpl.stack ⟨c.toClientImplBase⟩)
        fuel s w

/-- A run of an operation: its attempts, the result, and what is left. -/
inductive Operates (c : ClientImpl σ) (input : OperationInput σ)
    (opts : Option (OperationOptions σ))
    (innerOpts : Option (OperationInnerOptions σ)) (w : Runtime σ) :
    ClientKind -> List (Exchange σ) -> OperationResult -> Runtime σ -> Prop where
  | sync :
      Operates c input opts innerOpts w .sync (c.attemptsOf input opts innerOpts w)
        (c.Execute input opts innerOpts w).1 (c.Execute input opts innerOpts w).2
  | async {fuel : Nat} {result : OperationResult} {w' : Runtime σ} :
      executeAsyncOn c.httpTransport ⟨c.toClientImplBase⟩ fuel input opts
        innerOpts w = some (result, w') ->
      Operates c input opts innerOpts w .async
        (c.attemptsAsync fuel input opts innerOpts w) result w'

/-- What the checks of the response `r` to the exchange `y` begin with. -/
def Sync.Exchange.answered (y : Exchange σ) (r : ResponseMessage) (env : σ) :
    Checked σ :=
  ⟨r, y.context.signingContext, y.context.errorContext,
    { y.runtime with env := env }⟩

/-- The transport answers the attempt `z`, and its response passes every check. -/
def Passes (c : ClientImpl σ) (checks : List (ResponseMessageFn σ))
    (z : Exchange σ) : Prop :=
  exists y r env, c.handsOver z = some y ∧ c.Answers y r env ∧
    passesAll checks (y.answered r env) = true

/-- An attempt is successful exactly when its response passes every check. -/
theorem attempt_passes_iff {c : ClientImpl σ}
    {fns : List (ResponseMessageFn σ)} {z : Exchange σ}
    (hhonest : forall fn, fn ∈ fns -> Honest fn)
    (hchecks : z.context.onResponseMessage =
      serviceChecks c.toClientImplBase ++ fns)
    (hempty : z.context.errorContext = ErrorContext.empty) :
    (c.attempt z).2.error.isError = false ↔
      Passes c (serviceChecks c.toClientImplBase ++ fns) z := by
  cases attempt_attempted c z with
  | stopped y hnone hattempt herror _ =>
      rw [hattempt, herror]
      constructor
      · intro h
        cases h
      · intro hpasses
        rcases hpasses with ⟨y', _, _, hhands, _⟩
        rw [hnone] at hhands
        cases hhands
  | sent y hhands hattempt herror hsame =>
      have hclean : y.context.errorContext.error.isError = false := by
        rw [herror, hempty]
        rfl
      rcases hsent : c.httpTransport.send y.request y.context.transportContext
        y.runtime.env with ⟨result, request, env⟩
      have hexchanged : c.exchanged y =
          receive { y.setEnv env with request := request } result := by
        simp only [ClientImpl.exchanged, hsent]
      cases result with
      | error te =>
          have hfailed := ofTransportError_isError y.context.errorContext te
          have hleft : (c.attempt z).2.error.isError = true := by
            rw [hattempt, hexchanged]
            exact hfailed
          rw [hleft]
          constructor
          · intro h
            cases h
          · intro hpasses
            rcases hpasses with ⟨y', r, env', hhands', ⟨_, hanswers⟩, _⟩
            rw [hhands] at hhands'
            cases hhands'
            rw [hsent] at hanswers
            cases hanswers
      | response r =>
          have hruns := runChecks_registered c.toClientImplBase hhonest
            (y.answered r env)
          have hleft : (c.attempt z).2.error.isError =
              !passesAll (serviceChecks c.toClientImplBase ++ fns)
                (y.answered r env) := by
            rw [← hruns, hattempt, hexchanged, ← hchecks,
              ← hsame.onResponseMessage]
            simp only [receive, checkResponse, Exchange.error,
              Exchange.setEnv_context, Exchange.setEnv_runtime, hclean,
              Bool.false_eq_true, if_false]
            rfl
          rw [hleft, Bool.not_eq_false']
          constructor
          · intro hpassed
            exact ⟨y, r, env, hhands, ⟨request, hsent⟩, hpassed⟩
          · intro hpasses
            rcases hpasses with ⟨y', r', env', hhands', ⟨_, hanswers⟩, hpassed⟩
            rw [hhands] at hhands'
            cases hhands'
            rw [hsent] at hanswers
            cases hanswers
            exact hpassed

/-- The result of an operation whose last attempt was `z` is an output or not. -/
theorem EndsWith.output_iff {c : ClientImpl σ} {z : Exchange σ}
    {result : OperationResult} {w' : Runtime σ}
    (hends : EndsWith c z result w') :
    (exists o, result = .output o) ↔ (c.attempt z).2.error.isError = false := by
  constructor
  · intro houtput
    by_contra hfailed
    rw [Bool.not_eq_false] at hfailed
    rcases houtput with ⟨o, ho⟩
    rcases hends.error hfailed with ⟨e, he⟩
    rw [ho] at he
    cases he
  · intro hok
    cases attempt_attempted c z with
    | stopped y _ hattempt herror _ =>
        rw [hattempt, herror] at hok
        cases hok
    | sent y _ hattempt _ _ =>
        rcases hsent : c.httpTransport.send y.request y.context.transportContext
          y.runtime.env with ⟨sent, request, env⟩
        have hexchanged : c.exchanged y =
            receive { y.setEnv env with request := request } sent := by
          simp only [ClientImpl.exchanged, hsent]
        rw [hexchanged] at hattempt
        cases sent with
        | error te =>
            rw [hattempt] at hok
            have hfailed := ofTransportError_isError y.context.errorContext te
            rw [show (y.context.errorContext.ofTransportError te).error.isError =
              false from hok] at hfailed
            cases hfailed
        | response r =>
            have hresponse : exists r', (c.attempt z).1 = some r' := by
              rw [hattempt]
              simp only [receive, checkResponse]
              split
              · exact ⟨r, rfl⟩
              · exact ⟨_, rfl⟩
            rcases hresponse with ⟨r', hr'⟩
            exact ⟨_, (hends.success hok r' hr').1⟩

/-- What the attempts of an operation come to. -/
structure Disciplined (c : ClientImpl σ) (opts : Option (OperationOptions σ))
    (checks : List (ResponseMessageFn σ)) (kind : ClientKind)
    (attempts : List (Exchange σ)) (result : OperationResult) : Prop where
  bounded : ((attempts.filterMap c.handsOver).length : Int) ≤
    max 1 (maxAttempts c.toClientImplBase opts)
  chain : attempts.IsChain (RetriedBy c kind)
  success : (exists o, result = .output o) ↔
    exists z, attempts.getLast? = some z ∧ Passes c checks z

theorem disciplined_none {c : ClientImpl σ} {opts : Option (OperationOptions σ)}
    {checks : List (ResponseMessageFn σ)} {kind : ClientKind}
    (e : OperationError) : Disciplined c opts checks kind [] (.error e) where
  bounded := le_max_of_le_left (Int.zero_le_ofNat 1)
  chain := List.isChain_nil
  success := by
    constructor
    · intro h
      rcases h with ⟨_, h⟩
      cases h
    · intro h
      rcases h with ⟨_, h, _⟩
      cases h

theorem disciplined_of_last {c : ClientImpl σ} {opts : Option (OperationOptions σ)}
    {fns : List (ResponseMessageFn σ)} {kind : ClientKind}
    {attempts : List (Exchange σ)} {result : OperationResult}
    {z : Exchange σ} {w' : Runtime σ}
    (hhonest : forall fn, fn ∈ fns -> Honest fn)
    (hchain : attempts.IsChain (RetriedBy c kind))
    (hlength : (attempts.length : Int) ≤
      max 1 (maxAttempts c.toClientImplBase opts))
    (hlast : attempts.getLast? = some z)
    (hchecks : z.context.onResponseMessage =
      serviceChecks c.toClientImplBase ++ fns)
    (hempty : z.context.errorContext = ErrorContext.empty)
    (hends : EndsWith c z result w') :
    Disciplined c opts (serviceChecks c.toClientImplBase ++ fns) kind attempts
      result where
  bounded :=
    le_trans (Int.ofNat_le.mpr (List.length_filterMap_le c.handsOver attempts))
      hlength
  chain := hchain
  success := by
    rw [EndsWith.output_iff hends, attempt_passes_iff hhonest hchecks hempty]
    constructor
    · exact fun hpasses => ⟨z, hlast, hpasses⟩
    · intro hpasses
      rcases hpasses with ⟨y, hy, hpasses⟩
      rw [hlast] at hy
      cases hy
      exact hpasses

theorem execute_disciplined (c : ClientImpl σ) (input : OperationInput σ)
    (opts : Option (OperationOptions σ))
    (innerOpts : Option (OperationInnerOptions σ)) (w : Runtime σ)
    (hhonest : forall fn, fn ∈ ownChecks innerOpts -> Honest fn) :
    Disciplined c opts (serviceChecks c.toClientImplBase ++ ownChecks innerOpts)
      .sync (c.attemptsOf input opts innerOpts w)
      (c.Execute input opts innerOpts w).1 := by
  unfold ClientImpl.attemptsOf ClientImpl.Execute
  split
  · exact disciplined_none _
  · cases hprepare : prepare c.toClientImplBase w.clockOffset input opts
      innerOpts with
    | error e => exact disciplined_none e
    | ok prepared =>
        rcases prepared with ⟨context, request⟩
        have hprepared := prepare_context hprepare
        rcases @executeStack_endsWith _ c input.opName ⟨request, context, w⟩
          (prepare_ok hprepare).1 with ⟨⟨hsame, hempty⟩, hends⟩
        rcases attempts_chain c context.signingContext.signTimeInEpoch
          context.signingContext.expirationInEpoch
          (context.retryMaxAttempts - 1).toNat 0 ⟨request, context, w⟩ with
          ⟨_, hchain, hlength, hlast⟩
        refine disciplined_of_last hhonest hchain ?_ hlast
          (hsame.onResponseMessage.trans hprepared.checks) hempty hends
        rw [← hprepared.attempts]
        refine le_trans (Int.ofNat_le.mpr hlength) ?_
        push_cast
        omega

theorem executeAsync_disciplined {c : ClientImpl σ} {input : OperationInput σ}
    {opts : Option (OperationOptions σ)}
    {innerOpts : Option (OperationInnerOptions σ)} {w w' : Runtime σ}
    {fuel : Nat} {result : OperationResult}
    (hhonest : forall fn, fn ∈ ownChecks innerOpts -> Honest fn)
    (hexecute : executeAsyncOn c.httpTransport ⟨c.toClientImplBase⟩ fuel input
      opts innerOpts w = some (result, w')) :
    Disciplined c opts (serviceChecks c.toClientImplBase ++ ownChecks innerOpts)
      .async (c.attemptsAsync fuel input opts innerOpts w) result := by
  unfold executeAsyncOn at hexecute
  unfold ClientImpl.attemptsAsync
  unfold AsyncClientImpl.start at hexecute ⊢
  cases hprepare : prepare c.toClientImplBase w.clockOffset input opts
    innerOpts with
  | error e =>
      rw [hprepare] at hexecute
      cases hexecute
      exact disciplined_none e
  | ok prepared =>
      rcases prepared with ⟨context, request⟩
      rw [hprepare] at hexecute
      have hprepared := prepare_context hprepare
      rcases runTasks_lastTask c (AsyncClientImpl.stack ⟨c.toClientImplBase⟩)
        rfl rfl fuel (Eq.refl (some request)) (prepare_ok hprepare).1 hexecute
        with ⟨z, hz, ⟨hsame, hempty⟩, herror, hsuccess⟩
      rcases taskAttempts_chain c (AsyncClientImpl.stack ⟨c.toClientImplBase⟩)
        rfl rfl rfl fuel (Eq.refl (some request)) hexecute with
        ⟨_, hchain, hlength, hlast⟩
      refine disciplined_of_last hhonest hchain ?_ (hlast.trans hz)
        (hsame.onResponseMessage.trans hprepared.checks) hempty
        ⟨herror, hsuccess⟩
      rw [← hprepared.attempts]
      simpa only [Int.add_zero, Int.zero_add] using hlength

/-- The asynchronous client comes to a result, on as many tasks as it may run. -/
theorem executeAsync_ends (c : ClientImpl σ) (input : OperationInput σ)
    (opts : Option (OperationOptions σ))
    (innerOpts : Option (OperationInnerOptions σ)) (w : Runtime σ) :
    exists fuel result w', executeAsyncOn c.httpTransport ⟨c.toClientImplBase⟩
      fuel input opts innerOpts w = some (result, w') := by
  refine ⟨(max 1 (maxAttempts c.toClientImplBase opts)).toNat, ?_⟩
  unfold executeAsyncOn AsyncClientImpl.start
  cases hprepare : prepare c.toClientImplBase w.clockOffset input opts
    innerOpts with
  | error e => exact ⟨_, _, rfl⟩
  | ok prepared =>
      rcases prepared with ⟨context, request⟩
      refine runTasks_ends c (AsyncClientImpl.stack ⟨c.toClientImplBase⟩)
        rfl rfl rfl _ w (Eq.refl (some request)) ?_
      rw [← (prepare_context hprepare).attempts]
      change max (0 + 1) context.retryMaxAttempts ≤
        ((max 1 context.retryMaxAttempts).toNat : Int) + 0
      rw [Int.add_zero, Int.zero_add]
      exact Int.self_le_toNat _

end Internal
end OssSdk
