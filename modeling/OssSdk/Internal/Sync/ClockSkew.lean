import OssSdk.Internal.ClockSkewError
import OssSdk.Internal.Sync.SharedClient
import OssSdk.Signer.Resigning

/-!
# The clock of the server

The client keeps one clock offset for all of its operations, and every operation has one
of its own to sign with.  Both follow the errors by which the service says that a request
was signed at the wrong time.
-/

namespace OssSdk
namespace Internal
namespace Sync

open Foundation

variable {σ : Type}

/-!
# What the steps of an operation keep
-/

/-- The offsets of the client and of one of its operations. -/
structure SameOffsets (x y : Exchange σ) : Prop where
  clockOffset : y.runtime.clockOffset = x.runtime.clockOffset
  signing : y.context.signingContext.clockOffset = x.context.signingContext.clockOffset
  inHeaders : y.context.signingContext.authMethodQuery =
    x.context.signingContext.authMethodQuery
  onResponseMessage : y.context.onResponseMessage = x.context.onResponseMessage

theorem decideRetry_offsets {retryer : Retryer σ} {disableState : DisableState σ}
    {signTime expiration retries : Int} {x : Exchange σ} {decision : Decision σ}
    (hdecide : decideRetry retryer disableState signTime expiration retries x =
      decision) :
    match decision with
    | .stop y => SameOffsets x y
    | .retry y => SameOffsets x y ∧
        y.context.signingContext.signTimeInEpoch = signTime ∧
        y.context.errorContext = ErrorContext.empty := by
  simp only [decideRetry] at hdecide
  split at hdecide
  · cases hdecide
    exact ⟨rfl, rfl, rfl, rfl⟩
  · split at hdecide
    · cases hdecide
      exact ⟨rfl, rfl, rfl, rfl⟩
    · split at hdecide
      · cases hdecide
        exact ⟨rfl, rfl, rfl, rfl⟩
      · split at hdecide
        · cases hdecide
          exact ⟨rfl, rfl, rfl, rfl⟩
        · cases hdecide
          exact ⟨⟨rfl, rfl, rfl, rfl⟩, rfl, rfl⟩

/-- What a signer makes of a request that it signs in the headers at the time `t`. -/
def signedAt (S : Signer.HeaderSigning σ) (context : SigningContext) (t : Int)
    (request : RequestMessage σ) : RequestMessage σ :=
  let headers := Signer.stampToken context.credentials (S.stamp t request.headers)
  { request with
    headers :=
      headers.insertOrAssign (bytes "Authorization")
        (S.authorization context t headers (S.stringToSign context t request headers)) }

/-- The request that a provider's credentials sign. -/
def SignedBy (S : Signer.HeaderSigning σ) (q : Signer.Platform σ)
    (provider : CredentialsProvider σ) (x : Exchange σ) (request : RequestMessage σ) :
    Prop :=
  request =
    signedAt S
      { x.context.signingContext with
        credentials := (provider.getCredentials x.runtime.env).1 }
      (q.timeNow x.context.signingContext (provider.getCredentials x.runtime.env).2)
      x.request

theorem handOver_signs {c : ClientImpl σ} {S : Signer.HeaderSigning σ}
    {q : Signer.Platform σ} (hsigner : c.options.signer = S.signer)
    (htime : forall call, S.time call = call.timeNow q) {x : Exchange σ}
    (hheader : x.context.signingContext.authMethodQuery = false) :
    SameOffsets x (c.handOver x).2 ∧
      ((c.handOver x).2.error.isError = false ->
        forall provider, c.options.credentialsProvider = some provider ->
          provider.getAuthType ≠ .anonymous ->
            SignedBy S q provider x (c.handOver x).2.request) := by
  unfold ClientImpl.handOver SignerExecuteMiddleware
  cases hprovider : c.options.credentialsProvider with
  | none => exact ⟨⟨rfl, rfl, rfl, rfl⟩, fun _ provider h => (nomatch h)⟩
  | some provider =>
      by_cases hanonymous : provider.getAuthType = .anonymous
      · simp only [hanonymous, if_true]
        refine ⟨?_, fun _ provider' hprovider' hnot => ?_⟩
        · split
          · exact ⟨rfl, rfl, rfl, rfl⟩
          · exact ⟨rfl, rfl, rfl, rfl⟩
        · cases hprovider'
          exact absurd hanonymous hnot
      · rcases hcred : provider.getCredentials x.runtime.env with ⟨cred, env⟩
        simp only [hanonymous, if_false, hcred]
        cases hkeys : cred.hasKeys with
        | false =>
            simp only [Bool.not_false, if_true]
            refine ⟨⟨rfl, rfl, rfl, rfl⟩, fun hok => ?_⟩
            exact absurd (hok.symm.trans (ErrorCode.isError_credentials _)) (by decide)
        | true =>
            simp only [Bool.not_true, Bool.false_eq_true, if_false]
            rcases hsign : c.options.signer.sign (x.setEnv env).request
                { (x.setEnv env).context.signingContext with credentials := cred }
                (x.setEnv env).runtime.env with ⟨signed, request, signingContext, env'⟩
            let call : Signer.SignCall σ :=
              ⟨cred, hkeys, x.context.signingContext.signTimeInEpoch,
                x.context.signingContext.clockOffset, env⟩
            have hcall : call.run S.signer (x.request, x.context.signingContext) =
                (request, signingContext) := by
              rw [← hsigner]
              exact congrArg (fun r => (r.2.1, r.2.2.1)) hsign
            rw [S.run_eq call x.request x.context.signingContext hheader] at hcall
            have hkept : signingContext.clockOffset =
                  x.context.signingContext.clockOffset ∧
                signingContext.authMethodQuery =
                  x.context.signingContext.authMethodQuery := by
              rw [← (Prod.mk.inj hcall).2]
              exact ⟨rfl, rfl⟩
            simp only [hsign]
            cases signed with
            | false =>
                refine ⟨⟨rfl, hkept.1, hkept.2, rfl⟩, fun hok => ?_⟩
                exact absurd (hok.symm.trans (ErrorCode.isError_signer _)) (by decide)
            | true =>
                simp only [Bool.not_true, Bool.false_eq_true, if_false]
                have hrequest : SignedBy S q provider x request := by
                  unfold SignedBy
                  rw [← (Prod.mk.inj hcall).1, htime, hcred]
                  rfl
                refine ⟨?_, fun _ provider' hprovider' _ => ?_⟩
                · split
                  · exact ⟨rfl, hkept.1, hkept.2, rfl⟩
                  · exact ⟨rfl, hkept.1, hkept.2, rfl⟩
                · cases hprovider'
                  split
                  · exact hrequest
                  · exact hrequest

/-!
# The operations of a client
-/

/-- What holds of an operation whenever its thread gives way. -/
structure OperationSound (b : ClientImplBase σ) (o : Operation σ) : Prop where
  signTime : o.signTime = 0
  checks : exists fns, OwnChecks fns ∧
    o.context.onResponseMessage = serviceChecks b ++ fns
  inHeaders : o.context.signingContext.authMethodQuery = false
  clean : o.stage = .ready ∨ o.stage = .sent ->
    o.context.errorContext.error.isError = false
  fresh : o.stage = .ready -> o.context.signingContext.signTimeInEpoch = 0

def Sound (b : ClientImplBase σ) (s : SharedClient σ) : Prop :=
  forall o, o ∈ s.operations -> OperationSound b o

/-- The checks that an operation brings along are known. -/
def Event.Own : Event σ -> Prop
  | .begins _ _ innerOpts => OwnChecks (ownChecks innerOpts)
  | _ => True

/-- The offset that a response to an operation makes the client compute. -/
def recognised (b : ClientImplBase σ) (s : SharedClient σ) : Event σ -> Option Int
  | .answers id (.response r) _ =>
      (s.operation id .sent).bind fun o =>
        b.skewOf ⟨r, o.context.signingContext, o.context.errorContext, s.runtime⟩
  | _ => none

theorem operation_some {s : SharedClient σ} {id : Nat} {stage : Stage} {o : Operation σ}
    (hoperation : s.operation id stage = some o) :
    s.operations[id]? = some o ∧ o.stage = stage := by
  rcases Option.filter_eq_some_iff.mp hoperation with ⟨hfound, hstage⟩
  exact ⟨hfound, beq_iff_eq.mp hstage⟩

theorem put_sound {b : ClientImplBase σ} {s : SharedClient σ} {id : Nat}
    {o : Operation σ} {e : Option ResponseMessage × Exchange σ} {stage : Stage}
    (hsound : Sound b s) (hafter : OperationSound b (o.after e stage)) :
    Sound b (s.put id o e stage) := by
  intro o' ho'
  rcases List.mem_or_eq_of_mem_set ho' with h | h
  · exact hsound o' h
  · rw [h]
    exact hafter

/-- The checks of the response to an operation. -/
theorem answered_skew {b : ClientImplBase σ} {x : Exchange σ} {r : ResponseMessage}
    {fns : List (ResponseMessageFn σ)} (hown : OwnChecks fns)
    (hchecks : x.context.onResponseMessage = serviceChecks b ++ fns)
    (hclean : x.error.isError = false) :
    let c : Checked σ := ⟨r, x.context.signingContext, x.context.errorContext, x.runtime⟩
    let y := (checkResponse (receive x (.response r))).2
    SkewChecked b c
      ⟨r, y.context.signingContext, y.context.errorContext, y.runtime⟩ ∧
      y.context.onResponseMessage = x.context.onResponseMessage := by
  intro c y
  have hskew := runChecks_skew b hown c
  have hy : y =
      { x with
        context :=
          { x.context with
            signingContext := (runChecks (serviceChecks b ++ fns) c).signingContext
            errorContext := (runChecks (serviceChecks b ++ fns) c).errorContext }
        runtime := (runChecks (serviceChecks b ++ fns) c).runtime } := by
    simp only [y, receive, checkResponse, hclean, Bool.false_eq_true, if_false, hchecks,
      c]
  rw [hy]
  exact ⟨⟨hskew.clockOffset, hskew.signingContext, hskew.failed⟩, rfl⟩

theorem prepare_signing {c : ClientImplBase σ} {clockOffset : Int}
    {input : OperationInput σ} {opts : Option (OperationOptions σ)}
    {innerOpts : Option (OperationInnerOptions σ)}
    {context : ExecuteContext σ} {request : RequestMessage σ}
    (hprepare : prepare c clockOffset input opts innerOpts = .ok (context, request)) :
    context.signingContext.signTimeInEpoch = 0 ∧
      context.signingContext.authMethodQuery = false := by
  have happlied : forall context : ExecuteContext σ,
      (applyOperationInput c clockOffset context
        input).1.errorContext.error.isError = false ->
      context.signingContext.authMethodQuery = false ->
      (applyOperationInput c clockOffset context
          input).1.signingContext.signTimeInEpoch = 0 ∧
        (applyOperationInput c clockOffset context
          input).1.signingContext.authMethodQuery = false := by
    intro context hok hheader
    unfold applyOperationInput at hok ⊢
    cases hprovider : c.options.endpointProvider with
    | none => exact ⟨rfl, hheader⟩
    | some provider =>
        rw [hprovider] at hok
        rcases hurl : provider input with ⟨url, ec, message⟩
        cases hec : ec.isError with
        | false =>
            simp only [hec, Bool.false_eq_true, if_false, hurl]
            exact ⟨trivial, hheader⟩
        | true => simp [hurl, hec] at hok
  unfold prepare at hprepare
  split at hprepare
  · cases hprepare
  · split at hprepare
    · cases hprepare
    · simp only at hprepare
      split at hprepare
      · cases hprepare
      · rename_i hok
        cases hprepare
        exact happlied _ (Bool.not_eq_true _ ▸ hok) rfl

section Steps

variable {c : ClientImpl σ} {S : Signer.HeaderSigning σ} {q : Signer.Platform σ}
variable {s t : SharedClient σ} {e : Event σ}

/-- What a step leaves of the client's offset, and of the operations. -/
structure Stepped (b : ClientImplBase σ) (s t : SharedClient σ) (e : Event σ) : Prop where
  sound : Sound b t
  clockOffset : t.runtime.clockOffset =
    ((recognised b s e).map (replacedOffset s.runtime.clockOffset)).getD
      s.runtime.clockOffset

theorem begin_stepped (hsound : Sound c.toClientImplBase s) (input : OperationInput σ)
    (opts : Option (OperationOptions σ))
    (innerOpts : Option (OperationInnerOptions σ))
    (hown : OwnChecks (ownChecks innerOpts)) :
    Stepped c.toClientImplBase s (SharedClient.begin c s input opts innerOpts)
      (.begins input opts innerOpts) := by
  unfold SharedClient.begin
  split
  · exact ⟨hsound, rfl⟩
  · cases hprepare : prepare c.toClientImplBase s.runtime.clockOffset input opts
      innerOpts with
    | error e => exact ⟨hsound, rfl⟩
    | ok prepared =>
        rcases prepared with ⟨context, request⟩
        refine ⟨?_, rfl⟩
        intro o ho
        rcases List.mem_append.mp ho with h | h
        · exact hsound o h
        · rw [List.mem_singleton.mp h]
          have hclean := (prepare_ok hprepare).1
          have hsigning := prepare_signing hprepare
          refine ⟨hsigning.1, ⟨_, hown, (prepare_context hprepare).checks⟩, hsigning.2,
            fun _ => ?_, fun _ => hsigning.1⟩
          simp only [hclean]
          rfl

theorem attempt_stepped (hsigner : c.options.signer = S.signer)
    (htime : forall call, S.time call = call.timeNow q)
    (hsound : Sound c.toClientImplBase s) {id : Nat} {o : Operation σ}
    (hoperation : s.operation id .ready = some o) :
    Stepped c.toClientImplBase s (SharedClient.attempt c s id o) (.attempts id) := by
  rcases operation_some hoperation with ⟨hfound, hstage⟩
  have ho := hsound o (List.mem_of_getElem? hfound)
  rcases handOver_signs hsigner htime (x := s.exchange o) ho.inHeaders with ⟨hsame, _⟩
  refine ⟨put_sound hsound ?_, hsame.clockOffset⟩
  rcases ho.checks with ⟨fns, hown, hchecks⟩
  refine ⟨ho.signTime, ⟨fns, hown, hsame.onResponseMessage.trans hchecks⟩,
    hsame.inHeaders.trans ho.inHeaders, ?_, ?_⟩
  · intro hnext
    cases hfailed : (c.handOver (s.exchange o)).2.error.isError with
    | false => exact hfailed
    | true =>
        simp only [Operation.after, hfailed, if_true] at hnext
        rcases hnext with h | h
        · cases h
        · cases h
  · intro hnext
    simp only [Operation.after] at hnext
    split at hnext
    · cases hnext
    · cases hnext

theorem answer_stepped (hsound : Sound c.toClientImplBase s) {id : Nat}
    {result : ResponseResult} {request : RequestMessage σ} {o : Operation σ}
    (hoperation : s.operation id .sent = some o) :
    Stepped c.toClientImplBase s (s.answer id result request o)
      (.answers id result request) := by
  rcases operation_some hoperation with ⟨hfound, hstage⟩
  have ho := hsound o (List.mem_of_getElem? hfound)
  rcases ho.checks with ⟨fns, hown, hchecks⟩
  have hover : forall {e : Option ResponseMessage × Exchange σ},
      e.2.context.onResponseMessage = o.context.onResponseMessage ->
      e.2.context.signingContext.authMethodQuery = false ->
        OperationSound c.toClientImplBase
          (o.after e (if e.2.error.isError then .failed else .over)) := by
    intro e hsame hheader
    refine ⟨ho.signTime, ⟨fns, hown, hsame.trans hchecks⟩, hheader, ?_, ?_⟩
    · intro hnext
      simp only [Operation.after] at hnext
      split at hnext
      · exact absurd hnext (by decide)
      · exact absurd hnext (by decide)
    · intro hnext
      simp only [Operation.after] at hnext
      split at hnext
      · cases hnext
      · cases hnext
  cases result with
  | error te => exact ⟨put_sound hsound (hover rfl ho.inHeaders), rfl⟩
  | response r =>
      let x : Exchange σ := { s.exchange o with request := request }
      have hclean : x.error.isError = false := ho.clean (Or.inr hstage)
      rcases answered_skew (r := r) hown hchecks (x := x) hclean with ⟨hskew, hsame⟩
      have hrecognised : recognised c.toClientImplBase s
          (.answers id (.response r) request) =
            c.skewOf ⟨r, o.context.signingContext, o.context.errorContext, s.runtime⟩ := by
        simp only [recognised, hoperation, Option.bind_some]
      refine ⟨put_sound hsound (hover hsame ?_), ?_⟩
      · have hsigning := hskew.signingContext
        simp only at hsigning
        rw [hsigning]
        cases c.skewOf ⟨r, x.context.signingContext, x.context.errorContext, x.runtime⟩ with
        | none => exact ho.inHeaders
        | some newOffset => exact ho.inHeaders
      · rw [hrecognised]
        exact hskew.clockOffset

theorem decide_stepped (hsound : Sound c.toClientImplBase s) {id : Nat}
    {o : Operation σ} (hoperation : s.operation id .failed = some o) :
    Stepped c.toClientImplBase s (SharedClient.decideRetry c s id o) (.decides id) := by
  rcases operation_some hoperation with ⟨hfound, hstage⟩
  have ho := hsound o (List.mem_of_getElem? hfound)
  rcases ho.checks with ⟨fns, hown, hchecks⟩
  have hover : forall {x : Exchange σ}, SameOffsets (s.exchange o) x ->
      Stepped c.toClientImplBase s (s.put id o (o.response, x) .over) (.decides id) := by
    intro x hsame
    refine ⟨put_sound hsound ⟨ho.signTime,
      ⟨fns, hown, hsame.onResponseMessage.trans hchecks⟩,
      hsame.inHeaders.trans ho.inHeaders, fun h => ?_, fun h => (nomatch h)⟩,
      hsame.clockOffset⟩
    rcases h with h | h
    · cases h
    · cases h
  unfold SharedClient.decideRetry
  cases o.left with
  | zero => exact hover ⟨rfl, rfl, rfl, rfl⟩
  | succ left =>
      simp only
      cases hdecide : decideRetry c.options.retryer c.disableState o.signTime
        o.expiration o.retries (s.exchange o) with
      | stop x => exact hover (decideRetry_offsets hdecide)
      | retry x =>
          rcases decideRetry_offsets hdecide with ⟨hsame, hfresh, hclean⟩
          refine ⟨put_sound hsound ⟨ho.signTime,
            ⟨fns, hown, hsame.onResponseMessage.trans hchecks⟩,
            hsame.inHeaders.trans ho.inHeaders, fun _ => ?_,
            fun _ => hfresh.trans ho.signTime⟩, hsame.clockOffset⟩
          simp only [Operation.after, hclean]
          rfl

theorem step_stepped (hsigner : c.options.signer = S.signer)
    (htime : forall call, S.time call = call.timeNow q)
    (hsound : Sound c.toClientImplBase s) (hown : e.Own)
    (hstep : SharedClient.step c s e = some t) :
    Stepped c.toClientImplBase s t e := by
  cases e with
  | begins input opts innerOpts =>
      cases hstep
      exact begin_stepped hsound input opts innerOpts hown
  | attempts id =>
      rcases Option.map_eq_some_iff.mp hstep with ⟨o, ho, hput⟩
      rw [← hput]
      exact attempt_stepped hsigner htime hsound ho
  | answers id result request =>
      rcases Option.map_eq_some_iff.mp hstep with ⟨o, ho, hput⟩
      rw [← hput]
      exact answer_stepped hsound ho
  | decides id =>
      rcases Option.map_eq_some_iff.mp hstep with ⟨o, ho, hput⟩
      rw [← hput]
      exact decide_stepped hsound ho
  | environment env =>
      cases hstep
      exact ⟨hsound, rfl⟩

/-!
# The attempt that follows an error
-/

/-- The operation is to sign with this offset when it makes its next attempt. -/
def KeepsOffset (s : SharedClient σ) (id : Nat) (newOffset : Int) : Prop :=
  exists o, s.operations[id]? = some o ∧ o.stage ≠ .sent ∧
    o.context.signingContext.clockOffset = newOffset

theorem put_other {id id' : Nat} {o : Operation σ}
    {e : Option ResponseMessage × Exchange σ} {stage : Stage} (hother : id ≠ id') :
    (s.put id o e stage).operations[id']? = s.operations[id']? :=
  List.getElem?_set_ne hother

theorem put_same {id : Nat} {o o' : Operation σ}
    {e : Option ResponseMessage × Exchange σ} {stage : Stage}
    (hfound : s.operations[id]? = some o') :
    (s.put id o e stage).operations[id]? = some (o.after e stage) :=
  List.getElem?_set_self (List.getElem?_eq_some_iff.mp hfound).1

/-- A recognised error makes the operation that got it keep its offset. -/
theorem answer_keeps (hsound : Sound c.toClientImplBase s) {id : Nat}
    {r : ResponseMessage} {request : RequestMessage σ} {newOffset : Int}
    (hstep : SharedClient.step c s (.answers id (.response r) request) = some t)
    (hrecognised : recognised c.toClientImplBase s
      (.answers id (.response r) request) = some newOffset) :
    KeepsOffset t id newOffset := by
  rcases Option.map_eq_some_iff.mp hstep with ⟨o, hoperation, hput⟩
  rcases operation_some hoperation with ⟨hfound, hstage⟩
  have ho := hsound o (List.mem_of_getElem? hfound)
  rcases ho.checks with ⟨fns, hown, hchecks⟩
  let x : Exchange σ := { s.exchange o with request := request }
  have hclean : x.error.isError = false := ho.clean (Or.inr hstage)
  rcases answered_skew (r := r) hown hchecks (x := x) hclean with ⟨hskew, _⟩
  have hskewOf : c.skewOf ⟨r, x.context.signingContext, x.context.errorContext,
      x.runtime⟩ = some newOffset := by
    rw [← hrecognised]
    simp only [recognised, hoperation, Option.bind_some]
    rfl
  rw [← hput]
  refine ⟨_, put_same hfound, ?_, ?_⟩
  · simp only [Operation.after]
    split
    · decide
    · decide
  · have hsigning := hskew.signingContext
    rw [hskewOf] at hsigning
    exact congrArg SigningContext.clockOffset hsigning

/-- It keeps it until it makes an attempt. -/
theorem step_keeps {id : Nat} {newOffset : Int} (hkeeps : KeepsOffset s id newOffset)
    (hwaits : e ≠ .attempts id) (hstep : SharedClient.step c s e = some t) :
    KeepsOffset t id newOffset := by
  rcases hkeeps with ⟨o, hfound, hstage, hoffset⟩
  cases e with
  | begins input opts innerOpts =>
      cases hstep
      unfold SharedClient.begin
      split
      · exact ⟨o, hfound, hstage, hoffset⟩
      · cases prepare c.toClientImplBase s.runtime.clockOffset input opts innerOpts with
        | error e => exact ⟨o, hfound, hstage, hoffset⟩
        | ok prepared =>
            refine ⟨o, ?_, hstage, hoffset⟩
            have hlength := (List.getElem?_eq_some_iff.mp hfound).1
            exact (List.getElem?_append_left hlength).trans hfound
  | attempts id' =>
      have hother : id' ≠ id := fun h => hwaits (congrArg Event.attempts h)
      rcases Option.map_eq_some_iff.mp hstep with ⟨o', _, hput⟩
      rw [← hput]
      exact ⟨o, (put_other hother).trans hfound, hstage, hoffset⟩
  | answers id' result request =>
      rcases Option.map_eq_some_iff.mp hstep with ⟨o', ho', hput⟩
      rw [← hput]
      by_cases hother : id' = id
      · -- an operation that has no request with the transport gets no answer
        rw [hother] at ho'
        rcases operation_some ho' with ⟨hfound', hstage'⟩
        rw [hfound] at hfound'
        cases hfound'
        exact absurd hstage' hstage
      · exact ⟨o, (put_other hother).trans hfound, hstage, hoffset⟩
  | decides id' =>
      rcases Option.map_eq_some_iff.mp hstep with ⟨o', ho', hput⟩
      rw [← hput]
      unfold SharedClient.decideRetry
      by_cases hother : id' = id
      · rw [hother] at ho' ⊢
        rcases operation_some ho' with ⟨hfound', _⟩
        rw [hfound] at hfound'
        cases hfound'
        cases o.left with
        | zero => exact ⟨_, put_same hfound, fun h => (nomatch h), hoffset⟩
        | succ left =>
            simp only
            cases hdecide : decideRetry c.options.retryer c.disableState o.signTime
              o.expiration o.retries (s.exchange o) with
            | stop x =>
                have hsame := decideRetry_offsets hdecide
                exact ⟨_, put_same hfound, fun h => (nomatch h), hsame.signing.trans hoffset⟩
            | retry x =>
                have hsame := (decideRetry_offsets hdecide).1
                exact ⟨_, put_same hfound, fun h => (nomatch h), hsame.signing.trans hoffset⟩
      · cases o'.left with
        | zero => exact ⟨o, (put_other hother).trans hfound, hstage, hoffset⟩
        | succ left =>
            simp only
            cases decideRetry c.options.retryer c.disableState o'.signTime
              o'.expiration o'.retries (s.exchange o') with
            | stop x => exact ⟨o, (put_other hother).trans hfound, hstage, hoffset⟩
            | retry x => exact ⟨o, (put_other hother).trans hfound, hstage, hoffset⟩
  | environment env =>
      cases hstep
      exact ⟨o, hfound, hstage, hoffset⟩

theorem run_keeps {id : Nat} {newOffset : Int} {events : List (Event σ)}
    (hkeeps : KeepsOffset s id newOffset) (hwaits : .attempts id ∉ events)
    (hrun : (SharedClient.system c).run s events = some t) :
    KeepsOffset t id newOffset := by
  induction events generalizing s with
  | nil =>
      cases hrun
      exact hkeeps
  | cons e rest ih =>
      rcases TransitionSystem.run_cons_some hrun with ⟨s', hstep, hrest⟩
      rw [List.mem_cons, not_or] at hwaits
      exact ih (step_keeps hkeeps (fun h => hwaits.1 h.symm) hstep) hwaits.2 hrest

/-!
# Runs
-/

/-- The offsets that a run computes, in their order. -/
def computed (c : ClientImpl σ) (s : SharedClient σ) : List (Event σ) -> List Int
  | [] => []
  | e :: rest =>
      (recognised c.toClientImplBase s e).toList ++
        match SharedClient.step c s e with
        | some t => computed c t rest
        | none => []

theorem computed_cons (rest : List (Event σ))
    (hstep : SharedClient.step c s e = some t) :
    computed c s (e :: rest) =
      (recognised c.toClientImplBase s e).toList ++ computed c t rest := by
  rw [computed, hstep]

/-- What a run makes of the client's offset. -/
structure Corrected (c : ClientImpl σ) (s : SharedClient σ) (events : List (Event σ))
    (t : SharedClient σ) : Prop where
  sound : Sound c.toClientImplBase t
  computed : t.runtime.clockOffset = s.runtime.clockOffset ∨
    t.runtime.clockOffset ∈ computed c s events
  near : forall newOffset, (Sync.computed c s events).getLast? = some newOffset ->
    (t.runtime.clockOffset - newOffset).natAbs ≤ 60
  untouched : Sync.computed c s events = [] ->
    t.runtime.clockOffset = s.runtime.clockOffset

theorem run_corrected (hsigner : c.options.signer = S.signer)
    (htime : forall call, S.time call = call.timeNow q) {events : List (Event σ)}
    (hown : forall e, e ∈ events -> e.Own) (hsound : Sound c.toClientImplBase s)
    (hrun : (SharedClient.system c).run s events = some t) :
    Corrected c s events t := by
  induction events generalizing s with
  | nil =>
      cases hrun
      exact ⟨hsound, Or.inl rfl, fun _ h => (nomatch h), fun _ => rfl⟩
  | cons e rest ih =>
      rcases TransitionSystem.run_cons_some hrun with ⟨s', hstep, hrest⟩
      rcases step_stepped hsigner htime hsound (hown e List.mem_cons_self) hstep with
        ⟨hsound', hoffset⟩
      rcases ih (fun e h => hown e (List.mem_cons_of_mem _ h)) hsound' hrest with
        ⟨hend, hcomputed, hnear, huntouched⟩
      have hcons := computed_cons rest hstep
      cases hrecognised : recognised c.toClientImplBase s e with
      | none =>
          rw [hrecognised] at hcons hoffset
          have hsame : s'.runtime.clockOffset = s.runtime.clockOffset := hoffset
          have hcons' : Sync.computed c s (e :: rest) = Sync.computed c s' rest := hcons
          refine ⟨hend, ?_, ?_, ?_⟩
          · rw [hcons', ← hsame]
            exact hcomputed
          · rw [hcons']
            exact hnear
          · rw [hcons', ← hsame]
            exact huntouched
      | some newOffset =>
          rw [hrecognised] at hcons hoffset
          have hreplaced : s'.runtime.clockOffset =
              replacedOffset s.runtime.clockOffset newOffset := hoffset
          have hcons' : Sync.computed c s (e :: rest) =
              newOffset :: Sync.computed c s' rest := hcons
          refine ⟨hend, ?_, ?_, ?_⟩
          · rw [hcons']
            rcases hcomputed with h | h
            · rw [h, hreplaced]
              unfold replacedOffset
              split
              · exact Or.inr List.mem_cons_self
              · exact Or.inl rfl
            · exact Or.inr (List.mem_cons_of_mem _ h)
          · intro last hlast
            rw [hcons'] at hlast
            cases hmore : Sync.computed c s' rest with
            | nil =>
                rw [hmore] at hlast
                cases hlast
                rw [huntouched hmore, hreplaced]
                exact replacedOffset_near _ _
            | cons first more =>
                rw [hmore, List.getLast?_cons_cons, ← hmore] at hlast
                exact hnear last hlast
          · intro hnil
            rw [hcons'] at hnil
            cases hnil

/-- What the transport is handed in an attempt is signed with this offset. -/
def SignsWith (c : ClientImpl σ) (S : Signer.HeaderSigning σ) (id : Nat)
    (s t : SharedClient σ) (newOffset : Int) : Prop :=
  forall provider, c.options.credentialsProvider = some provider ->
    provider.getAuthType ≠ .anonymous ->
      forall sent, t.operation id .sent = some sent ->
        exists o, s.operation id .ready = some o ∧
          sent.request =
            signedAt S
              { o.context.signingContext with
                credentials := (provider.getCredentials s.runtime.env).1 }
              (c.platform.time (provider.getCredentials s.runtime.env).2 + newOffset)
              o.request

theorem attempt_signsWith (hsigner : c.options.signer = S.signer)
    (htime : forall call, S.time call = call.timeNow q)
    (hclock : q.time = c.platform.time) (hsound : Sound c.toClientImplBase s) {id : Nat}
    {newOffset : Int} (hkeeps : KeepsOffset s id newOffset)
    (hstep : SharedClient.step c s (.attempts id) = some t) :
    SignsWith c S id s t newOffset := by
  intro provider hprovider hanonymous sent hsent
  rcases Option.map_eq_some_iff.mp hstep with ⟨o, hoperation, hput⟩
  rcases operation_some hoperation with ⟨hfound, hstage⟩
  have ho := hsound o (List.mem_of_getElem? hfound)
  refine ⟨o, hoperation, ?_⟩
  rcases hkeeps with ⟨o', hfound', _, hoffset⟩
  rw [hfound] at hfound'
  cases hfound'
  rw [← hput] at hsent
  rcases operation_some hsent with ⟨hget, hstage'⟩
  have hafter := (put_same hfound).symm.trans hget
  cases hafter
  have hok : (c.handOver (s.exchange o)).2.error.isError = false := by
    cases hfailed : (c.handOver (s.exchange o)).2.error.isError with
    | false => rfl
    | true =>
        simp only [Operation.after, hfailed, if_true] at hstage'
        cases hstage'
  have hsigned := (handOver_signs hsigner htime (x := s.exchange o) ho.inHeaders).2 hok
    provider hprovider hanonymous
  have hnow : q.timeNow o.context.signingContext
      (provider.getCredentials s.runtime.env).2 =
        c.platform.time (provider.getCredentials s.runtime.env).2 + newOffset := by
    unfold Signer.Platform.timeNow
    rw [ho.fresh hstage, if_neg (Int.lt_irrefl 0), hoffset, hclock]
  rw [← hnow]
  exact hsigned

end Steps

/-- What a run makes of the offsets, and what the steps after it do. -/
structure ClockCorrected (c : ClientImpl σ) (S : Signer.HeaderSigning σ) (env : σ)
    (events : List (Event σ)) (s : SharedClient σ) : Prop where
  zeroOrComputed : s.runtime.clockOffset = 0 ∨
    s.runtime.clockOffset ∈ computed c ⟨⟨0, env⟩, []⟩ events
  nearNewest : forall newOffset,
    (computed c ⟨⟨0, env⟩, []⟩ events).getLast? = some newOffset ->
      (s.runtime.clockOffset - newOffset).natAbs ≤ 60
  replaced : forall e t, e.Own -> SharedClient.step c s e = some t ->
    t.runtime.clockOffset =
      match recognised c.toClientImplBase s e with
      | some newOffset =>
          if 60 < (newOffset - s.runtime.clockOffset).natAbs then newOffset
          else s.runtime.clockOffset
      | none => s.runtime.clockOffset
  offset : forall id r request newOffset,
    recognised c.toClientImplBase s (.answers id (.response r) request) =
      some newOffset ->
    exists fields, isClockSkewError r.statusCode fields = true ∧
      newOffset = serverTime c.platform r.headers fields - c.platform.time s.runtime.env
  signed : forall id r request t newOffset,
    SharedClient.step c s (.answers id (.response r) request) = some t ->
    recognised c.toClientImplBase s (.answers id (.response r) request) =
      some newOffset ->
    forall rest u v, (forall e, e ∈ rest -> e.Own) -> .attempts id ∉ rest ->
      (SharedClient.system c).run t rest = some u ->
      SharedClient.step c u (.attempts id) = some v -> SignsWith c S id u v newOffset

theorem recognised_offset {c : ClientImpl σ} {s : SharedClient σ} {id : Nat}
    {r : ResponseMessage} {request : RequestMessage σ} {newOffset : Int}
    (hrecognised : recognised c.toClientImplBase s (.answers id (.response r) request) =
      some newOffset) :
    exists fields, isClockSkewError r.statusCode fields = true ∧
      newOffset =
        serverTime c.platform r.headers fields - c.platform.time s.runtime.env := by
  rcases Option.bind_eq_some_iff.mp hrecognised with ⟨o, _, hskew⟩
  unfold ClientImplBase.skewOf at hskew
  split at hskew
  · let checked : Checked σ :=
      ⟨r, o.context.signingContext, o.context.errorContext, s.runtime⟩
    have hpre : (onPreServiceError c.platform checked).2.response = r ∧
        (onPreServiceError c.platform checked).2.runtime = s.runtime := by
      unfold onPreServiceError
      split
      · exact ⟨rfl, rfl⟩
      · exact ⟨rfl, rfl⟩
    refine ⟨(onPreServiceError c.platform checked).2.errorContext.errorFields, ?_⟩
    unfold skewOffset at hskew
    rw [hpre.1, hpre.2] at hskew
    split at hskew
    · cases hskew
    · rename_i hskewed
      rw [Bool.not_eq_true, Bool.not_eq_false'] at hskewed
      simp only at hskew
      split at hskew
      · cases hskew
      · split at hskew
        · cases hskew
        · cases hskew
          exact ⟨hskewed, rfl⟩
  · cases hskew

/-- A client that signs with version 4. -/
def signingClient : ClientImpl Unit where
  toClientImplBase :=
    { anonymousBase Unit with
      platform := { (anonymousBase Unit).platform with time := Signer.retryPlatform.time }
      options :=
        { (anonymousBase Unit).options with
          credentialsProvider :=
            some ⟨.default, fun env => (⟨bytes "ak", bytes "sk", [], none, false⟩, env)⟩
          signer := Signer.SignerV4 Signer.retryPlatform } }
  httpTransport :=
    ⟨fun request _ env => (.error (TransportError.make .Unknown [] []), request, env)⟩
  disableState := ⟨fun _ => false, fun _ env => (false, env)⟩

end Sync
end Internal
end OssSdk
