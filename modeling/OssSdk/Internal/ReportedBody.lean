import OssSdk.Internal.LastAttempt
import OssSdk.Transport.BodyDelivery

/-!
# Where a body goes and what is reported

A transport looks at the status to find the sink of a body, the checks of a response
look at it again to tell an error from a success.
-/

namespace OssSdk
namespace Internal

open Foundation
open Transport

variable {σ : Type}

/-!
# The sink of a transfer
-/

section transfer

variable {m : BodyInput σ} {kind : HttpClientKind} {chunks : List ByteString}
variable {result : ResponseResult} {r : Reception σ}

/-- No writer of the caller has been given anything. -/
def SparesUser (r : Reception σ) : Prop := forall writer, r.sink ≠ some (.user writer)

theorem transfers_fields {response : ResponseMessage}
    (htransfer : Transfers m kind chunks (.response response) r) :
    response.statusCode = m.statusCode ∧ response.headers = m.headers := by
  generalize hresult : ResponseResult.response response = result at htransfer
  cases htransfer with
  | @curl _ res io text _ hperform =>
      have hfields := Curl.easyPerform_fields Curl.CURLE_OK chunks
        (Curl.TransferIO.init m.statusCode m.headers m.sinkFactory m.recvDataLength
          m.env)
      rw [hperform] at hfields
      unfold Curl.transferResult at hresult
      split at hresult
      · cases hresult
        exact hfields
      · cases hresult
  | @winHttp _ _ out _ _ =>
      cases out with
      | complete r =>
          cases hresult
          exact ⟨rfl, rfl⟩
      | error te r => cases hresult
  | @winHttpAsync _ _ out _ _ =>
      cases out with
      | complete r =>
          cases hresult
          exact ⟨rfl, rfl⟩
      | error te r => cases hresult

/-- The reception when the sink of a body has been chosen. -/
def bodyStart (m : BodyInput σ) : HttpClientKind -> Reception σ
  | .Curl => (curlStart m).reception
  | _ => WinHttp.createResponseSink m.statusCode m.sinkFactory m.headers m.env

/-- Whether the stream of a transport is given to the response. -/
def streamReachable (m : BodyInput σ) : HttpClientKind -> Bool
  | .Curl => true
  | _ => WinHttp.reachable m.statusCode m.sinkFactory

theorem transfers_ends (hchunks : chunks ≠ [])
    (hsink : (bodyStart m kind).sink.isNone = false)
    (htransfer : Transfers m kind chunks result r) :
    Ends kind.looksBefore (streamReachable m kind) chunks (bodyStart m kind) result r := by
  cases htransfer with
  | @curl _ res io text hnonempty hperform =>
      have hends := Curl.easyPerform_ends text chunks (curlStart m) hnonempty
        (curlStart_chosen m) hsink
      have hfirst := @Curl.easyPerform_first _ Curl.CURLE_OK _
          (Curl.TransferIO.init m.statusCode m.headers m.sinkFactory m.recvDataLength m.env)
          hchunks rfl
      rw [hperform] at hfirst
      unfold curlStart at hends
      rw [← hfirst] at hends
      exact hends
  | winHttp hdelivers hout =>
      have heq := WinHttp.readLoop_eq (WinHttp.createResponseSink m.statusCode
        m.sinkFactory m.headers m.env) hdelivers
      rw [hout] at heq
      exact WinHttp.received_ends heq.1 heq.2
  | winHttpAsync hdelivers hout =>
      have heq := WinHttp.onReplies_eq (WinHttp.createResponseSink m.statusCode
        m.sinkFactory m.headers m.env) hdelivers
      rw [hout] at heq
      exact WinHttp.received_ends heq.1 heq.2

/-- libcurl's callback stops a transfer that has no sink. -/
theorem transfers_null (hchunks : chunks ≠ [])
    (hsink : (curlStart m).reception.sink = none)
    (htransfer : Transfers m .Curl chunks result r) : exists te, result = .error te := by
  cases htransfer with
  | @curl _ res io text hnonempty hperform =>
      have hfirst := @Curl.easyPerform_first _ Curl.CURLE_OK _
          (Curl.TransferIO.init m.statusCode m.headers m.sinkFactory m.recvDataLength m.env)
          hchunks rfl
      have herror := Curl.easyPerform_null Curl.CURLE_OK hnonempty hchunks
        (curlStart_chosen m) hsink
      unfold curlStart at herror
      rw [← hfirst, hperform] at herror
      unfold Curl.transferResult
      rw [show res = Curl.CURLE_WRITE_ERROR from herror]
      exact ⟨_, rfl⟩

/-- A transfer into the transport's own stream is received, and spares the caller's. -/
theorem transfers_default (hchunks : chunks ≠ []) {env : σ}
    (hstart : bodyStart m kind = ⟨some (.default []), [], env⟩)
    (htransfer : Transfers m kind chunks result r) :
    SparesUser r ∧ exists response, result = .response response ∧
      (streamReachable m kind = true -> response.body = some chunks.flatten) := by
  have hends := transfers_ends hchunks (by rw [hstart]; rfl) htransfer
  rw [hstart] at hends
  rcases hends.received (Reception.refusalSeen_default ..) with
    ⟨response, hresult, hr, hbody⟩
  rw [Reception.writeAll_default] at hr
  refine ⟨?_, response, hresult, fun hreachable => ?_⟩
  · intro writer hsink
    rw [hr] at hsink
    cases hsink
  · rw [hbody, if_pos hreachable, hr]
    rfl

/-- A transfer into a writer that is received has offered it every chunk. -/
theorem transfers_user (hchunks : chunks ≠ []) {writer : ByteWriter σ} {env : σ}
    (hstart : bodyStart m kind = ⟨some (.user writer), [], env⟩)
    {response : ResponseMessage}
    (htransfer : Transfers m kind chunks (.response response) r) :
    r.sink = some (.user writer) ∧ r.writes.map Prod.fst = chunks := by
  have hends := transfers_ends hchunks (by rw [hstart]; rfl) htransfer
  rw [hstart] at hends
  cases hseen : Reception.refusalSeen kind.looksBefore chunks
      ⟨some (.user writer), [], env⟩ with
  | true =>
      rcases hends.refused hseen with ⟨te, herror⟩
      cases herror
  | false =>
      rcases hends.received hseen with ⟨_, _, hr, _⟩
      rcases Reception.writeAll_user writer chunks [] env with
        ⟨written, env', hall, hwritten, _⟩
      rw [hr, hall]
      exact ⟨rfl, hwritten⟩

theorem bodyStart_default (hstatus : isErrorStatus m.statusCode = true) :
    bodyStart m kind = ⟨some (.default []), [], m.env⟩ := by
  cases kind with
  | Curl => exact curlStart_default (Or.inl hstatus)
  | WinHttp => exact winHttpStart_default (Or.inl hstatus)
  | WinHttpAsync => exact winHttpStart_default (Or.inl hstatus)

theorem bodyStart_factory {factory : SinkFactory σ}
    (hstatus : isErrorStatus m.statusCode = false)
    (hfactory : m.sinkFactory = some factory) {writer : ByteWriter σ} {env : σ}
    (hcall : factory.call (kind.contentLength m) m.headers m.env =
      (some writer, env)) :
    bodyStart m kind = ⟨some (.user writer), [], env⟩ := by
  have hwinHttp : factory.call (WinHttp.contentLengthOf m.headers) m.headers m.env =
      (some writer, env) -> WinHttp.createResponseSink m.statusCode m.sinkFactory
        m.headers m.env = ⟨some (.user writer), [], env⟩ := by
    intro hcall
    simp only [WinHttp.createResponseSink, hstatus, hfactory, hcall]
  cases kind with
  | Curl => exact curlStart_factory hstatus hfactory hcall
  | WinHttp => exact hwinHttp hcall
  | WinHttpAsync => exact hwinHttp hcall

/-- WinHTTP puts a stream in the place of a sink that is null. -/
theorem bodyStart_null {factory : SinkFactory σ}
    (hstatus : isErrorStatus m.statusCode = false)
    (hfactory : m.sinkFactory = some factory) {env : σ}
    (hcall : factory.call (kind.contentLength m) m.headers m.env = (none, env)) :
    bodyStart m kind =
      ⟨if kind = .Curl then none else some (.default []), [], env⟩ := by
  have hwinHttp : factory.call (WinHttp.contentLengthOf m.headers) m.headers m.env =
      (none, env) -> WinHttp.createResponseSink m.statusCode m.sinkFactory
        m.headers m.env = ⟨some (.default []), [], env⟩ := by
    intro hcall
    simp only [WinHttp.createResponseSink, hstatus, hfactory, hcall]
  cases kind with
  | Curl => exact curlStart_factory hstatus hfactory hcall
  | WinHttp => exact hwinHttp hcall
  | WinHttpAsync => exact hwinHttp hcall

/-- Without a body there is nothing to put anywhere. -/
theorem transfers_empty (hstatus : isErrorStatus m.statusCode = true)
    {response : ResponseMessage}
    (htransfer : Transfers m kind [] (.response response) r) :
    SparesUser r ∧ response.body.getD [] = [] := by
  have hwinHttp : forall {out : WinHttp.Received σ},
      some out = some (.complete ((WinHttp.createResponseSink m.statusCode m.sinkFactory
        m.headers m.env).writeAll [])) ->
      SparesUser out.reception ∧ forall response,
        out.result m.statusCode m.headers m.sinkFactory = .response response ->
        response.body.getD [] = [] := by
    intro out hout
    cases hout
    rw [winHttpStart_default (Or.inl hstatus)]
    refine ⟨fun writer hsink => (by cases hsink), fun response hresponse => ?_⟩
    cases hresponse
    change (if _ then _ else none : Option ByteString).getD [] = []
    split
    · rfl
    · rfl
  generalize hresult : ResponseResult.response response = result at htransfer
  cases htransfer with
  | curl text _ hperform =>
      cases hperform
      cases hresult
      exact ⟨fun writer hsink => (by cases hsink), rfl⟩
  | winHttp hdelivers hout =>
      have heq := (WinHttp.readLoop_eq (WinHttp.createResponseSink m.statusCode
        m.sinkFactory m.headers m.env) hdelivers).2 rfl
      rw [hout] at heq
      exact ⟨(hwinHttp heq).1, (hwinHttp heq).2 response hresult.symm⟩
  | winHttpAsync hdelivers hout =>
      have heq := (WinHttp.onReplies_eq (WinHttp.createResponseSink m.statusCode
        m.sinkFactory m.headers m.env) hdelivers).2 rfl
      rw [hout] at heq
      exact ⟨(hwinHttp heq).1, (hwinHttp heq).2 response hresult.symm⟩

end transfer

/-!
# What the checks make of a response
-/

/-- The text of an error: the body, and without one what a header holds. -/
def errorText (p : Platform σ) (headers : HeaderCollection) (body : ByteString) :
    ByteString :=
  if body.isEmpty then
    match headers.find? (bytes "x-oss-err") with
    | some v => p.base64Decode v
    | none => body
  else body

/-- A response as the checks see it, before any of them has run. -/
def unchecked (response : ResponseMessage) (signingContext : SigningContext)
    (runtime : Runtime σ) : Checked σ :=
  ⟨response, signingContext, ErrorContext.empty, runtime⟩

theorem onClockSkewError_error (p : Platform σ) {c : Checked σ}
    (hstatus : c.response.statusCode = 0 ∨ c.errorContext.error.isError = true) :
    (onClockSkewError p c).1 = true ∧
      (onClockSkewError p c).2.errorContext.snapshot = c.errorContext.snapshot ∧
      (onClockSkewError p c).2.errorContext.errorFields = c.errorContext.errorFields ∧
      (onClockSkewError p c).2.errorContext.error.isError =
        c.errorContext.error.isError := by
  unfold onClockSkewError
  split
  · exact ⟨rfl, rfl, rfl, rfl⟩
  · rename_i hskew
    simp only
    split
    · exact ⟨rfl, rfl, rfl, rfl⟩
    · split
      · exact ⟨rfl, rfl, rfl, rfl⟩
      · refine ⟨rfl, rfl, rfl, ?_⟩
        have hcode : c.response.statusCode = 403 ∨ c.response.statusCode = 400 := by
          unfold isClockSkewError at hskew
          split at hskew
          · exact Or.inl ‹_›
          · split at hskew
            · exact Or.inr ‹_›
            · exact absurd rfl hskew
        rcases hcode with hcode | hcode
        · rw [hcode]
          exact (hstatus.resolve_left (by rw [hcode]; decide)).symm
        · rw [hcode]
          exact (hstatus.resolve_left (by rw [hcode]; decide)).symm

/-- Any other status makes an error of the text, but for the status zero. -/
theorem serviceChecks_error (base : ClientImplBase σ) {response : ResponseMessage}
    (hstatus : response.statusCode.tdiv 100 ≠ 2) (signingContext : SigningContext)
    (runtime : Runtime σ) :
    let after :=
      (runChecks (serviceChecks base) (unchecked response signingContext runtime))
    let text := errorText base.platform response.headers (response.body.getD [])
    after.errorContext.snapshot = text ∧
      after.errorContext.errorFields =
        serviceErrorFields base.platform response.headers text ∧
      after.errorContext.error.isError = decide (response.statusCode ≠ 0) := by
  have hnot : ¬ (unchecked response signingContext
      runtime).response.statusCode.tdiv 100 = 2 := hstatus
  obtain ⟨c, hc⟩ : exists c, c = (onPreServiceError base.platform
      (unchecked response signingContext runtime)).2 := ⟨_, rfl⟩
  have hpre : onPreServiceError base.platform
      (unchecked response signingContext runtime) = (true, c) := by
    rw [hc]
    unfold onPreServiceError
    rw [if_neg hnot]
  have hkept : c.response = response ∧
      c.errorContext.snapshot =
        errorText base.platform response.headers (response.body.getD []) ∧
      c.errorContext.errorFields = serviceErrorFields base.platform response.headers
        (errorText base.platform response.headers (response.body.getD [])) ∧
      c.errorContext.error = ErrorCode.server response.statusCode := by
    rw [hc]
    unfold onPreServiceError
    rw [if_neg hnot]
    exact ⟨rfl, rfl, rfl, rfl⟩
  rcases hkept with ⟨hresponse, hsnapshot, hfields, herror⟩
  have hisError : c.errorContext.error.isError = decide (response.statusCode ≠ 0) := by
    rw [herror]
    rfl
  have hskew := onClockSkewError_error base.platform (c := c) (by
    rw [hresponse, hisError]
    by_cases hzero : response.statusCode = 0
    · exact Or.inl hzero
    · exact Or.inr (decide_eq_true hzero))
  have hlast : forall c' : Checked σ, runChecks [onPostServiceError] c' = c' := by
    intro c'
    unfold runChecks onPostServiceError
    cases c'.errorContext.error.isError with
    | true => rfl
    | false => rfl
  intro after text
  cases hflag : base.hasFlag .CorrectClockSkew with
  | false =>
      have hafter : after = c := by
        change runChecks (serviceChecks base) _ = c
        unfold serviceChecks
        rw [hflag]
        change runChecks (onPreServiceError base.platform :: [onPostServiceError]) _ = c
        rw [runChecks, hpre]
        exact hlast c
      rw [hafter]
      exact ⟨hsnapshot, hfields, hisError⟩
  | true =>
      have hafter : after = (onClockSkewError base.platform c).2 := by
        change runChecks (serviceChecks base) _ = _
        unfold serviceChecks
        rw [hflag]
        change runChecks (onPreServiceError base.platform ::
          onClockSkewError base.platform :: [onPostServiceError]) _ = _
        rw [runChecks, hpre]
        simp only
        rw [runChecks]
        rcases hresult : onClockSkewError base.platform c with ⟨goOn, c'⟩
        rw [hresult] at hskew
        rw [show goOn = true from hskew.1]
        exact hlast c'
      rw [hafter]
      exact ⟨hskew.2.1.trans hsnapshot, hskew.2.2.1.trans hfields,
        hskew.2.2.2.trans hisError⟩

/-- An output has a successful status, or none at all. -/
theorem Runs.of_output_status {c : Sync.ClientImpl σ} {input : OperationInput σ}
    {opts : Option (OperationOptions σ)}
    {innerOpts : Option (OperationInnerOptions σ)} {w w' : Runtime σ}
    {kind : ClientKind} {sent : Option (Sync.Exchange σ)} {o : OperationOutput}
    (hown : forall o, innerOpts = some o -> o.onResponseMessage = [])
    (hrun : Runs c input opts innerOpts w kind sent (.output o) w') :
    o.statusCode.tdiv 100 = 2 ∨ o.statusCode = 0 := by
  rcases hrun.lastAttempt hown with ⟨_, e, herror⟩ |
    ⟨z, _, hchecks, hempty, _, hends⟩
  · cases herror
  · have hok : (c.attempt z).2.error.isError = false := by
      by_contra hnot
      rcases hends.error (by simpa using hnot) with ⟨e, he⟩
      cases he
    rcases attempt_success hchecks hok with
      ⟨y, r, env, hhands, hsame, ⟨request, hsend⟩, hresponse, _⟩
    have ho := (hends.success hok r hresponse).1
    cases ho
    by_contra hnot
    rw [not_or] at hnot
    cases attempt_attempted c z with
    | stopped y' hnone _ _ _ =>
        rw [hnone] at hhands
        cases hhands
    | sent y' hhands' hattempt herror _ =>
        rw [hhands'] at hhands
        cases hhands
        have hclean : y.context.errorContext = ErrorContext.empty := herror.trans hempty
        have hchecked := (serviceChecks_error c.toClientImplBase hnot.1
          y.context.signingContext { y.runtime with env := env }).2.2
        rw [unchecked, ← hclean, ← hchecks, ← hsame.onResponseMessage] at hchecked
        have hnone : y.context.errorContext.error.isError = false := by
          rw [hclean]
          rfl
        have hsent : (c.attempt z).2.error.isError = true := by
          rw [hattempt]
          simp only [Sync.ClientImpl.exchanged, hsend, Sync.receive, Sync.checkResponse,
            Sync.Exchange.error, Sync.Exchange.setEnv_context,
            Sync.Exchange.setEnv_runtime, hnone, Bool.false_eq_true, if_false]
          exact hchecked.trans (decide_eq_true hnot.2)
        rw [hsent] at hok
        cases hok

/-!
# What is reported
-/

/--
With a success the whole body has gone to the sink that the factory made.  With an
error of the service it has gone to no sink of the caller, and the error is made of it.
-/
structure ReportsBody (base : ClientImplBase σ) (m : BodyInput σ)
    (kind : HttpClientKind) (factory : SinkFactory σ) (chunks : List ByteString)
    (result : ResponseResult) (r : Reception σ) : Prop where
  success : forall response signingContext runtime, result = .response response ->
    (runChecks (serviceChecks base)
      (unchecked response signingContext runtime)).errorContext.error.isError = false ->
    chunks ≠ [] ->
    exists writer,
      (factory.call (kind.contentLength m) m.headers m.env).1 = some writer ∧
        r.sink = some (.user writer) ∧ r.writes.map Prod.fst = chunks
  serviceError : forall response signingContext runtime, result = .response response ->
    let after :=
      (runChecks (serviceChecks base)
        (unchecked response signingContext runtime)).errorContext
    let text := errorText base.platform m.headers chunks.flatten
    after.error.isError = true ->
    SparesUser r ∧ after.snapshot = text ∧
      after.errorFields = serviceErrorFields base.platform m.headers text

theorem serviceChecks_success (base : ClientImplBase σ) {response : ResponseMessage}
    (hstatus : response.statusCode.tdiv 100 = 2) (signingContext : SigningContext)
    (runtime : Runtime σ) :
    (runChecks (serviceChecks base)
      (unchecked response signingContext runtime)).errorContext.error.isError =
        false := by
  rw [serviceChecks_pass base rfl hstatus]
  rfl

theorem status_of_serviceError {response : ResponseMessage}
    {signingContext : SigningContext} {runtime : Runtime σ}
    (herror : (runChecks (serviceChecks base)
      (unchecked response signingContext runtime)).errorContext.error.isError = true) :
    response.statusCode.tdiv 100 ≠ 2 := by
  intro hstatus
  rw [serviceChecks_success base hstatus signingContext runtime] at herror
  cases herror

theorem status_of_success {response : ResponseMessage}
    {signingContext : SigningContext} {runtime : Runtime σ}
    (hzero : response.statusCode ≠ 0)
    (hsuccess : (runChecks (serviceChecks base)
      (unchecked response signingContext runtime)).errorContext.error.isError = false) :
    response.statusCode.tdiv 100 = 2 := by
  by_contra hnot
  have hchecks := (serviceChecks_error base hnot signingContext runtime).2.2
  rw [decide_eq_true hzero] at hchecks
  exact Bool.false_ne_true (hsuccess.symm.trans hchecks)

theorem isErrorStatus_of_tdiv {statusCode : Int} (hstatus : statusCode.tdiv 100 ≠ 2) :
    isErrorStatus statusCode = true := by
  unfold isErrorStatus
  rw [Bool.or_eq_true, bne_iff_ne]
  exact Or.inl hstatus

theorem isErrorStatus_success {statusCode : Int} (hstatus : statusCode.tdiv 100 = 2)
    (hother : statusCode ≠ 203) : isErrorStatus statusCode = false := by
  unfold isErrorStatus
  rw [hstatus, beq_eq_false_iff_ne.mpr hother]
  rfl

section reports

variable {base : ClientImplBase σ} {m : BodyInput σ} {kind : HttpClientKind}
variable {factory : SinkFactory σ} {chunks : List ByteString}
variable {result : ResponseResult} {r : Reception σ}

/-- The error of a response, whose body is in the stream that the response has. -/
theorem serviceError_of_body {response : ResponseMessage}
    (hheaders : response.headers = m.headers) (hspares : SparesUser r)
    (hbody : response.statusCode.tdiv 100 ≠ 2 ->
      response.body.getD [] = chunks.flatten)
    (signingContext : SigningContext) (runtime : Runtime σ) :
    let after :=
      (runChecks (serviceChecks base)
        (unchecked response signingContext runtime)).errorContext
    let text := errorText base.platform m.headers chunks.flatten
    after.error.isError = true ->
    SparesUser r ∧ after.snapshot = text ∧
      after.errorFields = serviceErrorFields base.platform m.headers text := by
  intro after text herror
  have hnot := status_of_serviceError herror
  have hchecks := serviceChecks_error base hnot signingContext runtime
  simp only [hbody hnot, hheaders] at hchecks
  exact ⟨hspares, hchecks.1, hchecks.2.1⟩

/-- A success whose body has gone to the transport's own stream. -/
theorem not_reportsBody_default (hchunks : chunks ≠ []) {env : σ}
    (hstart : bodyStart m kind = ⟨some (.default []), [], env⟩)
    (htransfer : Transfers m kind chunks result r)
    (hstatus : m.statusCode.tdiv 100 = 2 ∨ m.statusCode = 0) :
    ¬ ReportsBody base m kind factory chunks result r := by
  intro hreports
  rcases transfers_default hchunks hstart htransfer with
    ⟨hspares, response, hresult, _⟩
  rw [hresult] at htransfer
  have hcode := (transfers_fields htransfer).1
  have hsuccess : (runChecks (serviceChecks base) (unchecked response
      SigningContext.empty ⟨0, m.env⟩)).errorContext.error.isError = false := by
    rcases hstatus with hstatus | hzero
    · exact serviceChecks_success base (by rw [hcode]; exact hstatus) _ _
    · have hnot : response.statusCode.tdiv 100 ≠ 2 := by
        rw [hcode, hzero]
        decide
      have hchecks := (serviceChecks_error base hnot SigningContext.empty
        ⟨0, m.env⟩).2.2
      rw [hcode, hzero] at hchecks
      exact hchecks
  rcases hreports.success response _ _ hresult hsuccess hchunks with
    ⟨writer, _, hsink, _⟩
  exact hspares writer hsink

/-- The stream of an error can be read through the response. -/
theorem streamReachable_error (kind : HttpClientKind)
    (hstatus : isErrorStatus m.statusCode = true) : streamReachable m kind = true := by
  cases kind with
  | Curl => rfl
  | WinHttp | WinHttpAsync =>
      change (isErrorStatus m.statusCode || _) = true
      rw [hstatus]
      rfl

/--
The reports agree with where the body goes unless a 203 has a body, whose sink the
transport takes for that of an error and the checks do not; or a WinHTTP transport has
no sink for the body of a success.
-/
theorem reportsBody_iff (hfactory : m.sinkFactory = some factory)
    (htransfer : Transfers m kind chunks result r) :
    ReportsBody base m kind factory chunks result r ↔
      chunks = [] ∨
        (m.statusCode ≠ 203 ∧ m.statusCode ≠ 0 ∧
          (kind = .Curl ∨ isErrorStatus m.statusCode = true ∨
            (factory.call (kind.contentLength m) m.headers m.env).1.isSome =
              true)) := by
  rcases hcall : factory.call (kind.contentLength m) m.headers m.env with ⟨sink, env⟩
  constructor
  · intro hreports
    by_contra hnot
    rw [not_or] at hnot
    rcases hnot with ⟨hchunks, hnot⟩
    by_cases h203 : m.statusCode = 203
    · exact not_reportsBody_default hchunks
        (bodyStart_default (by rw [h203]; decide)) htransfer
        (Or.inl (by rw [h203]; decide)) hreports
    · by_cases hzero : m.statusCode = 0
      · exact not_reportsBody_default hchunks
          (bodyStart_default (by rw [hzero]; decide)) htransfer (Or.inr hzero) hreports
      · have hwinHttp : ¬ (kind = .Curl ∨ isErrorStatus m.statusCode = true ∨
            sink.isSome = true) := fun h => hnot ⟨h203, hzero, h⟩
        simp only [not_or, Bool.not_eq_true] at hwinHttp
        rcases hwinHttp with ⟨hkind, hstatus, hsink⟩
        rw [Option.isSome_eq_false_iff, Option.isNone_iff_eq_none] at hsink
        rw [hsink] at hcall
        have hstart := bodyStart_null hstatus hfactory hcall
        rw [if_neg hkind] at hstart
        have h2xx : m.statusCode.tdiv 100 = 2 := by
          by_contra h
          rw [isErrorStatus_of_tdiv h] at hstatus
          cases hstatus
        exact not_reportsBody_default hchunks hstart htransfer (Or.inl h2xx) hreports
  · intro hwhen
    constructor
    · intro response signingContext runtime hresult hsuccess hchunks
      rcases hwhen.resolve_left hchunks with ⟨h203, hzero, hsink⟩
      rw [hresult] at htransfer
      have hcode := (transfers_fields htransfer).1
      rw [← hcode] at hzero
      have h2xx := status_of_success hzero hsuccess
      rw [hcode] at h2xx
      have hstatus := isErrorStatus_success h2xx h203
      cases sink with
      | none =>
          have hkind : kind = .Curl := by
            rcases hsink with hkind | herror | hsome
            · exact hkind
            · rw [hstatus] at herror
              cases herror
            · cases hsome
          subst hkind
          have hstart : (curlStart m).reception.sink = none :=
            congrArg Reception.sink (bodyStart_null hstatus hfactory hcall)
          rcases transfers_null hchunks hstart htransfer with ⟨te, herror⟩
          cases herror
      | some writer =>
          exact ⟨writer, by rw [hcall],
            transfers_user hchunks (bodyStart_factory hstatus hfactory hcall) htransfer⟩
    · intro response signingContext runtime hresult
      rw [hresult] at htransfer
      rcases transfers_fields htransfer with ⟨hcode, hheaders⟩
      intro after text herror
      have hstatus : isErrorStatus m.statusCode = true := by
        rw [← hcode]
        exact isErrorStatus_of_tdiv (status_of_serviceError herror)
      by_cases hchunks : chunks = []
      · subst hchunks
        rcases transfers_empty hstatus htransfer with ⟨hspares, hbody⟩
        exact @serviceError_of_body _ base m [] _ _ hheaders hspares (fun _ => hbody)
          signingContext runtime herror
      · rcases transfers_default hchunks (bodyStart_default hstatus) htransfer with
          ⟨hspares, response', hresponse, hbody⟩
        cases hresponse
        have hreachable := streamReachable_error kind hstatus
        exact serviceError_of_body hheaders hspares
          (fun _ => by rw [hbody hreachable]; rfl) signingContext runtime herror

end reports

theorem reportsBody_iff_intoBuffer :
    exists factory result r, (intoBuffer 6).sinkFactory = some factory ∧
      Transfers (intoBuffer 6) .WinHttp twoChunks result r ∧
      (ReportsBody (anonymousBase MemoryWriterState) (intoBuffer 6) .WinHttp factory
        twoChunks result r ↔
        twoChunks = [] ∨
          ((200 : Int) ≠ 203 ∧ (200 : Int) ≠ 0 ∧
            (HttpClientKind.WinHttp = .Curl ∨ isErrorStatus 200 = true ∨
              (factory.call (-1) SortedMap.empty (intoBuffer 6).env).1.isSome =
                true))) := by
  have hdelivers : WinHttp.Delivers 0
      [.dataAvailable 6, .readComplete [1, 2, 3], .readComplete [4, 5, 6],
        .dataAvailable 0] twoChunks :=
    .available (by decide)
      (.read (by decide) (by decide) (.read (by decide) (by decide) .done))
  have htransfer := Transfers.winHttp (m := intoBuffer 6) hdelivers rfl
  exact ⟨_, _, _, rfl, htransfer, reportsBody_iff rfl htransfer⟩

/-- Non-authoritative information, with a body and a buffer of the caller. -/
def nonAuthoritative : BodyInput MemoryWriterState :=
  { intoBuffer 6 with statusCode := 203 }

/-- The body is in a stream of the response, the call a success. -/
theorem not_reportsBody_nonAuthoritative :
    exists factory result r, nonAuthoritative.sinkFactory = some factory ∧
      Transfers nonAuthoritative .Curl twoChunks result r ∧
      ¬ ReportsBody (anonymousBase MemoryWriterState) nonAuthoritative .Curl factory
        twoChunks result r := by
  have hnonempty : forall chunk, chunk ∈ twoChunks -> chunk ≠ [] := by decide
  rcases hperform : Curl.easyPerform Curl.CURLE_OK twoChunks
      (Curl.TransferIO.init 203 SortedMap.empty (intoBuffer 6).sinkFactory (-1)
        (intoBuffer 6).env) with ⟨res, io⟩
  have htransfer := Transfers.curl (m := nonAuthoritative) [] hnonempty hperform
  refine ⟨_, _, _, rfl, htransfer, ?_⟩
  have hstart : bodyStart nonAuthoritative .Curl = ⟨some (.default []), [],
      nonAuthoritative.env⟩ := bodyStart_default rfl
  exact not_reportsBody_default (by decide) hstart htransfer (Or.inl rfl)

end Internal
end OssSdk
