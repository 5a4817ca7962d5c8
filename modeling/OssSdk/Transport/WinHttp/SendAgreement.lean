import OssSdk.Transport.WinHttp.BodyAgreement

/-!
# The two clients of WinHTTP

A request goes out on a connection to which the same happens whichever client sends it.
-/

namespace OssSdk
namespace Transport
namespace WinHttp

open Foundation

variable {ρ σ : Type} {input : SendInput ρ σ}

/-- The same is returned and in the sink, and a call that fails is an error. -/
structure Agrees (notices : List Notice) (f : SendFrame ρ σ) (notices' : List Notice)
    (ctx : AsyncRequestContext ρ σ) : Prop where
  outcome : exists result result', f.wait = .Returned result ∧
    ctx.finish = some result' ∧ SameOutcome result result'
  sink : f.rs = ctx.rs
  reported : Failing notices -> exists te, f.wait = .Returned (.error te)
  reportedAsync : Failing notices' -> exists te, ctx.finish = some (.error te)

/-- The body of the response is intact, if the request gets as far as its headers. -/
def IntactResponse (input : SendInput ρ σ) : List Happening -> Prop
  | .completed :: rest => IntactResponse input rest
  | .headers statusCode headers :: rest =>
      Intact (createResponseSink statusCode input.sinkFactory headers input.env) rest
  | _ => True

/-- The source of the body of the request fails before its end. -/
def UnreadableBody : Option (ByteSource ρ × ρ) -> Prop
  | some (source, r) => source.Unreadable kWriteBufferLength r
  | none => False

/-!
# Before the response
-/

/--
The clients in the same wait before the headers, or after the same error.  `holds` is
what is still to be shown of the request.
-/
inductive Together (input : SendInput ρ σ) (holds : Prop) :
    SendFrame ρ σ -> AsyncRequestContext ρ σ -> List Happening -> Prop where
  | sendRequest {f : SendFrame ρ σ} {ctx : AsyncRequestContext ρ σ}
      {script : List Happening} :
      f.wait = .SendRequest -> ctx.state = .SendRequest -> f.rs = none ->
      ctx.rs = none -> ctx.error = none -> ctx.source = input.uploadSource ->
      ctx.contentLength = resolveContentLength input.headers input.body ->
      (holds ↔ UnreadableBody input.uploadSource ∨ IntactResponse input script) ->
      Together input holds f ctx script
  | writeBody {f : SendFrame ρ σ} {ctx : AsyncRequestContext ρ σ}
      {script : List Happening} :
      f.wait = .WriteData ctx.buffer -> ctx.state = .WriteBody -> f.rs = none ->
      ctx.rs = none -> ctx.error = none -> f.source = ctx.source ->
      (holds ↔ UnreadableBody ctx.source ∨ IntactResponse input script) ->
      Together input holds f ctx script
  | receiveResponse {f : SendFrame ρ σ} {ctx : AsyncRequestContext ρ σ}
      {script : List Happening} :
      f.wait = .ReceiveResponse -> ctx.state = .ReceiveResponse -> f.rs = none ->
      ctx.rs = none -> ctx.error = none ->
      (holds ↔ IntactResponse input script) ->
      Together input holds f ctx script
  | failed {f : SendFrame ρ σ} {ctx : AsyncRequestContext ρ σ}
      {script : List Happening} {te te' : TransportError} :
      f.wait = .Returned (.error te) -> ctx.state = .CloseHandle ->
      ctx.error = some te' -> te.error = te'.error -> f.rs = none -> ctx.rs = none ->
      holds -> Together input holds f ctx script

variable {holds : Prop}

/-- Both read the next buffer of the body, or find that there is none. -/
theorem together_writeBody {f : SendFrame ρ σ} {ctx : AsyncRequestContext ρ σ}
    {script : List Happening} (hstate : ctx.state = .WriteBody) (hsink : f.rs = none)
    (hsink' : ctx.rs = none) (herror : ctx.error = none) (hsource : f.source = ctx.source)
    (hholds : holds ↔ UnreadableBody ctx.source ∨ IntactResponse input script) :
    Together input holds (WinHttpClient.writeBody f) ctx.writeNextChunk script := by
  unfold WinHttpClient.writeBody AsyncRequestContext.writeNextChunk
  rw [hsource]
  cases hcase : ctx.source with
  | none =>
      rw [hcase] at hholds
      refine .receiveResponse rfl rfl hsink hsink' herror ?_
      rw [hholds]
      exact ⟨fun h => h.resolve_left id, Or.inr⟩
  | some spanned =>
      rcases spanned with ⟨source, r⟩
      rw [hcase] at hholds
      simp only
      split
      · rename_i hfailed
        exact .failed rfl rfl rfl rfl hsink hsink'
          (hholds.mpr (Or.inl (.here hfailed.1 hfailed.2)))
      · rename_i hread
        have hunreadable := ByteSource.unreadable_iff hread
        change holds ↔ source.Unreadable _ r ∨ _ at hholds
        rw [hunreadable] at hholds
        split
        · rename_i hended
          refine .receiveResponse rfl rfl hsink hsink' herror ?_
          rw [hholds]
          exact ⟨fun h => h.resolve_left fun hlater => hlater.1 hended, Or.inr⟩
        · rename_i hbuffer
          refine .writeBody rfl hstate hsink hsink' herror rfl ?_
          rw [hholds]
          exact or_congr (and_iff_right hbuffer) Iff.rfl

theorem error_of_failed {expected : CallbackStatus} {failure : Failure}
    {action : WinHttpAction}
    (hwait : waitForAction expected (.failed failure) = some (false, action)) :
    (WinHttpClient.makeWaitError input false action).error =
      (AsyncRequestContext.failureError input failure).error := by
  rcases waitForAction_failed expected failure with ⟨action', hwaited, htimeout⟩
  rw [hwait] at hwaited
  cases hwaited
  unfold WinHttpClient.makeWaitError
  rw [if_neg Bool.false_ne_true]
  cases failure with
  | refused lastError =>
      have hnot : action.error ≠ ERROR_WINHTTP_TIMEOUT := by
        intro h
        rcases htimeout.mp h with ⟨_, h, _⟩
        cases h
      rw [if_neg hnot]
      rfl
  | requestError dwError =>
      unfold AsyncRequestContext.failureError
      by_cases hcode : dwError.code = ERROR_WINHTTP_TIMEOUT
      · rw [if_pos (htimeout.mpr ⟨dwError, rfl, hcode⟩)]
        simp only [if_pos hcode]
        rfl
      · have hnot : action.error ≠ ERROR_WINHTTP_TIMEOUT := by
          intro h
          rcases htimeout.mp h with ⟨_, heq, h⟩
          cases heq
          exact hcode h
        rw [if_neg hnot]
        simp only [if_neg hcode]
        rfl

/-- `send` waits for something before the headers. -/
def Opening (f : SendFrame ρ σ) : Prop :=
  f.wait = .SendRequest ∨ (exists buffer, f.wait = .WriteData buffer) ∨
    f.wait = .ReceiveResponse

theorem resume_failed {f : SendFrame ρ σ} (hopening : Opening f) (failure : Failure) :
    exists te, (WinHttpClient.caller input).resume f (.failed failure) =
        WinHttpClient.returned f te ∧
      te.error = (AsyncRequestContext.failureError input failure).error := by
  have hfailed : forall expected, exists action,
      waitForAction expected (.failed failure) = some (false, action) := by
    intro expected
    rcases waitForAction_failed expected failure with ⟨action, hwaited, _⟩
    exact ⟨action, hwaited⟩
  rw [WinHttpClient.caller_resume]
  unfold WinHttpClient.resume
  rcases hopening with hwait | ⟨buffer, hwait⟩ | hwait
  · rcases hfailed .SENDREQUEST_COMPLETE with ⟨action, hwaited⟩
    simp only [hwait, hwaited]
    exact ⟨_, rfl, error_of_failed hwaited⟩
  · rcases hfailed .WRITE_COMPLETE with ⟨action, hwaited⟩
    simp only [hwait, hwaited]
    exact ⟨_, rfl, error_of_failed hwaited⟩
  · rcases hfailed .HEADERS_AVAILABLE with ⟨action, hwaited⟩
    simp only [hwait, hwaited]
    exact ⟨_, rfl, error_of_failed hwaited⟩

theorem answers_failed {failure : Failure} {rest script : List Happening} {call : Call}
    {notice : Notice} (hcall : call ≠ .QueryDataAvailable)
    (hanswer : Answers (.failed failure :: rest) call notice script) :
    notice = .failed failure := by
  cases hanswer with
  | queryFailing _ => exact absurd rfl hcall
  | failed => rfl

/-- Only a query has a choice of answers. -/
theorem answers_unique {script v w : List Happening} {call : Call} {a b : Notice}
    (hcall : call ≠ .QueryDataAvailable) (ha : Answers script call a v)
    (hb : Answers script call b w) : a = b ∧ v = w := by
  cases ha with
  | queryChunk _ => exact absurd rfl hcall
  | queryFailing _ => exact absurd rfl hcall
  | queryEnded => exact absurd rfl hcall
  | failed =>
      cases hb with
      | queryFailing _ => exact absurd rfl hcall
      | failed => exact ⟨rfl, rfl⟩
  | _ =>
      cases hb
      exact ⟨rfl, rfl⟩

/-- A failure before the headers is an error of both. -/
theorem agrees_of_failure {f t : SendFrame ρ σ} {ctx t' : AsyncRequestContext ρ σ}
    {failure : Failure} {rest : List Happening} {notices notices' : List Notice}
    {call call' : Call} (hopening : Opening f) (hstate : ctx.state ≠ .CloseHandle)
    (hcall : WinHttpClient.call f = some call) (hcall' : ctx.call = some call')
    (hquery : call ≠ .QueryDataAvailable) (hquery' : call' ≠ .QueryDataAvailable)
    (hsink : f.rs = none) (hsink' : ctx.rs = none)
    (hsync : Converses (WinHttpClient.caller input) Answers f (.failed failure :: rest)
      notices t)
    (hasync : Converses (AsyncRequestContext.caller input) Answers ctx
      (.failed failure :: rest) notices' t') : Agrees notices t notices' t' := by
  rcases hsync.of_call_some hcall with ⟨notice, _, _, _, hanswer, hrest⟩
  rcases hasync.of_call_some hcall' with ⟨notice', _, _, _, hanswer', hrest'⟩
  rcases resume_failed hopening failure with ⟨te, hresume, hte⟩
  rw [answers_failed hquery hanswer, hresume] at hrest
  rw [answers_failed hquery' hanswer', AsyncRequestContext.caller_resume,
    AsyncRequestContext.onStatus_failed hstate] at hrest'
  rcases hrest.of_call_none rfl with ⟨_, ht⟩
  rcases hrest'.of_call_none rfl with ⟨_, ht'⟩
  rw [ht, ht']
  constructor
  · exact ⟨_, _, rfl, rfl, hte⟩
  · exact hsink.trans hsink'.symm
  · exact fun _ => ⟨_, rfl⟩
  · exact fun _ => ⟨_, rfl⟩

/-!
# The response
-/

theorem createResponseSink_sink (statusCode : Int) (factory : Option (SinkFactory σ))
    (headers : HeaderCollection) (env : σ) :
    (createResponseSink statusCode factory headers env).sink.isSome = true := by
  unfold createResponseSink
  split
  · split
    · rfl
    · rfl
  · rfl

/-- From the headers on the clients agree if the body is intact. -/
theorem agrees_iff_intact {f t : SendFrame ρ σ} {ctx t' : AsyncRequestContext ρ σ}
    {r : Reception σ} {script : List Happening} {notices notices' : List Notice}
    (hwait : f.wait = .QueryDataAvailable) (hstate : ctx.state = .QueryData)
    (hrs : f.rs = some r) (hrs' : ctx.rs = some r) (hsink : r.sink.isSome = true)
    (herror : ctx.error = none) (hstatus : f.statusCode = ctx.statusCode)
    (hheaders : f.headers = ctx.headers)
    (hsync : Converses (WinHttpClient.caller input) Answers f script notices t)
    (hasync : Converses (AsyncRequestContext.caller input) Answers ctx script
      notices' t') : Agrees notices t notices' t' ↔ Intact r script := by
  rcases WinHttpClient.receivesSync_of_converses (Or.inl hwait) hrs hsync with
    ⟨failing, out, hreceives, hreturned, hsinkSync, hfailing⟩
  rcases AsyncRequestContext.ends_receivedAsync hstate hrs' herror hasync with
    ⟨hfinish, hsinkAsync, hreported⟩
  rw [← @bodyAgrees_iff _ _ input _ _ _ _ hsink hreceives f.statusCode f.headers]
  rw [← hstatus, ← hheaders] at hfinish
  constructor
  · intro hagrees
    constructor
    · rcases hagrees.outcome with ⟨result, result', hresult, hresult', hsame⟩
      rw [hreturned] at hresult
      rw [hfinish] at hresult'
      cases hresult
      cases hresult'
      exact hsame
    · have hsame := hagrees.sink
      rw [hsinkSync, hsinkAsync] at hsame
      exact Option.some.inj hsame
    · intro hmet
      rcases hagrees.reported (hfailing.mp hmet) with ⟨te, herr⟩
      rw [hreturned] at herr
      cases out with
      | complete r' => cases herr
      | error te' r' => exact ⟨te', r', rfl⟩
  · intro hagrees
    constructor
    · exact ⟨_, _, hreturned, hfinish, hagrees.outcome⟩
    · rw [hsinkSync, hsinkAsync, hagrees.sink]
    · intro hmet
      rcases hagrees.reported (hfailing.mpr hmet) with ⟨te, r', hout⟩
      rw [hreturned, hout]
      exact ⟨te, rfl⟩
    · intro hmet
      rcases hreported hmet with ⟨te, r', hout⟩
      rw [hfinish, hout]
      exact ⟨te, rfl⟩

/-!
# Whole requests
-/

theorem agrees_cons {notice : Notice} {notices notices' : List Notice}
    {t : SendFrame ρ σ} {t' : AsyncRequestContext ρ σ}
    (hnotice : forall failure, notice ≠ .failed failure) :
    Agrees (notice :: notices) t (notice :: notices') t' ↔
      Agrees notices t notices' t' := by
  constructor
  · intro hagrees
    exact ⟨hagrees.outcome, hagrees.sink,
      fun h => hagrees.reported ((failing_cons hnotice).mpr h),
      fun h => hagrees.reportedAsync ((failing_cons hnotice).mpr h)⟩
  · intro hagrees
    exact ⟨hagrees.outcome, hagrees.sink,
      fun h => hagrees.reported ((failing_cons hnotice).mp h),
      fun h => hagrees.reportedAsync ((failing_cons hnotice).mp h)⟩

theorem resume_sent {f : SendFrame ρ σ} {ctx : AsyncRequestContext ρ σ}
    {script : List Happening} (hwait : f.wait = .SendRequest)
    (hstate : ctx.state = .SendRequest) (hsink : f.rs = none) (hsink' : ctx.rs = none)
    (herror : ctx.error = none) (hsource : ctx.source = input.uploadSource)
    (hlength : ctx.contentLength = resolveContentLength input.headers input.body)
    (hholds : holds ↔
      UnreadableBody input.uploadSource ∨ IntactResponse input script) :
    Together input holds
      ((WinHttpClient.caller input).resume f .sendRequestComplete)
      ((AsyncRequestContext.caller input).resume ctx .sendRequestComplete) script := by
  have hf : (WinHttpClient.caller input).resume f .sendRequestComplete =
      WinHttpClient.writeBody { f with source := input.uploadSource } := by
    rw [WinHttpClient.caller_resume]
    unfold WinHttpClient.resume
    simp only [hwait]
    rfl
  have hctx : (AsyncRequestContext.caller input).resume ctx .sendRequestComplete =
      ctx.onSendComplete := by
    rw [AsyncRequestContext.caller_resume]
    unfold AsyncRequestContext.onStatus
    simp only [hstate]
    rfl
  rw [hf, hctx]
  unfold AsyncRequestContext.onSendComplete
  by_cases hupload : ctx.source.isSome ∧ 0 < ctx.contentLength
  · rw [if_pos hupload]
    rw [← hsource] at hholds
    exact together_writeBody rfl hsink hsink' herror hsource.symm hholds
  · rw [if_neg hupload]
    have hnone : input.uploadSource = none := by
      rw [hsource, hlength] at hupload
      cases hcase : input.uploadSource with
      | none => rfl
      | some spanned =>
          have hpositive : 0 < resolveContentLength input.headers input.body := by
            by_contra hnot
            unfold SendInput.uploadSource at hcase
            rw [if_neg hnot] at hcase
            cases hcase
          rw [hcase] at hupload
          exact absurd ⟨rfl, hpositive⟩ hupload
    rw [hnone] at hholds ⊢
    refine .receiveResponse rfl rfl hsink hsink' herror ?_
    rw [hholds]
    exact ⟨fun h => h.resolve_left id, Or.inr⟩

theorem resume_written {f : SendFrame ρ σ} {ctx : AsyncRequestContext ρ σ}
    {script : List Happening} (hwait : f.wait = .WriteData ctx.buffer)
    (hstate : ctx.state = .WriteBody) (hsink : f.rs = none) (hsink' : ctx.rs = none)
    (herror : ctx.error = none) (hsource : f.source = ctx.source)
    (hholds : holds ↔ UnreadableBody ctx.source ∨ IntactResponse input script) :
    Together input holds ((WinHttpClient.caller input).resume f .writeComplete)
      ((AsyncRequestContext.caller input).resume ctx .writeComplete) script := by
  have hf : (WinHttpClient.caller input).resume f .writeComplete =
      WinHttpClient.writeBody f := by
    rw [WinHttpClient.caller_resume]
    unfold WinHttpClient.resume
    simp only [hwait]
    rfl
  have hctx : (AsyncRequestContext.caller input).resume ctx .writeComplete =
      ctx.writeNextChunk := by
    rw [AsyncRequestContext.caller_resume]
    unfold AsyncRequestContext.onStatus
    simp only [hstate]
    rfl
  rw [hf, hctx]
  exact together_writeBody hstate hsink hsink' herror hsource hholds

/-- After the wait for the response both have the headers, and the sink for the body. -/
theorem agrees_receiveResponse {f t : SendFrame ρ σ} {ctx t' : AsyncRequestContext ρ σ}
    {script : List Happening} {notices notices' : List Notice}
    (hwait : f.wait = .ReceiveResponse) (hstate : ctx.state = .ReceiveResponse)
    (hsink : f.rs = none) (hsink' : ctx.rs = none) (herror : ctx.error = none)
    (hsync : Converses (WinHttpClient.caller input) Answers f script notices t)
    (hasync : Converses (AsyncRequestContext.caller input) Answers ctx script
      notices' t') :
    Agrees notices t notices' t' ↔ IntactResponse input script := by
  have hcall : (WinHttpClient.caller input).call f = some .ReceiveResponse := by
    change WinHttpClient.call f = _
    unfold WinHttpClient.call
    rw [hwait]
  have hcall' : (AsyncRequestContext.caller input).call ctx = some .ReceiveResponse := by
    change ctx.call = _
    unfold AsyncRequestContext.call
    rw [hstate]
  rcases hsync.of_call_some hcall with ⟨_, tail, _, hnotices, hanswer, hrest⟩
  rcases hasync.of_call_some hcall' with ⟨_, tail', _, hnotices', hanswer', hrest'⟩
  cases hanswer with
  | @receiveResponse statusCode headers rest =>
      cases hanswer'
      have hf : (WinHttpClient.caller input).resume f
          (.headersAvailable statusCode headers) =
          { f with
            wait := .QueryDataAvailable
            statusCode := statusCode
            headers := headers
            rs := some (createResponseSink statusCode input.sinkFactory headers
              input.env) } := by
        rw [WinHttpClient.caller_resume]
        unfold WinHttpClient.resume
        simp only [hwait]
        rfl
      have hctx : (AsyncRequestContext.caller input).resume ctx
          (.headersAvailable statusCode headers) =
          ctx.onHeadersAvailable input statusCode headers := by
        rw [AsyncRequestContext.caller_resume]
        unfold AsyncRequestContext.onStatus
        simp only [hstate]
        rfl
      rw [hf] at hrest
      rw [hctx] at hrest'
      rw [hnotices, hnotices', agrees_cons (fun _ h => by cases h)]
      exact @agrees_iff_intact _ _ _ _ _
          (ctx.onHeadersAvailable input statusCode headers) _ _ _ _ _ rfl rfl rfl
          rfl
          (createResponseSink_sink statusCode input.sinkFactory headers input.env)
          herror rfl rfl hrest hrest'
  | @failed _ failure rest =>
      have hagrees := agrees_of_failure (Or.inr (Or.inr hwait))
        (by rw [hstate]; exact fun h => by cases h) hcall hcall' (fun h => by cases h)
        (fun h => by cases h) hsink hsink' hsync hasync
      exact ⟨fun _ => trivial, fun _ => hagrees⟩

/-- A call before the headers that both make fails for both, or they stay together. -/
theorem lockstep_of_call {f : SendFrame ρ σ} {ctx : AsyncRequestContext ρ σ}
    {script : List Happening} {call : Call} {unreadable : Prop} (hopening : Opening f)
    (hstate : ctx.state ≠ .CloseHandle) (hcall : WinHttpClient.call f = some call)
    (hcall' : ctx.call = some call) (hquery : call ≠ .QueryDataAvailable)
    (hsink : f.rs = none) (hsink' : ctx.rs = none)
    (hholds : holds ↔ unreadable ∨ IntactResponse input script)
    (hnext : forall notice rest, Answers script call notice rest ->
      (forall failure, notice ≠ .failed failure) ->
        Together input holds ((WinHttpClient.caller input).resume f notice)
          ((AsyncRequestContext.caller input).resume ctx notice) rest) :
    (forall notices t notices' t',
      Converses (WinHttpClient.caller input) Answers f script notices t ->
        Converses (AsyncRequestContext.caller input) Answers ctx script notices' t' ->
          (Agrees notices t notices' t' ↔ holds)) ∨
      exists c, (WinHttpClient.caller input).call f = some c ∧
        (AsyncRequestContext.caller input).call ctx = some c ∧
        (forall a w b w', Answers script c a w -> Answers script c b w' ->
          a = b ∧ w = w') ∧
        forall a w, Answers script c a w ->
          (forall failure, a ≠ .failed failure) ∧
            Together input holds ((WinHttpClient.caller input).resume f a)
              ((AsyncRequestContext.caller input).resume ctx a) w := by
  by_cases hfailure : exists failure rest, script = .failed failure :: rest
  · left
    intro notices t notices' t' hsync hasync
    rcases hfailure with ⟨failure, rest, hscript⟩
    rw [hscript] at hholds hsync hasync
    have hagrees := agrees_of_failure hopening hstate hcall hcall' hquery hquery hsink
      hsink' hsync hasync
    exact ⟨fun _ => hholds.mpr (Or.inr trivial), fun _ => hagrees⟩
  · right
    refine ⟨call, hcall, hcall', fun _ _ _ _ => answers_unique hquery, ?_⟩
    intro notice rest hanswer
    have hgood : forall failure, notice ≠ .failed failure := by
      intro failure hnotice
      rw [hnotice] at hanswer
      cases hanswer with
      | failed => exact hfailure ⟨_, _, rfl⟩
    exact ⟨hgood, hnext notice rest hanswer hgood⟩

/-- The clients stay together up to the headers, or to the error of both. -/
theorem together_agrees {f t : SendFrame ρ σ} {ctx t' : AsyncRequestContext ρ σ}
    {script : List Happening} {notices notices' : List Notice}
    (htogether : Together input holds f ctx script)
    (hsync : Converses (WinHttpClient.caller input) Answers f script notices t)
    (hasync : Converses (AsyncRequestContext.caller input) Answers ctx script
      notices' t') :
    Agrees notices t notices' t' ↔ holds := by
  refine Converses.lockstep (R := Together input holds)
    (Q := fun notices t notices' t' => Agrees notices t notices' t' ↔ holds)
    (S := fun notice => forall failure, notice ≠ .failed failure) ?_ ?_
    htogether hsync hasync
  · intro f ctx script htogether
    cases htogether with
    | sendRequest hwait hstate hsink hsink' herror hsource hlength hholds =>
        have hcall : WinHttpClient.call f = some .SendRequest := by
          unfold WinHttpClient.call
          rw [hwait]
        have hcall' : ctx.call = some .SendRequest := by
          unfold AsyncRequestContext.call
          rw [hstate]
        refine lockstep_of_call (Or.inl hwait) (by rw [hstate]; exact fun h => by cases h)
          hcall hcall' (fun h => by cases h) hsink hsink' hholds ?_
        intro notice rest hanswer hgood
        cases hanswer with
        | sendRequest =>
            exact resume_sent hwait hstate hsink hsink' herror hsource hlength hholds
        | failed => exact absurd rfl (hgood _)
    | writeBody hwait hstate hsink hsink' herror hsource hholds =>
        have hcall : WinHttpClient.call f = some (.WriteData ctx.buffer) := by
          unfold WinHttpClient.call
          rw [hwait]
        have hcall' : ctx.call = some (.WriteData ctx.buffer) := by
          unfold AsyncRequestContext.call
          rw [hstate]
        refine lockstep_of_call (Or.inr (Or.inl ⟨_, hwait⟩))
          (by rw [hstate]; exact fun h => by cases h) hcall hcall' (fun h => by cases h)
          hsink hsink' hholds ?_
        intro notice rest hanswer hgood
        cases hanswer with
        | writeData => exact resume_written hwait hstate hsink hsink' herror hsource hholds
        | failed => exact absurd rfl (hgood _)
    | receiveResponse hwait hstate hsink hsink' herror hholds =>
        left
        intro notices t notices' t' hsync hasync
        rw [hholds]
        exact agrees_receiveResponse hwait hstate hsink hsink' herror hsync hasync
    | failed hwait hstate herror hsame hsink hsink' hholds =>
        left
        intro notices t notices' t' hsync hasync
        have hcall : (WinHttpClient.caller input).call f = none := by
          change WinHttpClient.call f = _
          unfold WinHttpClient.call
          rw [hwait]
        have hcall' : (AsyncRequestContext.caller input).call ctx = none := by
          change ctx.call = _
          unfold AsyncRequestContext.call
          rw [hstate]
        have hfinish : forall te', ctx.error = some te' ->
            ctx.finish = some (.error te') := by
          intro te' herror
          unfold AsyncRequestContext.finish
          rw [hstate, herror]
        rcases hsync.of_call_none hcall with ⟨_, ht⟩
        rcases hasync.of_call_none hcall' with ⟨_, ht'⟩
        rw [ht, ht']
        have hagrees : Agrees notices f notices' ctx := by
          constructor
          · exact ⟨_, _, hwait, hfinish _ herror, hsame⟩
          · exact hsink.trans hsink'.symm
          · exact fun _ => ⟨_, hwait⟩
          · exact fun _ => ⟨_, hfinish _ herror⟩
        exact ⟨fun _ => hholds, fun _ => hagrees⟩
  · intro notice notices t notices' t' hnotice hagrees
    rw [agrees_cons hnotice]
    exact hagrees

/--
The clients agree, and report what fails, unless in a body that the sink accepts some
query or read fails, or a read finds nothing while there is more to come.
-/
theorem sendsAgree_iff {t : SendFrame ρ σ} {t' : AsyncRequestContext ρ σ}
    {script : List Happening} {notices notices' : List Notice}
    (hsync : Converses (WinHttpClient.caller input) Answers WinHttpClient.start script
      notices t)
    (hasync : Converses (AsyncRequestContext.caller input) Answers
      (AsyncRequestContext.start input) script notices' t') :
    Agrees notices t notices' t' ↔
      UnreadableBody input.uploadSource ∨ IntactResponse input script :=
  together_agrees
    (.sendRequest rfl rfl rfl rfl rfl rfl rfl Iff.rfl) hsync hasync

/-- A request without a body, for a response that goes to no sink of the caller. -/
def plainGet : SendInput MemoryByteSourceState Unit where
  headers := SortedMap.empty
  body := none
  sinkFactory := none
  env := ()
  formatWinHttpError := fun _ => []

def threeBytes : List Happening :=
  [.completed, .headers 200 SortedMap.empty, .chunk [1, 2, 3]]

theorem sendsAgree_iff_threeBytes :
    exists notices t notices' t',
      Converses (WinHttpClient.caller plainGet) Answers WinHttpClient.start threeBytes
        notices t ∧
      Converses (AsyncRequestContext.caller plainGet) Answers
        (AsyncRequestContext.start plainGet) threeBytes notices' t' ∧
      (Agrees notices t notices' t' ↔
        UnreadableBody plainGet.uploadSource ∨ IntactResponse plainGet threeBytes) := by
  have hsync : Converses (WinHttpClient.caller plainGet) Answers WinHttpClient.start
      threeBytes _ _ :=
    .step rfl .sendRequest (.step rfl .receiveResponse
      (.step rfl (@Answers.queryChunk 3 _ _ (by decide)) (.step rfl (.readChunk (by decide))
        (.step rfl (@Answers.queryEnded 0) (.done rfl)))))
  have hasync : Converses (AsyncRequestContext.caller plainGet) Answers
      (AsyncRequestContext.start plainGet) threeBytes _ _ :=
    .step rfl .sendRequest (.step rfl .receiveResponse
      (.step rfl (@Answers.queryChunk 3 _ _ (by decide)) (.step rfl (.readChunk (by decide))
        (.step rfl (@Answers.queryEnded 0) (.done rfl)))))
  exact ⟨_, _, _, _, hsync, hasync, sendsAgree_iff hsync hasync⟩

/-- The connection is reset after the first bytes. -/
def resetAfterThree : List Happening :=
  [.completed, .headers 200 SortedMap.empty, .chunk [1, 2, 3],
    .failed (.requestError ⟨12030, by decide⟩)]

/-- `send` returns the first bytes as the whole body, the other client an error. -/
theorem not_agrees_resetAfterThree :
    exists notices t notices' t',
      Converses (WinHttpClient.caller plainGet) Answers WinHttpClient.start
        resetAfterThree notices t ∧
      Converses (AsyncRequestContext.caller plainGet) Answers
        (AsyncRequestContext.start plainGet) resetAfterThree notices' t' ∧
      ¬ Agrees notices t notices' t' := by
  have hsync : Converses (WinHttpClient.caller plainGet) Answers WinHttpClient.start
      resetAfterThree _ _ :=
    .step rfl .sendRequest (.step rfl .receiveResponse
      (.step rfl (@Answers.queryChunk 3 _ _ (by decide))
        (.step rfl (.readChunk (by decide)) (.step rfl .failed (.done rfl)))))
  have hasync : Converses (AsyncRequestContext.caller plainGet) Answers
      (AsyncRequestContext.start plainGet) resetAfterThree _ _ :=
    .step rfl .sendRequest (.step rfl .receiveResponse
      (.step rfl (@Answers.queryChunk 3 _ _ (by decide))
        (.step rfl (.readChunk (by decide)) (.step rfl .failed (.done rfl)))))
  refine ⟨_, _, _, _, hsync, hasync, ?_⟩
  intro hagrees
  rcases hagrees.outcome with ⟨result, result', hresult, hresult', hsame⟩
  cases hresult
  cases hresult'
  exact hsame

end WinHttp
end Transport
end OssSdk
