import OssSdk.Transport.WinHttp.WinHttpAction

/-!
# The asynchronous client of WinHTTP

The status callback hands every notice to the context of its request, which goes to its
next state and makes the next call.
-/

namespace OssSdk
namespace Transport
namespace WinHttp

open Foundation

variable {ρ σ : Type}

inductive State where
  | SendRequest
  | WriteBody
  | ReceiveResponse
  | QueryData
  | ReadData
  | CloseHandle
deriving DecidableEq

/--
The members of a context.  `buffer` is what is being written, `toRead` the size that is
being read, and `sent` has the buffers that `WinHttpWriteData` was given.
-/
structure AsyncRequestContext (ρ σ : Type) where
  state : State
  source : Option (ByteSource ρ × ρ)
  contentLength : Int
  buffer : ByteString
  toRead : Nat
  sent : List ByteString
  statusCode : Int
  headers : HeaderCollection
  body : Option ByteString
  rs : Option (Reception σ)
  error : Option TransportError

namespace AsyncRequestContext

def closeHandle (ctx : AsyncRequestContext ρ σ) : AsyncRequestContext ρ σ :=
  { ctx with state := .CloseHandle }

def fail (ctx : AsyncRequestContext ρ σ) (te : TransportError) :
    AsyncRequestContext ρ σ :=
  closeHandle { ctx with error := some te }

/-- `finish`; there is nothing to report before the handle is closed. -/
def finish (ctx : AsyncRequestContext ρ σ) : Option ResponseResult :=
  match ctx.state, ctx.error with
  | .CloseHandle, some te => some (.error te)
  | .CloseHandle, none =>
      some (.response
        { statusCode := ctx.statusCode
          reason := []
          headers := ctx.headers
          body := ctx.body })
  | _, _ => none

def receiveResponse (ctx : AsyncRequestContext ρ σ) : AsyncRequestContext ρ σ :=
  { ctx with state := .ReceiveResponse }

def writeNextChunk (ctx : AsyncRequestContext ρ σ) : AsyncRequestContext ρ σ :=
  match ctx.source with
  | none => receiveResponse ctx
  | some (source, r) =>
      let (buffer, r) := source.readToCount kWriteBufferLength r
      if buffer.length < kWriteBufferLength ∧ (source.iostate r).readFailed = true then
        fail ctx readBodyError
      else if buffer = [] then receiveResponse ctx
      else
        { ctx with
          source := some (source, r)
          buffer := buffer
          sent := ctx.sent ++ [buffer] }

def onSendComplete (ctx : AsyncRequestContext ρ σ) : AsyncRequestContext ρ σ :=
  if ctx.source.isSome ∧ 0 < ctx.contentLength then
    writeNextChunk { ctx with state := .WriteBody }
  else receiveResponse ctx

def queryData (ctx : AsyncRequestContext ρ σ) : AsyncRequestContext ρ σ :=
  { ctx with state := .QueryData }

def onHeadersAvailable (input : SendInput ρ σ) (ctx : AsyncRequestContext ρ σ)
    (statusCode : Int) (headers : HeaderCollection) : AsyncRequestContext ρ σ :=
  queryData
    { ctx with
      statusCode := statusCode
      headers := headers
      rs := some (createResponseSink statusCode input.sinkFactory headers input.env) }

def finalize (input : SendInput ρ σ) (ctx : AsyncRequestContext ρ σ) (r : Reception σ) :
    AsyncRequestContext ρ σ :=
  closeHandle
    { ctx with body := finalizeResponseBody ctx.statusCode input.sinkFactory r }

def onDataAvailable (input : SendInput ρ σ) (ctx : AsyncRequestContext ρ σ)
    (r : Reception σ) (bytesAvailable : Nat) : AsyncRequestContext ρ σ :=
  if bytesAvailable = 0 then finalize input ctx r
  else
    { ctx with
      state := .ReadData
      toRead := min bytesAvailable kWriteBufferLength }

def onReadComplete (input : SendInput ρ σ) (ctx : AsyncRequestContext ρ σ)
    (r : Reception σ) (bytesRead : ByteString) : AsyncRequestContext ρ σ :=
  if bytesRead = [] then finalize input ctx r
  else
    let r := r.write bytesRead
    if r.bad then fail { ctx with rs := some r } writeStreamError
    else queryData { ctx with rs := some r }

/-- `onError`, and `failWithWinHttpError` where a handler's call is refused. -/
def failureError (input : SendInput ρ σ) : Failure -> TransportError
  | .refused lastError =>
      makeWinHttpError input.formatWinHttpError .SendRecvError lastError.code
  | .requestError dwError =>
      if dwError.code = ERROR_WINHTTP_TIMEOUT then
        makeWinHttpError input.formatWinHttpError .Timeout dwError.code
      else makeWinHttpError input.formatWinHttpError .SendRecvError dwError.code

/-- `onStatus`: the handler of a state looks first whether the request is canceled. -/
def onStatus (input : SendInput ρ σ) (ctx : AsyncRequestContext ρ σ) (event : Event) :
    AsyncRequestContext ρ σ :=
  let checked (handler : AsyncRequestContext ρ σ) : AsyncRequestContext ρ σ :=
    if event.aborted then fail ctx requestCanceled else handler
  match ctx.state, event.notice with
  | .CloseHandle, _ => ctx
  | _, .failed failure => fail ctx (failureError input failure)
  | .SendRequest, .sendRequestComplete => checked (onSendComplete ctx)
  | .WriteBody, .writeComplete => checked (writeNextChunk ctx)
  | .ReceiveResponse, .headersAvailable statusCode headers =>
      checked (onHeadersAvailable input ctx statusCode headers)
  | .QueryData, .dataAvailable count =>
      match ctx.rs with
      | some r => checked (onDataAvailable input ctx r count)
      | none => ctx
  | .ReadData, .readComplete chunk =>
      match ctx.rs with
      | some r => checked (onReadComplete input ctx r chunk)
      | none => ctx
  | _, _ => ctx

def start (input : SendInput ρ σ) : AsyncRequestContext ρ σ :=
  { state := .SendRequest
    source := input.uploadSource
    contentLength := resolveContentLength input.headers input.body
    buffer := []
    toRead := 0
    sent := []
    statusCode := 0
    headers := SortedMap.empty
    body := none
    rs := none
    error := none }

def call (ctx : AsyncRequestContext ρ σ) : Option Call :=
  match ctx.state with
  | .SendRequest => some .SendRequest
  | .WriteBody => some (.WriteData ctx.buffer)
  | .ReceiveResponse => some .ReceiveResponse
  | .QueryData => some .QueryDataAvailable
  | .ReadData => some (.ReadData ctx.toRead)
  | .CloseHandle => none

/-- The client with a request that is not canceled. -/
def caller (input : SendInput ρ σ) : Caller (AsyncRequestContext ρ σ) Call Notice where
  call := call
  resume ctx notice := onStatus input ctx ⟨notice, false⟩

/-!
# Steps of a context that reads a response
-/

theorem caller_resume {input : SendInput ρ σ} (ctx : AsyncRequestContext ρ σ)
    (notice : Notice) :
    (caller input).resume ctx notice = onStatus input ctx ⟨notice, false⟩ := rfl

section steps

variable {input : SendInput ρ σ} {ctx : AsyncRequestContext ρ σ} {r : Reception σ}

theorem onStatus_failed (hstate : ctx.state ≠ .CloseHandle) (failure : Failure)
    (aborted : Bool) :
    onStatus input ctx ⟨.failed failure, aborted⟩ =
      fail ctx (failureError input failure) := by
  unfold onStatus
  cases hcase : ctx.state with
  | CloseHandle => exact absurd hcase hstate
  | _ => rfl

theorem resume_dataAvailable (hstate : ctx.state = .QueryData) (hrs : ctx.rs = some r)
    (count : Nat) :
    (caller input).resume ctx (.dataAvailable count) =
      onDataAvailable input ctx r count := by
  rw [caller_resume]
  unfold onStatus
  simp only [hstate, hrs]
  rfl

theorem resume_readComplete (hstate : ctx.state = .ReadData) (hrs : ctx.rs = some r)
    (chunk : ByteString) :
    (caller input).resume ctx (.readComplete chunk) =
      onReadComplete input ctx r chunk := by
  rw [caller_resume]
  unfold onStatus
  simp only [hstate, hrs]
  rfl

end steps

/-- A notice as the reply that the handlers of a response wait for. -/
def reply (input : SendInput ρ σ) : Notice -> Option Reply
  | .dataAvailable count => some (.dataAvailable count)
  | .readComplete chunk => some (.readComplete chunk)
  | .failed failure => some (.failed false (failureError input failure))
  | _ => none

/-- What a context that reads waits for. -/
def readState (ctx : AsyncRequestContext ρ σ) : ReadState -> Prop
  | .QueryData => ctx.state = .QueryData
  | .ReadData _ => ctx.state = .ReadData

theorem foldl_closed (input : SendInput ρ σ) (notices : List Notice)
    {ctx : AsyncRequestContext ρ σ} (hstate : ctx.state = .CloseHandle) :
    notices.foldl (caller input).resume ctx = ctx := by
  induction notices with
  | nil => rfl
  | cons notice rest ih =>
      have hstays : (caller input).resume ctx notice = ctx := by
        rw [caller_resume]
        unfold onStatus
        simp only [hstate]
      rw [List.foldl_cons, hstays]
      exact ih

theorem resume_ignored {input : SendInput ρ σ} {ctx : AsyncRequestContext ρ σ}
    {state : ReadState} {notice : Notice} (hstate : readState ctx state)
    (hreply : reply input notice = none) : (caller input).resume ctx notice = ctx := by
  rw [caller_resume]
  unfold onStatus
  cases state with
  | QueryData =>
      have hquery : ctx.state = .QueryData := hstate
      cases notice with
      | dataAvailable _ => cases hreply
      | readComplete _ => cases hreply
      | failed _ => cases hreply
      | _ => simp only [hquery]
  | ReadData _ =>
      have hread : ctx.state = .ReadData := hstate
      cases notice with
      | dataAvailable _ => cases hreply
      | readComplete _ => cases hreply
      | failed _ => cases hreply
      | _ => simp only [hread]

/-- A context that is closed with what it has received. -/
theorem foldl_finalize (input : SendInput ρ σ) (notices : List Notice)
    {ctx : AsyncRequestContext ρ σ} {r : Reception σ} (hrs : ctx.rs = some r)
    (herror : ctx.error = none) :
    (notices.foldl (caller input).resume (finalize input ctx r)).finish =
        some ((Received.complete r).result ctx.statusCode ctx.headers
          input.sinkFactory) ∧
      (notices.foldl (caller input).resume (finalize input ctx r)).rs = some r := by
  rw [foldl_closed input notices rfl]
  refine ⟨?_, hrs⟩
  unfold finish finalize closeHandle
  simp only [herror]
  rfl

theorem foldl_fail (input : SendInput ρ σ) (notices : List Notice)
    (ctx : AsyncRequestContext ρ σ) (te : TransportError) :
    (notices.foldl (caller input).resume (fail ctx te)).finish = some (.error te) ∧
      (notices.foldl (caller input).resume (fail ctx te)).rs = ctx.rs := by
  rw [foldl_closed input notices rfl]
  exact ⟨rfl, rfl⟩

/-- The steps of the handlers are those of `onReplies`. -/
theorem resume_onReplies (input : SendInput ρ σ) (notices : List Notice)
    {ctx : AsyncRequestContext ρ σ} {state : ReadState} {r : Reception σ}
    {out : Received σ} (hstate : readState ctx state) (hrs : ctx.rs = some r)
    (herror : ctx.error = none)
    (hreplies : onReplies (notices.filterMap (reply input)) state r = some out) :
    (notices.foldl (caller input).resume ctx).finish =
        some (out.result ctx.statusCode ctx.headers input.sinkFactory) ∧
      (notices.foldl (caller input).resume ctx).rs = some out.reception := by
  induction notices generalizing ctx state r with
  | nil => cases hreplies
  | cons notice rest ih =>
      rw [List.foldl_cons]
      cases notice with
      | failed failure =>
          have hopen : ctx.state ≠ .CloseHandle := by
            cases state with
            | QueryData =>
                rw [show ctx.state = .QueryData from hstate]
                exact fun h => by cases h
            | ReadData _ =>
                rw [show ctx.state = .ReadData from hstate]
                exact fun h => by cases h
          have hout : out = .error (failureError input failure) r := by
            cases state with
            | QueryData => exact (Option.some.inj hreplies).symm
            | ReadData _ => exact (Option.some.inj hreplies).symm
          rcases foldl_fail input rest ctx (failureError input failure) with
            ⟨hfinish, hsink⟩
          rw [caller_resume, onStatus_failed hopen, hout]
          exact ⟨hfinish, hsink.trans hrs⟩
      | dataAvailable count =>
          cases state with
          | ReadData _ => cases hreplies
          | QueryData =>
              change onReplies (.dataAvailable count :: rest.filterMap (reply input))
                .QueryData r = _ at hreplies
              rw [onReplies] at hreplies
              rw [resume_dataAvailable hstate hrs]
              unfold onDataAvailable
              by_cases hcount : count = 0
              · rw [if_pos hcount] at hreplies ⊢
                cases hreplies
                exact foldl_finalize input rest hrs herror
              · rw [if_neg hcount] at hreplies ⊢
                exact @ih { ctx with
                  state := .ReadData
                  toRead := min count kWriteBufferLength } (.ReadData count) r rfl hrs
                  herror hreplies
      | readComplete chunk =>
          cases state with
          | QueryData => cases hreplies
          | ReadData count =>
              change onReplies (.readComplete chunk :: rest.filterMap (reply input))
                (.ReadData count) r = _ at hreplies
              rw [onReplies] at hreplies
              rw [resume_readComplete hstate hrs]
              unfold onReadComplete
              split at hreplies
              · cases hreplies
              · by_cases hchunk : chunk = []
                · rw [if_pos hchunk] at hreplies ⊢
                  cases hreplies
                  exact foldl_finalize input rest hrs herror
                · rw [if_neg hchunk] at hreplies ⊢
                  by_cases hbad : (r.write chunk).bad = true
                  · simp only [if_pos hbad] at hreplies ⊢
                    cases hreplies
                    exact foldl_fail input rest { ctx with rs := some (r.write chunk) } _
                  · simp only [if_neg hbad] at hreplies ⊢
                    exact @ih (queryData { ctx with rs := some (r.write chunk) })
                      .QueryData _ rfl rfl herror hreplies
      | _ =>
          rw [resume_ignored hstate rfl]
          exact @ih ctx state r hstate hrs herror hreplies

end AsyncRequestContext
end WinHttp
end Transport
end OssSdk
