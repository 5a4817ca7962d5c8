import OssSdk.Transport.WinHttp.WinHttpAction

/-!
# The synchronous client of WinHTTP

`send` blocks in one wait after another.  What it does between two waits is a step, from
the event that ends the one to the call that it then waits for.
-/

namespace OssSdk
namespace Transport
namespace WinHttp

open Foundation

variable {ρ σ : Type}

/-- The wait that `send` is in, or what it has returned. -/
inductive Wait where
  | SendRequest
  | WriteData (buffer : ByteString)
  | ReceiveResponse
  | QueryDataAvailable
  | ReadData (available : Nat)
  | Returned (result : ResponseResult)
deriving DecidableEq

/-- The variables of `send`; `sent` has the buffers that `WinHttpWriteData` was given. -/
structure SendFrame (ρ σ : Type) where
  wait : Wait
  source : Option (ByteSource ρ × ρ)
  sent : List ByteString
  statusCode : Int
  headers : HeaderCollection
  rs : Option (Reception σ)

namespace WinHttpClient

def makeWaitError (input : SendInput ρ σ) (aborted : Bool) (action : WinHttpAction) :
    TransportError :=
  if aborted then requestCanceled
  else if action.error = ERROR_WINHTTP_TIMEOUT then
    makeWinHttpError input.formatWinHttpError .Timeout action.error
  else makeWinHttpError input.formatWinHttpError .SendRecvError action.error

def returned (f : SendFrame ρ σ) (te : TransportError) : SendFrame ρ σ :=
  { f with wait := .Returned (.error te) }

/-- The loop that writes the body, up to its next wait. -/
def writeBody (f : SendFrame ρ σ) : SendFrame ρ σ :=
  match f.source with
  | none => { f with wait := .ReceiveResponse }
  | some (source, r) =>
      let (buffer, r) := source.readToCount kWriteBufferLength r
      if buffer.length < kWriteBufferLength ∧ (source.iostate r).readFailed = true then
        returned f readBodyError
      else if buffer = [] then { f with wait := .ReceiveResponse }
      else
        { f with
          wait := .WriteData buffer
          source := some (source, r)
          sent := f.sent ++ [buffer] }

/-- The end of the loop that reads the response. -/
def finalize (input : SendInput ρ σ) (f : SendFrame ρ σ) (r : Reception σ) :
    SendFrame ρ σ :=
  { f with
    wait := .Returned (.response
      { statusCode := f.statusCode
        reason := []
        headers := f.headers
        body := finalizeResponseBody f.statusCode input.sinkFactory r }) }

/-- The inner loop asks again unless all that was available has been read. -/
def readNext (f : SendFrame ρ σ) (available : Nat) : SendFrame ρ σ :=
  if available = 0 then { f with wait := .QueryDataAvailable }
  else { f with wait := .ReadData available }

def start : SendFrame ρ σ :=
  { wait := .SendRequest
    source := none
    sent := []
    statusCode := 0
    headers := SortedMap.empty
    rs := none }

/-- One step of `send`, from the event of its wait. -/
def resume (input : SendInput ρ σ) (f : SendFrame ρ σ) (event : Event) : SendFrame ρ σ :=
  match f.wait with
  | .SendRequest =>
      match waitForAction .SENDREQUEST_COMPLETE event.notice with
      | none => f
      | some (false, action) => returned f (makeWaitError input event.aborted action)
      | some (true, _) => writeBody { f with source := input.uploadSource }
  | .WriteData _ =>
      match waitForAction .WRITE_COMPLETE event.notice with
      | none => f
      | some (false, action) => returned f (makeWaitError input event.aborted action)
      | some (true, _) => writeBody f
  | .ReceiveResponse =>
      match waitForAction .HEADERS_AVAILABLE event.notice with
      | none => f
      | some (false, action) => returned f (makeWaitError input event.aborted action)
      | some (true, _) =>
          match event.notice with
          | .headersAvailable statusCode headers =>
              { f with
                wait := .QueryDataAvailable
                statusCode := statusCode
                headers := headers
                rs :=
                  some (createResponseSink statusCode input.sinkFactory headers
                    input.env) }
          | _ => f
  | .QueryDataAvailable =>
      match f.rs, waitForAction .DATA_AVAILABLE event.notice with
      | some r, some (false, action) =>
          if event.aborted then returned f (makeWaitError input event.aborted action)
          else finalize input f r
      | some r, some (true, action) =>
          if action.bytesAvailable = 0 then finalize input f r
          else { f with wait := .ReadData action.bytesAvailable }
      | _, _ => f
  | .ReadData available =>
      match f.rs, waitForAction .READ_COMPLETE event.notice with
      | some _, some (false, action) =>
          if event.aborted then returned f (makeWaitError input event.aborted action)
          else readNext f 0
      | some r, some (true, action) =>
          if action.bytesRead = [] then readNext f 0
          else
            let r := r.write action.bytesRead
            if r.bad then returned { f with rs := some r } writeStreamError
            else readNext { f with rs := some r } (available - action.bytesRead.length)
      | _, _ => f
  | .Returned _ => f

def call (f : SendFrame ρ σ) : Option Call :=
  match f.wait with
  | .SendRequest => some .SendRequest
  | .WriteData buffer => some (.WriteData buffer)
  | .ReceiveResponse => some .ReceiveResponse
  | .QueryDataAvailable => some .QueryDataAvailable
  | .ReadData available => some (.ReadData (min available kWriteBufferLength))
  | .Returned _ => none

/-- The client with a request that is not canceled. -/
def caller (input : SendInput ρ σ) : Caller (SendFrame ρ σ) Call Notice where
  call := call
  resume f notice := resume input f ⟨notice, false⟩

/-!
# Steps of the loops that read a response
-/

section steps

variable {input : SendInput ρ σ} {f : SendFrame ρ σ} {r : Reception σ} {aborted : Bool}

theorem resume_dataAvailable (hwait : f.wait = .QueryDataAvailable)
    (hrs : f.rs = some r) (count : Nat) :
    resume input f ⟨.dataAvailable count, aborted⟩ =
      if count = 0 then finalize input f r else { f with wait := .ReadData count } := by
  unfold resume
  simp only [hwait, hrs]
  rfl

theorem resume_queryFailed (hwait : f.wait = .QueryDataAvailable) (hrs : f.rs = some r)
    (failure : Failure) :
    resume input f ⟨.failed failure, aborted⟩ =
      if aborted then returned f requestCanceled else finalize input f r := by
  rcases waitForAction_failed .DATA_AVAILABLE failure with ⟨action, hwaited, _⟩
  unfold resume
  simp only [hwait, hrs, hwaited]
  cases aborted with
  | true => rfl
  | false => rfl

theorem resume_readComplete {available : Nat} (hwait : f.wait = .ReadData available)
    (hrs : f.rs = some r) (chunk : ByteString) :
    resume input f ⟨.readComplete chunk, aborted⟩ =
      if chunk = [] then readNext f 0
      else if (r.write chunk).bad then
        returned { f with rs := some (r.write chunk) } writeStreamError
      else
        readNext { f with rs := some (r.write chunk) } (available - chunk.length) := by
  unfold resume
  simp only [hwait, hrs]
  rfl

theorem resume_readFailed {available : Nat} (hwait : f.wait = .ReadData available)
    (hrs : f.rs = some r) (failure : Failure) :
    resume input f ⟨.failed failure, aborted⟩ =
      if aborted then returned f requestCanceled else readNext f 0 := by
  rcases waitForAction_failed .READ_COMPLETE failure with ⟨action, hwaited, _⟩
  unfold resume
  simp only [hwait, hrs, hwaited]
  cases aborted with
  | true => rfl
  | false => rfl

theorem readNext_eq (f : SendFrame ρ σ) (available : Nat) :
    exists wait, readNext f available = { f with wait := wait } := by
  unfold readNext
  split
  · exact ⟨_, rfl⟩
  · exact ⟨_, rfl⟩

end steps

/-- An event as the reply that the loops wait for. -/
def reply (event : Event) : Option Reply :=
  match event.notice with
  | .dataAvailable count => some (.dataAvailable count)
  | .readComplete chunk => some (.readComplete chunk)
  | .failed _ => some (.failed event.aborted requestCanceled)
  | _ => none

theorem foldl_returned (input : SendInput ρ σ) (events : List Event)
    {f : SendFrame ρ σ} {result : ResponseResult} (hwait : f.wait = .Returned result) :
    events.foldl (resume input) f = f := by
  induction events with
  | nil => rfl
  | cons event rest ih =>
      have hstays : resume input f event = f := by
        unfold resume
        simp only [hwait]
      rw [List.foldl_cons, hstays]
      exact ih

/-- Notices of what has been waited for before pass by. -/
theorem resume_ignored {input : SendInput ρ σ} {f : SendFrame ρ σ} {event : Event}
    {r : Reception σ}
    (hwait : f.wait = .QueryDataAvailable ∨ exists available, f.wait = .ReadData available)
    (hrs : f.rs = some r) (hreply : reply event = none) : resume input f event = f := by
  rcases event with ⟨notice, aborted⟩
  have hwaits : forall expected, (expected = .DATA_AVAILABLE ∨ expected = .READ_COMPLETE) ->
      waitForAction expected notice = none := by
    intro expected hexpected
    cases notice with
    | dataAvailable _ => cases hreply
    | readComplete _ => cases hreply
    | failed _ => cases hreply
    | _ =>
        rcases hexpected with heq | heq
        · rw [heq]
          rfl
        · rw [heq]
          rfl
  unfold resume
  rcases hwait with hwait | ⟨available, hwait⟩
  · simp only [hwait, hrs, hwaits _ (Or.inl rfl)]
  · simp only [hwait, hrs, hwaits _ (Or.inr rfl)]

/-- The steps of the two loops are those of `readLoop`. -/
theorem resume_readLoop (input : SendInput ρ σ) (events : List Event) {f : SendFrame ρ σ}
    {available : Nat} {r : Reception σ} {out : Received σ}
    (hwait : f.wait = (readNext f available).wait) (hrs : f.rs = some r)
    (hloop : readLoop (events.filterMap reply) available r = some out) :
    (events.foldl (resume input) f).wait =
        .Returned (out.result f.statusCode f.headers input.sinkFactory) ∧
      (events.foldl (resume input) f).rs = some out.reception := by
  induction events generalizing f available r with
  | nil => cases hloop
  | cons event rest ih =>
      rcases event with ⟨notice, aborted⟩
      rw [List.foldl_cons]
      cases available with
      | zero =>
          change f.wait = .QueryDataAvailable at hwait
          cases notice with
          | dataAvailable count =>
              change readLoop (.dataAvailable count :: rest.filterMap reply) 0 r = _
                at hloop
              rw [readLoop] at hloop
              rw [resume_dataAvailable hwait hrs]
              by_cases hcount : count = 0
              · rw [if_pos hcount] at hloop ⊢
                cases hloop
                rw [foldl_returned input rest rfl]
                exact ⟨rfl, hrs⟩
              · rw [if_neg hcount] at hloop ⊢
                have hnext : Wait.ReadData count = (readNext f count).wait := by
                  unfold readNext
                  rw [if_neg hcount]
                exact ih (f := { f with wait := .ReadData count }) hnext hrs hloop
          | failed failure =>
              change readLoop (.failed aborted _ :: rest.filterMap reply) 0 r = _ at hloop
              rw [readLoop] at hloop
              rw [resume_queryFailed hwait hrs]
              cases aborted with
              | true =>
                  cases hloop
                  rw [if_pos rfl, foldl_returned input rest rfl]
                  exact ⟨rfl, hrs⟩
              | false =>
                  cases hloop
                  rw [if_neg Bool.false_ne_true, foldl_returned input rest rfl]
                  exact ⟨rfl, hrs⟩
          | readComplete chunk => cases hloop
          | _ =>
              rw [resume_ignored (Or.inl hwait) hrs rfl]
              exact @ih f 0 r hwait hrs hloop
      | succ available =>
          change f.wait = .ReadData (available + 1) at hwait
          cases notice with
          | readComplete chunk =>
              change readLoop (.readComplete chunk :: rest.filterMap reply)
                (available + 1) r = _ at hloop
              rw [readLoop] at hloop
              rw [resume_readComplete hwait hrs]
              split at hloop
              · cases hloop
              · by_cases hchunk : chunk = []
                · rw [if_pos hchunk] at hloop ⊢
                  exact ih (f := readNext f 0) rfl hrs hloop
                · rw [if_neg hchunk] at hloop ⊢
                  by_cases hbad : (r.write chunk).bad = true
                  · simp only [if_pos hbad] at hloop ⊢
                    cases hloop
                    rw [foldl_returned input rest rfl]
                    exact ⟨rfl, rfl⟩
                  · simp only [if_neg hbad] at hloop ⊢
                    rcases readNext_eq { f with rs := some (r.write chunk) }
                      (available + 1 - chunk.length) with ⟨wait, hnext⟩
                    have hwait' : wait = (readNext { f with rs := some (r.write chunk) }
                        (available + 1 - chunk.length)).wait := by rw [hnext]
                    rw [hnext]
                    exact ih (f := { f with wait := wait, rs := some (r.write chunk) })
                      hwait' rfl hloop
          | failed failure =>
              change readLoop (.failed aborted _ :: rest.filterMap reply)
                (available + 1) r = _ at hloop
              rw [readLoop] at hloop
              rw [resume_readFailed hwait hrs]
              cases aborted with
              | true =>
                  cases hloop
                  rw [if_pos rfl, foldl_returned input rest rfl]
                  exact ⟨rfl, hrs⟩
              | false =>
                  rw [if_neg Bool.false_ne_true] at hloop ⊢
                  exact ih (f := readNext f 0) rfl hrs hloop
          | dataAvailable count => cases hloop
          | _ =>
              rw [resume_ignored (Or.inr ⟨_, hwait⟩) hrs rfl]
              exact @ih f (available + 1) r hwait hrs hloop

end WinHttpClient
end WinHttp
end Transport
end OssSdk
