import OssSdk.Foundation.Conversation
import OssSdk.Io.SpanSource
import OssSdk.Transport.WinHttp.WinHttpHelper

/-!
# Calls of WinHTTP and their completions

A client calls a function of WinHTTP, which returns at once.  Either the call is refused,
or a notice comes later that it is complete or that it has failed.
-/

namespace OssSdk
namespace Transport
namespace WinHttp

open Foundation

variable {ρ σ : Type}

inductive Call where
  | SendRequest
  | WriteData (buffer : ByteString)
  | ReceiveResponse
  | QueryDataAvailable
  | ReadData (toRead : Nat)

/-- The code of an error of the system, which is never zero. -/
structure WinError where
  code : Nat
  isError : code ≠ 0
deriving DecidableEq

/-- `GetLastError` after a call that returned false, or what a request error brings. -/
inductive Failure where
  | refused (lastError : WinError)
  | requestError (dwError : WinError)
deriving DecidableEq

inductive Notice where
  | sendRequestComplete
  | writeComplete
  | headersAvailable (statusCode : Int) (headers : HeaderCollection)
  | dataAvailable (count : Nat)
  | readComplete (chunk : ByteString)
  | failed (failure : Failure)

/-- A notice, and whether the request is canceled when a client looks at it. -/
structure Event where
  notice : Notice
  aborted : Bool

def ERROR_WINHTTP_TIMEOUT : Nat := 12002

/-- `formatWinHttpError` asks the system for the text. -/
def makeWinHttpError (formatWinHttpError : Nat -> ByteString) (code : TransportErrorCode)
    (winError : Nat) : TransportError :=
  TransportError.make code (bytes "WinHttpError") (formatWinHttpError winError)

def readBodyError : TransportError :=
  TransportError.make .SendRecvError (bytes "ReadBodyError")
    (bytes "Failed to read request body")

/-- What both clients are given. -/
structure SendInput (ρ σ : Type) where
  headers : HeaderCollection
  body : Option (SpanContent ρ)
  sinkFactory : Option (SinkFactory σ)
  env : σ
  formatWinHttpError : Nat -> ByteString

def resolveContentLength (headers : HeaderCollection) (body : Option (SpanContent ρ)) :
    Int :=
  let contentLength := contentLengthOf headers
  if contentLength < 0 then
    match body.bind SpanContent.length with
    | some length => length
    | none => contentLength
  else contentLength

/-- The source that the body is sent from, if any of it is to be sent. -/
def SendInput.uploadSource (input : SendInput ρ σ) : Option (ByteSource ρ × ρ) :=
  if 0 < resolveContentLength input.headers input.body then
    input.body.bind SpanContent.spanSource
  else none

/-!
# `WinHttpAction`
-/

inductive CallbackStatus where
  | SENDREQUEST_COMPLETE
  | WRITE_COMPLETE
  | HEADERS_AVAILABLE
  | DATA_AVAILABLE
  | READ_COMPLETE
deriving DecidableEq

def Notice.status : Notice -> Option CallbackStatus
  | .sendRequestComplete => some .SENDREQUEST_COMPLETE
  | .writeComplete => some .WRITE_COMPLETE
  | .headersAvailable .. => some .HEADERS_AVAILABLE
  | .dataAvailable _ => some .DATA_AVAILABLE
  | .readComplete _ => some .READ_COMPLETE
  | .failed _ => none

/-- The members after a wait; `bytesRead` is what the buffer of the read holds. -/
structure WinHttpAction where
  error : Nat
  bytesAvailable : Nat
  bytesRead : ByteString

def WinHttpAction.reset : WinHttpAction := ⟨0, 0, []⟩

/-- `none` as long as the wait goes on; a refused call leaves no error behind. -/
def waitForAction (expectedStatus : CallbackStatus) (notice : Notice) :
    Option (Bool × WinHttpAction) :=
  match notice with
  | .failed (.refused _) => some (false, .reset)
  | .failed (.requestError dwError) =>
      some (dwError.code == 0, { WinHttpAction.reset with error := dwError.code })
  | _ =>
      if notice.status = some expectedStatus then
        match notice with
        | .dataAvailable count =>
            some (true, { WinHttpAction.reset with bytesAvailable := count })
        | .readComplete chunk =>
            some (true, { WinHttpAction.reset with bytesRead := chunk })
        | _ => some (true, .reset)
      else none

theorem waitForAction_failed (expectedStatus : CallbackStatus) (failure : Failure) :
    exists action, waitForAction expectedStatus (.failed failure) = some (false, action) ∧
      (action.error = ERROR_WINHTTP_TIMEOUT ↔
        exists dwError, failure = .requestError dwError ∧
          dwError.code = ERROR_WINHTTP_TIMEOUT) := by
  cases failure with
  | refused lastError =>
      refine ⟨_, rfl, ?_⟩
      constructor
      · intro h
        cases h
      · intro h
        rcases h with ⟨_, h, _⟩
        cases h
  | requestError dwError =>
      have hcode : (dwError.code == 0) = false := beq_eq_false_iff_ne.mpr dwError.isError
      refine ⟨{ WinHttpAction.reset with error := dwError.code }, ?_, ?_⟩
      · change some (dwError.code == 0, _) = _
        rw [hcode]
      · constructor
        · intro h
          exact ⟨dwError, rfl, h⟩
        · intro h
          rcases h with ⟨_, heq, htimeout⟩
          cases heq
          exact htimeout

/-!
# What WinHTTP answers
-/

/-- What happens to a request on its connection, one after another. -/
inductive Happening where
  | completed
  | headers (statusCode : Int) (headers : HeaderCollection)
  | chunk (data : ByteString)
  | failed (failure : Failure)

/--
Each call is answered once.  A query may report any count before the next bytes are
read, or before a read that fails; at the end of the body it reports that there is
nothing, or a read finds nothing.
-/
inductive Answers : Service (List Happening) Call Notice where
  | sendRequest {rest : List Happening} :
      Answers (.completed :: rest) .SendRequest .sendRequestComplete rest
  | writeData {buffer : ByteString} {rest : List Happening} :
      Answers (.completed :: rest) (.WriteData buffer) .writeComplete rest
  | receiveResponse {statusCode : Int} {headers : HeaderCollection}
      {rest : List Happening} :
      Answers (.headers statusCode headers :: rest) .ReceiveResponse
        (.headersAvailable statusCode headers) rest
  | queryChunk {count : Nat} {data : ByteString} {rest : List Happening} :
      0 < count ->
      Answers (.chunk data :: rest) .QueryDataAvailable (.dataAvailable count)
        (.chunk data :: rest)
  | queryFailing {count : Nat} {failure : Failure} {rest : List Happening} :
      0 < count ->
      Answers (.failed failure :: rest) .QueryDataAvailable (.dataAvailable count)
        (.failed failure :: rest)
  | queryEnded {count : Nat} :
      Answers [] .QueryDataAvailable (.dataAvailable count) []
  | readChunk {toRead : Nat} {data : ByteString} {rest : List Happening} :
      data.length ≤ toRead ->
      Answers (.chunk data :: rest) (.ReadData toRead) (.readComplete data) rest
  | readEnded {toRead : Nat} : Answers [] (.ReadData toRead) (.readComplete []) []
  | failed {call : Call} {failure : Failure} {rest : List Happening} :
      Answers (.failed failure :: rest) call (.failed failure) rest

end WinHttp
end Transport
end OssSdk
