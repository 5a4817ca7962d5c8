import OssSdk.Transport.ResponseSink
import OssSdk.Foundation.Pieces
import OssSdk.Utils.HttpUtils

/-!
# Receiving a response through libcurl

libcurl calls a callback once for every header line, in order, and another once for every
chunk of the body.  It gives up with `CURLE_WRITE_ERROR` as soon as a call returns another
size than that of its chunk.
-/

namespace OssSdk
namespace Transport
namespace Curl

open Foundation

variable {σ : Type}

/-- `recvDataLength` is the length that libcurl reports, or -1. -/
structure TransferIO (σ : Type) where
  statusCode : Int
  headers : HeaderCollection
  sinkFactory : Option (SinkFactory σ)
  recvDataLength : Int
  recvFirstData : Bool
  reception : Reception σ
  cancellationToken : Option (CancellationToken σ)
  isRequestDisabled : Option (σ -> Bool)

def TransferIO.init (statusCode : Int) (headers : HeaderCollection)
    (sinkFactory : Option (SinkFactory σ)) (recvDataLength : Int) (env : σ) :
    TransferIO σ where
  statusCode := statusCode
  headers := headers
  sinkFactory := sinkFactory
  recvDataLength := recvDataLength
  recvFirstData := true
  reception := ⟨none, [], env⟩
  cancellationToken := none
  isRequestDisabled := none

/-- The choice of the sink at the first chunk. -/
def TransferIO.chooseSink (io : TransferIO σ) : TransferIO σ :=
  match io.sinkFactory, isErrorStatus io.statusCode with
  | some factory, false =>
      let (sink, env) :=
        factory.call io.recvDataLength io.headers io.reception.env
      { io with
        recvFirstData := false
        reception :=
          { io.reception with sink := sink.map .user, env := env } }
  | _, _ =>
      { io with
        recvFirstData := false
        reception := { io.reception with sink := some (.default []) } }

def recvBodyCallback (io : TransferIO σ) (chunk : ByteString) :
    Nat × TransferIO σ :=
  let io := if io.recvFirstData then io.chooseSink else io
  if io.reception.sink.isNone || io.reception.fail then (0, io)
  else
    let reception := io.reception.write chunk
    let io := { io with reception := reception }
    if reception.bad then (0, io) else (chunk.length, io)

def isLineEnd (c : UInt8) : Bool := c == 13 || c == 10

/-- The name and the value in a header line; there is none without a colon. -/
def headerInLine (line : ByteString) : Option (ByteString × ByteString) :=
  if line.contains 58 then
    let value := (after 58 line).dropWhile Utils.isBlank
    some (before 58 line, (value.reverse.dropWhile isLineEnd).reverse)
  else none

/-- `contentLengthDownload` is what libcurl knows about the length of the body. -/
def recvHeadersCallback (contentLengthDownload : Int) (io : TransferIO σ)
    (buffer : ByteString) : Nat × TransferIO σ :=
  let io :=
    match headerInLine buffer with
    | some (name, value) => { io with headers := io.headers.emplace name value }
    | none => io
  if buffer = [13, 10] ∧ (io.headers.find? (bytes "Content-Length")).isSome then
    (buffer.length, { io with recvDataLength := contentLengthDownload })
  else (buffer.length, io)

def CURLE_OK : Int := 0

def CURLE_WRITE_ERROR : Int := 23

def CURLE_ABORTED_BY_CALLBACK : Int := 42

/-- `res` is what the transfer ends with when no callback stops it. -/
def easyPerform (res : Int) : List ByteString -> TransferIO σ ->
    Int × TransferIO σ
  | [], io => (res, io)
  | chunk :: rest, io =>
      let (got, io) := recvBodyCallback io chunk
      if got = chunk.length then easyPerform res rest io
      else (CURLE_WRITE_ERROR, io)

def curlCodeToTransportError (curlCode : Int) : TransportErrorCode :=
  if curlCode = 5 ∨ curlCode = 6 then .DnsError
  else if curlCode = 7 ∨ curlCode = 35 then .ConnectionFailed
  else if curlCode = 18 then .PartialTransfer
  else if curlCode = 28 then .Timeout
  else if curlCode = 51 ∨ curlCode = 53 then .SslError
  else if curlCode = 23 ∨ curlCode = 55 ∨ curlCode = 56 ∨ curlCode = 52 ∨
      curlCode = 65 then .SendRecvError
  else .Unknown

def shouldAbortTransfer (io : TransferIO σ) : Bool :=
  io.cancellationToken.any (fun token => token.isCanceled io.reception.env) ||
    io.isRequestDisabled.any (fun isRequestDisabled =>
      isRequestDisabled io.reception.env)

/-- `text` is what libcurl has to say: `curl_easy_strerror` and its buffer. -/
def buildTransportError (res : Int) (text : ByteString) (io : TransferIO σ) :
    TransportError :=
  if res = CURLE_ABORTED_BY_CALLBACK ∧ shouldAbortTransfer io = true then
    TransportError.make .Canceled (bytes "RequestCanceled")
      (bytes "Request canceled by CancellationToken")
  else
    let cause :=
      if res = CURLE_WRITE_ERROR then
        if io.reception.sink.isNone then bytes ". Caused by sink is null."
        else if io.reception.bad then
          bytes ". Caused by sink is in bad state(Read/writing error on i/o operation)."
        else if io.reception.fail then
          bytes ". Caused by sink is in fail state(Logical error on i/o operation)."
        else []
      else []
    TransportError.make (curlCodeToTransportError res)
      (bytes "CURLcode " ++ toDecimalInt res) (text ++ cause)

/-- The end of `CurlHttpClient::send` and of a completed asynchronous transfer. -/
def transferResult (res : Int) (text : ByteString) (io : TransferIO σ) :
    ResponseResult :=
  if res = CURLE_OK then
    .response
      { statusCode := io.statusCode
        reason := []
        headers := io.headers
        body := io.reception.defaultSink }
  else .error (buildTransportError res text io)

example : headerInLine (bytes "ETag: \x22a\x22\x0d\n") =
    some (bytes "ETag", bytes "\x22a\x22") := by decide +kernel

/-!
# What a transfer through libcurl ends with
-/

theorem recvBodyCallback_first (io : TransferIO σ) (chunk : ByteString)
    (hfirst : io.recvFirstData = true) :
    recvBodyCallback io chunk = recvBodyCallback io.chooseSink chunk := by
  have hchosen : io.chooseSink.recvFirstData = false := by
    unfold TransferIO.chooseSink
    split <;> rfl
  unfold recvBodyCallback
  rw [if_pos hfirst, hchosen]
  rfl

/-- One chunk for a sink that has been chosen. -/
theorem recvBodyCallback_chosen (io : TransferIO σ) (chunk : ByteString)
    (hchosen : io.recvFirstData = false)
    (hsink : io.reception.sink.isNone = false) :
    recvBodyCallback io chunk =
      if io.reception.fail then (0, io)
      else
        (if (io.reception.write chunk).bad then 0 else chunk.length,
          { io with reception := io.reception.write chunk }) := by
  have hnot : ¬ io.recvFirstData = true := by simp [hchosen]
  simp only [recvBodyCallback, if_neg hnot, hsink, Bool.false_or]
  split
  · rfl
  · split <;> rfl

theorem write_sink_isNone (r : Reception σ) (chunk : ByteString) :
    (r.write chunk).sink.isNone = r.sink.isNone := by
  unfold Reception.write
  split
  · rename_i hsink
    simp [hsink]
  · rename_i hsink
    simp [hsink]
  · rfl

theorem easyPerform_cons (res : Int) (chunk : ByteString) (rest : List ByteString)
    (io : TransferIO σ) :
    easyPerform res (chunk :: rest) io =
      if (recvBodyCallback io chunk).1 = chunk.length then
        easyPerform res rest (recvBodyCallback io chunk).2
      else (CURLE_WRITE_ERROR, (recvBodyCallback io chunk).2) := rfl

/-- The callbacks stop the transfer where the sink shows a failure. -/
theorem easyPerform_eq (res : Int) (chunks : List ByteString)
    (io : TransferIO σ)
    (hnonempty : forall chunk, chunk ∈ chunks -> chunk ≠ [])
    (hchosen : io.recvFirstData = false)
    (hsink : io.reception.sink.isNone = false) :
    (io.reception.refusalSeen true chunks = true ->
        (easyPerform res chunks io).1 = CURLE_WRITE_ERROR) ∧
      (io.reception.refusalSeen true chunks = false ->
        easyPerform res chunks io =
          (res, { io with reception := io.reception.writeAll chunks })) := by
  induction chunks generalizing io with
  | nil =>
      constructor
      · intro h
        cases h
      · intro _
        rfl
  | cons chunk rest ih =>
      have hchunk : chunk ≠ [] := hnonempty chunk List.mem_cons_self
      have hlength : 0 ≠ chunk.length := by
        intro hzero
        exact hchunk (List.length_eq_zero_iff.mp hzero.symm)
      have hrest := ih { io with reception := io.reception.write chunk }
        (fun c hc => hnonempty c (List.mem_cons_of_mem _ hc)) hchosen
        ((write_sink_isNone io.reception chunk).trans hsink)
      simp only [easyPerform_cons, recvBodyCallback_chosen io chunk hchosen hsink,
        Reception.refusalSeen, Bool.true_and]
      cases hfail : io.reception.fail with
      | true =>
          simp only [if_true, if_neg hlength, Bool.true_or]
          exact ⟨fun _ => trivial, fun h => by cases h⟩
      | false =>
          simp only [Bool.false_eq_true, if_false, Bool.false_or]
          cases hbad : (io.reception.write chunk).bad with
          | true =>
              simp only [if_true, if_neg hlength, Bool.true_or]
              exact ⟨fun _ => trivial, fun h => by cases h⟩
          | false =>
              simp only [Bool.false_eq_true, if_false, if_true, Bool.false_or]
              exact hrest

theorem easyPerform_ends (text : ByteString) (chunks : List ByteString)
    (io : TransferIO σ)
    (hnonempty : forall chunk, chunk ∈ chunks -> chunk ≠ [])
    (hchosen : io.recvFirstData = false)
    (hsink : io.reception.sink.isNone = false) :
    Ends true true chunks io.reception
      (transferResult (easyPerform CURLE_OK chunks io).1 text
        (easyPerform CURLE_OK chunks io).2)
      (easyPerform CURLE_OK chunks io).2.reception := by
  have heq := easyPerform_eq CURLE_OK chunks io hnonempty hchosen hsink
  constructor
  · intro hseen
    rw [heq.1 hseen]
    exact ⟨_, rfl⟩
  · intro hnot
    rw [heq.2 hnot]
    exact ⟨_, rfl, rfl, rfl⟩

/-- A null sink ends the transfer at the first chunk. -/
theorem easyPerform_null (res : Int) {chunks : List ByteString}
    {io : TransferIO σ}
    (hnonempty : forall chunk, chunk ∈ chunks -> chunk ≠ [])
    (hchunks : chunks ≠ [])
    (hchosen : io.recvFirstData = false)
    (hsink : io.reception.sink = none) :
    (easyPerform res chunks io).1 = CURLE_WRITE_ERROR := by
  cases chunks with
  | nil => exact absurd rfl hchunks
  | cons chunk rest =>
      have hlength : 0 ≠ chunk.length := by
        intro hzero
        exact hnonempty chunk List.mem_cons_self
          (List.length_eq_zero_iff.mp hzero.symm)
      have hzero : recvBodyCallback io chunk = (0, io) := by
        simp [recvBodyCallback, hchosen, hsink]
      simp only [easyPerform_cons, hzero, if_neg hlength]

theorem easyPerform_first (res : Int) {chunks : List ByteString}
    {io : TransferIO σ}
    (hchunks : chunks ≠ [])
    (hfirst : io.recvFirstData = true) :
    easyPerform res chunks io = easyPerform res chunks io.chooseSink := by
  cases chunks with
  | nil => exact absurd rfl hchunks
  | cons chunk rest =>
      simp only [easyPerform_cons, recvBodyCallback_first io chunk hfirst]

/-- A transfer that libcurl calls failed is failed. -/
theorem easyPerform_failed {res : Int} (chunks : List ByteString)
    (io : TransferIO σ)
    (hres : res ≠ CURLE_OK) : (easyPerform res chunks io).1 ≠ CURLE_OK := by
  induction chunks generalizing io with
  | nil => exact hres
  | cons chunk rest ih =>
      rcases hcall : recvBodyCallback io chunk with ⟨got, io'⟩
      simp only [easyPerform_cons, hcall]
      split
      · exact ih io'
      · exact fun h => nomatch h

theorem chooseSink_fields (io : TransferIO σ) :
    io.chooseSink.statusCode = io.statusCode ∧
      io.chooseSink.headers = io.headers := by
  unfold TransferIO.chooseSink
  split <;> exact ⟨rfl, rfl⟩

theorem recvBodyCallback_fields (io : TransferIO σ) (chunk : ByteString) :
    (recvBodyCallback io chunk).2.statusCode = io.statusCode ∧
      (recvBodyCallback io chunk).2.headers = io.headers := by
  obtain ⟨io', hio'⟩ : exists io',
      io' = if io.recvFirstData then io.chooseSink else io := ⟨_, rfl⟩
  have hchosen : io'.statusCode = io.statusCode ∧ io'.headers = io.headers := by
    rw [hio']
    split
    · exact chooseSink_fields io
    · exact ⟨rfl, rfl⟩
  simp only [recvBodyCallback, ← hio']
  split
  · exact hchosen
  · split <;> exact hchosen

/-- A transfer does not change what is known of its response. -/
theorem easyPerform_fields (res : Int) (chunks : List ByteString)
    (io : TransferIO σ) :
    (easyPerform res chunks io).2.statusCode = io.statusCode ∧
      (easyPerform res chunks io).2.headers = io.headers := by
  induction chunks generalizing io with
  | nil => exact ⟨rfl, rfl⟩
  | cons chunk rest ih =>
      rcases recvBodyCallback_fields io chunk with ⟨hcode, hheaders⟩
      rcases hcall : recvBodyCallback io chunk with ⟨got, io'⟩
      rw [hcall] at hcode hheaders
      simp only [easyPerform_cons, hcall]
      split
      · exact ⟨(ih io').1.trans hcode, (ih io').2.trans hheaders⟩
      · exact ⟨hcode, hheaders⟩

end Curl
end Transport
end OssSdk
