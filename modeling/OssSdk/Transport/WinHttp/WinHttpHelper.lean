import OssSdk.Transport.ResponseSink
import OssSdk.Utils.HttpUtils

/-!
# Receiving a body through WinHTTP

WinHTTP is asked how many bytes are available and then to read some of them; it
answers each of the two with a reply.  The synchronous client reads until all
that was available has been read before it asks again, the asynchronous one asks
again after every read.
-/

namespace OssSdk
namespace Transport
namespace WinHttp

open Foundation

variable {σ : Type}

/-- What `std::from_chars` takes of a text. -/
def numberPrefix : ByteString -> ByteString
  | 45 :: ds => 45 :: ds.takeWhile isDigit
  | ds => ds.takeWhile isDigit

def contentLengthOf (headers : HeaderCollection) : Int :=
  match headers.find? (bytes "Content-Length") with
  | some value => (Utils.fromCharsInt64 (numberPrefix value)).getD (-1)
  | none => -1

def createResponseSink (statusCode : Int) (factory : Option (SinkFactory σ))
    (headers : HeaderCollection) (env : σ) : Reception σ :=
  match factory, isErrorStatus statusCode with
  | some factory, false =>
      match factory.call (contentLengthOf headers) headers env with
      | (some writer, env) => ⟨some (.user writer), [], env⟩
      | (none, env) => ⟨some (.default []), [], env⟩
  | _, _ => ⟨some (.default []), [], env⟩

/-- The body that the response gets. -/
def finalizeResponseBody (statusCode : Int) (factory : Option (SinkFactory σ))
    (r : Reception σ) : Option ByteString :=
  if isErrorStatus statusCode || factory.isNone then r.defaultSink else none

/-- A reply that finds the request canceled is a failed one. -/
inductive Reply where
  | dataAvailable (count : Nat)
  | readComplete (chunk : ByteString)
  | failed (aborted : Bool) (error : TransportError)

def writeStreamError : TransportError :=
  TransportError.make .SendRecvError (bytes "WriteStreamError")
    (bytes "Failed to write response body to output stream")

def requestCanceled : TransportError :=
  TransportError.make .Canceled (bytes "RequestCanceled")
    (bytes "Request canceled by CancellationToken")

/-!
# The synchronous client
-/

/-- How `WinHttpClient::send` leaves its loop. -/
inductive Received (σ : Type) where
  | complete (r : Reception σ)
  | error (te : TransportError) (r : Reception σ)

/--
The two loops; `available` is zero where WinHTTP is asked what is available.
There is no result while a reply is still waited for, or if one does not fit
what was asked.
-/
def readLoop : List Reply -> Nat -> Reception σ -> Option (Received σ)
  | [], _, _ => none
  | .dataAvailable count :: rest, 0, r =>
      if count = 0 then some (.complete r) else readLoop rest count r
  | .failed aborted _ :: _, 0, r =>
      if aborted then some (.error requestCanceled r)
      else some (.complete r)
  | .readComplete chunk :: rest, available + 1, r =>
      if min (available + 1) kWriteBufferLength < chunk.length then none
      else if chunk = [] then readLoop rest 0 r
      else
        let r := r.write chunk
        if r.bad then some (.error writeStreamError r)
        else readLoop rest (available + 1 - chunk.length) r
  | .failed aborted _ :: rest, _ + 1, r =>
      if aborted then some (.error requestCanceled r) else readLoop rest 0 r
  | _, _, _ => none

def Received.reception : Received σ -> Reception σ
  | .complete r => r
  | .error _ r => r

def Received.result (statusCode : Int) (headers : HeaderCollection)
    (factory : Option (SinkFactory σ)) : Received σ -> ResponseResult
  | .complete r =>
      .response
        { statusCode := statusCode
          reason := []
          headers := headers
          body := finalizeResponseBody statusCode factory r }
  | .error te _ => .error te

/-!
# The asynchronous client
-/

inductive ReadState where
  | QueryData
  | ReadData (bytesAvailable : Nat)

/-- `onDataAvailable`, `onReadComplete` and `onError`, one reply after another. -/
def onReplies : List Reply -> ReadState -> Reception σ -> Option (Received σ)
  | [], _, _ => none
  | .dataAvailable count :: rest, .QueryData, r =>
      if count = 0 then some (.complete r)
      else onReplies rest (.ReadData count) r
  | .readComplete chunk :: rest, .ReadData bytesAvailable, r =>
      if min bytesAvailable kWriteBufferLength < chunk.length then none
      else if chunk = [] then some (.complete r)
      else
        let r := r.write chunk
        if r.bad then some (.error writeStreamError r)
        else onReplies rest .QueryData r
  | .failed _ error :: _, _, r => some (.error error r)
  | _, _, _ => none

/-!
# Replies that deliver a body
-/

/-- No wait fails, and the bytes of the body are read in these chunks. -/
inductive Delivers : Nat -> List Reply -> List ByteString -> Prop where
  | done : Delivers 0 [.dataAvailable 0] []
  | available {count : Nat} {rest : List Reply} {chunks : List ByteString} :
      0 < count -> Delivers count rest chunks ->
      Delivers 0 (.dataAvailable count :: rest) chunks
  | read {available : Nat} {chunk : ByteString} {rest : List Reply}
      {chunks : List ByteString} :
      chunk ≠ [] -> chunk.length ≤ min (available + 1) kWriteBufferLength ->
      Delivers (available + 1 - chunk.length) rest chunks ->
      Delivers (available + 1) (.readComplete chunk :: rest) (chunk :: chunks)
  | nothing {available : Nat} {rest : List Reply} {chunks : List ByteString} :
      Delivers 0 rest chunks ->
      Delivers (available + 1) (.readComplete [] :: rest) chunks

theorem readLoop_eq {available : Nat} {replies : List Reply}
    {chunks : List ByteString} (r : Reception σ)
    (hdelivers : Delivers available replies chunks) :
    (r.refusalSeen false chunks = true ->
        exists r', readLoop replies available r =
          some (.error writeStreamError r')) ∧
      (r.refusalSeen false chunks = false ->
        readLoop replies available r = some (.complete (r.writeAll chunks))) := by
  induction hdelivers generalizing r with
  | done =>
      constructor
      · intro h
        cases h
      · intro _
        rfl
  | available hcount _ ih =>
      simp only [readLoop, if_neg (Nat.ne_of_gt hcount)]
      exact ih r
  | @read available chunk rest chunks hchunk hlength _ ih =>
      simp only [readLoop, if_neg (Nat.not_lt.mpr hlength), if_neg hchunk,
        Reception.refusalSeen, Bool.false_and, Bool.false_or]
      cases hbad : (r.write chunk).bad with
      | true =>
          simp only [if_true, Bool.true_or]
          exact ⟨fun _ => ⟨_, rfl⟩, fun h => by cases h⟩
      | false =>
          simp only [Bool.false_eq_true, if_false, Bool.false_or]
          exact ih (r.write chunk)
  | nothing _ ih =>
      have hread : forall n : Nat, ¬ min (n + 1) kWriteBufferLength <
          ([] : ByteString).length := fun n => Nat.not_lt_zero _
      simp only [readLoop, if_neg (hread _), if_true]
      exact ih r

/-- The asynchronous client takes a read of nothing as the end of the body. -/
inductive DeliversAsync : List Reply -> List ByteString -> Prop where
  | done : DeliversAsync [.dataAvailable 0] []
  | nothing {count : Nat} : 0 < count ->
      DeliversAsync [.dataAvailable count, .readComplete []] []
  | read {count : Nat} {chunk : ByteString} {rest : List Reply}
      {chunks : List ByteString} :
      0 < count -> chunk ≠ [] ->
      chunk.length ≤ min count kWriteBufferLength ->
      DeliversAsync rest chunks ->
      DeliversAsync (.dataAvailable count :: .readComplete chunk :: rest)
        (chunk :: chunks)

theorem onReplies_eq {replies : List Reply} {chunks : List ByteString}
    (r : Reception σ)
    (hdelivers : DeliversAsync replies chunks) :
    (r.refusalSeen false chunks = true ->
        exists r', onReplies replies .QueryData r =
          some (.error writeStreamError r')) ∧
      (r.refusalSeen false chunks = false ->
        onReplies replies .QueryData r =
          some (.complete (r.writeAll chunks))) := by
  induction hdelivers generalizing r with
  | done =>
      constructor
      · intro h
        cases h
      · intro _
        rfl
  | @nothing count hcount =>
      constructor
      · intro h
        cases h
      · intro _
        have hread : ¬ min count kWriteBufferLength <
            ([] : ByteString).length := Nat.not_lt_zero _
        simp only [onReplies, if_neg (Nat.ne_of_gt hcount), if_neg hread,
          if_true]
        rfl
  | @read count chunk rest chunks hcount hchunk hlength _ ih =>
      simp only [onReplies, if_neg (Nat.ne_of_gt hcount),
        if_neg (Nat.not_lt.mpr hlength), if_neg hchunk, Reception.refusalSeen,
        Bool.false_and, Bool.false_or]
      cases hbad : (r.write chunk).bad with
      | true =>
          simp only [if_true, Bool.true_or]
          exact ⟨fun _ => ⟨_, rfl⟩, fun h => by cases h⟩
      | false =>
          simp only [Bool.false_eq_true, if_false, Bool.false_or]
          exact ih (r.write chunk)

/-- The stream is given to the response unless it stands in for a null sink. -/
def reachable (statusCode : Int) (factory : Option (SinkFactory σ)) : Bool :=
  isErrorStatus statusCode || factory.isNone

theorem received_ends {statusCode : Int} {headers : HeaderCollection}
    {factory : Option (SinkFactory σ)} {chunks : List ByteString}
    {r0 : Reception σ} {out : Received σ}
    (hrefused : r0.refusalSeen false chunks = true ->
      exists r', some out = some (.error writeStreamError r'))
    (hreceived : r0.refusalSeen false chunks = false ->
      some out = some (.complete (r0.writeAll chunks))) :
    Ends false (reachable statusCode factory) chunks r0
      (out.result statusCode headers factory) out.reception := by
  constructor
  · intro hseen
    rcases hrefused hseen with ⟨r', hout⟩
    cases hout
    exact ⟨writeStreamError, rfl⟩
  · intro hnot
    cases hreceived hnot
    exact ⟨_, rfl, rfl, rfl⟩

end WinHttp
end Transport
end OssSdk
