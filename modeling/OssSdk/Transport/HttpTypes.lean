import OssSdk.Error
import OssSdk.Types
import OssSdk.Io.ByteWriter

/-!
# Messages between the client and a transport

What the client calls and does not implement itself (transports, signers,
credential providers, sinks, tokens) reads and changes the state `σ` of its
environment.
-/

namespace OssSdk

open Foundation

/-- A consumer of the bytes of a request body as they are read. -/
structure StreamObserver (σ : Type) where
  data : ByteString -> σ -> σ
  reset : σ -> σ

inductive ByteContent (σ : Type) where
  | content (isOneShot : Bool) (length : Option Nat) (data : ByteString)
  | tee (source : ByteContent σ) (sinks : List (StreamObserver σ))

def ByteContent.isOneShot {σ : Type} : ByteContent σ -> Bool
  | .content isOneShot _ _ => isOneShot
  | .tee source _ => source.isOneShot

structure SinkFactory (σ : Type) where
  supplier :
    Option (Int -> HeaderCollection -> σ -> Option (ByteWriter σ) × σ)
  isOneShot : Bool

/-- `operator()`: a factory without a supplier gives a null sink. -/
def SinkFactory.call {σ : Type} (f : SinkFactory σ) (size : Int)
    (headers : HeaderCollection) (w : σ) : Option (ByteWriter σ) × σ :=
  match f.supplier with
  | some supplier => supplier size headers w
  | none => (none, w)

structure CancellationToken (σ : Type) where
  canBeCanceled : Bool
  isCanceled : σ -> Bool
  waitFor : Int -> σ -> Bool × σ

structure RequestOptions (σ : Type) where
  sinkFactory : Option (SinkFactory σ)
  cancellationToken : Option (CancellationToken σ)

/-- The code of a failure is never the value zero, which would be no error. -/
structure TransportError where
  error : ErrorCode
  errorCode : ByteString
  errorMessage : ByteString
  isError : error.isError = true
deriving DecidableEq

def TransportError.make (e : TransportErrorCode)
    (errorCode errorMessage : ByteString) : TransportError :=
  ⟨ErrorCode.transport e, errorCode, errorMessage, ErrorCode.isError_transport e⟩

structure RequestMessage (σ : Type) where
  method : ByteString
  uri : ByteString
  headers : HeaderCollection
  body : Option (ByteContent σ)

/-- The body is the content of the stream, for those who can reach it. -/
structure ResponseMessage where
  statusCode : Int
  reason : ByteString
  headers : HeaderCollection
  body : Option ByteString
deriving DecidableEq

inductive ResponseResult where
  | response (r : ResponseMessage)
  | error (te : TransportError)
deriving DecidableEq

end OssSdk
