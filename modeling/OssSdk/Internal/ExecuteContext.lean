import OssSdk.Transport.HttpTypes

/-!
# The context of one operation

Both execution stacks work on the same context.  The functions that check a
response see its signing and error parts, which are the parts they change.
-/

namespace OssSdk
namespace Internal

open Foundation

structure Credentials where
  accessKeyId : ByteString
  accessKeySecret : ByteString
  sessionToken : ByteString
  error : Option ByteString
  retryable : Bool
deriving DecidableEq

def Credentials.hasKeys (c : Credentials) : Bool :=
  !c.accessKeyId.isEmpty && !c.accessKeySecret.isEmpty

def Credentials.empty : Credentials := ⟨[], [], [], none, false⟩

structure SigningContext where
  product : ByteString
  region : ByteString
  bucket : ByteString
  key : ByteString
  authMethodQuery : Bool
  credentials : Credentials
  stringToSign : ByteString
  expirationInEpoch : Int
  signTimeInEpoch : Int
  clockOffset : Int
  additionalHeaders : List ByteString
deriving DecidableEq

def SigningContext.empty : SigningContext where
  product := []
  region := []
  bucket := []
  key := []
  authMethodQuery := false
  credentials := Credentials.empty
  stringToSign := []
  expirationInEpoch := 0
  signTimeInEpoch := 0
  clockOffset := 0
  additionalHeaders := []

structure ErrorContext where
  error : ErrorCode
  errorFields : ErrorFields
  snapshot : ByteString
deriving DecidableEq

def ErrorContext.empty : ErrorContext := ⟨ErrorCode.none, SortedMap.empty, []⟩

/--
What outlives an operation: the clock offset that all operations of a client
share, and the environment.
-/
structure Runtime (σ : Type) where
  clockOffset : Int
  env : σ
deriving DecidableEq

/-- What a response check may change. -/
structure Checked (σ : Type) where
  response : ResponseMessage
  signingContext : SigningContext
  errorContext : ErrorContext
  runtime : Runtime σ

/-- `false` stops the checks that follow. -/
def ResponseMessageFn (σ : Type) : Type := Checked σ -> Bool × Checked σ

structure ExecuteContext (σ : Type) where
  retryMaxAttempts : Int
  onResponseMessage : List (ResponseMessageFn σ)
  signingContext : SigningContext
  transportContext : RequestOptions σ
  errorContext : ErrorContext

def ExecuteContext.empty (σ : Type) : ExecuteContext σ where
  retryMaxAttempts := 0
  onResponseMessage := []
  signingContext := SigningContext.empty
  transportContext := ⟨none, none⟩
  errorContext := ErrorContext.empty

namespace ErrorContext

/-- `errorFields.emplace` for each of the two usual fields that is there. -/
def addFields (c : ErrorContext) (code message : Option ByteString) :
    ErrorContext :=
  let withCode :=
    match code with
    | some v => c.errorFields.emplace (bytes "Code") v
    | none => c.errorFields
  let withMessage :=
    match message with
    | some v => withCode.emplace (bytes "Message") v
    | none => withCode
  { c with errorFields := withMessage }

/-- `updateError`; an empty message is left out. -/
def update (c : ErrorContext) (error : ErrorCode) (code message : ByteString) :
    ErrorContext :=
  { c with error := error }.addFields (some code)
    (if message.isEmpty then none else some message)

@[simp] theorem addFields_error
    (c : ErrorContext) (code message : Option ByteString) :
    (c.addFields code message).error = c.error := rfl

@[simp] theorem addFields_snapshot
    (c : ErrorContext) (code message : Option ByteString) :
    (c.addFields code message).snapshot = c.snapshot := rfl

@[simp] theorem update_error
    (c : ErrorContext) (error : ErrorCode) (code message : ByteString) :
    (c.update error code message).error = error := rfl

@[simp] theorem update_snapshot
    (c : ErrorContext) (error : ErrorCode) (code message : ByteString) :
    (c.update error code message).snapshot = c.snapshot := rfl

end ErrorContext

/-!
# What an operation yields
-/

structure OperationOutput where
  statusCode : Int
  headers : HeaderCollection
  body : Option ByteString
deriving DecidableEq

structure OperationError where
  opName : ByteString
  method : ByteString
  requestTarget : ByteString
  errorCode : ErrorCode
  errorFields : ErrorFields
  statusCode : Int
  headers : HeaderCollection
  snapshot : ByteString
deriving DecidableEq

inductive OperationResult where
  | output (o : OperationOutput)
  | error (e : OperationError)
deriving DecidableEq

/-- The error of a call that never reached a transport. -/
def OperationError.ofCode (error : ErrorCode) (fields : ErrorFields) :
    OperationError where
  opName := []
  method := []
  requestTarget := []
  errorCode := error
  errorFields := fields
  statusCode := 0
  headers := SortedMap.empty
  snapshot := []

/--
The result of a finished operation, from the response that the caller is left
with.  The two stacks build it the same way.
-/
def buildResult {σ : Type} (opName : ByteString) (request : RequestMessage σ)
    (errorContext : ErrorContext) (response : Option ResponseMessage) :
    OperationResult :=
  let err : OperationError :=
    { OperationError.ofCode errorContext.error errorContext.errorFields with
      opName := opName
      method := request.method
      requestTarget := request.uri }
  match response with
  | none => .error err
  | some r =>
      if errorContext.error.isError then
        .error
          { err with
            statusCode := r.statusCode
            headers := r.headers
            snapshot := errorContext.snapshot }
      else .output ⟨r.statusCode, r.headers, r.body⟩

/-!
# The parts of a client that are supplied to it
-/

inductive AuthType where
  | default
  | anonymous
deriving DecidableEq

structure CredentialsProvider (σ : Type) where
  getAuthType : AuthType
  getCredentials : σ -> Credentials × σ

/-- Signing changes the request that the signing context points to. -/
structure Signer (σ : Type) where
  getName : ByteString
  sign : RequestMessage σ -> SigningContext -> σ ->
    Bool × RequestMessage σ × SigningContext × σ

structure Retryer (σ : Type) where
  getMaxAttempts : Int
  isErrorRetryable : ErrorCode -> σ -> Bool × σ
  calcDelayTime : ErrorCode -> Int -> σ -> Int × σ

structure HttpTransport (σ : Type) where
  send : RequestMessage σ -> RequestOptions σ -> σ ->
    ResponseResult × RequestMessage σ × σ

end Internal
end OssSdk
