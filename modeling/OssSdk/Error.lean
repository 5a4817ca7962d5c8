import Mathlib.Data.List.Basic

/-!
# Error codes

An error code is a value of a category; the value zero of any category is no
error.  A category decides which of the conditions its values are equivalent to.
-/

namespace OssSdk

inductive ErrorCondition where
  | Retryable
  | NonRetryable
  | Canceled
  | InvalidArgument
  | AuthenticationError
deriving DecidableEq

inductive ClientErrorCode where
  | ArgumentInvalid
  | ArgumentRequired
  | EndpointInvalid
  | EndpointRegionNull
  | BucketNameInvalid
  | ObjectNameInvalid
  | CrcMismatch
  | RequestDisable
  | OperationCanceled
  | OperationNotSupported
  | RequestMethodEmpty
  | ReadDataFail
  | EncryptionFailure
  | AccountIdNull
  | HostLabelTooLong
deriving DecidableEq

inductive CredentialsErrorCode where
  | Empty
  | FetchError
  | ProviderNull
deriving DecidableEq

inductive SignerErrorCode where
  | SignFailed
deriving DecidableEq

inductive SerdeErrorCode where
  | DeserializationFailed
deriving DecidableEq

inductive TransportErrorCode where
  | ConnectionFailed
  | DnsError
  | SslError
  | Timeout
  | SendRecvError
  | PartialTransfer
  | Canceled
  | NotSupported
  | Unknown
deriving DecidableEq

/-- The categories of the library; `other` stands for any other category. -/
inductive ErrorCategory where
  | client
  | credentials
  | signer
  | serde
  | server
  | transport
  | other (tag : Nat)
deriving DecidableEq

structure ErrorCode where
  category : ErrorCategory
  value : Int
deriving DecidableEq

namespace ErrorCode

/-- `std::error_code()`. -/
def none : ErrorCode := ⟨.other 0, 0⟩

/-- Conversion to `bool`. -/
def isError (e : ErrorCode) : Bool := decide (e.value ≠ 0)

/-!
# Making codes
-/

def client (e : ClientErrorCode) : ErrorCode := ⟨.client, e.ctorIdx + 1⟩

def credentials (e : CredentialsErrorCode) : ErrorCode :=
  ⟨.credentials, e.ctorIdx + 1⟩

def signer (e : SignerErrorCode) : ErrorCode := ⟨.signer, e.ctorIdx + 1⟩

def serde (e : SerdeErrorCode) : ErrorCode := ⟨.serde, e.ctorIdx + 1⟩

def transport (e : TransportErrorCode) : ErrorCode :=
  ⟨.transport, e.ctorIdx + 1⟩

/-- `make_server_error_code`. -/
def server (httpStatus : Int) : ErrorCode := ⟨.server, httpStatus⟩

/-- `make_retryable_server_error_code`. -/
def retryableServer (httpStatus : Int) : ErrorCode :=
  ⟨.server, 10000 + httpStatus⟩

/-- `std::make_error_code` of a `std::errc`, by its number. -/
def generic (errno : Int) : ErrorCode := ⟨.other 1, errno⟩

/-!
# Conditions
-/

def clientCodes : ErrorCondition -> List ClientErrorCode
  | .InvalidArgument =>
      [.ArgumentInvalid, .ArgumentRequired, .EndpointInvalid,
        .EndpointRegionNull, .BucketNameInvalid, .ObjectNameInvalid,
        .RequestMethodEmpty, .AccountIdNull, .HostLabelTooLong]
  | .Retryable => [.CrcMismatch]
  | .Canceled => [.OperationCanceled]
  | .NonRetryable =>
      [.RequestDisable, .OperationNotSupported, .ReadDataFail,
        .EncryptionFailure]
  | .AuthenticationError => []

def credentialsCodes : ErrorCondition -> List CredentialsErrorCode
  | .Retryable => [.FetchError]
  | .AuthenticationError => [.Empty, .ProviderNull]
  | _ => []

def signerCodes : ErrorCondition -> List SignerErrorCode
  | .AuthenticationError => [.SignFailed]
  | _ => []

def serdeCodes : ErrorCondition -> List SerdeErrorCode
  | .NonRetryable => [.DeserializationFailed]
  | _ => []

def transportCodes : ErrorCondition -> List TransportErrorCode
  | .Retryable =>
      [.ConnectionFailed, .DnsError, .Timeout, .SendRecvError,
        .PartialTransfer]
  | .Canceled => [.Canceled]
  | .NonRetryable => [.SslError, .NotSupported, .Unknown]
  | _ => []

def serverEquivalent (code : Int) (cond : ErrorCondition) : Bool :=
  if 10000 ≤ code then decide (cond = .Retryable)
  else
    match cond with
    | .Retryable =>
        decide (500 ≤ code ∧ code < 600) || code == 401 || code == 408 ||
          code == 429
    | .NonRetryable =>
        decide (400 ≤ code ∧ code < 500) && code != 401 && code != 408 &&
          code != 429
    | _ => false

/-- `error == cond`. -/
def equivalent (e : ErrorCode) (cond : ErrorCondition) : Bool :=
  match e.category with
  | .client => (clientCodes cond).any fun c => client c == e
  | .credentials => (credentialsCodes cond).any fun c => credentials c == e
  | .signer => (signerCodes cond).any fun c => signer c == e
  | .serde => (serdeCodes cond).any fun c => serde c == e
  | .transport => (transportCodes cond).any fun c => transport c == e
  | .server => serverEquivalent e.value cond
  | .other _ => false

@[simp] theorem isError_none : none.isError = false := rfl

@[simp] theorem isError_credentials (e : CredentialsErrorCode) :
    (credentials e).isError = true := by
  cases e <;> rfl

@[simp] theorem isError_signer (e : SignerErrorCode) :
    (signer e).isError = true := by
  cases e
  rfl

@[simp] theorem isError_transport (e : TransportErrorCode) :
    (transport e).isError = true := by
  cases e <;> rfl

@[simp] theorem isError_client (e : ClientErrorCode) :
    (client e).isError = true := by
  cases e <;> rfl

end ErrorCode
end OssSdk
