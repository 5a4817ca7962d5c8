import OssSdk.Internal.Sync.ClientImpl
import OssSdk.Utils.StringUtils

/-!
# Presigned URLs

A request is signed in its query and never sent.  What comes out is its URL, and the
headers that whoever sends the request has to send with it.
-/

namespace OssSdk
namespace Internal
namespace Sync

open Foundation
open Utils

variable {σ : Type}

structure PresignInnerOutput where
  url : ByteString
  method : ByteString
  expiration : Int
  signedHeaders : HeaderCollection
deriving DecidableEq

/-- The context and the request to sign, or an error that needs no signer. -/
def ClientImpl.presignStart (c : ClientImpl σ) (input : OperationInput σ)
    (opts : Option (OperationOptions σ)) (w : Runtime σ) :
    Except OperationError (ExecuteContext σ × RequestMessage σ) :=
  if c.innerOptions.initError.isError then
    .error (OperationError.ofCode c.innerOptions.initError
      c.innerOptions.initErrorFields)
  else
    match verifyOperation c.toClientImplBase input with
    | some (error, code, message) =>
        .error (OperationError.ofCode error
          (ErrorContext.empty.update error code message).errorFields)
    | none =>
        if c.options.credentialsProvider.isNone then
          .error (OperationError.ofCode (ErrorCode.credentials .ProviderNull)
            (ErrorContext.empty.addFields (some (bytes "IllegalArgument"))
              (some (bytes "Credentials provider is null."))).errorFields)
        else
          let context :=
            applyOperationOptions c.toClientImplBase (ExecuteContext.empty σ) opts none
          let (context, request) :=
            applyOperationInput c.toClientImplBase w.clockOffset context input
          if context.errorContext.error.isError then
            .error (OperationError.ofCode context.errorContext.error
              context.errorContext.errorFields)
          else .ok (context, applyOther request none)

/-- Whether a header has to be sent with the presigned URL. -/
def ClientImpl.isSignedHeader (c : ClientImpl σ) (k : ByteString) : Bool :=
  let isV4 := decide (bytes "v4" <:+: c.options.signer.getName)
  let low := ToLower k
  low == bytes "content-type" || low == bytes "content-md5" ||
    low.take 6 == bytes "x-oss-" ||
    (isV4 && c.options.additionalHeaders.any
      fun name => SortedMap.equivalent caseInsensitiveLess name low)

def ClientImpl.presignSignedHeaders (c : ClientImpl σ) (headers : HeaderCollection) :
    HeaderCollection :=
  SortedMap.ofList (headers.entries.filter fun e => c.isSignedHeader e.1)

/-- What a signer is called with, when there is one to call. -/
def ClientImpl.presignSigning (c : ClientImpl σ) (input : OperationInput σ)
    (opts : Option (OperationOptions σ)) (w : Runtime σ) :
    Option (RequestMessage σ × SigningContext × σ) :=
  match c.presignStart input opts w, c.options.credentialsProvider with
  | .ok (context, request), some provider =>
      if provider.getAuthType = .anonymous then none
      else
        let (cred, env) := provider.getCredentials w.env
        if !cred.hasKeys then none
        else
          some (request,
            { context.signingContext with credentials := cred, authMethodQuery := true },
            env)
  | _, _ => none

def ClientImpl.Presign (c : ClientImpl σ) (input : OperationInput σ)
    (opts : Option (OperationOptions σ)) (w : Runtime σ) :
    Except OperationError PresignInnerOutput × Runtime σ :=
  match c.presignStart input opts w with
  | .error e => (.error e, w)
  | .ok (context, request) =>
      let failed (request : RequestMessage σ) (errorContext : ErrorContext) :
          Except OperationError PresignInnerOutput :=
        .error
          { OperationError.ofCode errorContext.error errorContext.errorFields with
            opName := input.opName
            method := request.method
            requestTarget := request.uri }
      let done (request : RequestMessage σ) (signingContext : SigningContext)
          (signedHeaders : HeaderCollection) :
          Except OperationError PresignInnerOutput :=
        .ok ⟨request.uri, request.method, signingContext.expirationInEpoch,
          signedHeaders⟩
      match c.options.credentialsProvider with
      | none => (done request context.signingContext SortedMap.empty, w)
      | some provider =>
          if provider.getAuthType = .anonymous then
            (done request context.signingContext SortedMap.empty, w)
          else
            let (cred, env) := provider.getCredentials w.env
            let w := { w with env := env }
            if !cred.hasKeys then
              let code : CredentialsErrorCode :=
                if cred.retryable then .FetchError else .Empty
              (failed request (context.errorContext.update
                (ErrorCode.credentials code) (bytes "CredentialsError")
                (cred.error.getD (bytes "Credentials is null or empty."))), w)
            else
              let (signed, request, signingContext, env) :=
                c.options.signer.sign request
                  { context.signingContext with
                    credentials := cred, authMethodQuery := true } env
              let w := { w with env := env }
              if !signed then
                (failed request (context.errorContext.update
                  (ErrorCode.signer .SignFailed) (bytes "SignatureError")
                  (bytes "The signer encountered an error while signing.")), w)
              else
                (done request signingContext
                  (c.presignSignedHeaders request.headers), w)

/-- A presigned URL is that of the request that the signer is called with. -/
theorem ClientImpl.Presign_signing {c : ClientImpl σ} {input : OperationInput σ}
    {opts : Option (OperationOptions σ)} {w : Runtime σ}
    {request : RequestMessage σ} {context : SigningContext} {env : σ}
    (hsigning : c.presignSigning input opts w = some (request, context, env))
    (hsigned : (c.options.signer.sign request context env).1 = true) :
    (c.Presign input opts w).1 =
      .ok
        { url := (c.options.signer.sign request context env).2.1.uri
          method := (c.options.signer.sign request context env).2.1.method
          expiration :=
            (c.options.signer.sign request context env).2.2.1.expirationInEpoch
          signedHeaders :=
            c.presignSignedHeaders
              (c.options.signer.sign request context env).2.1.headers } := by
  unfold ClientImpl.presignSigning at hsigning
  unfold ClientImpl.Presign
  cases hstart : c.presignStart input opts w with
  | error e =>
      rw [hstart] at hsigning
      cases hsigning
  | ok started =>
      rcases started with ⟨prepared, first⟩
      rw [hstart] at hsigning
      cases hprovider : c.options.credentialsProvider with
      | none =>
          rw [hprovider] at hsigning
          cases hsigning
      | some provider =>
          rw [hprovider] at hsigning
          simp only at hsigning ⊢
          split at hsigning
          · cases hsigning
          · rename_i hauth
            rw [if_neg hauth]
            rcases hcred : provider.getCredentials w.env with ⟨cred, env'⟩
            simp only [hcred] at hsigning ⊢
            split at hsigning
            · cases hsigning
            · rename_i hkeys
              rw [if_neg hkeys]
              cases hsigning
              simp only [hsigned, Bool.not_true, Bool.false_eq_true, if_false]

end Sync
end Internal
end OssSdk
