import OssSdk.Internal.OSSUtils

/-!
# What both clients do before and after an attempt

An operation is verified and turned into a request; its context gets the checks
that every response goes through.
-/

namespace OssSdk
namespace Internal

open Foundation

variable {σ : Type}

/-- `thirdparty::tinyxml2`, as far as an error document is read. -/
inductive XmlDocument where
  | parseError (id : Int) (name : ByteString)
  | noRoot
  | root (name : ByteString)
      (children : List (Option ByteString × Option ByteString))

/-- Library functions that the checks of a response call. -/
structure Platform (σ : Type) where
  parseXml : ByteString -> XmlDocument
  base64Decode : ByteString -> ByteString
  gmtToUnixTime : ByteString -> Int
  utcToUnixTime : ByteString -> Int
  time : σ -> Int

structure ClientOptions (σ : Type) where
  product : ByteString
  region : ByteString
  credentialsProvider : Option (CredentialsProvider σ)
  signer : Signer σ
  retryer : Retryer σ
  addressStyle : AddressStyleType
  featureFlags : Nat
  additionalHeaders : List ByteString
  bucketNameResolver : Option (OperationInput σ -> ByteString)
  /-- The URL, the error code and its message. -/
  endpointProvider :
    Option (OperationInput σ -> ByteString × ErrorCode × ByteString)

/-- The part of `resolveConfig` that reads `ClientConfiguration::additionalHeaders`. -/
def ClientOptions.resolveAdditionalHeaders (options : ClientOptions σ)
    (additionalHeaders : Option (List ByteString)) : ClientOptions σ :=
  match additionalHeaders with
  | some names => { options with additionalHeaders := names }
  | none => options

structure ClientInnerOptions where
  endpointScheme : ByteString
  endpointAuthority : ByteString
  userAgent : ByteString
  initError : ErrorCode
  initErrorFields : ErrorFields

structure OperationOptions (σ : Type) where
  retryMaxAttempts : Option Int
  cancellationToken : Option (CancellationToken σ)

structure OperationInnerOptions (σ : Type) where
  sinkFactory : Option (SinkFactory σ)
  onResponseMessage : List (ResponseMessageFn σ)
  uploadObserver : List (StreamObserver σ)

structure ClientImplBase (σ : Type) where
  platform : Platform σ
  options : ClientOptions σ
  innerOptions : ClientInnerOptions

def ClientImplBase.hasFlag (c : ClientImplBase σ) (flag : FeatureFlagsType) :
    Bool :=
  c.options.featureFlags.testBit flag.bit

/-!
# Checks of a response
-/

/-- The error fields of a response with an unsuccessful status. -/
def serviceErrorFields (p : Platform σ) (headers : HeaderCollection)
    (snapshot : ByteString) : ErrorFields :=
  let fields := fun (code message : ByteString) =>
    ((SortedMap.empty : ErrorFields).emplace (bytes "Code") code).emplace
      (bytes "Message") message
  if snapshot.isEmpty then
    fields (bytes "BadErrorResponse") (bytes "Empty body")
  else if headers.find? (bytes "Content-Type") ==
      some (bytes "application/json") then
    fields (bytes "ParseJSONError") (bytes "Not support json body")
  else
    match p.parseXml snapshot with
    | .parseError id name =>
        fields (bytes "ParseXMLError:" ++ toDecimalInt id) name
    | .root name children =>
        if name.take 5 = bytes "Error" then
          children.foldl (fun fields child =>
            match child with
            | (some name, some text) => fields.emplace name text
            | _ => fields) SortedMap.empty
        else
          fields (bytes "ParseXMLError")
            (bytes "Xml format invalid, root node name is not Error. the content is:\n"
              ++ snapshot.take 255)
    | .noRoot =>
        fields (bytes "ParseXMLError")
          (bytes "Xml format invalid, root node name is not Error. the content is:\n"
            ++ snapshot.take 255)

def onPreServiceError (p : Platform σ) : ResponseMessageFn σ := fun c =>
  if c.response.statusCode.tdiv 100 = 2 then (true, c)
  else
    let body :=
      if c.errorContext.snapshot.isEmpty then c.response.body.getD []
      else c.errorContext.snapshot
    let snapshot :=
      if body.isEmpty then
        match c.response.headers.find? (bytes "x-oss-err") with
        | some v => p.base64Decode v
        | none => body
      else body
    (true,
      { c with
        errorContext :=
          { error := ErrorCode.server c.response.statusCode
            errorFields := serviceErrorFields p c.response.headers snapshot
            snapshot := snapshot } })

def isClockSkewError (statusCode : Int) (fields : ErrorFields) : Bool :=
  if statusCode = 403 then
    fields.find? (bytes "Code") == some (bytes "RequestTimeTooSkewed")
  else if statusCode = 400 then
    fields.find? (bytes "Code") == some (bytes "InvalidArgument") &&
      fields.find? (bytes "Message") ==
        some (bytes "Invalid signing date in Authorization header.")
  else false

/-- The time of the server, or -1. -/
def serverTime (p : Platform σ) (headers : HeaderCollection)
    (fields : ErrorFields) : Int :=
  let date :=
    match headers.find? (bytes "Date") with
    | some v => p.gmtToUnixTime v
    | none => -1
  if date = -1 then
    match fields.find? (bytes "ServerTime") with
    | some v => p.utcToUnixTime v
    | none => -1
  else date

def onClockSkewError (p : Platform σ) : ResponseMessageFn σ := fun c =>
  if !isClockSkewError c.response.statusCode c.errorContext.errorFields then
    (true, c)
  else
    let time := serverTime p c.response.headers c.errorContext.errorFields
    if time = -1 then (true, c)
    else
      let newOffset := time - p.time c.runtime.env
      if c.response.statusCode = 400 ∧ newOffset.natAbs < 900 then (true, c)
      else
        let clockOffset :=
          if 60 < (newOffset - c.runtime.clockOffset).natAbs then newOffset
          else c.runtime.clockOffset
        (true,
          { c with
            runtime := { c.runtime with clockOffset := clockOffset }
            signingContext := { c.signingContext with clockOffset := newOffset }
            errorContext :=
              { c.errorContext with
                error := ErrorCode.retryableServer c.response.statusCode } })

def onPostServiceError : ResponseMessageFn σ := fun c =>
  (!c.errorContext.error.isError, c)

/-!
# Preparing an operation
-/

/-- The first check that fails gives the error; `none` when all pass. -/
def verifyOperation (c : ClientImplBase σ) (input : OperationInput σ) :
    Option (ErrorCode × ByteString × ByteString) :=
  let invalid := fun (code : ClientErrorCode) (message : ByteString) =>
    some (ErrorCode.client code, bytes "IllegalArgument", message)
  if c.innerOptions.endpointAuthority.isEmpty then
    invalid .EndpointInvalid (bytes "endpoint or region is invalid")
  else if !isValidMethod input.method then
    invalid .RequestMethodEmpty
      (bytes "input.method is empty or invalid, got " ++ input.method ++ bytes ".")
  else if !(input.bucket.all isValidBucketName) then
    invalid .BucketNameInvalid
      (bytes "input.bucket is invalid, got " ++ input.bucket.getD [] ++ bytes ".")
  else if !(input.key.all isValidObjectName) then
    invalid .ObjectNameInvalid
      (bytes "input.key is invalid, got " ++ input.key.getD [] ++ bytes ".")
  else none

def applyOperationOptions (c : ClientImplBase σ) (context : ExecuteContext σ)
    (opts : Option (OperationOptions σ))
    (innerOpts : Option (OperationInnerOptions σ)) : ExecuteContext σ :=
  let opts := opts.getD ⟨none, none⟩
  let innerOpts := innerOpts.getD ⟨none, [], []⟩
  let clockSkew :=
    if c.hasFlag .CorrectClockSkew then [onClockSkewError c.platform] else []
  { context with
    retryMaxAttempts :=
      opts.retryMaxAttempts.getD c.options.retryer.getMaxAttempts
    onResponseMessage :=
      context.onResponseMessage ++ [onPreServiceError c.platform] ++
        clockSkew ++ [onPostServiceError] ++ innerOpts.onResponseMessage
    signingContext :=
      { context.signingContext with
        product := c.options.product
        region := c.options.region
        authMethodQuery := false }
    transportContext :=
      { sinkFactory :=
          innerOpts.sinkFactory.or context.transportContext.sinkFactory
        cancellationToken :=
          (opts.cancellationToken.filter (·.canBeCanceled)).or
            context.transportContext.cancellationToken } }

def requestUri (input : OperationInput σ) (url : ByteString) : ByteString :=
  let query := Utils.ToQueryString input.parameters
  if query.isEmpty then url else url ++ bytes "?" ++ query

/-- The request, or the error of the endpoint provider. -/
def applyOperationInput (c : ClientImplBase σ) (clockOffset : Int)
    (context : ExecuteContext σ) (input : OperationInput σ) :
    ExecuteContext σ × RequestMessage σ :=
  let bucket :=
    match input.bucket with
    | some bucket =>
        match c.options.bucketNameResolver with
        | some resolver => resolver input
        | none => bucket
    | none => context.signingContext.bucket
  let signingContext :=
    { context.signingContext with
      bucket := bucket
      key := input.key.getD context.signingContext.key }
  let request (url : ByteString) : ExecuteContext σ × RequestMessage σ :=
    ({ context with
        signingContext :=
          { signingContext with
            clockOffset := clockOffset
            signTimeInEpoch := 0
            expirationInEpoch :=
              match input.opMetadata.find? (bytes "EXPIRATION_TIME") with
              | some (.int64 val) => val
              | _ => 0 } },
      { method := input.method
        uri := requestUri input url
        headers :=
          input.headers.insertOrAssign (bytes "User-Agent")
            c.innerOptions.userAgent
        body := input.body })
  match c.options.endpointProvider with
  | some provider =>
      let (url, ec, message) := provider input
      if ec.isError then
        ({ context with
            signingContext := signingContext
            errorContext :=
              context.errorContext.update ec (bytes "IllegalArgument")
                (bytes "EndpointProvider returns error, detail is " ++ message) },
          ⟨[], [], SortedMap.empty, none⟩)
      else request url
  | none =>
      request (c.innerOptions.endpointScheme ++ bytes "://" ++
        buildHostPath input c.innerOptions.endpointAuthority
          c.options.addressStyle)

def applyOther (request : RequestMessage σ)
    (innerOpts : Option (OperationInnerOptions σ)) : RequestMessage σ :=
  match innerOpts, request.body with
  | some innerOpts, some body =>
      if innerOpts.uploadObserver.isEmpty then request
      else { request with body := some (.tee body innerOpts.uploadObserver) }
  | _, _ => request

/--
Everything before the stack runs: either an error that needs no attempt, or the
context and the request of the first one.
-/
def prepare (c : ClientImplBase σ) (clockOffset : Int)
    (input : OperationInput σ) (opts : Option (OperationOptions σ))
    (innerOpts : Option (OperationInnerOptions σ)) :
    Except OperationError (ExecuteContext σ × RequestMessage σ) :=
  if c.innerOptions.initError.isError then
    .error (OperationError.ofCode c.innerOptions.initError
      c.innerOptions.initErrorFields)
  else
    match verifyOperation c input with
    | some (error, code, message) =>
        let errorContext := ErrorContext.empty.update error code message
        .error (OperationError.ofCode error errorContext.errorFields)
    | none =>
        let context :=
          applyOperationOptions c (ExecuteContext.empty σ) opts innerOpts
        let (context, request) := applyOperationInput c clockOffset context input
        if context.errorContext.error.isError then
          .error (OperationError.ofCode context.errorContext.error
            context.errorContext.errorFields)
        else .ok (context, applyOther request innerOpts)

/-- The token that an operation's options put into its context. -/
def tokenOf (opts : Option (OperationOptions σ)) :
    Option (CancellationToken σ) :=
  (opts.bind (·.cancellationToken)).filter (·.canBeCanceled)

theorem applyOperationInput_frame
    {c : ClientImplBase σ}
    {clockOffset : Int}
    {context : ExecuteContext σ}
    {input : OperationInput σ}
    (hok : (applyOperationInput c clockOffset context
      input).1.errorContext.error.isError = false) :
    let after := (applyOperationInput c clockOffset context input).1
    after.errorContext = context.errorContext ∧
      after.transportContext = context.transportContext := by
  unfold applyOperationInput at hok ⊢
  cases hprovider : c.options.endpointProvider with
  | none => exact ⟨rfl, rfl⟩
  | some provider =>
      rw [hprovider] at hok
      rcases hurl : provider input with ⟨url, ec, message⟩
      cases hec : ec.isError with
      | false => simp [hurl, hec]
      | true => simp [hurl, hec] at hok

/-- A prepared operation starts without an error. -/
theorem prepare_ok
    {c : ClientImplBase σ}
    {clockOffset : Int}
    {input : OperationInput σ}
    {opts : Option (OperationOptions σ)}
    {innerOpts : Option (OperationInnerOptions σ)}
    {context : ExecuteContext σ}
    {request : RequestMessage σ}
    (hprepare : prepare c clockOffset input opts innerOpts =
      .ok (context, request)) :
    context.errorContext = ErrorContext.empty ∧
      context.transportContext.cancellationToken = tokenOf opts := by
  unfold prepare at hprepare
  split at hprepare
  · cases hprepare
  · split at hprepare
    · cases hprepare
    · simp only at hprepare
      split at hprepare
      · cases hprepare
      · rename_i hok
        cases hprepare
        rw [Bool.not_eq_true] at hok
        rcases applyOperationInput_frame hok with ⟨herror, htransport⟩
        rw [herror, htransport]
        refine ⟨rfl, ?_⟩
        cases opts with
        | none => rfl
        | some opts => exact Option.or_none

/-!
# The cancellation token of a request
-/

def ExecuteContext.canceled (context : ExecuteContext σ) (env : σ) : Bool :=
  match context.transportContext.cancellationToken with
  | some token => token.isCanceled env
  | none => false

/-- A request body or a sink that can be used only once. -/
def isOneShot (request : RequestMessage σ) (context : ExecuteContext σ) : Bool :=
  request.body.any ByteContent.isOneShot ||
    context.transportContext.sinkFactory.any (·.isOneShot)

/-- Back to the state before the first attempt. -/
def ExecuteContext.resetForRetry (context : ExecuteContext σ)
    (signTime expiration : Int) : ExecuteContext σ :=
  { context with
    errorContext := ErrorContext.empty
    signingContext :=
      { context.signingContext with
        signTimeInEpoch := signTime
        expirationInEpoch := expiration } }

def ErrorContext.canceledByToken (c : ErrorContext) : ErrorContext :=
  { c with error := ErrorCode.transport .Canceled }.addFields
    (some (bytes "RequestCanceled"))
    (some (bytes "Request canceled by CancellationToken"))

def ErrorContext.ofTransportError (c : ErrorContext) (te : TransportError) :
    ErrorContext :=
  { c with error := te.error }.addFields
    (if te.errorCode.isEmpty then none else some te.errorCode)
    (if te.errorMessage.isEmpty then none else some te.errorMessage)

/-- The checks run in order until one of them says to stop. -/
def runChecks : List (ResponseMessageFn σ) -> Checked σ -> Checked σ
  | [], c => c
  | fn :: rest, c =>
      match fn c with
      | (true, c) => runChecks rest c
      | (false, c) => c

/-!
# A client that signs nothing
-/

def anonymousBase (σ : Type) : ClientImplBase σ where
  platform :=
    { parseXml := fun _ => .noRoot
      base64Decode := fun data => data
      gmtToUnixTime := fun _ => -1
      utcToUnixTime := fun _ => -1
      time := fun _ => 0 }
  options :=
    { product := bytes "oss"
      region := bytes "cn-hangzhou"
      credentialsProvider := some ⟨.anonymous, fun env => (Credentials.empty, env)⟩
      signer :=
        { getName := bytes "none"
          sign := fun request context env => (true, request, context, env) }
      retryer :=
        { getMaxAttempts := 3
          isErrorRetryable := fun e env => (e.equivalent .Retryable, env)
          calcDelayTime := fun _ _ env => (0, env) }
      addressStyle := .VirtualHosted
      featureFlags := 15
      additionalHeaders := []
      bucketNameResolver := none
      endpointProvider := none }
  innerOptions :=
    { endpointScheme := bytes "https"
      endpointAuthority := bytes "oss-cn-hangzhou.aliyuncs.com"
      userAgent := bytes "alibabacloud-cpp-sdk-v2"
      initError := ErrorCode.none
      initErrorFields := SortedMap.empty }

def headObjectInput (σ : Type) : OperationInput σ where
  opName := bytes "HeadObject"
  method := bytes "HEAD"
  headers := SortedMap.empty
  parameters := SortedMap.empty
  bucket := some (bytes "bucket")
  key := some (bytes "key")
  opMetadata := SortedMap.empty
  body := none

end Internal
end OssSdk
