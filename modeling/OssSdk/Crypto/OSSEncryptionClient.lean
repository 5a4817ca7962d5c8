import OssSdk.Client.GetObject
import OssSdk.Crypto.AesCtrCipherBuilder
import OssSdk.Transport.Curl.CurlHttpClient
import OssSdk.Utils.RangeHeader

/-!
# The encryption client

What is put is encrypted, and the key and the vector go into the metadata, encrypted
by the master cipher.  A range that is got begins at a block of the cipher; what comes
before the range that was asked for is decrypted and discarded.
-/

namespace OssSdk
namespace Crypto

open Foundation
open Internal
open Sync
open Client
open Transport
open Utils

variable {ρ σ τ β : Type}

def kCseKeyHeader : ByteString := bytes "x-oss-meta-client-side-encryption-key"

def kCseStartHeader : ByteString := bytes "x-oss-meta-client-side-encryption-start"

def kCseCekAlgHeader : ByteString := bytes "x-oss-meta-client-side-encryption-cek-alg"

def kCseWrapAlgHeader : ByteString := bytes "x-oss-meta-client-side-encryption-wrap-alg"

def kCseMatDescHeader : ByteString := bytes "x-oss-meta-client-side-encryption-matdesc"

/-!
# Writers
-/

def ErrorWriter : ByteWriter τ where
  onWrite _ w := (0, w)
  iostate _ := ⟨false, false, true⟩
  onWrite_le data _ := Nat.zero_le data.length

/-- How much of `n` bytes is discarded. -/
def skipped (remaining : Int) (n : Nat) : Nat :=
  if 0 < remaining then (min remaining n).toNat else 0

theorem skipped_le (remaining : Int) (n : Nat) : skipped remaining n ≤ n := by
  unfold skipped
  split
  · exact Int.toNat_le.mpr (min_le_right _ _)
  · exact Nat.zero_le n

/-- The state is `remaining_`, and what the inner writer works on. -/
def DiscardWriter (inner : ByteWriter ρ) : ByteWriter (Int × ρ) where
  onWrite data s :=
    let skip := skipped s.1 data.length
    let remaining := s.1 - skip
    if 0 < data.length - skip then
      let (written, r) := inner.write (data.drop skip) s.2
      (skip + written, remaining, r)
    else (skip, remaining, s.2)
  iostate s := inner.iostate s.2
  onWrite_le data s := by
    have hskip := skipped_le s.1 data.length
    simp only
    split
    · refine Nat.add_le_of_le_sub' hskip ?_
      rw [← List.length_drop]
      exact inner.onWrite_le _ _
    · exact hskip

theorem skipped_eq (remaining : Int) (n : Nat) :
    skipped remaining n = min remaining.toNat n := by
  unfold skipped
  split
  · omega
  · omega

/-- The pieces that go on are those of the text after what is discarded. -/
theorem DiscardWriter.writes_eq (inner : ByteWriter ρ) (chunks : List ByteString)
    (remaining : Int) (r : ρ) :
    exists pieces, pieces.flatten = chunks.flatten.drop remaining.toNat ∧
      ((DiscardWriter inner).writes chunks (remaining, r)).2 =
        inner.writes pieces r := by
  induction chunks generalizing remaining r with
  | nil => exact ⟨[], List.drop_nil.symm, rfl⟩
  | cons chunk rest ih =>
      have hskipped := skipped_eq remaining chunk.length
      have hsplit : (chunk :: rest).flatten.drop remaining.toNat =
          chunk.drop (skipped remaining chunk.length) ++
            rest.flatten.drop
              (remaining - skipped remaining chunk.length).toNat := by
        have hmin : chunk.drop (skipped remaining chunk.length) =
            chunk.drop remaining.toNat := by
          rw [hskipped, List.drop_eq_drop_iff, min_assoc, min_self]
        rw [List.flatten_cons, List.drop_append, hmin]
        congr 2
        omega
      by_cases hleft : 0 < chunk.length - skipped remaining chunk.length
      · rcases ih (remaining - skipped remaining chunk.length)
          (inner.write (chunk.drop (skipped remaining chunk.length)) r).2 with
          ⟨pieces, hflatten, hrest⟩
        refine ⟨chunk.drop (skipped remaining chunk.length) :: pieces, ?_, ?_⟩
        · rw [hsplit, List.flatten_cons, hflatten]
        · rw [ByteWriter.writes, ByteWriter.writes, ← hrest]
          simp only [ByteWriter.write, DiscardWriter, if_pos hleft]
      · rcases ih (remaining - skipped remaining chunk.length) r with
          ⟨pieces, hflatten, hrest⟩
        have hnone : chunk.drop (skipped remaining chunk.length) = [] :=
          List.drop_eq_nil_of_le (Nat.le_of_sub_eq_zero (Nat.eq_zero_of_not_pos hleft))
        refine ⟨pieces, ?_, ?_⟩
        · rw [hsplit, hnone, List.nil_append, hflatten]
        · rw [ByteWriter.writes, ← hrest]
          simp only [ByteWriter.write, DiscardWriter, if_neg hleft]

/-!
# Headers
-/

def adjustContentLength (contentLength discardCount : Int) : ByteString :=
  if contentLength < 0 then [] else toDecimalInt (contentLength - discardCount)

/-- The text from the first occurrence of `c` on, where there is one. -/
def fromFirst (c : UInt8) (s : ByteString) : Option ByteString :=
  if s.contains c then some (s.dropWhile (· != c)) else none

def adjustContentRange (contentRange : ByteString) (discardCount : Int) : ByteString :=
  -- "bytes start-end/total"
  match fromFirst 32 contentRange with
  | none => []
  | some space =>
      match fromFirst 45 space with
      | none => []
      | some tail =>
          let start := strtoll (space.drop 1) + discardCount
          bytes "bytes " ++ toDecimalInt start ++ tail

def makeClientError (code : ClientErrorCode) (message : ByteString) : OperationError :=
  let codeStr :=
    match code with
    | .EncryptionFailure => bytes "EncryptionFailure"
    | .ArgumentInvalid => bytes "ArgumentInvalid"
    | _ => bytes "ClientError"
  OperationError.ofCode (ErrorCode.client code)
    (((SortedMap.empty : ErrorFields).emplace (bytes "Code") codeStr).emplace
      (bytes "Message") message)

structure CryptoHeaderOptions where
  plainContentLen : Option Int
  partSize : Option Int
  dataSize : Option Int

def insertSome (metadata : HeaderCollection) (name : ByteString)
    (value : Option ByteString) : HeaderCollection :=
  match value with
  | some value => metadata.insertOrAssign name value
  | none => metadata

def addCryptoHeaders (metadata : HeaderCollection) (cc : AesCtrContentCipher)
    (cm : CipherMetadata) (opts : CryptoHeaderOptions) : HeaderCollection :=
  let cd := cc.cipherData
  let metadata := metadata.insertOrAssign (bytes "client-side-encryption-key")
    (Base64Encode cd.encryptedKey)
  let metadata := metadata.insertOrAssign (bytes "client-side-encryption-start")
    (Base64Encode cd.encryptedIV)
  let metadata := metadata.insertOrAssign (bytes "client-side-encryption-cek-alg")
    cm.cekAlgorithm
  let metadata := metadata.insertOrAssign (bytes "client-side-encryption-wrap-alg")
    cm.wrapAlgorithm
  let metadata := insertSome metadata (bytes "client-side-encryption-matdesc")
    (if cm.matDesc.isEmpty then none else some cm.matDesc)
  let metadata := insertSome metadata
    (bytes "client-side-encryption-unencrypted-content-length")
    ((opts.plainContentLen.filter fun plainLen =>
      decide (cc.getEncryptedLen plainLen ≠ plainLen)).map toDecimalInt)
  let metadata := insertSome metadata (bytes "client-side-encryption-part-size")
    (opts.partSize.map toDecimalInt)
  insertSome metadata (bytes "client-side-encryption-data-size")
    ((opts.dataSize.filter fun dataSize => decide (0 < dataSize)).map toDecimalInt)

def getEnvelopeFromHeaders (headers : HeaderCollection) : Envelope :=
  let find := fun key => (headers.find? key).getD []
  { cipherKey := find kCseKeyHeader
    iv := find kCseStartHeader
    cekAlg := find kCseCekAlgHeader
    wrapAlg := find kCseWrapAlgHeader
    matDesc := find kCseMatDescHeader }

def hasEnvelope (env : Envelope) : Bool :=
  !env.iv.isEmpty && !env.cipherKey.isEmpty && !env.cekAlg.isEmpty &&
    !env.wrapAlg.isEmpty

/-!
# The client
-/

/--
Where an operation keeps its decrypting writer, and what that writes to: the count of
its discarding writer, what the caller's sink touches, and the default stream.
-/
structure EncryptionCells (τ σ : Type) where
  cipher : Cell τ DecryptingWriterState
  sinks : Cell τ (Int × σ × ByteString)
  apart : cipher.Apart sinks

structure OSSEncryptionClient (τ σ : Type) where
  base : ClientImplBase τ
  disableState : DisableState τ
  curl : Curl.CurlHttpClient τ
  cells : EncryptionCells τ σ
  aes : BlockCipher
  ccBuilder : Option (AesCtrCipherBuilder τ)

/-- The parts of a request to put an object that the client reads or changes. -/
structure PutObjectRequest (β : Type) where
  headers : HeaderCollection
  metadata : HeaderCollection
  body : Option β

/-- The headers of `fromPutObject`. -/
def putHeaders (request : PutObjectRequest β) : HeaderCollection :=
  let headers :=
    request.headers.entries.foldl (fun m e => m.insertOrAssign e.1 e.2)
      (SortedMap.empty : HeaderCollection)
  (request.metadata.entries.map fun e => (bytes "x-oss-meta-" ++ e.1, e.2)).foldl
    (fun m e => m.insertOrAssign e.1 e.2) headers

structure EncryptionMultiPartContext where
  partSize : Int
  dataSize : Int
  contentCipher : AesCtrContentCipher

structure InitiateMultipartUploadRequest where
  metadata : HeaderCollection
  csePartSize : Option Int
  cseDataSize : Option Int

structure UploadPartRequest (β : Type) where
  partNumber : Int
  cseMultiPartContext : Option EncryptionMultiPartContext
  body : Option β

namespace OSSEncryptionClient

variable (c : OSSEncryptionClient τ σ)

def client : ClientImpl τ :=
  { c.base with httpTransport := c.curl.send, disableState := c.disableState }

def noBuilder : OperationError :=
  makeClientError .ArgumentInvalid
    (bytes "EncryptionConfiguration has no contentCipherBuilder or masterCipher")

def createFailed (message : ByteString) : OperationError :=
  makeClientError .EncryptionFailure
    (bytes "Failed to create content cipher: " ++ message)

/-- The request that `putObject` of the inner client is called with. -/
def putObject (request : PutObjectRequest (ByteContent τ)) (env : τ) :
    Except OperationError (PutObjectRequest (CryptoByteContent τ)) × τ :=
  match c.ccBuilder with
  | none => (.error noBuilder, env)
  | some ccBuilder =>
      match ccBuilder.create env with
      | (.error message, env) => (.error (createFailed message), env)
      | (.ok cc, env) =>
          let plainLen := (request.body.bind (·.length)).map Int.ofNat
          (.ok
            { request with
              metadata :=
                addCryptoHeaders request.metadata cc ccBuilder.getCipherMetadata
                  ⟨plainLen, none, none⟩
              body := request.body.map cc.encryptContent },
            env)

/-- A sink that is null is handed on, and not written through. -/
def buildDecryptWriter (ccBuilder : AesCtrCipherBuilder τ)
    (writer : ByteWriter (Int × σ × ByteString)) (headers : HeaderCollection)
    (alignedStart : Int) (w : τ) : ByteWriter τ × τ :=
  let envelope := getEnvelopeFromHeaders headers
  if !hasEnvelope envelope then (writer.on c.cells.sinks, w)
  else
    match ccBuilder.fromEnvelope envelope with
    | .error _ => (ErrorWriter, w)
    | .ok cc =>
        let cc := if 0 < alignedStart then cc.seekTo (UInt64.ofInt alignedStart) else cc
        cc.decryptContent c.aes c.cells.cipher c.cells.sinks writer w

/-- The factory of the sink that a response is decrypted into. -/
def decryptFactory (ccBuilder : AesCtrCipherBuilder τ)
    (userFactory : Option (SinkFactory σ)) (discardCount alignedStart : Int) :
    SinkFactory τ where
  isOneShot := userFactory.any (·.isOneShot)
  supplier := some fun size headers w =>
    let (remaining, sinks) := c.cells.sinks.get w
    match innerSink userFactory size headers sinks with
    | (none, sinks) => (none, c.cells.sinks.set (remaining, sinks) w)
    | (some sink, sinks) =>
        let (writer, w) :=
          if 0 < discardCount then
            c.buildDecryptWriter ccBuilder (DiscardWriter sink) headers alignedStart
              (c.cells.sinks.set (discardCount, sinks) w)
          else
            c.buildDecryptWriter ccBuilder (sink.on Cell.snd) headers alignedStart
              (c.cells.sinks.set (remaining, sinks) w)
        (some writer, w)

/-- The start and the end of the range of a request, the end -1 where it has none. -/
def rangeOf (range : ByteString) : Except OperationError (Int × Int) :=
  if range.isEmpty then .ok (0, -1)
  else
    match ParseRangeHeader range [] with
    | (true, [(first, last)]) =>
        if first = -1 then .error invalidRange else .ok (first, last)
    | _ => .error invalidRange
where
  invalidRange : OperationError :=
    makeClientError .ArgumentInvalid
      (bytes "Invalid, multi-range, or suffix-range is not supported for encrypted getObject")

def alignDown (rangeStart alignLen : Int) : Int := rangeStart.tdiv alignLen * alignLen

/-- The request that `getObject` of the inner client is called with. -/
def alignedRequest (ccBuilder : AesCtrCipherBuilder τ) (request : GetObjectRequest σ)
    (rangeStart rangeEnd : Int) : GetObjectRequest τ :=
  let alignedStart := alignDown rangeStart ccBuilder.getAlignLen
  let req : GetObjectRequest τ :=
    { request with
      sinkFactory := some (c.decryptFactory ccBuilder request.sinkFactory
        (rangeStart - alignedStart) alignedStart) }
  if 0 < rangeStart ∨ 0 ≤ rangeEnd then
    (req.setRange (printRange alignedStart rangeEnd)).setRangeBehavior (bytes "standard")
  else req

def finish (request : GetObjectRequest σ) (discardCount : Int) (w : Runtime τ)
    (result : GetObjectResult) : GetObjectResult :=
  let result :=
    if request.sinkFactory.isNone then
      { result with body := some (c.cells.sinks.get w.env).2.2 }
    else result
  if 0 < discardCount then
    result.overwriteRange (adjustContentLength result.getContentLength discardCount)
      (adjustContentRange result.getContentRange discardCount)
  else result

def getObject (request : GetObjectRequest σ) (opts : Option (OperationOptions τ))
    (w : Runtime τ) : Except OperationError GetObjectResult × Runtime τ :=
  match c.ccBuilder with
  | none => (.error noBuilder, w)
  | some ccBuilder =>
      match rangeOf request.getRange with
      | .error e => (.error e, w)
      | .ok (rangeStart, rangeEnd) =>
          let alignedStart := alignDown rangeStart ccBuilder.getAlignLen
          let (outcome, w) := Client.getObject c.client
            (c.alignedRequest ccBuilder request rangeStart rangeEnd) opts w
          (outcome.map (c.finish request (rangeStart - alignedStart) w), w)

/-!
# Multipart uploads
-/

/-- The sizes that a multipart upload is accepted with. -/
def acceptedSizes (ccBuilder : AesCtrCipherBuilder τ)
    (request : InitiateMultipartUploadRequest) : Option (Int × Int) :=
  match request.csePartSize, request.cseDataSize with
  | some partSize, some dataSize =>
      if partSize.tmod ccBuilder.getAlignLen ≠ 0 ∨ partSize < 102400 then none
      else some (partSize, dataSize)
  | _, _ => none

/--
The request that `initiateMultipartUpload` of the inner client is called with, and the
context of the upload, which a successful outcome is given.
-/
def initiateMultipartUpload (request : InitiateMultipartUploadRequest) (env : τ) :
    Except OperationError (InitiateMultipartUploadRequest × EncryptionMultiPartContext) ×
      τ :=
  match c.ccBuilder with
  | none => (.error noBuilder, env)
  | some ccBuilder =>
      match acceptedSizes ccBuilder request with
      | none =>
          (.error (makeClientError .ArgumentInvalid
            (bytes "csePartSize and cseDataSize are required, csePartSize must be a multiple of " ++
              toDecimalInt ccBuilder.getAlignLen ++ bytes " and >= 102400")), env)
      | some (partSize, dataSize) =>
          match ccBuilder.create env with
          | (.error message, env) => (.error (createFailed message), env)
          | (.ok cc, env) =>
              let metadata :=
                addCryptoHeaders request.metadata cc ccBuilder.getCipherMetadata
                  ⟨none, some partSize, some dataSize⟩
              (.ok ({ request with metadata := metadata },
                ⟨partSize, dataSize, cc⟩), env)

def validateMultiPartContext (ctx : EncryptionMultiPartContext) :
    Option OperationError :=
  let alignLen := ctx.contentCipher.getAlignLen
  if ctx.partSize ≤ 0 ∨ ctx.partSize.tmod alignLen ≠ 0 then
    some (makeClientError .ArgumentInvalid
      (bytes "CseMultiPartContext partSize must be a positive multiple of " ++
        toDecimalInt alignLen))
  else none

/-- The request that `uploadPart` of the inner client is called with. -/
def uploadPart (request : UploadPartRequest (ByteContent τ)) :
    Except OperationError (UploadPartRequest (CryptoByteContent τ)) :=
  match request.cseMultiPartContext with
  | none =>
      .error (makeClientError .ArgumentInvalid
        (bytes "CseMultiPartContext is required for encrypted uploadPart"))
  | some ctx =>
      match validateMultiPartContext ctx with
      | some e => .error e
      | none =>
          let offset := UInt64.ofInt (request.partNumber - 1) * UInt64.ofInt ctx.partSize
          let partCipher := ctx.contentCipher.seekTo offset
          .ok { request with body := request.body.map partCipher.encryptContent }

end OSSEncryptionClient

/-!
# A client whose keys are zeros
-/

/-- The decrypting writer, the count, what the sink touches, and the default stream. -/
abbrev EncryptionState (σ : Type) : Type :=
  DecryptingWriterState × Int × σ × ByteString

def encryptionCells (σ : Type) : EncryptionCells (EncryptionState σ) σ where
  cipher := Cell.fst
  sinks := Cell.snd
  apart := Cell.fst_apart_snd

def zeroKeyClient
    (wire : RequestMessage (EncryptionState σ) -> EncryptionState σ ->
      Curl.Reply × EncryptionState σ) :
    OSSEncryptionClient (EncryptionState σ) σ where
  base := anonymousBase _
  disableState := ⟨fun _ => false, fun _ s => (false, s)⟩
  curl := ⟨wire, none⟩
  cells := encryptionCells σ
  aes := zeroKeyAes
  ccBuilder := some (zeroBuilder _)

end Crypto
end OssSdk
