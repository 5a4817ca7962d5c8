import OssSdk.Crypto.RangeDecryption
import OssSdk.Internal.ReportedBody

/-!
# Objects with a part of an envelope

Four headers say how an object is encrypted.  The client looks whether all of them have a
value, and decrypts by the key and the vector; it does not look at the names of the
algorithms, and takes an object without one of the headers for one that is not encrypted.
-/

namespace OssSdk
namespace Crypto

open Foundation
open StreamCipher
open Internal
open Sync
open Client
open Transport
open Utils

variable {σ τ : Type}

def envelopeHeaders : List ByteString :=
  [kCseKeyHeader, kCseStartHeader, kCseCekAlgHeader, kCseWrapAlgHeader]

/-- None of the headers of an envelope is there. -/
def Bare (headers : HeaderCollection) : Prop :=
  forall name, name ∈ envelopeHeaders -> headers.find? name = none

/-- All of them have a value, and the algorithms are those of the builder. -/
structure Enveloped (ccBuilder : AesCtrCipherBuilder τ) (headers : HeaderCollection) :
    Prop where
  present : forall name, name ∈ envelopeHeaders ->
    exists value, headers.find? name = some value ∧ value ≠ []
  cekAlg : headers.find? kCseCekAlgHeader = some (bytes "AES/CTR/NoPadding")
  wrapAlg : headers.find? kCseWrapAlgHeader =
    some ccBuilder.masterCipher.getWrapAlgorithm

section Envelope

variable {ccBuilder : AesCtrCipherBuilder τ} {headers : HeaderCollection}

theorem Bare.hasEnvelope (hbare : Bare headers) :
    hasEnvelope (getEnvelopeFromHeaders headers) = false := by
  have hstart := hbare kCseStartHeader (by decide)
  unfold Crypto.hasEnvelope getEnvelopeFromHeaders
  simp only [hstart, Option.getD_none, List.isEmpty_nil, Bool.not_true, Bool.false_and]

theorem Enveloped.hasEnvelope (henveloped : Enveloped ccBuilder headers) :
    hasEnvelope (getEnvelopeFromHeaders headers) = true := by
  have hvalue : forall name, name ∈ envelopeHeaders ->
      ((headers.find? name).getD []).isEmpty = false := by
    intro name hname
    rcases henveloped.present name hname with ⟨value, hfind, hne⟩
    rw [hfind, Option.getD_some, List.isEmpty_eq_false_iff]
    exact hne
  unfold Crypto.hasEnvelope getEnvelopeFromHeaders
  simp only [hvalue kCseStartHeader (by decide), hvalue kCseKeyHeader (by decide),
    hvalue kCseCekAlgHeader (by decide), hvalue kCseWrapAlgHeader (by decide),
    Bool.not_false, Bool.and_self]

/-- Only keys and vectors of the right lengths come out of an envelope. -/
theorem AesCtrCipherBuilder.fromEnvelope_ok {envelope : Envelope}
    {cc : AesCtrContentCipher} (hcc : ccBuilder.fromEnvelope envelope = .ok cc) :
    cc.cipherData.Made := by
  unfold AesCtrCipherBuilder.fromEnvelope at hcc
  split at hcc
  · cases hcc
  · simp only [bind, Except.bind] at hcc
    split at hcc
    · cases hcc
    · split at hcc
      · cases hcc
      · split at hcc
        · cases hcc
        · rename_i hlengths
          rw [not_or, not_not, not_not] at hlengths
          cases hcc
          exact ⟨hlengths.1, hlengths.2⟩

end Envelope

/-!
# What becomes of a reply
-/

/-- A text is what a part of the object decrypts to, with a key out of the envelope. -/
def Decrypts (aes : BlockCipher) (ccBuilder : AesCtrCipherBuilder τ)
    (headers : HeaderCollection) (start : Int) (content text : ByteString) : Prop :=
  content = [] ∧ text = [] ∨
    exists cc, ccBuilder.fromEnvelope (getEnvelopeFromHeaders headers) = .ok cc ∧
      text = mask ((rangeCipher cc start).keystream aes) 0 content

/--
An object without an envelope is delivered as it is, and one with a whole envelope of the
builder's is decrypted.  What comes in goes to the sink that was made for it.
-/
structure Opened (c : OSSEncryptionClient τ σ) (ccBuilder : AesCtrCipherBuilder τ)
    (request : GetObjectRequest σ) (first : Int) (y : Exchange τ) (w' : Runtime τ) :
    Prop where
  reaches : (c.replied y).1.chunks ≠ [] ->
    exists writer, (c.curl.received y.request y.context.transportContext
      y.runtime.env).2.reception.sink = some (.user writer)
  content :
    let start := OSSEncryptionClient.alignDown first 16
    let headers := (c.replied y).1.headers
    let content := (c.replied y).1.chunks.flatten
    (Bare headers ∧ c.Delivers request y w' (content.drop (first - start).toNat)) ∨
      (Enveloped ccBuilder headers ∧
        exists text, Decrypts c.aes ccBuilder headers start content text ∧
          c.Delivers request y w' (text.drop (first - start).toNat))

/-- No envelope, or a whole one of the builder's, and no body that is an error's. -/
structure Sound (ccBuilder : AesCtrCipherBuilder τ) (reply : Curl.Reply) : Prop where
  status : reply.chunks ≠ [] -> isErrorStatus reply.statusCode = false
  envelope : Bare reply.headers ∨ Enveloped ccBuilder reply.headers

section Reply

variable {c : OSSEncryptionClient τ σ} {ccBuilder : AesCtrCipherBuilder τ}
variable {y : Exchange τ} {request : GetObjectRequest σ} {first last : Int}
variable {discardCount alignedStart : Int}

/-- A reply without an envelope is handed on, without what is discarded. -/
theorem offers_raw
    (henvelope : hasEnvelope (getEnvelopeFromHeaders (c.replied y).1.headers) = false) :
    c.Offers ccBuilder request discardCount alignedStart y
      ((c.replied y).1.chunks.flatten.drop discardCount.toNat) := by
  intro sink opened hsink
  unfold userSink at hsink
  by_cases hdiscard : 0 < discardCount
  · refine ⟨(DiscardWriter sink).on c.cells.sinks,
      c.cells.sinks.set (discardCount, opened) (c.replied y).2, ?_⟩
    rcases DiscardWriter.writes_eq sink (c.replied y).1.chunks discardCount opened with
      ⟨pieces, hpieces, hwrites⟩
    refine ⟨pieces, ?_, hpieces, ?_⟩
    · simp only [SinkFactory.call, OSSEncryptionClient.decryptFactory, hsink, hdiscard,
        if_true, OSSEncryptionClient.buildDecryptWriter, henvelope, Bool.not_false]
    · rw [ByteWriter.on_writes, c.cells.sinks.get_set]
      exact hwrites
  · refine ⟨(sink.on Cell.snd).on c.cells.sinks,
      c.cells.sinks.set ((c.cells.sinks.get (c.replied y).2).1, opened) (c.replied y).2,
      (c.replied y).1.chunks, ?_, ?_, ?_⟩
    · simp only [SinkFactory.call, OSSEncryptionClient.decryptFactory, hsink, hdiscard,
        if_false, OSSEncryptionClient.buildDecryptWriter, henvelope, Bool.not_false,
        if_true]
    · rw [Int.toNat_of_nonpos (Int.not_lt.mp hdiscard), List.drop_zero]
    · rw [ByteWriter.on_writes, c.cells.sinks.get_set]
      exact ByteWriter.on_writes Cell.snd sink _ _

/-- A reply whose envelope cannot be opened is not received, if it has a body. -/
theorem opens_of_received
    (hfactory : y.context.transportContext.sinkFactory =
      some (c.decryptFactory ccBuilder request.sinkFactory discardCount alignedStart))
    (henvelope : hasEnvelope (getEnvelopeFromHeaders (c.replied y).1.headers) = true)
    (hstatus : isErrorStatus (c.replied y).1.statusCode = false)
    (hchunks : (c.replied y).1.chunks ≠ [])
    (hgot : (c.curl.received y.request y.context.transportContext y.runtime.env).1 =
      Curl.CURLE_OK) :
    exists cc, ccBuilder.fromEnvelope (getEnvelopeFromHeaders (c.replied y).1.headers) =
      .ok cc := by
  cases hcc : ccBuilder.fromEnvelope
    (getEnvelopeFromHeaders (c.replied y).1.headers) with
  | ok cc => exact ⟨cc, rfl⟩
  | error message =>
      rcases hsink : userSink c request.sinkFactory (c.replied y).1.recvDataLength
        (c.replied y).1.headers (c.replied y).2 with ⟨sink, opened⟩
      cases sink with
      | none =>
          rcases @decryptFactory_null _ _ _ ccBuilder _ _ _ discardCount alignedStart _ _
              hsink with ⟨started, hcall⟩
          exact absurd hgot (Curl.Reply.perform_null hfactory hstatus hchunks hcall)
      | some sink =>
          rcases @decryptFactory_error _ _ _ _ _ _ _ discardCount alignedStart _ _
              henvelope hcc _ _ hsink with ⟨started, hcall⟩
          exact absurd hgot
            (Curl.Reply.perform_failed hfactory hstatus hchunks hcall rfl)

theorem received_opened_iff
    (hworks : forall cc,
      ccBuilder.fromEnvelope (getEnvelopeFromHeaders (c.replied y).1.headers) = .ok cc ->
      c.aes.Works cc.cipherData.key)
    (hfactory : y.context.transportContext.sinkFactory =
      (c.alignedRequest ccBuilder request first last).sinkFactory)
    {w' : Runtime τ}
    (hgot : (c.curl.received y.request y.context.transportContext y.runtime.env).1 =
      Curl.CURLE_OK)
    (hw' : (c.curl.received y.request y.context.transportContext
      y.runtime.env).2.reception.env = w'.env) :
    Opened c ccBuilder request first y w' ↔ Sound ccBuilder (c.replied y).1 := by
  rw [sinkFactory_alignedRequest] at hfactory
  constructor
  · intro hopened
    constructor
    · intro hchunks
      by_contra hstatus
      rw [Bool.not_eq_false] at hstatus
      rcases hopened.reaches hchunks with ⟨writer, huser⟩
      exact (Curl.Reply.perform_default hstatus).2 writer huser
    · rcases hopened.content with ⟨hbare, _⟩ | ⟨henveloped, _⟩
      · exact Or.inl hbare
      · exact Or.inr henveloped
  · intro hsound
    have hempty : forall {n : Nat}, (c.replied y).1.chunks = [] ->
        (c.replied y).1.chunks.flatten.drop n = [] := by
      intro n hchunks
      rw [hchunks]
      exact List.drop_nil
    rcases hsound.envelope with hbare | henveloped
    · rcases delivers_of_offers hfactory hsound.status hgot hw' hempty
        (fun _ => offers_raw hbare.hasEnvelope) with ⟨hdelivers, hreaches⟩
      exact ⟨hreaches, Or.inl ⟨hbare, hdelivers⟩⟩
    · by_cases hchunks : (c.replied y).1.chunks = []
      · rcases @delivers_of_offers _ _ _ _ _ _ _ _ hfactory hsound.status _ hgot hw' []
          (fun _ => rfl) (fun hsome => absurd hchunks hsome) with ⟨hdelivers, hreaches⟩
        refine ⟨hreaches, Or.inr ⟨henveloped, [], Or.inl ⟨?_, rfl⟩, ?_⟩⟩
        · rw [hchunks]
          rfl
        · rw [List.drop_nil]
          exact hdelivers
      · rcases opens_of_received hfactory henveloped.hasEnvelope (hsound.status hchunks)
          hchunks hgot with ⟨cc, hcc⟩
        rcases delivers_of_offers hfactory hsound.status hgot hw'
          (fun hnone => absurd hnone hchunks)
          (fun _ => offers_decrypted henveloped.hasEnvelope hcc
            (AesCtrCipherBuilder.fromEnvelope_ok hcc) (hworks cc hcc)) with
          ⟨hdelivers, hreaches⟩
        exact ⟨hreaches, Or.inr ⟨henveloped, _, Or.inr ⟨cc, hcc, rfl⟩, hdelivers⟩⟩

end Reply

/--
A call that is successful delivers an object for what it is if and only if the last reply
has no header of an envelope or a whole envelope of the builder's, and its body is not
taken for that of an error.
-/
theorem getObject_opened_iff (c : OSSEncryptionClient τ σ)
    (request : GetObjectRequest σ) (opts : Option (OperationOptions τ)) (w : Runtime τ)
    (ccBuilder : AesCtrCipherBuilder τ)
    (hbuilder : c.ccBuilder = some ccBuilder)
    (hworks : forall y cc, c.lastSent request opts w = some y ->
      ccBuilder.fromEnvelope (getEnvelopeFromHeaders (c.replied y).1.headers) = .ok cc ->
      c.aes.Works cc.cipherData.key)
    (result : GetObjectResult)
    (hok : (c.getObject request opts w).1 = .ok result) :
    exists first last y,
      OSSEncryptionClient.rangeOf request.getRange = .ok (first, last) ∧
      c.lastSent request opts w = some y ∧
      (Opened c ccBuilder request first y (c.getObject request opts w).2 ↔
        Sound ccBuilder (c.replied y).1) := by
  cases hrange : OSSEncryptionClient.rangeOf request.getRange with
  | error e =>
      simp only [OSSEncryptionClient.getObject, hbuilder, hrange] at hok
      cases hok
  | ok sides =>
      rcases sides with ⟨first, last⟩
      rcases getObject_ok hbuilder hrange hok with
        ⟨y, r, hsent, hfactory, hanswers, hresult⟩
      rcases hanswers with ⟨request', hsend⟩
      rcases Curl.CurlHttpClient.send_response_iff.mp hsend with ⟨_, hgot, henv, _⟩
      exact ⟨first, last, y, rfl, hsent,
        received_opened_iff (fun cc => hworks y cc hsent) hfactory hgot henv⟩

/-!
# An object that has lost one of the headers
-/

def twoBlocksReply : Curl.Reply where
  statusCode := 200
  headers := storedTwoBlocks.metadata
  recvDataLength := 32
  chunks := [storedTwoBlocks.data]
  res := Curl.CURLE_OK
  text := []
  chunks_nonempty := by decide +kernel

/-- Nothing says any more how the key has been wrapped. -/
def lostWrapAlgReply : Curl.Reply :=
  { twoBlocksReply with headers := storedTwoBlocks.metadata.erase kCseWrapAlgHeader }

def replyingClient (reply : Curl.Reply) : OSSEncryptionClient (EncryptionState Unit) Unit :=
  zeroKeyClient fun _ s => (reply, s)

def getTwoBlocks : GetObjectRequest Unit where
  bucket := bytes "bucket"
  key := bytes "key"
  headers := SortedMap.empty
  parameters := SortedMap.empty
  sinkFactory := none

def twoBlocksStart : Runtime (EncryptionState Unit) :=
  ⟨0, DecryptingWriter.init zeroKeyAes [] [], 0, (), []⟩

theorem getObject_opened_iff_twoBlocks :
    exists first last y,
      OSSEncryptionClient.rangeOf getTwoBlocks.getRange = .ok (first, last) ∧
      (replyingClient twoBlocksReply).lastSent getTwoBlocks none twoBlocksStart = some y ∧
      (Opened (replyingClient twoBlocksReply) (zeroBuilder _) getTwoBlocks first y
          ((replyingClient twoBlocksReply).getObject getTwoBlocks none twoBlocksStart).2 ↔
        Sound (zeroBuilder (EncryptionState Unit))
          ((replyingClient twoBlocksReply).replied y).1) := by
  have hok : ((replyingClient twoBlocksReply).getObject getTwoBlocks none
      twoBlocksStart).1 = .ok ⟨200, storedTwoBlocks.metadata, some twoBlocks⟩ := by
    decide +kernel
  refine getObject_opened_iff (replyingClient twoBlocksReply) getTwoBlocks none
    twoBlocksStart (zeroBuilder _) rfl ?_ _ hok
  intro y cc _ hcc
  have hkey : ((zeroBuilder (EncryptionState Unit)).fromEnvelope
      (getEnvelopeFromHeaders storedTwoBlocks.metadata)).toOption.map
        (fun cc => cc.cipherData.key) = some zeroKey := by
    decide +kernel
  have hsame : ((replyingClient twoBlocksReply).replied y).1.headers =
      storedTwoBlocks.metadata := rfl
  rw [← hsame, hcc] at hkey
  have hzero : cc.cipherData.key = zeroKey := Option.some.inj hkey
  rw [hzero]
  exact zeroKeyAes_works

/-- What is delivered with success is what has been stored, and not the text. -/
theorem not_opened_lostWrapAlg :
    ((replyingClient lostWrapAlgReply).getObject getTwoBlocks none twoBlocksStart).1 =
        .ok ⟨200, lostWrapAlgReply.headers, some storedTwoBlocks.data⟩ ∧
      storedTwoBlocks.data ≠ twoBlocks ∧
      lostWrapAlgReply.headers.find? kCseCekAlgHeader =
        some (bytes "AES/CTR/NoPadding") ∧
      lostWrapAlgReply.headers.find? kCseWrapAlgHeader = none ∧
      forall first y w', ¬ Opened (replyingClient lostWrapAlgReply)
        (zeroBuilder (EncryptionState Unit)) getTwoBlocks first y w' := by
  have hcek : lostWrapAlgReply.headers.find? kCseCekAlgHeader =
      some (bytes "AES/CTR/NoPadding") := by
    decide +kernel
  have hwrap : lostWrapAlgReply.headers.find? kCseWrapAlgHeader = none := by
    decide +kernel
  refine ⟨by decide +kernel, by decide +kernel, hcek, hwrap, ?_⟩
  intro first y w' hopened
  have hreply : ((replyingClient lostWrapAlgReply).replied y).1 = lostWrapAlgReply := rfl
  rcases hopened.content with ⟨hbare, _⟩ | ⟨henveloped, _⟩
  · have hnone := hbare kCseCekAlgHeader (by decide)
    rw [hreply, hcek] at hnone
    cases hnone
  · have hsome := henveloped.wrapAlg
    rw [hreply, hwrap] at hsome
    cases hsome

end Crypto
end OssSdk
