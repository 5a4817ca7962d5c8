import OssSdk.Crypto.StoredObject
import OssSdk.Internal.SentRequest

/-!
# Getting a range of an encrypted object

What is asked for begins at a block, is decrypted from the counter of that block, and
loses its first bytes.  What goes on to the sink is the range of the text.
-/

namespace OssSdk
namespace Crypto

open Foundation
open StreamCipher
open Internal
open Sync
open Client
open Transport
open Utils

variable {σ τ : Type}

/-!
# Ranges
-/

theorem rangeOf_bounds {range : ByteString} {first last : Int}
    (hrange : OSSEncryptionClient.rangeOf range = .ok (first, last)) :
    0 ≤ first ∧ first < 2 ^ 63 ∧ (last = -1 ∨ first ≤ last ∧ last < 2 ^ 63) := by
  unfold OSSEncryptionClient.rangeOf at hrange
  split at hrange
  · cases hrange
    omega
  · split at hrange
    · rename_i first' last' hparse
      split at hrange
      · cases hrange
      · rename_i hpresent
        cases hrange
        have hparsed := ParseRangeHeader_parsed hparse List.mem_cons_self
        rcases hparsed with ⟨hfirst, hlast, _, hordered⟩
        omega
    · cases hrange

theorem rangeOf_printRange {first last : Int}
    (hfirst : 0 ≤ first)
    (hless : first < 2 ^ 63)
    (hlast : last = -1 ∨ first ≤ last ∧ last < 2 ^ 63) :
    OSSEncryptionClient.rangeOf (printRange first last) = .ok (first, last) := by
  obtain ⟨n, rfl⟩ := Int.eq_ofNat_of_zero_le hfirst
  obtain ⟨side, hside, hsome⟩ : exists side : Option Nat,
      last = side.elim (-1) (fun n => (n : Int)) ∧
        forall m, side = some m -> n ≤ m ∧ m < 2 ^ 63 := by
    rcases hlast with hnone | ⟨hordered, hsmall⟩
    · exact ⟨none, hnone, fun _ h => nomatch h⟩
    · refine ⟨some last.toNat, by rw [Option.elim_some]; omega, fun m hm => ?_⟩
      cases hm
      omega
  have hparse := ParseRangeHeader_printRange (by omega) hsome
  have hpresent : ¬ ((n : Int) = -1) := by omega
  have hnonempty : (printRange n last).isEmpty = false := by
    rw [hside, printRange_eq]
    rfl
  unfold OSSEncryptionClient.rangeOf
  rw [hnonempty, if_neg Bool.false_ne_true, hside, hparse]
  simp only [if_neg hpresent]

/-- The block that a range begins in. -/
theorem alignDown_eq {rangeStart : Int} (hstart : 0 ≤ rangeStart) :
    OSSEncryptionClient.alignDown rangeStart 16 = rangeStart / 16 * 16 := by
  unfold OSSEncryptionClient.alignDown
  rw [Int.tdiv_eq_ediv_of_nonneg hstart]

/-!
# The request that is sent
-/

/-- The signer leaves the range of a request alone. -/
def KeepsRange (signer : Signer τ) : Prop :=
  forall (request : RequestMessage τ) (context : SigningContext) (env : τ),
    (signer.sign request context env).2.1.headers.find? (bytes "Range") =
      request.headers.find? (bytes "Range")

/-- The request that is sent last asks for the range that it was made with. -/
theorem lastSent_range {c : OSSEncryptionClient τ σ}
    (hsigner : KeepsRange c.base.options.signer)
    {request : GetObjectRequest τ} {opts : Option (OperationOptions τ)}
    {innerOpts : Option (OperationInnerOptions τ)} {w : Runtime τ} {y : Exchange τ}
    (hsent : c.client.lastSent (fromGetObject request) opts innerOpts w = some y) :
    (y.request.headers.find? (bytes "Range")).getD [] = request.getRange := by
  have hagent : SortedMap.equivalent caseInsensitiveLess (bytes "User-Agent")
      (bytes "Range") = false := by decide
  have hkeeps : KeepsRequests c.client fun r =>
      (r.headers.find? (bytes "Range")).getD [] = request.getRange := by
    constructor
    · intro r context env hr
      rw [← hr]
      exact congrArg (Option.getD · []) (hsigner r context env)
    · exact fun _ _ _ hr => hr
  refine lastSent_kept hkeeps ?_ hsent
  intro context r hprepare
  rw [prepare_headers hprepare, SortedMap.find?_insertOrAssign, hagent,
    if_neg Bool.false_ne_true, fromGetObject_range]
  rfl

/-!
# The sink of the client
-/

section Writer

variable {c : OSSEncryptionClient τ σ} {ccBuilder : AesCtrCipherBuilder τ}
variable {userFactory : Option (SinkFactory σ)} {size : Int}
variable {headers : HeaderCollection} {discardCount alignedStart : Int} {w : τ}

/-- What the sink of a reply is, and what it begins with. -/
abbrev userSink (c : OSSEncryptionClient τ σ) (userFactory : Option (SinkFactory σ))
    (size : Int) (headers : HeaderCollection) (w : τ) :
    Option (ByteWriter (σ × ByteString)) × σ × ByteString :=
  innerSink userFactory size headers (c.cells.sinks.get w).2

/-- The cipher that a range is decrypted by. -/
def rangeCipher (cc : AesCtrContentCipher) (alignedStart : Int) : AesCtrContentCipher :=
  if 0 < alignedStart then cc.seekTo (UInt64.ofInt alignedStart) else cc

/-- A writer that decrypts: its inner writer is offered the text. -/
theorem buildDecryptWriter_writes {cc : AesCtrContentCipher}
    (writer : ByteWriter (Int × σ × ByteString))
    (henvelope : hasEnvelope (getEnvelopeFromHeaders headers) = true)
    (hcc : ccBuilder.fromEnvelope (getEnvelopeFromHeaders headers) = .ok cc)
    (hmade : cc.cipherData.Made)
    (hworks : c.aes.Works cc.cipherData.key)
    {chunks : List ByteString}
    (hchunks : forall chunk, chunk ∈ chunks -> chunk ≠ []) :
    let built := c.buildDecryptWriter ccBuilder writer headers alignedStart w
    c.cells.sinks.get (built.1.writes chunks built.2) =
      writer.writes (maskChunks ((rangeCipher cc alignedStart).keystream c.aes) 0 chunks)
        (c.cells.sinks.get w) := by
  intro built
  have hbuilt : built = (rangeCipher cc alignedStart).decryptContent c.aes
      c.cells.cipher c.cells.sinks writer w := by
    simp only [built, OSSEncryptionClient.buildDecryptWriter, henvelope, Bool.not_true,
      Bool.false_eq_true, if_false, hcc, rangeCipher]
  have hiv : (rangeCipher cc alignedStart).cipherData.iv.length = 16 := by
    unfold rangeCipher
    split
    · exact length_seekIV hmade.iv _
    · exact hmade.iv
  have hkey : (rangeCipher cc alignedStart).cipherData.key = cc.cipherData.key := by
    unfold rangeCipher
    split
    · rfl
    · rfl
  have hvalid : validKeyIV (rangeCipher cc alignedStart).cipherData.key
      (rangeCipher cc alignedStart).cipherData.iv = true := by
    unfold validKeyIV
    rw [hkey, hmade.key, hiv]
    rfl
  have hworks' : c.aes.Works (rangeCipher cc alignedStart).cipherData.key :=
    hkey.symm ▸ hworks
  have hinit := DecryptingWriter.init_decryptsAt hworks' hiv hvalid
  rw [← c.cells.cipher.get_set (DecryptingWriter.init c.aes
    (rangeCipher cc alignedStart).cipherData.key
    (rangeCipher cc alignedStart).cipherData.iv) w] at hinit
  have hwrites := @DecryptingWriter.writes_eq _ _ _ _ _ c.cells.cipher _ writer _ _
    hworks' hiv c.cells.apart hinit _ hchunks
  rw [c.cells.apart.get_set_left] at hwrites
  rw [hbuilt]
  exact hwrites

/-- The sink of a reply is offered the text, without what is discarded. -/
theorem decryptFactory_writes {cc : AesCtrContentCipher}
    (henvelope : hasEnvelope (getEnvelopeFromHeaders headers) = true)
    (hcc : ccBuilder.fromEnvelope (getEnvelopeFromHeaders headers) = .ok cc)
    (hmade : cc.cipherData.Made)
    (hworks : c.aes.Works cc.cipherData.key)
    {sink : ByteWriter (σ × ByteString)} {opened : σ × ByteString}
    (hsink : userSink c userFactory size headers w = (some sink, opened)) :
    exists writer started,
      (c.decryptFactory ccBuilder userFactory discardCount alignedStart).call size headers
        w = (some writer, started) ∧
      forall chunks : List ByteString, (forall chunk, chunk ∈ chunks -> chunk ≠ []) ->
        exists pieces,
          pieces.flatten = (mask ((rangeCipher cc alignedStart).keystream c.aes) 0
            chunks.flatten).drop discardCount.toNat ∧
          (c.cells.sinks.get (writer.writes chunks started)).2 =
            sink.writes pieces opened := by
  unfold userSink at hsink
  by_cases hdiscard : 0 < discardCount
  · have hcall : (c.decryptFactory ccBuilder userFactory discardCount alignedStart).call
        size headers w =
          let built := c.buildDecryptWriter ccBuilder (DiscardWriter sink) headers
            alignedStart (c.cells.sinks.set (discardCount, opened) w)
          (some built.1, built.2) := by
      simp only [SinkFactory.call, OSSEncryptionClient.decryptFactory, hsink, hdiscard,
        if_true]
    refine ⟨_, _, hcall, fun chunks hchunks => ?_⟩
    rcases DiscardWriter.writes_eq sink
      (maskChunks ((rangeCipher cc alignedStart).keystream c.aes) 0 chunks)
      discardCount opened with ⟨pieces, hpieces, hwrites⟩
    refine ⟨pieces, ?_, ?_⟩
    · rw [hpieces, flatten_maskChunks]
    · rw [buildDecryptWriter_writes _ henvelope hcc hmade hworks hchunks,
        c.cells.sinks.get_set]
      exact hwrites
  · have hcall : (c.decryptFactory ccBuilder userFactory discardCount alignedStart).call
        size headers w =
          let built := c.buildDecryptWriter ccBuilder (sink.on Cell.snd) headers
            alignedStart (c.cells.sinks.set ((c.cells.sinks.get w).1, opened) w)
          (some built.1, built.2) := by
      simp only [SinkFactory.call, OSSEncryptionClient.decryptFactory, hsink, hdiscard,
        if_false]
    refine ⟨_, _, hcall, fun chunks hchunks => ?_⟩
    refine ⟨maskChunks ((rangeCipher cc alignedStart).keystream c.aes) 0 chunks, ?_, ?_⟩
    · have hnone : discardCount.toNat = 0 := Int.toNat_of_nonpos (Int.not_lt.mp hdiscard)
      rw [flatten_maskChunks, hnone, List.drop_zero]
    · rw [buildDecryptWriter_writes _ henvelope hcc hmade hworks hchunks,
        c.cells.sinks.get_set]
      exact ByteWriter.on_writes Cell.snd sink _ _

/-- Nothing is taken in where the envelope cannot be opened. -/
theorem decryptFactory_error {message : ByteString}
    (henvelope : hasEnvelope (getEnvelopeFromHeaders headers) = true)
    (herror : ccBuilder.fromEnvelope (getEnvelopeFromHeaders headers) = .error message)
    {sink : ByteWriter (σ × ByteString)} {opened : σ × ByteString}
    (hsink : userSink c userFactory size headers w = (some sink, opened)) :
    exists started,
      (c.decryptFactory ccBuilder userFactory discardCount alignedStart).call size headers
        w = (some ErrorWriter, started) := by
  unfold userSink at hsink
  by_cases hdiscard : 0 < discardCount
  · refine ⟨c.cells.sinks.set (discardCount, opened) w, ?_⟩
    simp only [SinkFactory.call, OSSEncryptionClient.decryptFactory, hsink, hdiscard,
      if_true, OSSEncryptionClient.buildDecryptWriter, henvelope, herror, Bool.not_true,
      Bool.false_eq_true, if_false]
  · refine ⟨c.cells.sinks.set ((c.cells.sinks.get w).1, opened) w, ?_⟩
    simp only [SinkFactory.call, OSSEncryptionClient.decryptFactory, hsink, hdiscard,
      OSSEncryptionClient.buildDecryptWriter, henvelope, herror, Bool.not_true,
      Bool.false_eq_true, if_false]

theorem decryptFactory_null {opened : σ × ByteString}
    (hsink : userSink c userFactory size headers w = (none, opened)) :
    exists started,
      (c.decryptFactory ccBuilder userFactory discardCount alignedStart).call size headers
        w = (none, started) := by
  unfold userSink at hsink
  refine ⟨c.cells.sinks.set ((c.cells.sinks.get w).1, opened) w, ?_⟩
  simp only [SinkFactory.call, OSSEncryptionClient.decryptFactory, hsink]

end Writer

/-!
# What is delivered
-/

namespace OSSEncryptionClient

variable (c : OSSEncryptionClient τ σ)

/-- What comes in for a request, and what is left of the environment. -/
def replied (y : Exchange τ) : Curl.Reply × τ :=
  c.curl.wire y.request y.runtime.env

/-- The request that `getObject` sends in its last attempt. -/
def lastSent (request : GetObjectRequest σ) (opts : Option (OperationOptions τ))
    (w : Runtime τ) : Option (Exchange τ) :=
  match c.ccBuilder with
  | none => none
  | some ccBuilder =>
      match rangeOf request.getRange with
      | .error _ => none
      | .ok (rangeStart, rangeEnd) =>
          let req := c.alignedRequest ccBuilder request rangeStart rangeEnd
          match req.missing with
          | some _ => none
          | none =>
              c.client.lastSent (fromGetObject req) opts
                (some ⟨req.sinkFactory, [], []⟩) w

/--
The sink that was made for the last reply has been offered this text.  For an empty text
no sink need have been made.
-/
def Delivers (request : GetObjectRequest σ) (y : Exchange τ) (w' : Runtime τ)
    (text : ByteString) : Prop :=
  let reply := (c.replied y).1
  let left := (c.cells.sinks.get w'.env).2
  (text = [] ∧ reply.chunks = [] ∧ left = (c.cells.sinks.get (c.replied y).2).2) ∨
    exists sink opened pieces,
      userSink c request.sinkFactory reply.recvDataLength reply.headers (c.replied y).2 =
        (some sink, opened) ∧
      left = sink.writes pieces opened ∧ pieces.flatten = text

end OSSEncryptionClient

section Outcome

variable {c : OSSEncryptionClient τ σ} {ccBuilder : AesCtrCipherBuilder τ}
variable {request : GetObjectRequest σ} {opts : Option (OperationOptions τ)}
variable {w : Runtime τ} {result : GetObjectResult} {first last : Int}

/-- A successful call returns what became of the reply to what was sent last. -/
theorem getObject_ok (hbuilder : c.ccBuilder = some ccBuilder)
    (hrange : OSSEncryptionClient.rangeOf request.getRange = .ok (first, last))
    (hok : (c.getObject request opts w).1 = .ok result) :
    let discardCount := first - OSSEncryptionClient.alignDown first 16
    let w' := (c.getObject request opts w).2
    exists y r, c.lastSent request opts w = some y ∧
      y.context.transportContext.sinkFactory =
        (c.alignedRequest ccBuilder request first last).sinkFactory ∧
      c.client.Answers y r w'.env ∧
      result = c.finish request discardCount w' ⟨r.statusCode, r.headers, r.body⟩ := by
  intro discardCount w'
  have hlast : c.lastSent request opts w =
      match (c.alignedRequest ccBuilder request first last).missing with
      | some _ => none
      | none => c.client.lastSent
          (fromGetObject (c.alignedRequest ccBuilder request first last)) opts
          (some ⟨(c.alignedRequest ccBuilder request first last).sinkFactory, [], []⟩)
          w := by
    simp only [OSSEncryptionClient.lastSent, hbuilder, hrange]
  have hcall : c.getObject request opts w =
      let outcome := Client.getObject c.client
        (c.alignedRequest ccBuilder request first last) opts w
      (outcome.1.map (c.finish request discardCount outcome.2), outcome.2) := by
    simp only [OSSEncryptionClient.getObject, hbuilder, hrange, discardCount]
    rfl
  have hw' : w' = (Client.getObject c.client
      (c.alignedRequest ccBuilder request first last) opts w).2 := by
    simp only [w', hcall]
  rw [hcall] at hok
  simp only at hok
  rw [hw']
  obtain ⟨req, hreq⟩ : exists req, req = c.alignedRequest ccBuilder request first last :=
    ⟨_, rfl⟩
  rw [← hreq] at hlast hok ⊢
  unfold Client.getObject at hok ⊢
  cases hmissing : req.missing with
  | some e =>
      rw [hmissing] at hok
      cases hok
  | none =>
      simp only [hmissing] at hlast hok ⊢
      cases hexecute : (c.client.Execute (fromGetObject req) opts
          (some ⟨req.sinkFactory, [], []⟩) w).1 with
      | error e =>
          simp only [hexecute] at hok
          cases hok
      | output o =>
          simp only [hexecute] at hok ⊢
          have hruns : Runs c.client (fromGetObject req) opts
            (some ⟨req.sinkFactory, [], []⟩) w .sync _ _ _ := Runs.sync
          rcases hruns.of_output (fun o ho => by cases ho; rfl) hexecute with
            ⟨y, r, env, hsent, hsink, hanswers, ho, henv⟩
          refine ⟨y, r, hlast.trans hsent, hsink, ?_, ?_⟩
          · rw [henv]
            exact hanswers
          · cases hok
            rw [ho]
            rfl

theorem getRange_alignedRequest :
    (c.alignedRequest ccBuilder request first last).getRange =
      if 0 < first ∨ 0 ≤ last then
        printRange (OSSEncryptionClient.alignDown first 16) last
      else request.getRange := by
  have hbehavior : SortedMap.equivalent caseInsensitiveLess
      (bytes "x-oss-range-behavior") (bytes "Range") = false := by decide
  unfold OSSEncryptionClient.alignedRequest
  simp only
  split
  · simp only [GetObjectRequest.setRangeBehavior, GetObjectRequest.setRange,
      GetObjectRequest.getRange, SortedMap.find?_insertOrAssign, hbehavior,
      Bool.false_eq_true, if_false, SortedMap.equivalent_refl, if_true, Option.getD_some]
    rfl
  · rfl

/-- The range that is asked for begins at a block. -/
theorem rangeOf_alignedRequest
    (hrange : OSSEncryptionClient.rangeOf request.getRange = .ok (first, last)) :
    OSSEncryptionClient.rangeOf
        (c.alignedRequest ccBuilder request first last).getRange =
      .ok (OSSEncryptionClient.alignDown first 16, last) := by
  rcases rangeOf_bounds hrange with ⟨hfirst, hless, hlast⟩
  have haligned := alignDown_eq hfirst
  rw [getRange_alignedRequest]
  by_cases hpart : 0 < first ∨ 0 ≤ last
  · rw [if_pos hpart, rangeOf_printRange (by omega) (by omega) (by omega)]
  · have hzero : first = 0 := by omega
    rw [if_neg hpart, hrange, haligned, hzero]
    rfl

/-- The same, by the transfer that brought the reply in. -/
theorem getObject_received (hbuilder : c.ccBuilder = some ccBuilder)
    (hsigner : KeepsRange c.base.options.signer)
    (hrange : OSSEncryptionClient.rangeOf request.getRange = .ok (first, last))
    (hok : (c.getObject request opts w).1 = .ok result) :
    let discardCount := first - OSSEncryptionClient.alignDown first 16
    let w' := (c.getObject request opts w).2
    exists y, c.lastSent request opts w = some y ∧
      y.context.transportContext.sinkFactory =
        (c.alignedRequest ccBuilder request first last).sinkFactory ∧
      (y.request.headers.find? (bytes "Range")).getD [] =
        (c.alignedRequest ccBuilder request first last).getRange ∧
      let transfer := c.curl.received y.request y.context.transportContext y.runtime.env
      transfer.1 = Curl.CURLE_OK ∧ transfer.2.reception.env = w'.env ∧
        result = c.finish request discardCount w'
          ⟨(c.replied y).1.statusCode, (c.replied y).1.headers,
            transfer.2.reception.defaultSink⟩ := by
  intro discardCount w'
  rcases getObject_ok hbuilder hrange hok with ⟨y, r, hsent, hfactory, hanswers, hresult⟩
  rcases hanswers with ⟨request', hsend⟩
  rcases Curl.CurlHttpClient.send_response_iff.mp hsend with ⟨_, hgot, henv, hr⟩
  refine ⟨y, hsent, hfactory, ?_, hgot, henv, ?_⟩
  · have hlast := hsent
    simp only [OSSEncryptionClient.lastSent, hbuilder, hrange] at hlast
    split at hlast
    · cases hlast
    · exact lastSent_range hsigner hlast
  · rw [hresult, hr]
    rfl

end Outcome

/-!
# What comes of a range
-/

/-- A cipher for a range goes on where the range begins. -/
theorem rangeCipher_keystream {aes : BlockCipher} {cc : AesCtrContentCipher}
    (hiv : cc.cipherData.iv.length = 16)
    {start : Nat}
    (hless : start < 2 ^ 64)
    (haligned : start % 16 = 0)
    (hnowrap : 0 < start -> NoWrap cc.cipherData.iv start)
    (i : Nat) :
    (rangeCipher cc start).keystream aes i = cc.keystream aes (start + i) := by
  unfold rangeCipher
  split
  · rename_i hpositive
    have hoffset := toNat_ofInt hless
    have hcounted := (seekIV_eq_iff hiv (UInt64.ofInt start)).mpr
      (hoffset.symm ▸ hnowrap (Int.natCast_pos.mp hpositive))
    have hkeystream := @AesCtrContentCipher.keystream_of_counted aes
        cc.cipherData.key _ _ _ (hoffset.symm ▸ haligned) hcounted i
    rw [hoffset] at hkeystream
    exact hkeystream
  · rename_i hzero
    have hstart : start = 0 := by omega
    rw [hstart, Nat.zero_add]

/-- What is left of a decrypted slice is the slice of the text. -/
theorem decrypted_slice {ks ks' : Keystream} {start first last : Int} (text : ByteString)
    (hstart : 0 ≤ start)
    (hless : start ≤ first)
    (hseek : forall i, ks' i = ks (start.toNat + i)) :
    (mask ks' 0 (slice start last (mask ks 0 text))).drop (first - start).toNat =
      slice first last text := by
  have hunmask : mask ks' 0 (mask ks start.toNat (slice start last text)) =
      slice start last text := by
    have hsame : mask ks' 0 (mask ks start.toNat (slice start last text)) =
        mask ks start.toNat (mask ks start.toNat (slice start last text)) :=
      mask_congr fun i _ => by rw [Nat.zero_add]; exact hseek i
    rw [hsame, mask_mask]
  rw [slice_mask, hunmask]
  exact slice_drop last text hstart hless

/-- The sink that is made for a reply is offered this text of its chunks. -/
def OSSEncryptionClient.Offers (c : OSSEncryptionClient τ σ)
    (ccBuilder : AesCtrCipherBuilder τ) (request : GetObjectRequest σ)
    (discardCount alignedStart : Int) (y : Exchange τ) (text : ByteString) : Prop :=
  let reply := (c.replied y).1
  let env := (c.replied y).2
  forall sink opened,
    userSink c request.sinkFactory reply.recvDataLength reply.headers env =
      (some sink, opened) ->
    exists writer started pieces,
      (c.decryptFactory ccBuilder request.sinkFactory discardCount alignedStart).call
        reply.recvDataLength reply.headers env = (some writer, started) ∧
      pieces.flatten = text ∧
      (c.cells.sinks.get (writer.writes reply.chunks started)).2 =
        sink.writes pieces opened

section Received

variable {c : OSSEncryptionClient τ σ} {ccBuilder : AesCtrCipherBuilder τ}
variable {y : Exchange τ} {request : GetObjectRequest σ}
variable {discardCount alignedStart : Int}

/-- A good transfer delivers what the sink is offered. -/
theorem delivers_of_offers
    (hsinkFactory : y.context.transportContext.sinkFactory =
      some (c.decryptFactory ccBuilder request.sinkFactory discardCount alignedStart))
    (hstatus : (c.replied y).1.chunks ≠ [] ->
      isErrorStatus (c.replied y).1.statusCode = false)
    {w' : Runtime τ}
    (hgot : (c.curl.received y.request y.context.transportContext y.runtime.env).1 =
      Curl.CURLE_OK)
    (hw' : (c.curl.received y.request y.context.transportContext
      y.runtime.env).2.reception.env = w'.env)
    {text : ByteString}
    (hempty : (c.replied y).1.chunks = [] -> text = [])
    (hoffers : (c.replied y).1.chunks ≠ [] ->
      c.Offers ccBuilder request discardCount alignedStart y text) :
    c.Delivers request y w' text ∧
      ((c.replied y).1.chunks ≠ [] ->
        exists writer, (c.curl.received y.request y.context.transportContext
          y.runtime.env).2.reception.sink = some (.user writer)) := by
  by_cases hchunks : (c.replied y).1.chunks = []
  · refine ⟨Or.inl ⟨hempty hchunks, hchunks, ?_⟩, fun hsome => absurd hchunks hsome⟩
    rw [← hw']
    have hreception := (@Curl.Reply.perform_empty _ _ y.context.transportContext
        c.curl.isRequestDisabled (c.replied y).2 hchunks).2
    exact congrArg (fun r => (c.cells.sinks.get r.env).2) hreception
  · rcases hsink : userSink c request.sinkFactory (c.replied y).1.recvDataLength
      (c.replied y).1.headers (c.replied y).2 with ⟨sink, opened⟩
    cases sink with
    | none =>
        rcases @decryptFactory_null _ _ _ ccBuilder _ _ _ discardCount alignedStart _ _
            hsink with ⟨started, hcall⟩
        exact absurd hgot
          (Curl.Reply.perform_null hsinkFactory (hstatus hchunks) hchunks hcall)
    | some sink =>
        rcases hoffers hchunks sink opened hsink with
          ⟨writer, started, pieces, hcall, hpieces, hleft⟩
        rcases Curl.Reply.perform_user hsinkFactory (hstatus hchunks) hchunks hcall hgot
          with ⟨huser, henv⟩
        refine ⟨Or.inr ⟨sink, opened, pieces, hsink, ?_, hpieces⟩,
          fun _ => ⟨writer, huser⟩⟩
        rw [← hw', ← hleft]
        exact congrArg (fun env => (c.cells.sinks.get env).2) henv

theorem sinkFactory_alignedRequest {first last : Int} :
    (c.alignedRequest ccBuilder request first last).sinkFactory =
      some (c.decryptFactory ccBuilder request.sinkFactory
        (first - OSSEncryptionClient.alignDown first 16)
        (OSSEncryptionClient.alignDown first 16)) := by
  unfold OSSEncryptionClient.alignedRequest
  simp only
  split
  · rfl
  · rfl

/-- A reply with an envelope is decrypted. -/
theorem offers_decrypted {cc : AesCtrContentCipher}
    (henvelope : hasEnvelope (getEnvelopeFromHeaders (c.replied y).1.headers) = true)
    (hcc : ccBuilder.fromEnvelope (getEnvelopeFromHeaders (c.replied y).1.headers) =
      .ok cc)
    (hmade : cc.cipherData.Made)
    (hworks : c.aes.Works cc.cipherData.key) :
    c.Offers ccBuilder request discardCount alignedStart y
      ((mask ((rangeCipher cc alignedStart).keystream c.aes) 0
        (c.replied y).1.chunks.flatten).drop discardCount.toNat) := by
  intro sink opened hsink
  rcases @decryptFactory_writes _ _ _ _ _ _ _ discardCount alignedStart _ _
      henvelope hcc hmade hworks _ _ hsink with ⟨writer, started, hcall, hwrites⟩
  rcases hwrites _ (c.replied y).1.chunks_nonempty with ⟨pieces, hpieces, hleft⟩
  exact ⟨writer, started, pieces, hcall, hpieces, hleft⟩

end Received

section Delivery

variable {c : OSSEncryptionClient τ σ} {put : PutObjectRequest (ByteContent τ)}
variable {env : τ} {content : CryptoByteContent τ} {stored : StoredObject}
variable {ccBuilder : AesCtrCipherBuilder τ} {y : Exchange τ}
variable {request : GetObjectRequest σ} {first last : Int}

/-- A reply that serves the range of a request, and was received well, is decrypted. -/
theorem received_delivers (hputs : Puts c put env content stored)
    (hbuilder : c.ccBuilder = some ccBuilder)
    (hfaithful : ccBuilder.masterCipher.Faithful)
    (hworks : c.aes.Works content.key)
    (hnowrap : NoWrapOver content.iv content.inner.data.length)
    (hrange : OSSEncryptionClient.rangeOf request.getRange = .ok (first, last))
    (hplace : OSSEncryptionClient.alignDown first 16 < content.inner.data.length ∨
      first = 0 ∧ last = -1)
    (hserves : stored.Serves y.request (c.replied y).1)
    (hasked : (y.request.headers.find? (bytes "Range")).getD [] =
      (c.alignedRequest ccBuilder request first last).getRange)
    (hfactory : y.context.transportContext.sinkFactory =
      (c.alignedRequest ccBuilder request first last).sinkFactory)
    {w' : Runtime τ}
    (hgot : (c.curl.received y.request y.context.transportContext y.runtime.env).1 =
      Curl.CURLE_OK)
    (hw' : (c.curl.received y.request y.context.transportContext
      y.runtime.env).2.reception.env = w'.env) :
    c.Delivers request y w' (slice first last content.inner.data) := by
  rcases rangeOf_bounds hrange with ⟨hnonneg, hsmall, hlast⟩
  have haligned := alignDown_eq hnonneg
  rcases hserves.body with ⟨first', last', hserved, hbody⟩
  rw [hasked, rangeOf_alignedRequest hrange] at hserved
  cases hserved
  rcases hputs.fromEnvelope hbuilder hfaithful hserves with
    ⟨henvelope, cc, hcc, hmade, hkey, hiv⟩
  -- the stored text, and the cipher that takes the mask off again
  have hstored : stored.data = mask (cc.keystream c.aes) 0 content.inner.data := by
    rw [hputs.data_eq hworks, hkey, hiv]
    rfl
  obtain ⟨start, hstart⟩ : exists start : Nat,
      OSSEncryptionClient.alignDown first 16 = start :=
    Int.eq_ofNat_of_zero_le (by omega)
  have hblock : start % 16 = 0 := by omega
  have hwithin : 0 < start -> NoWrap cc.cipherData.iv start := by
    intro hpositive
    rw [← hiv]
    exact hnowrap start (by omega)
  have hseek := @rangeCipher_keystream c.aes _ hmade.iv start (by omega) hblock
      hwithin
  have hslice := @decrypted_slice _ _ (start : Int) first last content.inner.data
      (Int.natCast_nonneg start) (by omega) hseek
  rw [← hstored] at hslice
  rw [hstart] at hbody
  rw [← hbody] at hslice
  -- now the reply is received
  have hstatus : isErrorStatus (c.replied y).1.statusCode = false := by
    rcases hserves.status with h | h
    · rw [h]
      rfl
    · rw [h]
      rfl
  rw [sinkFactory_alignedRequest, hstart] at hfactory
  refine (delivers_of_offers hfactory (fun _ => hstatus) hgot hw' ?_ ?_).1
  · intro hchunks
    rw [← hslice, hchunks]
    exact List.drop_nil
  · intro _
    rw [← hslice]
    exact offers_decrypted henvelope hcc hmade (hkey ▸ hworks)

end Delivery

/--
When a call of `getObject` is successful, what went on to the sink of its last attempt is
the range of the text that has been put, whatever came of the attempts before.
-/
theorem getObject_delivers (c : OSSEncryptionClient τ σ)
    (put : PutObjectRequest (ByteContent τ)) (body : ByteContent τ) (env : τ)
    (content : CryptoByteContent τ) (stored : StoredObject)
    (hputs : Puts c put env content stored)
    (hbody : put.body = some body)
    (ccBuilder : AesCtrCipherBuilder τ)
    (hbuilder : c.ccBuilder = some ccBuilder)
    (hfaithful : ccBuilder.masterCipher.Faithful)
    (hworks : c.aes.Works content.key)
    (hnowrap : NoWrapOver content.iv body.data.length)
    (hsigner : KeepsRange c.base.options.signer)
    (request : GetObjectRequest σ) (opts : Option (OperationOptions τ)) (w : Runtime τ)
    (first last : Int)
    (hrange : OSSEncryptionClient.rangeOf request.getRange = .ok (first, last))
    (hfirst : first < body.data.length ∨ request.getRange = [])
    (hserves : forall y, c.lastSent request opts w = some y ->
      stored.Serves y.request (c.replied y).1)
    (result : GetObjectResult)
    (hok : (c.getObject request opts w).1 = .ok result) :
    (exists y, c.lastSent request opts w = some y ∧
      c.Delivers request y (c.getObject request opts w).2
        (slice first last body.data)) ∧
    (request.sinkFactory = none -> slice first last body.data ≠ [] ->
      result.body = some (slice first last body.data)) := by
  rcases getObject_received hbuilder hsigner hrange hok with
    ⟨y, hsent, hfactory, hasked, hgot, henv, hresult⟩
  have hinner := hputs.inner_eq hbody
  have hplace : OSSEncryptionClient.alignDown first 16 < content.inner.data.length ∨
      first = 0 ∧ last = -1 := by
    rcases hfirst with hless | hnone
    · left
      have hnonneg := (rangeOf_bounds hrange).1
      have haligned := alignDown_eq hnonneg
      rw [hinner]
      omega
    · right
      rw [hnone] at hrange
      cases hrange
      exact ⟨rfl, rfl⟩
  have hdelivers := received_delivers hputs hbuilder hfaithful hworks
    (hinner.symm ▸ hnowrap) hrange hplace (hserves y hsent) hasked hfactory hgot henv
  rw [hinner] at hdelivers
  refine ⟨⟨y, hsent, hdelivers⟩, fun hdefault htext => ?_⟩
  rcases hdelivers with ⟨hempty, _⟩ | ⟨sink, opened, pieces, hsink, hleft, hpieces⟩
  · exact absurd hempty htext
  · rw [userSink, hdefault] at hsink
    cases hsink
    have hstream := congrArg Prod.snd (hleft.trans
      (by rfl : _ = ((ByteWriter.on Cell.snd (OStreamWriter stringstream)).writes pieces
        ((c.cells.sinks.get (c.replied y).2).2.1, []))))
    have hwrites := ByteWriter.on_writes (Cell.snd : Cell (σ × ByteString) ByteString)
      (OStreamWriter stringstream) pieces ((c.cells.sinks.get (c.replied y).2).2.1, [])
    have hcontent : (c.cells.sinks.get (c.getObject request opts w).2.env).2.2 =
        slice first last body.data := by
      rw [← hpieces]
      exact hstream.trans (hwrites.trans (stringstream_writes pieces []))
    rw [hresult]
    unfold OSSEncryptionClient.finish
    simp only [hdefault, Option.isNone_none, if_true]
    split
    · exact congrArg some hcontent
    · exact congrArg some hcontent

/-!
# Nine bytes, of which four are discarded
-/

def twoBlocks : ByteString := (List.range 32).map UInt8.ofNat

def putTwoBlocks : PutObjectRequest (ByteContent (EncryptionState (Nat × ByteString))) :=
  ⟨SortedMap.empty, SortedMap.empty, some (.content false (some 32) twoBlocks)⟩

def zeroContent : CryptoByteContent (EncryptionState (Nat × ByteString)) :=
  ⟨.content false (some 32) twoBlocks, zeroKey, zeroBlock⟩

def zeroCipher : AesCtrContentCipher :=
  ⟨zeroKey, zeroBlock, List.replicate 32 0x42, List.replicate 16 0x42⟩

def storedTwoBlocks : StoredObject where
  metadata :=
    putHeaders (β := Unit)
      ⟨SortedMap.empty,
        addCryptoHeaders SortedMap.empty zeroCipher (zeroBuilder Unit).getCipherMetadata
          ⟨some 32, none, none⟩, none⟩
  data := zeroContent.sent zeroKeyAes [32]

/-- The connection is lost after one byte. -/
def lostReply : Curl.Reply where
  statusCode := 206
  headers := storedTwoBlocks.metadata
  recvDataLength := 9
  chunks := [[0]]
  res := 18
  text := []
  chunks_nonempty := by decide

def nineBytesReply : Curl.Reply where
  statusCode := 206
  headers := storedTwoBlocks.metadata
  recvDataLength := 9
  chunks := [(storedTwoBlocks.data.drop 16).take 3, (storedTwoBlocks.data.drop 19).take 6]
  res := Curl.CURLE_OK
  text := []
  chunks_nonempty := by decide +kernel

/-- The caller's part of the state is the number of attempts, and a file. -/
def twiceClient : OSSEncryptionClient (EncryptionState (Nat × ByteString))
    (Nat × ByteString) :=
  zeroKeyClient fun _ s =>
    (if s.2.2.1.1 = 0 then lostReply else nineBytesReply,
      s.1, s.2.1, (s.2.2.1.1 + 1, s.2.2.1.2), s.2.2.2)

def getFromTwenty : GetObjectRequest (Nat × ByteString) where
  bucket := bytes "bucket"
  key := bytes "key"
  headers := (SortedMap.empty : HeaderCollection).insertOrAssign (bytes "Range")
    (bytes "bytes=20-24")
  parameters := SortedMap.empty
  sinkFactory :=
    some ⟨some fun _ _ s =>
      (some ((OStreamWriter stringstream).on Cell.snd), (s.1, [])), false⟩

def twiceStart : Runtime (EncryptionState (Nat × ByteString)) :=
  ⟨0, DecryptingWriter.init zeroKeyAes [] [], 0, (0, []), []⟩

theorem getObject_delivers_twenty :
    (exists y, twiceClient.lastSent getFromTwenty none twiceStart = some y ∧
      twiceClient.Delivers getFromTwenty y
        (twiceClient.getObject getFromTwenty none twiceStart).2
        (slice 20 24 twoBlocks)) ∧
    (getFromTwenty.sinkFactory = none -> slice 20 24 twoBlocks ≠ [] ->
      (none : Option ByteString) = some (slice 20 24 twoBlocks)) := by
  have hputs : Puts twiceClient putTwoBlocks twiceStart.env zeroContent
      storedTwoBlocks := by
    refine ⟨⟨_, rfl, rfl, rfl⟩, [32], ?_, rfl⟩
    decide
  have hnowrap : NoWrapOver zeroContent.iv twoBlocks.length := by
    intro p hp
    change lowCounter zeroBlock + p / 16 < 2 ^ 64
    have hlow : lowCounter zeroBlock = 0 := by decide
    have hlength : twoBlocks.length = 32 := rfl
    omega
  have hsent : (twiceClient.lastSent getFromTwenty none twiceStart).map (fun y =>
      ((y.request.headers.find? (bytes "Range")).getD [], (twiceClient.replied y).1)) =
        some (bytes "bytes=16-24", nineBytesReply) := by
    decide +kernel
  have hok : (twiceClient.getObject getFromTwenty none twiceStart).1 =
      .ok ⟨206, storedTwoBlocks.metadata, none⟩ := by
    decide +kernel
  refine getObject_delivers twiceClient putTwoBlocks _ twiceStart.env zeroContent
    storedTwoBlocks hputs rfl (zeroBuilder _) rfl xorMasterCipher_faithful
    zeroKeyAes_works hnowrap (fun _ _ _ => rfl) getFromTwenty none twiceStart 20 24 ?_ ?_
    ?_ _ hok
  · rfl
  · left
    decide
  · intro y hy
    rw [hy] at hsent
    rcases Prod.mk.inj (Option.some.inj hsent) with ⟨hrange, hreply⟩
    constructor
    · rw [hreply]
      exact Or.inr rfl
    · intro name _
      rw [hreply]
      rfl
    · rw [hreply, hrange]
      refine ⟨16, 24, by rfl, ?_⟩
      decide +kernel

end Crypto
end OssSdk
