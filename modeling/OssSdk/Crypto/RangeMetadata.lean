import OssSdk.Crypto.RangeDecryption

/-!
# What is reported of a range

The server describes the range that begins at a block.  The client subtracts what it has
discarded, also where all of it has been.
-/

namespace OssSdk
namespace Crypto

open Foundation
open StreamCipher
open Internal
open Sync
open Client
open Transport
open Utils

variable {σ τ : Type}

/-- The text of `Content-Range`. -/
def contentRangeText (first last total : Int) : ByteString :=
  bytes "bytes " ++ toDecimalInt first ++ bytes "-" ++ toDecimalInt last ++ bytes "/" ++
    toDecimalInt total

/-- The last byte of a range that the server has. -/
def clipped (last : Int) (size : Nat) : Int :=
  if last < 0 then size - 1 else min last (size - 1)

/-- The reply also says which bytes it brings, and how many. -/
structure StoredObject.Describes (stored : StoredObject) (request : RequestMessage τ)
    (reply : Curl.Reply) : Prop extends stored.Serves request reply where
  contentLength : reply.headers.find? (bytes "Content-Length") =
    some (toDecimal reply.chunks.flatten.length)
  contentRange : forall first last,
    OSSEncryptionClient.rangeOf ((request.headers.find? (bytes "Range")).getD []) =
      .ok (first, last) ->
    if (request.headers.find? (bytes "Range")).getD [] = [] then
      reply.headers.find? (bytes "Content-Range") = none
    else
      first < stored.data.length ∧
        reply.headers.find? (bytes "Content-Range") =
          some (contentRangeText first (clipped last stored.data.length)
            stored.data.length)

/-- What a result reports, when this many bytes have been delivered. -/
structure CoherentRange (result : GetObjectResult) (delivered : Nat) : Prop where
  contentLength : result.getContentLength = delivered
  contentRange : result.getContentRange = [] ∨
    exists first last total,
      result.getContentRange = contentRangeText first last total ∧ 0 ≤ first ∧
        first ≤ last ∧ last < total ∧ last - first + 1 = result.getContentLength

/-!
# Rewriting the headers
-/

theorem fromFirst_append {c : UInt8} {pre : ByteString} (hpre : c ∉ pre)
    (rest : ByteString) : fromFirst c (pre ++ c :: rest) = some (c :: rest) := by
  have hcontains : (pre ++ c :: rest).contains c = true := by
    rw [List.contains_iff_mem]
    exact List.mem_append_right _ List.mem_cons_self
  have hbefore : forall b, b ∈ pre -> (b != c) = true := by
    intro b hb
    rw [bne_iff_ne]
    intro hsame
    exact hpre (hsame ▸ hb)
  unfold fromFirst
  rw [if_pos hcontains, List.dropWhile_append_of_pos hbefore, List.dropWhile_cons]
  simp

/-- The start of the range is counted on, and the rest stays. -/
theorem adjustContentRange_text {first : Nat} (hfirst : first < 2 ^ 63)
    (last total discardCount : Int) :
    adjustContentRange (contentRangeText first last total) discardCount =
      contentRangeText (first + discardCount) last total := by
  obtain ⟨tail, htail⟩ : exists tail,
      tail = toDecimalInt last ++ bytes "/" ++ toDecimalInt total := ⟨_, rfl⟩
  have htext : forall x : Int, contentRangeText x last total =
      bytes "bytes" ++ 32 :: (toDecimalInt x ++ 45 :: tail) := by
    intro x
    rw [htail]
    unfold contentRangeText
    simp [bytes]
  have hint : toDecimalInt (first : Int) = toDecimal first := rfl
  have hspace : fromFirst 32 (bytes "bytes" ++ 32 :: (toDecimal first ++ 45 :: tail)) =
      some (32 :: (toDecimal first ++ 45 :: tail)) :=
    fromFirst_append (by decide) _
  have hdash : fromFirst 45 (32 :: (toDecimal first ++ 45 :: tail)) =
      some (45 :: tail) := by
    refine @fromFirst_append 45 (32 :: toDecimal first) ?_ tail
    intro hmem
    rcases List.mem_cons.mp hmem with h | h
    · cases h
    · cases isDigit_of_mem_toDecimal h
  have hstart : strtoll (toDecimal first ++ 45 :: tail) = first :=
    strtoll_toDecimal hfirst fun c hc => by cases hc; rfl
  rw [htext, htext, hint]
  simp only [adjustContentRange, hspace, hdash, List.drop_succ_cons, List.drop_zero,
    hstart]
  simp [bytes]

theorem getContentLength_of_find? {result : GetObjectResult} {length : Int}
    (hlow : -(2 ^ 63) ≤ length)
    (hhigh : length < 2 ^ 63)
    (hfind : result.headers.find? (bytes "Content-Length") = some (toDecimalInt length)) :
    result.getContentLength = length := by
  have hread := @strtoll_toDecimalInt _ [] hlow hhigh (fun c hc => nomatch hc)
  rw [List.append_nil] at hread
  unfold GetObjectResult.getContentLength
  rw [hfind]
  exact hread

section Finish

variable {c : OSSEncryptionClient τ σ} {request : GetObjectRequest σ}
variable {w : Runtime τ} {result : GetObjectResult}

/-- Where nothing is discarded, the headers stay. -/
theorem finish_headers {discardCount : Int} (hdiscard : ¬ 0 < discardCount) :
    (c.finish request discardCount w result).headers = result.headers := by
  unfold OSSEncryptionClient.finish
  simp only [if_neg hdiscard]
  split
  · rfl
  · rfl

/-- What is discarded is subtracted from the length, and added to the start. -/
theorem finish_range {discardCount length first : Nat} {last total : Int}
    (hdiscard : 0 < discardCount)
    (hdiscard' : discardCount < 2 ^ 63)
    (hlength : length < 2 ^ 63)
    (hfirst : first < 2 ^ 63)
    (hcontentLength : result.headers.find? (bytes "Content-Length") =
      some (toDecimal length))
    (hcontentRange : result.headers.find? (bytes "Content-Range") =
      some (contentRangeText first last total)) :
    (c.finish request discardCount w result).getContentLength = length - discardCount ∧
      (c.finish request discardCount w result).getContentRange =
        contentRangeText (first + discardCount) last total := by
  have hother : SortedMap.equivalent caseInsensitiveLess (bytes "Content-Range")
      (bytes "Content-Length") = false := by decide
  obtain ⟨given, hgiven, hheaders⟩ : exists given : GetObjectResult,
      given = (if request.sinkFactory.isNone then
        { result with body := some (c.cells.sinks.get w.env).2.2 } else result) ∧
      given.headers = result.headers := by
    refine ⟨_, rfl, ?_⟩
    split
    · rfl
    · rfl
  have hreadLength : given.getContentLength = length := by
    refine getContentLength_of_find? (by omega) (by omega) ?_
    rw [hheaders]
    exact hcontentLength
  have hreadRange : given.getContentRange = contentRangeText first last total := by
    unfold GetObjectResult.getContentRange
    rw [hheaders, hcontentRange]
    rfl
  have hnewLength : adjustContentLength length discardCount =
      toDecimalInt (length - discardCount) := if_neg (by omega)
  have hsome : (toDecimalInt ((length : Int) - discardCount)).isEmpty = false := by
    cases (length : Int) - discardCount with
    | ofNat n =>
        rw [List.isEmpty_eq_false_iff]
        exact toDecimal_ne_nil n
    | negSucc n => rfl
  have hsome' : (contentRangeText (first + discardCount) last total).isEmpty = false := by
    rfl
  have hfinish : c.finish request discardCount w result =
      { given with
        headers := (given.headers.insertOrAssign (bytes "Content-Length")
          (toDecimalInt (length - discardCount))).insertOrAssign (bytes "Content-Range")
          (contentRangeText (first + discardCount) last total) } := by
    unfold OSSEncryptionClient.finish
    simp only [← hgiven, if_pos (Int.natCast_pos.mpr hdiscard), hreadLength, hreadRange,
      hnewLength, adjustContentRange_text hfirst, GetObjectResult.overwriteRange, hsome,
      hsome', Bool.false_eq_true, if_false]
  constructor
  · refine getContentLength_of_find? (by omega) (by omega) ?_
    rw [hfinish]
    simp only [SortedMap.find?_insertOrAssign, hother, Bool.false_eq_true, if_false,
      SortedMap.equivalent_refl, if_true]
  · unfold GetObjectResult.getContentRange
    rw [hfinish]
    simp only [SortedMap.find?_insertOrAssign, SortedMap.equivalent_refl, if_true]
    rfl

end Finish

/-!
# When the report is coherent
-/

theorem length_slice {first last : Int} (hfirst : 0 ≤ first) (object : ByteString) :
    (slice first last object).length =
      (clipped last object.length + 1 - first).toNat := by
  unfold slice clipped
  split
  · rw [List.length_drop]
    omega
  · rw [List.length_drop, List.length_take]
    omega

/-- The same, for a slice whose bounds do not cross. -/
theorem length_slice_of_le {first last : Int} {object : ByteString}
    (hfirst : 0 ≤ first)
    (hless : first < object.length)
    (hlast : last = -1 ∨ first ≤ last) :
    ((slice first last object).length : Int) = clipped last object.length + 1 - first ∧
      first ≤ clipped last object.length ∧
      clipped last object.length < object.length := by
  have hlength := @length_slice _ last hfirst object
  have hclipped : first ≤ clipped last object.length ∧
      clipped last object.length < object.length := by
    unfold clipped
    split
    · omega
    · omega
  exact ⟨by omega, hclipped⟩

/-- A range with a text is coherent if it has the length that is reported. -/
theorem coherentRange_of_text {result : GetObjectResult} {first last total : Int}
    {delivered : Nat}
    (hlength : result.getContentLength = delivered)
    (hrange : result.getContentRange = contentRangeText first last total)
    (hfirst : 0 ≤ first)
    (hordered : first ≤ last)
    (hlast : last < total)
    (hdelivered : last - first + 1 = delivered) : CoherentRange result delivered where
  contentLength := hlength
  contentRange :=
    Or.inr ⟨first, last, total, hrange, hfirst, hordered, hlast, hlength ▸ hdelivered⟩

/-- No range is coherent that is reported to be empty, or less. -/
theorem not_coherentRange {result : GetObjectResult} {first last total : Int}
    {delivered : Nat}
    (hlength : result.getContentLength ≤ 0)
    (hrange : result.getContentRange = contentRangeText first last total) :
    ¬ CoherentRange result delivered := by
  intro hcoherent
  rcases hcoherent.contentRange with hnone | ⟨first', last', total', _, _, hordered, _, hsum⟩
  · rw [hrange] at hnone
    cases hnone
  · omega

/-- The reply to an aligned request makes a coherent report if the range begins inside. -/
theorem finish_coherent_iff {c : OSSEncryptionClient τ σ} {request : GetObjectRequest σ}
    {w : Runtime τ} {stored : StoredObject} {message : RequestMessage τ}
    {reply : Curl.Reply} {body : Option ByteString} {first last : Int}
    (hdescribes : stored.Describes message reply)
    (hbounds : 0 ≤ first ∧ first < 2 ^ 63 ∧ (last = -1 ∨ first ≤ last ∧ last < 2 ^ 63))
    (hasked : OSSEncryptionClient.rangeOf
      ((message.headers.find? (bytes "Range")).getD []) =
        .ok (OSSEncryptionClient.alignDown first 16, last))
    (hranged : (message.headers.find? (bytes "Range")).getD [] ≠ [])
    (hsize : stored.data.length < 2 ^ 63) :
    CoherentRange
        (c.finish request (first - OSSEncryptionClient.alignDown first 16) w
          ⟨reply.statusCode, reply.headers, body⟩)
        (slice first last stored.data).length ↔
      first < stored.data.length := by
  rcases hbounds with ⟨hnonneg, hsmall, hlast⟩
  have haligned := alignDown_eq hnonneg
  have hrange := hdescribes.contentRange _ _ hasked
  rw [if_neg hranged] at hrange
  rcases hrange with ⟨hinside, hcontentRange⟩
  rcases hdescribes.body with ⟨first', last', hserved, hbody⟩
  rw [hasked] at hserved
  cases hserved
  have hcontentLength := hdescribes.contentLength
  obtain ⟨start, hstart⟩ : exists start : Nat,
      OSSEncryptionClient.alignDown first 16 = start :=
    Int.eq_ofNat_of_zero_le (by omega)
  rw [hstart] at hcontentRange hinside hbody haligned ⊢
  rcases @length_slice_of_le _ last _ (Int.natCast_nonneg start) hinside (by omega)
    with ⟨hlength, hclipped, hclipped'⟩
  rw [← hbody] at hlength
  have hdelivered := @length_slice _ last hnonneg stored.data
  obtain ⟨discard, hdiscard⟩ : exists discard : Nat, first - start = discard :=
    Int.eq_ofNat_of_zero_le (by omega)
  rw [hdiscard]
  by_cases hnone : discard = 0
  · have hheaders := @finish_headers _ _ c request w
      ⟨reply.statusCode, reply.headers, body⟩ discard (by omega)
    have hsame : first = start := by omega
    refine iff_of_true ?_ (by omega)
    refine @coherentRange_of_text _ start (clipped last stored.data.length)
        stored.data.length _ ?_ ?_ (by omega) (by omega) hclipped' (by omega)
    · refine getContentLength_of_find? (by omega) (by omega) ?_
      rw [hheaders]
      have hcount : ((slice first last stored.data).length : Int) =
          (reply.chunks.flatten.length : Nat) := by
        rw [hsame, hbody]
      rw [hcount]
      exact hcontentLength
    · unfold GetObjectResult.getContentRange
      rw [hheaders, hcontentRange]
      rfl
  · rcases @finish_range _ _ c request w ⟨reply.statusCode, reply.headers, body⟩
      discard _ _ _ _ (Nat.pos_of_ne_zero hnone) (by omega) (by omega) (by omega)
      hcontentLength hcontentRange with ⟨hreported, hreportedRange⟩
    constructor
    · intro hcoherent
      by_contra houtside
      refine not_coherentRange ?_ hreportedRange hcoherent
      unfold clipped at hlength
      split at hlength
      · omega
      · omega
    · intro hless
      rcases @length_slice_of_le _ last _ hnonneg hless (by omega) with
        ⟨hlength', hordered, _⟩
      refine coherentRange_of_text ?_ hreportedRange (by omega) (by omega) hclipped'
        (by omega)
      omega

/-- The reply to a request without a range makes a coherent report. -/
theorem finish_whole_coherent {c : OSSEncryptionClient τ σ}
    {request : GetObjectRequest σ} {w : Runtime τ} {stored : StoredObject}
    {message : RequestMessage τ} {reply : Curl.Reply} {body : Option ByteString}
    (hdescribes : stored.Describes message reply)
    (hasked : OSSEncryptionClient.rangeOf
      ((message.headers.find? (bytes "Range")).getD []) = .ok (0, -1))
    (hnone : (message.headers.find? (bytes "Range")).getD [] = [])
    (hsize : stored.data.length < 2 ^ 63) :
    CoherentRange
      (c.finish request (0 - OSSEncryptionClient.alignDown 0 16) w
        ⟨reply.statusCode, reply.headers, body⟩)
      (slice 0 (-1) stored.data).length := by
  have hreported := hdescribes.contentRange _ _ hasked
  rw [if_pos hnone] at hreported
  have hheaders := @finish_headers _ _ c request w ⟨reply.statusCode, reply.headers, body⟩
    (0 - OSSEncryptionClient.alignDown 0 16) (by decide)
  rcases hdescribes.body with ⟨first, last, hserved, hchunks⟩
  rw [hasked] at hserved
  cases hserved
  constructor
  · refine getContentLength_of_find? (by omega) ?_ ?_
    · rw [length_slice (by omega)]
      unfold clipped
      omega
    · rw [hheaders, ← hchunks]
      exact hdescribes.contentLength
  · left
    unfold GetObjectResult.getContentRange
    rw [hheaders, hreported]
    rfl

/--
A successful call has delivered the range, and reports it coherently if and only if the
range begins inside the object, or none was asked for.
-/
theorem getObject_coherent_iff (c : OSSEncryptionClient τ σ)
    (put : PutObjectRequest (ByteContent τ)) (body : ByteContent τ) (env : τ)
    (content : CryptoByteContent τ) (stored : StoredObject)
    (hputs : Puts c put env content stored)
    (hbody : put.body = some body)
    (ccBuilder : AesCtrCipherBuilder τ)
    (hbuilder : c.ccBuilder = some ccBuilder)
    (hfaithful : ccBuilder.masterCipher.Faithful)
    (hworks : c.aes.Works content.key)
    (hnowrap : NoWrapOver content.iv body.data.length)
    (hsize : body.data.length < 2 ^ 63)
    (hsigner : KeepsRange c.base.options.signer)
    (request : GetObjectRequest σ) (opts : Option (OperationOptions τ)) (w : Runtime τ)
    (first last : Int)
    (hrange : OSSEncryptionClient.rangeOf request.getRange = .ok (first, last))
    (hdescribes : forall y, c.lastSent request opts w = some y ->
      stored.Describes y.request (c.replied y).1)
    (result : GetObjectResult)
    (hok : (c.getObject request opts w).1 = .ok result) :
    (exists y, c.lastSent request opts w = some y ∧
      c.Delivers request y (c.getObject request opts w).2
        (slice first last body.data)) ∧
    (CoherentRange result (slice first last body.data).length ↔
      first < body.data.length ∨ request.getRange = []) := by
  rcases getObject_received hbuilder hsigner hrange hok with
    ⟨y, hsent, hfactory, hasked, hgot, henv, hresult⟩
  have hinner := hputs.inner_eq hbody
  have hdata := hputs.data_eq hworks
  rw [hinner] at hdata
  have hlength : stored.data.length = body.data.length := by
    rw [hdata, length_mask]
  have hsliced : (slice first last stored.data).length =
      (slice first last body.data).length := by
    rw [hdata, slice_mask, length_mask]
  have hbounds := rangeOf_bounds hrange
  have hdescribed := hdescribes y hsent
  have haligned := @rangeOf_alignedRequest _ _ c ccBuilder _ _ _ hrange
  rw [← hasked] at haligned
  by_cases hwhole : request.getRange = []
  · rw [hwhole] at hrange
    cases hrange
    have hnone : (y.request.headers.find? (bytes "Range")).getD [] = [] := by
      rw [hasked, getRange_alignedRequest]
      exact hwhole
    constructor
    · refine ⟨y, hsent, ?_⟩
      have hdelivers := received_delivers hputs hbuilder hfaithful hworks
        (hinner.symm ▸ hnowrap) (by rw [hwhole]; rfl) (Or.inr ⟨rfl, rfl⟩)
        hdescribed.toServes hasked hfactory hgot henv
      rw [hinner] at hdelivers
      exact hdelivers
    · refine iff_of_true ?_ (Or.inr hwhole)
      have hcoherent := @finish_whole_coherent _ _ c request
        (c.getObject request opts w).2 _ _ _
        (c.curl.received y.request y.context.transportContext
          y.runtime.env).2.reception.defaultSink
        hdescribed haligned hnone (hlength.symm ▸ hsize)
      rw [← hsliced]
      exact hresult ▸ hcoherent
  · have hranged : (y.request.headers.find? (bytes "Range")).getD [] ≠ [] := by
      rw [hasked, getRange_alignedRequest]
      split
      · exact printRange_ne_nil _ _
      · exact hwhole
    have hreported := hdescribed.contentRange _ _ haligned
    rw [if_neg hranged, hlength] at hreported
    constructor
    · refine ⟨y, hsent, ?_⟩
      have hdelivers := received_delivers hputs hbuilder hfaithful hworks
        (hinner.symm ▸ hnowrap) hrange (Or.inl (hinner.symm ▸ hreported.1))
        hdescribed.toServes hasked hfactory hgot henv
      rw [hinner] at hdelivers
      exact hdelivers
    · have hcoherent := @finish_coherent_iff _ _ c request
        (c.getObject request opts w).2 _ _ _
        (c.curl.received y.request y.context.transportContext
          y.runtime.env).2.reception.defaultSink
        _ _ hdescribed hbounds haligned hranged (hlength.symm ▸ hsize)
      rw [← hresult, hsliced, hlength] at hcoherent
      rw [hcoherent]
      exact (or_iff_left hwhole).symm

/-!
# Seventeen bytes, asked for from the twentieth on
-/

def seventeenBytes : ByteString := (List.range 17).map UInt8.ofNat

def putSeventeen : PutObjectRequest (ByteContent (EncryptionState Unit)) :=
  ⟨SortedMap.empty, SortedMap.empty, some (.content false (some 17) seventeenBytes)⟩

def seventeenContent : CryptoByteContent (EncryptionState Unit) :=
  ⟨.content false (some 17) seventeenBytes, zeroKey, zeroBlock⟩

def storedSeventeen : StoredObject where
  metadata :=
    putHeaders (β := Unit)
      ⟨SortedMap.empty,
        addCryptoHeaders SortedMap.empty zeroCipher (zeroBuilder Unit).getCipherMetadata
          ⟨some 17, none, none⟩, none⟩
  data := seventeenContent.sent zeroKeyAes [17]

/-- The block that the range begins in has one byte. -/
def lastByteReply : Curl.Reply where
  statusCode := 206
  headers := (storedSeventeen.metadata.insertOrAssign (bytes "Content-Length")
    (bytes "1")).insertOrAssign (bytes "Content-Range") (bytes "bytes 16-16/17")
  recvDataLength := 1
  chunks := [storedSeventeen.data.drop 16]
  res := Curl.CURLE_OK
  text := []
  chunks_nonempty := by decide +kernel

def seventeenClient : OSSEncryptionClient (EncryptionState Unit) Unit :=
  zeroKeyClient fun _ s => (lastByteReply, s)

def getPastTheEnd : GetObjectRequest Unit where
  bucket := bytes "bucket"
  key := bytes "key"
  headers := (SortedMap.empty : HeaderCollection).insertOrAssign (bytes "Range")
    (bytes "bytes=20-")
  parameters := SortedMap.empty
  sinkFactory := none

def seventeenStart : Runtime (EncryptionState Unit) :=
  ⟨0, DecryptingWriter.init zeroKeyAes [] [], 0, (), []⟩

/-- The length is 1 - 4, and the range begins after it has ended. -/
def pastTheEnd : GetObjectResult where
  statusCode := 206
  headers := (lastByteReply.headers.insertOrAssign (bytes "Content-Length")
    (bytes "-3")).insertOrAssign (bytes "Content-Range") (bytes "bytes 20-16/17")
  body := some []

theorem putSeventeen_puts : Puts seventeenClient putSeventeen seventeenStart.env
    seventeenContent storedSeventeen := by
  refine ⟨⟨_, rfl, rfl, rfl⟩, [17], ?_, rfl⟩
  decide

theorem pastTheEnd_ok : (seventeenClient.getObject getPastTheEnd none seventeenStart).1 =
    .ok pastTheEnd := by
  decide +kernel

theorem lastByteReply_describes (y : Exchange (EncryptionState Unit))
    (hsent : seventeenClient.lastSent getPastTheEnd none seventeenStart = some y) :
    storedSeventeen.Describes y.request (seventeenClient.replied y).1 := by
  have hasked : (seventeenClient.lastSent getPastTheEnd none seventeenStart).map
      (fun y => (y.request.headers.find? (bytes "Range")).getD []) =
        some (bytes "bytes=16-") := by
    decide +kernel
  rw [hsent] at hasked
  have hrange : (y.request.headers.find? (bytes "Range")).getD [] =
      bytes "bytes=16-" := Option.some.inj hasked
  have hreply : (seventeenClient.replied y).1 = lastByteReply := rfl
  rw [hreply]
  refine ⟨⟨Or.inr rfl, ?_, 16, -1, ?_, ?_⟩, ?_, ?_⟩
  · intro name hname
    rcases hname with ⟨rest, rfl⟩
    have hlength : SortedMap.equivalent caseInsensitiveLess (bytes "Content-Length")
        (bytes "x-oss-meta-" ++ rest) = false := rfl
    have hrange : SortedMap.equivalent caseInsensitiveLess (bytes "Content-Range")
        (bytes "x-oss-meta-" ++ rest) = false := rfl
    unfold lastByteReply
    simp only [find?_insertOrAssign_of_other hrange, find?_insertOrAssign_of_other hlength]
  · rw [hrange]
    rfl
  · decide +kernel
  · decide +kernel
  · intro first last hsides
    have hsixteen : OSSEncryptionClient.rangeOf (bytes "bytes=16-") = .ok (16, -1) := rfl
    rw [hrange, hsixteen] at hsides
    cases hsides
    rw [hrange, if_neg (fun h => nomatch h)]
    decide +kernel

theorem getObject_coherent_iff_seventeen :
    (exists y, seventeenClient.lastSent getPastTheEnd none seventeenStart = some y ∧
      seventeenClient.Delivers getPastTheEnd y
        (seventeenClient.getObject getPastTheEnd none seventeenStart).2
        (slice 20 (-1) seventeenBytes)) ∧
    (CoherentRange pastTheEnd (slice 20 (-1) seventeenBytes).length ↔
      (20 : Int) < seventeenBytes.length ∨ getPastTheEnd.getRange = []) := by
  have hnowrap : NoWrapOver seventeenContent.iv seventeenBytes.length := by
    intro p hp
    change lowCounter zeroBlock + p / 16 < 2 ^ 64
    have hlow : lowCounter zeroBlock = 0 := by decide
    have hlength : seventeenBytes.length = 17 := rfl
    omega
  exact getObject_coherent_iff seventeenClient putSeventeen _ seventeenStart.env
    seventeenContent storedSeventeen putSeventeen_puts rfl (zeroBuilder _) rfl
    xorMasterCipher_faithful zeroKeyAes_works hnowrap (by decide) (fun _ _ _ => rfl)
    getPastTheEnd none seventeenStart 20 (-1) rfl lastByteReply_describes pastTheEnd
    pastTheEnd_ok

theorem not_coherent_seventeen :
    Puts seventeenClient putSeventeen seventeenStart.env seventeenContent
        storedSeventeen ∧
      OSSEncryptionClient.rangeOf getPastTheEnd.getRange = .ok (20, -1) ∧
      (forall y, seventeenClient.lastSent getPastTheEnd none seventeenStart = some y ->
        storedSeventeen.Describes y.request (seventeenClient.replied y).1) ∧
      (seventeenClient.getObject getPastTheEnd none seventeenStart).1 = .ok pastTheEnd ∧
      pastTheEnd.getContentLength = -3 ∧
      forall delivered, ¬ CoherentRange pastTheEnd delivered := by
  have hlength : pastTheEnd.getContentLength = -3 := by decide +kernel
  have hrange : pastTheEnd.getContentRange = contentRangeText 20 16 17 := by
    decide +kernel
  refine ⟨putSeventeen_puts, rfl, lastByteReply_describes, pastTheEnd_ok, hlength, ?_⟩
  intro delivered
  exact not_coherentRange (by rw [hlength]; decide) hrange

end Crypto
end OssSdk
