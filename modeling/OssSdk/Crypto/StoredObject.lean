import OssSdk.Crypto.OSSEncryptionClient
import OssSdk.Crypto.SeekLaw

/-!
# Objects that have been put

The server keeps what it has been sent: the encrypted text, and the metadata, which
lead back to the key and the vector.
-/

namespace OssSdk
namespace Crypto

open Foundation
open StreamCipher
open Transport
open Utils

variable {σ τ : Type}

/-!
# Slices
-/

/-- The bytes from `first` to `last`; an end of -1 is that of the object. -/
def slice (first last : Int) (object : ByteString) : ByteString :=
  if last < 0 then object.drop first.toNat
  else (object.take (last.toNat + 1)).drop first.toNat

/-- Dropping the first bytes of a slice is beginning later. -/
theorem slice_drop {start first : Int} (last : Int) (object : ByteString)
    (hstart : 0 ≤ start)
    (hless : start ≤ first) :
    (slice start last object).drop (first - start).toNat = slice first last object := by
  have hsum : start.toNat + (first - start).toNat = first.toNat := by omega
  unfold slice
  split
  · rw [List.drop_drop, hsum]
  · rw [List.drop_drop, hsum]

theorem slice_mask (ks : Keystream) (first last : Int) (text : ByteString) :
    slice first last (mask ks 0 text) =
      mask ks first.toNat (slice first last text) := by
  unfold slice
  split
  · rw [mask_drop, Nat.zero_add]
  · rw [mask_take, mask_drop, Nat.zero_add]

/-!
# Objects
-/

structure StoredObject where
  metadata : HeaderCollection
  data : ByteString

/-- What the server has when `content` has been sent by `putObject`. -/
structure Puts (c : OSSEncryptionClient τ σ) (request : PutObjectRequest (ByteContent τ))
    (env : τ) (content : CryptoByteContent τ) (stored : StoredObject) : Prop where
  request : exists sent, (c.putObject request env).1 = .ok sent ∧
    sent.body = some content ∧ stored.metadata = putHeaders sent
  data : exists counts : List Nat, content.inner.data.length ≤ counts.sum ∧
    stored.data = content.sent c.aes counts

/--
The reply of a server that has the object: the metadata, and the range that the request
asks for.
-/
structure StoredObject.Serves (stored : StoredObject) (request : RequestMessage τ)
    (reply : Curl.Reply) : Prop where
  status : reply.statusCode = 200 ∨ reply.statusCode = 206
  metadata : forall name, bytes "x-oss-meta-" <+: name ->
    reply.headers.find? name = stored.metadata.find? name
  body : exists first last,
    OSSEncryptionClient.rangeOf ((request.headers.find? (bytes "Range")).getD []) =
      .ok (first, last) ∧
    reply.chunks.flatten = slice first last stored.data

/-!
# The envelope
-/

theorem equivalent_append (pre name name' : ByteString) :
    SortedMap.equivalent caseInsensitiveLess (pre ++ name) (pre ++ name') =
      SortedMap.equivalent caseInsensitiveLess name name' := by
  unfold SortedMap.equivalent caseInsensitiveLess
  rw [lexLess_append, lexLess_append]

/-- The metadata of a request are found under their prefix. -/
theorem putHeaders_find? {β : Type} (request : PutObjectRequest β)
    {name value : ByteString}
    (hvalue : request.metadata.find? name = some value) :
    (putHeaders request).find? (bytes "x-oss-meta-" ++ name) = some value := by
  unfold putHeaders
  simp only
  rw [SortedMap.find?_foldl_insertOrAssign, List.find?_map]
  · have hpredicate :
        (fun e : ByteString × ByteString =>
          SortedMap.equivalent caseInsensitiveLess e.1 (bytes "x-oss-meta-" ++ name)) ∘
          (fun e : ByteString × ByteString => (bytes "x-oss-meta-" ++ e.1, e.2)) =
        fun e : ByteString × ByteString => SortedMap.equivalent caseInsensitiveLess e.1 name := by
      funext e
      exact equivalent_append _ _ _
    rw [hpredicate]
    rw [SortedMap.find?_eq, SortedMap.findEntry] at hvalue
    cases hentry : request.metadata.entries.find? fun e =>
        SortedMap.equivalent caseInsensitiveLess e.1 name with
    | none =>
        rw [hentry] at hvalue
        cases hvalue
    | some e =>
        rw [hentry] at hvalue
        exact congrArg (Option.or · _) hvalue
  · rw [List.pairwise_map]
    refine request.metadata.sorted.imp fun hless => ?_
    rw [equivalent_append]
    exact SortedMap.not_equivalent_of_less hless

theorem find?_insertOrAssign_of_other {m : HeaderCollection} {k k' v : ByteString}
    (hother : SortedMap.equivalent caseInsensitiveLess k k' = false) :
    (m.insertOrAssign k v).find? k' = m.find? k' := by
  rw [SortedMap.find?_insertOrAssign, hother, if_neg Bool.false_ne_true]

/-- What is found in the metadata that an encrypted text is sent with. -/
structure EnvelopeMetadata (cd : CipherData) (cm : CipherMetadata)
    (find? : ByteString -> Option ByteString) : Prop where
  key : find? (bytes "client-side-encryption-key") = some (Base64Encode cd.encryptedKey)
  start : find? (bytes "client-side-encryption-start") =
    some (Base64Encode cd.encryptedIV)
  cekAlg : find? (bytes "client-side-encryption-cek-alg") = some cm.cekAlgorithm
  wrapAlg : find? (bytes "client-side-encryption-wrap-alg") = some cm.wrapAlgorithm

/-- An entry that may be added under another name. -/
theorem EnvelopeMetadata.insertSome {cd : CipherData} {cm : CipherMetadata}
    {m : HeaderCollection}
    (henvelope : EnvelopeMetadata cd cm m.find?)
    {name : ByteString} (value : Option ByteString)
    (hkey : SortedMap.equivalent caseInsensitiveLess name
      (bytes "client-side-encryption-key") = false)
    (hstart : SortedMap.equivalent caseInsensitiveLess name
      (bytes "client-side-encryption-start") = false)
    (hcek : SortedMap.equivalent caseInsensitiveLess name
      (bytes "client-side-encryption-cek-alg") = false)
    (hwrap : SortedMap.equivalent caseInsensitiveLess name
      (bytes "client-side-encryption-wrap-alg") = false) :
    EnvelopeMetadata cd cm (Crypto.insertSome m name value).find? := by
  cases value with
  | none => exact henvelope
  | some value =>
      constructor
      · exact (find?_insertOrAssign_of_other hkey).trans henvelope.key
      · exact (find?_insertOrAssign_of_other hstart).trans henvelope.start
      · exact (find?_insertOrAssign_of_other hcek).trans henvelope.cekAlg
      · exact (find?_insertOrAssign_of_other hwrap).trans henvelope.wrapAlg

theorem addCryptoHeaders_envelope (metadata : HeaderCollection)
    (cc : AesCtrContentCipher) (cm : CipherMetadata) (opts : CryptoHeaderOptions) :
    EnvelopeMetadata cc.cipherData cm (addCryptoHeaders metadata cc cm opts).find? := by
  have hfirst : EnvelopeMetadata cc.cipherData cm
      ((((metadata.insertOrAssign (bytes "client-side-encryption-key")
        (Base64Encode cc.cipherData.encryptedKey)).insertOrAssign
        (bytes "client-side-encryption-start")
        (Base64Encode cc.cipherData.encryptedIV)).insertOrAssign
        (bytes "client-side-encryption-cek-alg") cm.cekAlgorithm).insertOrAssign
        (bytes "client-side-encryption-wrap-alg") cm.wrapAlgorithm).find? := by
    constructor
    · simp only [SortedMap.find?_insertOrAssign]
      rfl
    · simp only [SortedMap.find?_insertOrAssign]
      rfl
    · simp only [SortedMap.find?_insertOrAssign]
      rfl
    · simp only [SortedMap.find?_insertOrAssign]
      rfl
  have hmatDesc := @EnvelopeMetadata.insertSome _ _ _ hfirst
    (bytes "client-side-encryption-matdesc")
    (if cm.matDesc.isEmpty then none else some cm.matDesc) (by decide) (by decide)
    (by decide) (by decide)
  unfold addCryptoHeaders
  refine EnvelopeMetadata.insertSome ?_ _ (by decide) (by decide) (by decide) (by decide)
  refine EnvelopeMetadata.insertSome ?_ _ (by decide) (by decide) (by decide) (by decide)
  refine EnvelopeMetadata.insertSome ?_ _ (by decide) (by decide) (by decide) (by decide)
  exact hmatDesc

/-- The headers of the envelope are metadata. -/
theorem cseHeaders_eq :
    kCseKeyHeader = bytes "x-oss-meta-" ++ bytes "client-side-encryption-key" ∧
      kCseStartHeader = bytes "x-oss-meta-" ++ bytes "client-side-encryption-start" ∧
      kCseCekAlgHeader = bytes "x-oss-meta-" ++ bytes "client-side-encryption-cek-alg" ∧
      kCseWrapAlgHeader =
        bytes "x-oss-meta-" ++ bytes "client-side-encryption-wrap-alg" := by
  decide +kernel

section Stored

variable {c : OSSEncryptionClient τ σ} {put : PutObjectRequest (ByteContent τ)}
variable {env : τ} {content : CryptoByteContent τ} {stored : StoredObject}

/-- What `putObject` has made of a request. -/
theorem Puts.created (hputs : Puts c put env content stored) :
    exists ccBuilder cc body, c.ccBuilder = some ccBuilder ∧
      (ccBuilder.create env).1 = .ok cc ∧ put.body = some body ∧
      content = cc.encryptContent body ∧
      EnvelopeMetadata cc.cipherData ccBuilder.getCipherMetadata
        (fun name => stored.metadata.find? (bytes "x-oss-meta-" ++ name)) := by
  rcases hputs.request with ⟨sent, hput, hbody, hmetadata⟩
  unfold OSSEncryptionClient.putObject at hput
  cases hbuilder : c.ccBuilder with
  | none =>
      simp only [hbuilder] at hput
      cases hput
  | some ccBuilder =>
      rcases hcreate : ccBuilder.create env with ⟨created, env1⟩
      cases created with
      | error message =>
          simp only [hbuilder, hcreate] at hput
          cases hput
      | ok cc =>
          simp only [hbuilder, hcreate] at hput
          cases hput
          rcases Option.map_eq_some_iff.mp hbody with ⟨body, hput, hcontent⟩
          have henvelope := addCryptoHeaders_envelope put.metadata cc
            ccBuilder.getCipherMetadata
            ⟨(put.body.bind (·.length)).map Int.ofNat, none, none⟩
          refine ⟨ccBuilder, cc, body, rfl, congrArg Prod.fst hcreate, hput,
            hcontent.symm, ?_⟩
          rw [hmetadata]
          constructor
          · exact putHeaders_find? _ henvelope.key
          · exact putHeaders_find? _ henvelope.start
          · exact putHeaders_find? _ henvelope.cekAlg
          · exact putHeaders_find? _ henvelope.wrapAlg

theorem Puts.inner_eq (hputs : Puts c put env content stored)
    {body : ByteContent τ}
    (hbody : put.body = some body) : content.inner = body := by
  rcases hputs.created with ⟨_, cc, body', _, _, hbody', hcontent, _⟩
  rw [hbody] at hbody'
  cases hbody'
  rw [hcontent]
  rfl

/-- The server has the text, masked with the keystream of the content. -/
theorem Puts.data_eq (hputs : Puts c put env content stored)
    (hworks : c.aes.Works content.key) :
    stored.data = mask (c.aes.keystream content.key content.iv) 0 content.inner.data := by
  rcases hputs.created with ⟨_, cc, body, _, hcreate, _, rfl, _⟩
  rcases AesCtrCipherBuilder.create_made hcreate with ⟨hmade, _⟩
  rcases hputs.data with ⟨counts, hcounts, hdata⟩
  rw [hdata]
  exact AesCtrContentCipher.sent_eq hworks hmade.iv hmade.valid body hcounts

/-- The envelope of a reply, read from the metadata of the object. -/
theorem StoredObject.Serves.envelope {request : RequestMessage τ} {reply : Curl.Reply}
    (hserves : stored.Serves request reply)
    {cd : CipherData} {cm : CipherMetadata}
    (hmetadata : EnvelopeMetadata cd cm
      (fun name => stored.metadata.find? (bytes "x-oss-meta-" ++ name))) :
    let envelope := getEnvelopeFromHeaders reply.headers
    envelope.cipherKey = Base64Encode cd.encryptedKey ∧
      envelope.iv = Base64Encode cd.encryptedIV ∧
      envelope.cekAlg = cm.cekAlgorithm ∧ envelope.wrapAlg = cm.wrapAlgorithm := by
  have hfind : forall {name value : ByteString},
      stored.metadata.find? (bytes "x-oss-meta-" ++ name) = some value ->
      (reply.headers.find? (bytes "x-oss-meta-" ++ name)).getD [] = value := by
    intro name value hvalue
    rw [hserves.metadata _ (List.prefix_append _ _), hvalue]
    rfl
  rcases cseHeaders_eq with ⟨hkey, hstart, hcekAlg, hwrapAlg⟩
  unfold getEnvelopeFromHeaders
  simp only [hkey, hstart, hcekAlg, hwrapAlg]
  exact ⟨hfind hmetadata.key, hfind hmetadata.start, hfind hmetadata.cekAlg,
    hfind hmetadata.wrapAlg⟩

/-- A reply leads back to the key and the vector of the object. -/
theorem Puts.fromEnvelope {ccBuilder : AesCtrCipherBuilder τ}
    (hbuilder : c.ccBuilder = some ccBuilder)
    (hputs : Puts c put env content stored)
    (hfaithful : ccBuilder.masterCipher.Faithful)
    {request : RequestMessage τ} {reply : Curl.Reply}
    (hserves : stored.Serves request reply) :
    hasEnvelope (getEnvelopeFromHeaders reply.headers) = true ∧
      exists cc, ccBuilder.fromEnvelope (getEnvelopeFromHeaders reply.headers) = .ok cc ∧
        cc.cipherData.Made ∧ content.key = cc.cipherData.key ∧
        content.iv = cc.cipherData.iv := by
  rcases hputs.created with ⟨ccBuilder', cc, body, hbuilder', hcreate, _, rfl, hmetadata⟩
  rw [hbuilder] at hbuilder'
  cases hbuilder'
  rcases AesCtrCipherBuilder.create_made hcreate with ⟨hmade, hkey, hiv⟩
  rcases hserves.envelope hmetadata with ⟨hcipherKey, hcipherIV, hcekAlg, hwrapAlg⟩
  constructor
  · have hkeyEncoded := Base64Encode_ne_nil
      (hfaithful.encrypted (List.ne_nil_of_length_eq_add_one hmade.key) hkey)
    have hivEncoded := Base64Encode_ne_nil
      (hfaithful.encrypted (List.ne_nil_of_length_eq_add_one hmade.iv) hiv)
    have hwrapAlg' : ccBuilder.getCipherMetadata.wrapAlgorithm ≠ [] :=
      hfaithful.wrapAlgorithm
    have hcekAlg' : ccBuilder.getCipherMetadata.cekAlgorithm ≠ [] :=
      fun h => nomatch h
    unfold hasEnvelope
    rw [hcipherKey, hcipherIV, hcekAlg, hwrapAlg]
    simp [hkeyEncoded, hivEncoded, hwrapAlg', hcekAlg']
  · rcases AesCtrCipherBuilder.fromEnvelope_made hfaithful hmade hkey hiv hcipherKey
      hcipherIV with ⟨found, hfound, hkey', hiv'⟩
    refine ⟨found, hfound, ⟨?_, ?_⟩, hkey'.symm, hiv'.symm⟩
    · rw [hkey']
      exact hmade.key
    · rw [hiv']
      exact hmade.iv

end Stored

end Crypto
end OssSdk
