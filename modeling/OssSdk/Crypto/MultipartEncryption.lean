import OssSdk.Crypto.OSSEncryptionClient
import OssSdk.Crypto.SeekLaw
import OssSdk.Foundation.Transition

/-!
# Multipart uploads and whole objects

The parts of an object are encrypted one by one, each from its own place in the
keystream.  However the attempts to upload them go, the parts put together are the
object that encrypting all of the text at once would have given.
-/

namespace OssSdk
namespace Crypto

open Foundation
open StreamCipher

variable {σ τ : Type}

/-!
# Uploads
-/

/-- The parts of a text, all but the last of this size. -/
def Cut (size : Nat) (parts : List ByteString) : Prop :=
  forall (i : Nat) (part : ByteString), parts[i]? = some part ->
    i + 1 < parts.length -> part.length = size

/-- The parts that the server has, by their numbers. -/
abbrev PartStore : Type := Int -> Option ByteString

/-- What the parts from 1 to `n` are put together to, if none is missing. -/
def PartStore.complete (store : PartStore) : Nat -> Option ByteString
  | 0 => some []
  | n + 1 =>
      match store.complete n, store (n + 1) with
      | some object, some part => some (object ++ part)
      | _, _ => none

/--
One attempt to send a part: the body may be a new one every time.  The server has the
part if all of the body has been read and nothing is lost.
-/
structure UploadAttempt (τ : Type) where
  index : Nat
  body : ByteContent τ
  counts : List Nat
  arrives : Bool

def UploadAttempt.partNumber (u : UploadAttempt τ) : Int := u.index + 1

namespace OSSEncryptionClient

variable (c : OSSEncryptionClient τ σ)

/-- What `uploadPart` sends in the attempt. -/
def partSent (ctx : EncryptionMultiPartContext) (u : UploadAttempt τ) :
    Option ByteString :=
  match uploadPart ⟨u.partNumber, some ctx, some u.body⟩ with
  | .error _ => none
  | .ok request => request.body.map fun content => content.sent c.aes u.counts

/-- An attempt is made with a body that holds the part. -/
def uploadStep (ctx : EncryptionMultiPartContext) (parts : List ByteString)
    (store : PartStore) (u : UploadAttempt τ) : Option PartStore :=
  if parts[u.index]? = some u.body.data then
    if u.arrives ∧ u.body.data.length ≤ u.counts.sum then
      match c.partSent ctx u with
      | none => some store
      | some sent => some (Function.update store u.partNumber (some sent))
    else some store
  else none

def uploadSystem (ctx : EncryptionMultiPartContext) (parts : List ByteString) :
    TransitionSystem PartStore (UploadAttempt τ) where
  initial store := store = fun _ => none
  step := c.uploadStep ctx parts

end OSSEncryptionClient

/-!
# The places of the parts
-/

section Cut

variable {size : Nat} {parts : List ByteString}

theorem Cut.length_take (hcut : Cut size parts)
    {n : Nat}
    (hn : n < parts.length) : (parts.take n).flatten.length = n * size := by
  induction n with
  | zero => rw [List.take_zero, Nat.zero_mul]; rfl
  | succ n ih =>
      have hless := Nat.lt_of_succ_lt hn
      have hpart := List.getElem?_eq_getElem hless
      have hlength := hcut n _ hpart hn
      rw [List.take_add_one, hpart, Option.toList_some, List.flatten_append,
        List.length_append, ih hless, List.flatten_singleton, hlength, Nat.succ_mul]

/-- A part ends before the text does. -/
theorem Cut.place_le (hcut : Cut size parts)
    {i : Nat} {part : ByteString}
    (hpart : parts[i]? = some part) :
    i * size + part.length ≤ parts.flatten.length := by
  have hless : i < parts.length := (List.getElem?_eq_some_iff.mp hpart).1
  have hsplit := congrArg List.flatten (List.take_append_drop (i + 1) parts)
  rw [List.take_add_one, hpart, Option.toList_some, List.flatten_append,
    List.flatten_append, List.flatten_singleton] at hsplit
  rw [← hsplit, List.length_append, List.length_append, hcut.length_take hless]
  exact Nat.le_add_right _ _

end Cut

/-!
# What is sent
-/

theorem alignLen_of_tmod {partSize : Int}
    (hpositive : 0 < partSize)
    (haligned : partSize.tmod 16 = 0) : partSize.toNat % 16 = 0 := by
  rw [Int.tmod_eq_emod_of_nonneg (Int.le_of_lt hpositive)] at haligned
  omega

/-- A part of an upload that was begun by `initiateMultipartUpload`. -/
structure EncryptionMultiPartContext.Accepted (ctx : EncryptionMultiPartContext) :
    Prop where
  positive : 0 < ctx.partSize
  aligned : ctx.partSize.tmod 16 = 0
  made : ctx.contentCipher.cipherData.Made

namespace OSSEncryptionClient

variable {c : OSSEncryptionClient τ σ}

theorem initiateMultipartUpload_accepted {request : InitiateMultipartUploadRequest}
    {env : τ} {sent : InitiateMultipartUploadRequest} {ctx : EncryptionMultiPartContext}
    (hinitiate : (c.initiateMultipartUpload request env).1 = .ok (sent, ctx)) :
    ctx.Accepted := by
  unfold initiateMultipartUpload at hinitiate
  cases hbuilder : c.ccBuilder with
  | none =>
      simp only [hbuilder] at hinitiate
      cases hinitiate
  | some ccBuilder =>
      cases hsizes : acceptedSizes ccBuilder request with
      | none =>
          simp only [hbuilder, hsizes] at hinitiate
          cases hinitiate
      | some sizes =>
          rcases sizes with ⟨partSize, dataSize⟩
          rcases hcreate : ccBuilder.create env with ⟨created, env1⟩
          cases created with
          | error message =>
              simp only [hbuilder, hsizes, hcreate] at hinitiate
              cases hinitiate
          | ok cc =>
              simp only [hbuilder, hsizes, hcreate] at hinitiate
              cases hinitiate
              rcases AesCtrCipherBuilder.create_made (congrArg Prod.fst hcreate) with
                ⟨hmade, _⟩
              unfold acceptedSizes at hsizes
              split at hsizes
              · split at hsizes
                · cases hsizes
                · rename_i hgood
                  cases hsizes
                  rcases not_or.mp hgood with ⟨haligned, hlarge⟩
                  refine ⟨?_, not_not.mp haligned, hmade⟩
                  exact lt_of_lt_of_le (by decide) (Int.not_lt.mp hlarge)
              · cases hsizes

section Accepted

variable {ctx : EncryptionMultiPartContext} {parts : List ByteString}
variable {i : Nat} {body : ByteContent τ} {counts : List Nat}

/-- The offset of a part is its place, if the text ends within 64 bits. -/
theorem offset_toNat (hpositive : 0 < ctx.partSize)
    (hplace : i * ctx.partSize.toNat < 2 ^ 64) :
    (UInt64.ofInt ((i : Int) + 1 - 1) * UInt64.ofInt ctx.partSize).toNat =
      i * ctx.partSize.toNat := by
  rcases Int.eq_ofNat_of_zero_le (Int.le_of_lt hpositive) with ⟨size, hsize⟩
  rw [hsize, Int.toNat_natCast] at hplace ⊢
  rw [Int.add_sub_cancel, ← UInt64.ofInt_mul, ← Int.natCast_mul]
  exact toNat_ofInt hplace

/-- An attempt sends the part, masked with the keystream at its place. -/
theorem partSent_eq (hctx : ctx.Accepted)
    (hworks : c.aes.Works ctx.contentCipher.cipherData.key)
    (hcut : Cut ctx.partSize.toNat parts)
    (hsize : parts.flatten.length ≤ 2 ^ 64)
    (hnowrap : NoWrapOver ctx.contentCipher.cipherData.iv parts.flatten.length)
    {u : UploadAttempt τ}
    (hpart : parts[u.index]? = some u.body.data)
    (hcounts : u.body.data.length ≤ u.counts.sum) :
    c.partSent ctx u =
      some (mask (ctx.contentCipher.keystream c.aes) (u.index * ctx.partSize.toNat)
        u.body.data) := by
  have hgood : validateMultiPartContext ctx = none := by
    refine if_neg ?_
    rw [not_or, not_not]
    exact ⟨Int.not_le.mpr hctx.positive, hctx.aligned⟩
  obtain ⟨offset, hoffset⟩ : exists offset : UInt64,
      offset = UInt64.ofInt (u.partNumber - 1) * UInt64.ofInt ctx.partSize := ⟨_, rfl⟩
  have hsent : c.partSent ctx u =
      some (((ctx.contentCipher.seekTo offset).encryptContent u.body).sent c.aes
        u.counts) := by
    simp only [partSent, uploadPart, hgood, hoffset, Option.map_some]
  have hiv := hctx.made.iv
  have hvalid : ctx.contentCipher.Valid := hctx.made.valid
  have hiv' := length_seekIV hiv offset
  have hvalid' := (AesCtrContentCipher.seekTo_valid hiv offset).mpr hvalid
  rw [hsent, @AesCtrContentCipher.sent_eq _ _ (ctx.contentCipher.seekTo offset)
      hworks hiv' hvalid' u.body _ hcounts]
  refine congrArg some (mask_congr fun k hk => ?_)
  -- from here on the part is not empty, so that it has a place in the text
  have hplace := hcut.place_le hpart
  have hless : u.index * ctx.partSize.toNat < parts.flatten.length := by omega
  have hvalue := offset_toNat (i := u.index) hctx.positive (Nat.lt_of_lt_of_le hless hsize)
  rw [← UploadAttempt.partNumber, ← hoffset] at hvalue
  have haligned : offset.toNat % 16 = 0 := by
    rw [hvalue, Nat.mul_mod, alignLen_of_tmod hctx.positive hctx.aligned, Nat.mul_zero]
  have hcounted := (seekIV_eq_iff hiv offset).mpr (hvalue ▸ hnowrap _ hless)
  have hkeystream := @AesCtrContentCipher.keystream_of_counted c.aes
      ctx.contentCipher.cipherData.key _ _ _ haligned hcounted k
  rw [Nat.zero_add, ← hvalue]
  exact hkeystream

end Accepted

end OSSEncryptionClient

/-!
# What the server has
-/

/-- Every part that the server has is masked with the keystream at its place. -/
def PartStore.Masked (ks : Keystream) (size : Nat) (parts : List ByteString)
    (store : PartStore) : Prop :=
  forall (i : Nat) (content : ByteString), store (i + 1) = some content ->
    exists part, parts[i]? = some part ∧ content = mask ks (i * size) part

theorem PartStore.Masked.update {ks : Keystream} {size : Nat} {parts : List ByteString}
    {store : PartStore}
    (hmasked : store.Masked ks size parts)
    {u : UploadAttempt τ} {part : ByteString}
    (hpart : parts[u.index]? = some part) :
    PartStore.Masked ks size parts
      (Function.update store u.partNumber (some (mask ks (u.index * size) part))) := by
  intro i content hcontent
  rcases eq_or_ne i u.index with rfl | hother
  · rw [← UploadAttempt.partNumber, Function.update_self] at hcontent
    exact ⟨part, hpart, (Option.some.inj hcontent).symm⟩
  · have hne : (i : Int) + 1 ≠ u.partNumber := by
      intro hsame
      exact hother (Int.ofNat_inj.mp (add_right_cancel hsame))
    rw [Function.update_of_ne hne] at hcontent
    exact hmasked i content hcontent

/-- Masked parts are put together to the masked text. -/
theorem PartStore.Masked.complete {ks : Keystream} {size : Nat}
    {parts : List ByteString} {store : PartStore}
    (hmasked : store.Masked ks size parts)
    (hcut : Cut size parts)
    {n : Nat} {object : ByteString}
    (hcomplete : store.complete n = some object) :
    object = mask ks 0 (parts.take n).flatten := by
  induction n generalizing object with
  | zero =>
      cases hcomplete
      rw [List.take_zero]
      rfl
  | succ n ih =>
      rw [PartStore.complete] at hcomplete
      cases hfirst : store.complete n with
      | none =>
          simp only [hfirst] at hcomplete
          cases hcomplete
      | some first =>
          cases hlast : store (n + 1) with
          | none =>
              simp only [hfirst, hlast] at hcomplete
              cases hcomplete
          | some last =>
              simp only [hfirst, hlast] at hcomplete
              cases hcomplete
              rcases hmasked n last hlast with ⟨part, hpart, rfl⟩
              have hless := (List.getElem?_eq_some_iff.mp hpart).1
              rw [ih hfirst, List.take_add_one, hpart, Option.toList_some,
                List.flatten_append, List.flatten_singleton, mask_append,
                hcut.length_take hless, Nat.zero_add]

namespace OSSEncryptionClient

section System

variable {c : OSSEncryptionClient τ σ} {ctx : EncryptionMultiPartContext}
variable {parts : List ByteString}

theorem uploadStep_masked (hctx : ctx.Accepted)
    (hworks : c.aes.Works ctx.contentCipher.cipherData.key)
    (hcut : Cut ctx.partSize.toNat parts)
    (hsize : parts.flatten.length ≤ 2 ^ 64)
    (hnowrap : NoWrapOver ctx.contentCipher.cipherData.iv parts.flatten.length)
    (store : PartStore) (u : UploadAttempt τ) (next : PartStore)
    (hmasked : store.Masked (ctx.contentCipher.keystream c.aes) ctx.partSize.toNat parts)
    (hstep : c.uploadStep ctx parts store u = some next) :
    next.Masked (ctx.contentCipher.keystream c.aes) ctx.partSize.toNat parts := by
  unfold uploadStep at hstep
  rw [Option.ite_none_right_eq_some] at hstep
  rcases hstep with ⟨hpart, hstep⟩
  by_cases harrives : u.arrives ∧ u.body.data.length ≤ u.counts.sum
  · have hsent := partSent_eq hctx hworks hcut hsize hnowrap hpart harrives.2
    rw [if_pos harrives, hsent] at hstep
    cases hstep
    exact hmasked.update hpart
  · rw [if_neg harrives] at hstep
    cases hstep
    exact hmasked

theorem upload_masked (hctx : ctx.Accepted)
    (hworks : c.aes.Works ctx.contentCipher.cipherData.key)
    (hcut : Cut ctx.partSize.toNat parts)
    (hsize : parts.flatten.length ≤ 2 ^ 64)
    (hnowrap : NoWrapOver ctx.contentCipher.cipherData.iv parts.flatten.length) :
    (c.uploadSystem ctx parts).Invariant
      (PartStore.Masked (ctx.contentCipher.keystream c.aes) ctx.partSize.toNat
        parts) := by
  refine TransitionSystem.invariant_of_step ?_
    (uploadStep_masked hctx hworks hcut hsize hnowrap)
  intro store hinitial i content hcontent
  rw [hinitial] at hcontent
  cases hcontent

end System

end OSSEncryptionClient

/-!
# An upload of one part
-/

def noReply : Transport.Curl.Reply where
  statusCode := 0
  headers := SortedMap.empty
  recvDataLength := -1
  chunks := []
  res := Transport.Curl.CURLE_OK
  text := []
  chunks_nonempty := Transport.Curl.no_chunks

def partClient : OSSEncryptionClient (EncryptionState Unit) Unit :=
  zeroKeyClient fun _ s => (noReply, s)

def partStart : EncryptionState Unit := (DecryptingWriter.init zeroKeyAes [] [], 0, (), [])

def smallestParts : InitiateMultipartUploadRequest :=
  ⟨SortedMap.empty, some 102400, some 3⟩

def partContext : EncryptionMultiPartContext :=
  ⟨102400, 3, ⟨zeroKey, zeroBlock, List.replicate 32 0x42, List.replicate 16 0x42⟩⟩

/-- The second attempt reads the body in two pieces. -/
def lostThenSent : List (UploadAttempt (EncryptionState Unit)) :=
  [⟨0, .content false none (bytes "oss"), [2], false⟩,
    ⟨0, .content false none (bytes "oss"), [2, 2], true⟩]

def onePart : PartStore := Function.update (fun _ => none) 1 (some [179, 230, 179])

end Crypto
end OssSdk
