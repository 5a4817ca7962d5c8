import OssSdk.Client.DownloadedFile

/-!
# The checksum of a download

The observer sees what goes through the writer of one attempt after the other; the file is
what they have made of it together.  The two agree where the checksum is checked, but a
download that has been resumed is not checked, and one without a body is checked without
the file.
-/

namespace OssSdk
namespace Client

open Foundation
open Internal
open Sync
open Transport
open Utils

variable {τ : Type}

/-- `crcAsString` of an observer that has seen this content. -/
def crcText (content : ByteString) : ByteString :=
  toDecimal (CalcCRC64 0 content).toNat

/-- The file is there, and its checksum is that of the last response. -/
def MatchesCrc (c : DownloadClient τ) (w' : Runtime τ) (result : GetObjectResult) : Prop :=
  exists content, (c.download w').file.content = some content ∧
    crcText content = result.getHashCrc64ecma

/--
Where the bytes have come in one attempt, or in attempts that each begin the file anew, the
check is of the file.  Otherwise it depends on the pieces whether they fit together, and
without any of them on what the file was.
-/
def CrcHolds (c : DownloadClient τ) (kind : ClientKind) (before : Option ByteString)
    (sent : List (Exchange τ)) (serverCrc : ByteString) : Prop :=
  if c.bodies sent = [] then
    exists content, before = some content ∧ crcText content = serverCrc
  else kind = .async ∨ sent.length = 1 ∨ crcText (c.bodies sent) = serverCrc

theorem checkCrc_matches {d : Download} {result : GetObjectResult}
    (hserver : result.getHashCrc64ecma ≠ []) (hcheck : checkCrc d result = .ok result) :
    toDecimal d.crc.toNat = result.getHashCrc64ecma := by
  have hnonempty : ¬ result.getHashCrc64ecma.isEmpty = true := by
    rw [List.isEmpty_iff]
    exact hserver
  unfold checkCrc at hcheck
  simp only [if_neg hnonempty] at hcheck
  by_contra hdiffer
  rw [if_pos hdiffer] at hcheck
  cases hcheck

section Integrity

variable {c : DownloadClient τ} {request : GetObjectRequest τ}
variable {result : GetObjectResult} {w' : Runtime τ} {sent : List (Exchange τ)}

theorem sync_matchesCrc_iff {plan : DownloadPlan} {before : Option ByteString}
    (hobserved : plan.observers.crcObserver = true)
    (hserver : result.getHashCrc64ecma ≠ [])
    (hcompleted : Completed c plan request before [] 0 sent result w') :
    MatchesCrc c w' result ↔
      CrcHolds c .sync before sent result.getHashCrc64ecma := by
  have hholds := hcompleted.holds
  unfold Holds at hholds
  rw [List.nil_append] at hholds
  unfold MatchesCrc CrcHolds
  rw [hholds]
  split
  · exact Iff.rfl
  · constructor
    · intro hmatches
      rcases hmatches with ⟨content, hcontent, hcrc⟩
      cases hcontent
      exact Or.inr (Or.inr hcrc)
    · intro hor
      refine ⟨_, rfl, ?_⟩
      rcases hor with hasync | hsingle | hcrc
      · cases hasync
      · rcases hcompleted.checked hobserved rfl hsingle with ⟨hcheck, hcrc⟩
        have hmatches := checkCrc_matches hserver hcheck
        rw [hcrc] at hmatches
        exact hmatches
      · exact hcrc

theorem async_matchesCrc_iff {d : Download}
    (hobserved : (c.asyncObservers request).crcObserver = true)
    (hserver : result.getHashCrc64ecma ≠ [])
    (hcompleted : CompletedAsync c request d sent result w') :
    MatchesCrc c w' result ↔
      CrcHolds c .async d.file.content sent result.getHashCrc64ecma := by
  rcases anew_foldl (c := c) (c.asyncObservers request) sent d with ⟨hnone, hsome⟩
  have hdownload := hcompleted.download
  unfold MatchesCrc CrcHolds
  by_cases hnil : c.bodies sent = []
  · rw [hdownload, hnone hnil, if_pos hnil]
  · rw [if_neg hnil]
    rcases hsome hnil with ⟨content, hcontent, hcrc⟩
    rw [← hdownload] at hcontent hcrc
    have hmatches := checkCrc_matches hserver (hcompleted.checked hobserved)
    rw [hcrc hobserved] at hmatches
    exact ⟨fun _ => Or.inl rfl, fun _ => ⟨content, hcontent, hmatches⟩⟩

end Integrity

/-!
# A file of two versions
-/

/-- Half of an object, and the other half of another one, with the checksum of that. -/
def otherHalf (object : ByteString) (a b : UInt8) (range : Option ByteString) :
    Curl.Reply :=
  if range = none then halves none
  else
    { refusal 206 with
      headers :=
        (SortedMap.empty : HeaderCollection).emplace (bytes "x-oss-hash-crc64ecma")
          (crcText object)
      recvDataLength := 2
      chunks := [[a, b]]
      chunks_nonempty := by
        intro chunk hchunk
        rw [List.mem_singleton.mp hchunk]
        exact fun h => nomatch h }

def crcResult (object : ByteString) : GetObjectResult where
  statusCode := 206
  headers :=
    (SortedMap.empty : HeaderCollection).emplace (bytes "x-oss-hash-crc64ecma")
      (crcText object)
  body := none

end Client
end OssSdk
