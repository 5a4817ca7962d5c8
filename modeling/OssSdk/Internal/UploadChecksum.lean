import OssSdk.Internal.ByteStreamUtils
import OssSdk.Internal.RetryDiscipline

/-!
# The checksum of an upload

An upload has an observer for its progress, if it has a callback, and one for its
checksum, if that is checked.  The one for the checksum is reset at each attempt after the
first, so that it has seen what the last attempt has read.
-/

namespace OssSdk
namespace Internal

open Foundation
open Utils

variable {κ : Type}

/-- What the observers of an upload keep. -/
structure UploadObservers where
  progress : ProgressObserverState
  crc : CRC64ObserverState
deriving DecidableEq

namespace UploadObservers

/-- What the checker reads of the observer. -/
def crcAsString (w : UploadObservers) : ByteString := w.crc.crcAsString

def progressCell : Cell UploadObservers ProgressObserverState where
  get w := w.progress
  set progress w := { w with progress := progress }
  get_set _ _ := rfl
  set_set _ _ _ := rfl
  set_get _ := rfl

def crcCell : Cell UploadObservers CRC64ObserverState where
  get w := w.crc
  set crc w := { w with crc := crc }
  get_set _ _ := rfl
  set_set _ _ _ := rfl
  set_get _ := rfl

/-- Observers that have just been made. -/
def made (total : Int) (init : BitVec 64) : UploadObservers :=
  ⟨ProgressObserverState.init total, ⟨init, init⟩⟩

end UploadObservers

/-- The part of `putObject` and `uploadPart` that makes the observers. -/
def uploadOptions (hasProgressCallback checksCrc : Bool) :
    OperationInnerOptions UploadObservers where
  sinkFactory := none
  onResponseMessage :=
    if checksCrc then [CRC64ResponseChecker (some UploadObservers.crcAsString)] else []
  uploadObserver :=
    (if hasProgressCallback then [ProgressObserver UploadObservers.progressCell] else []) ++
      if checksCrc then [CRC64Observer UploadObservers.crcCell] else []

/-- The body that `applyOther` puts in the place of the one of the request. -/
def teeOf (content : ContentImpl κ) (innerOpts : OperationInnerOptions UploadObservers) :
    ContentImpl (TeeState κ UploadObservers) :=
  TeeByteContent content (innerOpts.uploadObserver.map some)

theorem spanObserver_map_some {σ : Type} (sinks : List (StreamObserver σ)) :
    spanObserver (sinks.map some) = sinks := by
  unfold spanObserver
  rw [List.filterMap_map]
  exact List.filterMap_some

theorem CalcCRC64_append (crc : BitVec 64) (as bs : ByteString) :
    CalcCRC64 crc (as ++ bs) = CalcCRC64 (CalcCRC64 crc as) bs :=
  crc64.update_append crc as bs

/-- Of what the observers are told, the one for the checksum keeps its own part. -/
theorem observe_crc (hasProgressCallback : Bool) (w : UploadObservers) (x : Observation) :
    (observe (uploadOptions hasProgressCallback true).uploadObserver w x).crc =
      match x with
      | .data buffer => w.crc.data buffer
      | .reset => w.crc.reset := by
  cases hasProgressCallback with
  | false =>
      cases x with
      | data buffer => rfl
      | reset => rfl
  | true =>
      cases x with
      | data buffer => rfl
      | reset => rfl

theorem observed_crc (hasProgressCallback : Bool) (pieces : List ByteString)
    (w : UploadObservers) :
    ((pieces.map Observation.data).foldl
        (observe (uploadOptions hasProgressCallback true).uploadObserver) w).crc =
      w.crc.data pieces.flatten := by
  induction pieces generalizing w with
  | nil =>
      rw [List.map_nil, List.foldl_nil, List.flatten_nil, CRC64ObserverState.data]
      exact congrArg (CRC64ObserverState.mk w.crc.init) (crc64.update_nil w.crc.value).symm
  | cons piece pieces ih =>
      rw [List.map_cons, List.foldl_cons, ih, observe_crc, List.flatten_cons]
      simp only [CRC64ObserverState.data, CalcCRC64_append]

/-- The checksum is at its beginning until the body is read for the first time. -/
structure ChecksumKept (init : BitVec 64) (t : TeeState κ UploadObservers) : Prop where
  begins : t.observers.crc.init = init
  first : t.first = true -> t.observers.crc.value = init

section Tee

variable {content : ContentImpl κ} {hasProgressCallback : Bool} {init : BitVec 64}
variable {t s : TeeState κ UploadObservers}

/-- A new source finds the checksum at its beginning. -/
theorem spanSource_crc (hkept : ChecksumKept init t)
    (hs : (teeOf content (uploadOptions hasProgressCallback true)).spanSource t = some s) :
    s.observers.crc = ⟨init, init⟩ ∧ s.first = false := by
  unfold teeOf TeeByteContent at hs
  simp only [spanObserver_map_some] at hs
  cases hspan : content.spanSource t.source with
  | none =>
      rw [hspan] at hs
      cases hs
  | some k =>
      rw [hspan] at hs
      cases hs
      refine ⟨?_, rfl⟩
      cases hfirst : t.first with
      | true =>
          have hvalue := hkept.first hfirst
          have hinit := hkept.begins
          rcases hcrc : t.observers.crc with ⟨i, v⟩
          rw [hcrc] at hvalue hinit
          cases hvalue
          cases hinit
          exact hcrc
      | false =>
          rw [if_neg Bool.false_ne_true, observe_crc]
          simp only [CRC64ObserverState.reset]
          rw [hkept.begins]

theorem reads_crc (counts : List Nat) (hs : s.observers.crc = ⟨init, init⟩) :
    ((teeOf content (uploadOptions hasProgressCallback true)).source.reads counts
        s).2.observers.crc =
      ⟨init, CalcCRC64 init ((teeOf content
        (uploadOptions hasProgressCallback true)).source.reads counts s).1⟩ := by
  unfold teeOf TeeByteContent
  simp only [spanObserver_map_some, TeeByteSource.reads_eq, observed_crc]
  rw [hs, ByteSource.flatten_pieces]
  rfl

theorem attempts_checksumKept {earlier : List (List Nat)} {t' : TeeState κ UploadObservers}
    (hkept : ChecksumKept init t)
    (hattempts : (teeOf content (uploadOptions hasProgressCallback true)).attempts earlier
      t = some t') : ChecksumKept init t' := by
  refine ContentImpl.attempts_invariant ?_ hkept hattempts
  intro k s hk hs counts
  rcases spanSource_crc hk hs with ⟨hcrc, hfirst⟩
  refine ⟨congrArg CRC64ObserverState.init (reads_crc counts hcrc), fun hagain => ?_⟩
  have hread : ((teeOf content (uploadOptions hasProgressCallback true)).source.reads
      counts s).2.first = s.first := by
    unfold teeOf TeeByteContent
    simp only [TeeByteSource.reads_eq]
  rw [hread, hfirst] at hagain
  cases hagain

end Tee

/-- The checker lets a response through that has the checksum of the observer. -/
theorem responseChecker_iff {σ : Type} {crcAsString : σ -> ByteString} {c : Checked σ}
    {crc : ByteString}
    (hheader : c.response.headers.find? (bytes "x-oss-hash-crc64ecma") = some crc) :
    (CRC64ResponseChecker (some crcAsString) c).1 = true ↔
      crc = crcAsString c.runtime.env := by
  unfold CRC64ResponseChecker
  simp only [hheader]
  by_cases hsame : crcAsString c.runtime.env = crc
  · rw [if_pos hsame]
    exact ⟨fun _ => hsame.symm, fun _ => rfl⟩
  · rw [if_neg hsame]
    exact ⟨fun h => (nomatch h), fun h => absurd h.symm hsame⟩

/--
Whatever the attempts before it have read, and however the last one reads, the observer
has the checksum of what the last one has read, and that is what the checker asks of the
response to it.
-/
theorem upload_checksum_lastAttempt (content : ContentImpl κ) (k : κ)
    (hasProgressCallback : Bool) (total : Int) (init : BitVec 64)
    (earlier : List (List Nat)) {s : TeeState κ UploadObservers}
    (hs : (teeOf content (uploadOptions hasProgressCallback true)).span earlier
      (TeeState.made k (UploadObservers.made total init)) = some s)
    (counts : List Nat) :
    let tee := teeOf content (uploadOptions hasProgressCallback true)
    let observers := (tee.source.reads counts s).2.observers
    observers.crc.value = CalcCRC64 init (tee.source.reads counts s).1 ∧
      forall (c : Checked UploadObservers) (crc : ByteString),
        c.runtime.env = observers ->
        c.response.headers.find? (bytes "x-oss-hash-crc64ecma") = some crc ->
        ((CRC64ResponseChecker (some UploadObservers.crcAsString) c).1 = true ↔
          crc = toDecimal (CalcCRC64 init (tee.source.reads counts s).1).toNat) := by
  intro tee observers
  unfold ContentImpl.span at hs
  cases hattempts : tee.attempts earlier
      (TeeState.made k (UploadObservers.made total init)) with
  | none =>
      rw [hattempts] at hs
      cases hs
  | some t =>
      rw [hattempts] at hs
      have hmade : ChecksumKept init
        (TeeState.made k (UploadObservers.made total init)) := ⟨rfl, fun _ => rfl⟩
      have hkept := attempts_checksumKept hmade hattempts
      have hcrc : observers.crc =
          ⟨init, CalcCRC64 init (tee.source.reads counts s).1⟩ :=
        reads_crc counts (spanSource_crc hkept hs).1
      refine ⟨congrArg CRC64ObserverState.value hcrc, ?_⟩
      intro c crc henv hheader
      rw [responseChecker_iff hheader, henv]
      have hstring : observers.crcAsString =
          toDecimal (CalcCRC64 init (tee.source.reads counts s).1).toNat :=
        congrArg CRC64ObserverState.crcAsString hcrc
      rw [hstring]

/-- The first attempt gives up after two bytes, the second one reads all four. -/
theorem upload_checksum_lastAttempt_fourBytes :
    let tee := teeOf (StringContent [1, 2, 3, 4]) (uploadOptions true true)
    exists s, tee.span [[2]] (TeeState.made MemoryByteSource.init
        (UploadObservers.made 4 0)) = some s ∧
      (tee.source.reads [3, 3] s).2.observers.crc.value = CalcCRC64 0 [1, 2, 3, 4] := by
  intro tee
  have hs : tee.span [[2]] (TeeState.made MemoryByteSource.init
      (UploadObservers.made 4 0)) = some _ := rfl
  exact ⟨_, hs, (upload_checksum_lastAttempt (StringContent [1, 2, 3, 4])
    MemoryByteSource.init true 4 0 [[2]] hs [3, 3]).1⟩

end Internal
end OssSdk
