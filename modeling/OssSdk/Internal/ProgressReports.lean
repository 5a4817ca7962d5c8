import OssSdk.Foundation.Meter
import OssSdk.Internal.UploadChecksum

/-!
# Reports of the progress

The observers of a download and of an upload count bytes in the same way.  A restart
leaves them a mark up to which they are silent.  It is where the attempt has broken off,
which may be in front of the mark of the attempt before it.
-/

namespace OssSdk
namespace Internal

open Foundation

variable {κ σ : Type}

/-- What an observation is to a meter of bytes. -/
def Observation.tick : Observation -> Tick
  | .data buffer => .count buffer.length
  | .reset => .restart

/-- What the observer of a writer makes of an observation. -/
def observeWrite (o : ByteWriterObserver σ) (w : σ) : Observation -> σ
  | .data buffer => o.onWrite buffer w
  | .reset => o.onReset w

def writeMeter (s : ProgressState) : Meter :=
  ⟨s.transferred, s.lastTransferred, s.reports.map fun r => (r.1, r.2.1)⟩

def readMeter (s : ProgressObserverState) : Meter :=
  ⟨s.written, s.lastWritten, s.reports.map fun r => (r.1, r.2.1)⟩

/-- The reports of a `ProgressWriteObserver`, without the total. -/
def writeReports (total : Int) (observations : List Observation) : List (Nat × Nat) :=
  (writeMeter (observations.foldl (observeWrite (ProgressWriteObserver Cell.whole))
    ⟨total, 0, 0, []⟩)).reports

/-- The reports of a `ProgressObserver`. -/
def readReports (total : Int) (observations : List Observation) : List (Nat × Nat) :=
  (readMeter (observations.foldl (observe [ProgressObserver Cell.whole])
    (ProgressObserverState.init total))).reports

theorem writeMeter_onWrite (n : Nat) (s : ProgressState) :
    writeMeter (s.onWrite n) = (writeMeter s).step (.count n) := by
  unfold ProgressState.onWrite
  by_cases hpast : s.lastTransferred < s.transferred + n
  · have hpast' : (writeMeter s).mark < (writeMeter s).reached + n := hpast
    rw [if_pos hpast, Meter.step_past hpast']
    unfold writeMeter
    rw [List.map_append]
    rfl
  · have hpast' : ¬ (writeMeter s).mark < (writeMeter s).reached + n := hpast
    rw [if_neg hpast, Meter.step_within hpast']
    rfl

theorem readMeter_data (n : Nat) (s : ProgressObserverState) :
    readMeter (s.data n) = (readMeter s).step (.count n) := by
  unfold ProgressObserverState.data
  by_cases hpast : s.lastWritten < s.written + n
  · have hpast' : (readMeter s).mark < (readMeter s).reached + n := hpast
    rw [if_pos hpast, Meter.step_past hpast']
    unfold readMeter
    rw [List.map_append]
    rfl
  · have hpast' : ¬ (readMeter s).mark < (readMeter s).reached + n := hpast
    rw [if_neg hpast, Meter.step_within hpast']
    rfl

/-- Each observer is the meter, told of the same bytes. -/
theorem writeReports_eq (total : Int) (observations : List Observation) :
    writeReports total observations =
      (Meter.run (observations.map Observation.tick)).reports := by
  have hstep : forall s x, (writeMeter s).step (Observation.tick x) =
      writeMeter (observeWrite (ProgressWriteObserver Cell.whole) s x) := by
    intro s x
    cases x with
    | data buffer => exact (writeMeter_onWrite buffer.length s).symm
    | reset => rfl
  unfold writeReports Meter.run
  rw [List.foldl_map]
  exact congrArg Meter.reports (List.foldl_hom writeMeter hstep).symm

/-- The part of the observers of an upload that counts. -/
theorem observe_progress (checksCrc : Bool) (w : UploadObservers) (x : Observation) :
    readMeter (observe (uploadOptions true checksCrc).uploadObserver w x).progress =
      (readMeter w.progress).step x.tick := by
  cases x with
  | data buffer =>
      have hdata := readMeter_data buffer.length w.progress
      cases checksCrc with
      | false => exact hdata
      | true => exact hdata
  | reset =>
      cases checksCrc with
      | false => rfl
      | true => rfl

theorem readReports_eq (total : Int) (observations : List Observation) :
    readReports total observations =
      (Meter.run (observations.map Observation.tick)).reports := by
  have hstep : forall s x, (readMeter s).step (Observation.tick x) =
      readMeter (observe [ProgressObserver Cell.whole] s x) := by
    intro s x
    cases x with
    | data buffer => exact (readMeter_data buffer.length s).symm
    | reset => rfl
  unfold readReports Meter.run
  rw [List.foldl_map]
  exact congrArg Meter.reports (List.foldl_hom readMeter hstep).symm

/-- The reports of an upload, after attempts that have read its body through a tee. -/
theorem uploadReports_eq {content : ContentImpl κ} {k : κ} {checksCrc : Bool} {total : Int}
    {init : BitVec 64} {attempts : List (List Nat)} {t : TeeState κ UploadObservers}
    (ht : (teeOf content (uploadOptions true checksCrc)).attempts attempts
      (TeeState.made k (UploadObservers.made total init)) = some t) :
    (readMeter t.observers.progress).reports =
      (Meter.run ((heard content true attempts k).map Observation.tick)).reports := by
  have hheard := TeeByteContent.attempts_observers ht
  rw [spanObserver_map_some] at hheard
  rw [hheard]
  unfold Meter.run
  rw [List.foldl_map]
  have hhom : (heard content true attempts k).foldl (fun m x => m.step (Observation.tick x))
      (readMeter (UploadObservers.made total init).progress) =
        readMeter ((heard content true attempts k).foldl
          (observe (uploadOptions true checksCrc).uploadObserver)
          (UploadObservers.made total init)).progress :=
    List.foldl_hom (fun w : UploadObservers => readMeter w.progress)
      (fun w x => (observe_progress checksCrc w x).symm)
  exact congrArg Meter.reports hhom.symm

/--
The reports go up and add up exactly where no observation that goes past the mark is empty
or begins before the farthest byte that has been observed: for the observer of a download
and for that of an upload, told of any data and resets, and for an upload whose body is
read through a tee in any attempts.
-/
theorem progressReports_consistent_iff (total : Int) (observations : List Observation) :
    (ConsistentReports (writeReports total observations) ↔
      Meter.GoesOn (observations.map Observation.tick)) ∧
    (ConsistentReports (readReports total observations) ↔
      Meter.GoesOn (observations.map Observation.tick)) ∧
    forall (κ : Type) (content : ContentImpl κ) (k : κ) (checksCrc : Bool)
        (init : BitVec 64) (attempts : List (List Nat)) (t : TeeState κ UploadObservers),
      (teeOf content (uploadOptions true checksCrc)).attempts attempts
          (TeeState.made k (UploadObservers.made total init)) = some t ->
      (ConsistentReports (readMeter t.observers.progress).reports ↔
        Meter.GoesOn ((heard content true attempts k).map Observation.tick)) := by
  refine ⟨?_, ?_, ?_⟩
  · rw [writeReports_eq]
    exact Meter.consistentReports_iff _
  · rw [readReports_eq]
    exact Meter.consistentReports_iff _
  · intro κ content k checksCrc init attempts t ht
    rw [uploadReports_eq ht]
    exact Meter.consistentReports_iff _

/-- Three bytes are read into one buffer, which they fill. -/
theorem progressReports_consistent_iff_full :
    Meter.GoesOn ((heard (StringContent [1, 2, 3]) true [[3]]
        MemoryByteSource.init).map Observation.tick) := by
  have hall := (progressReports_consistent_iff 3 [.data [1, 2, 3]]).2.2
    _ (StringContent [1, 2, 3]) MemoryByteSource.init true 0 [[3]] _ rfl
  exact hall.mp ⟨List.isChain_singleton _, rfl⟩

/--
The chunk that goes past the mark begins four bytes in front of it.  And where a body of
three bytes has been read to its end, the read that gives nothing is reported again.
-/
theorem not_progressReports_consistent :
    ¬ ConsistentReports (writeReports 20
        [.data (List.replicate 10 0), .reset, .data (List.replicate 6 0),
          .data (List.replicate 8 0)]) ∧
      (exists t, (teeOf (StringContent [1, 2, 3]) (uploadOptions true true)).attempts
          [[4, 4]] (TeeState.made MemoryByteSource.init (UploadObservers.made 3 0)) =
            some t ∧
        (readMeter t.observers.progress).reports = [(3, 3), (0, 3)] ∧
        ¬ ConsistentReports (readMeter t.observers.progress).reports) := by
  constructor
  · intro hconsistent
    have hsummed := hconsistent.summed
    revert hsummed
    decide
  · refine ⟨_, rfl, by decide +kernel, fun hconsistent => ?_⟩
    have hchain := hconsistent.increasing
    revert hchain
    decide +kernel

end Internal
end OssSdk
