import OssSdk.Client.FlushedDownload
import OssSdk.Client.ResumeProgress

/-!
# The progress reports of a download

One observer counts the bytes of all the attempts of a call, and is never set back.  Its
total is the length that the last response has announced, which is that of the rest where
a download is resumed.
-/

namespace OssSdk
namespace Client

open Foundation
open Internal
open Sync
open Transport

variable {τ δ φ : Type}

/-!
# What arrives, and what is reported
-/

/-- A chunk that the file has taken, and the length that its response has announced. -/
structure Arrival where
  size : Int
  chunk : ByteString
  nonempty : chunk ≠ []

def arrivedBytes (arrivals : List Arrival) : Nat :=
  (arrivals.map fun a => a.chunk.length).sum

/-- What an observer reports that has counted some bytes before. -/
def reportsFrom (before : Nat) : List Arrival -> List (Nat × Nat × Int)
  | [] => []
  | a :: rest =>
      (a.chunk.length, before + a.chunk.length, a.size) ::
        reportsFrom (before + a.chunk.length) rest

/-- No report goes past a total that is known, and there is one total. -/
structure WithinTotal (reports : List (Nat × Nat × Int)) : Prop where
  within : forall r, r ∈ reports -> 0 ≤ r.2.2 -> (r.2.1 : Int) ≤ r.2.2
  oneTotal : forall r, r ∈ reports -> forall r', r' ∈ reports -> r.2.2 = r'.2.2

/--
All responses that have brought bytes have announced one length, and brought no more
together than it, if it is known.
-/
structure FitsOneLength (arrivals : List Arrival) : Prop where
  oneLength : forall a, a ∈ arrivals -> forall a', a' ∈ arrivals -> a.size = a'.size
  fits : forall a, a ∈ arrivals -> 0 ≤ a.size -> (arrivedBytes arrivals : Int) ≤ a.size

theorem arrivedBytes_append (arrivals rest : List Arrival) :
    arrivedBytes (arrivals ++ rest) = arrivedBytes arrivals + arrivedBytes rest := by
  unfold arrivedBytes
  rw [List.map_append, List.sum_append]

theorem reportsFrom_cons (before : Nat) (a : Arrival) (rest : List Arrival) :
    reportsFrom before (a :: rest) =
      (a.chunk.length, before + a.chunk.length, a.size) ::
        reportsFrom (before + a.chunk.length) rest := rfl

theorem reportsFrom_append (before : Nat) (arrivals rest : List Arrival) :
    reportsFrom before (arrivals ++ rest) =
      reportsFrom before arrivals ++ reportsFrom (before + arrivedBytes arrivals) rest := by
  induction arrivals generalizing before with
  | nil => rfl
  | cons a arrivals ih =>
      have hbytes : arrivedBytes (a :: arrivals) = a.chunk.length + arrivedBytes arrivals :=
        List.sum_cons
      rw [List.cons_append, reportsFrom_cons, ih, hbytes, reportsFrom_cons,
        List.cons_append, Nat.add_assoc]

/-- A report is of a chunk, and of no more bytes than have arrived in all. -/
theorem mem_reportsFrom {before : Nat} {arrivals : List Arrival} {r : Nat × Nat × Int}
    (hr : r ∈ reportsFrom before arrivals) :
    (exists a, a ∈ arrivals ∧ r.2.2 = a.size) ∧
      r.2.1 ≤ before + arrivedBytes arrivals := by
  induction arrivals generalizing before with
  | nil => cases hr
  | cons a arrivals ih =>
      have hbytes : arrivedBytes (a :: arrivals) = a.chunk.length + arrivedBytes arrivals :=
        List.sum_cons
      rw [hbytes, ← Nat.add_assoc]
      rcases List.mem_cons.mp hr with hfirst | hrest
      · rw [hfirst]
        exact ⟨⟨a, List.mem_cons_self, rfl⟩, Nat.le_add_right _ _⟩
      · rcases ih hrest with ⟨⟨a', ha', htotal⟩, hcount⟩
        exact ⟨⟨a', List.mem_cons_of_mem a ha', htotal⟩, hcount⟩

/-- Every chunk is reported, and the last one with all that has arrived. -/
theorem reportsFrom_last {before : Nat} {arrivals : List Arrival} {a : Arrival}
    (ha : a ∈ arrivals) :
    (exists r, r ∈ reportsFrom before arrivals ∧ r.2.2 = a.size) ∧
      exists r, r ∈ reportsFrom before arrivals ∧
        r.2.1 = before + arrivedBytes arrivals := by
  induction arrivals generalizing before a with
  | nil => cases ha
  | cons first arrivals ih =>
      have hbytes : arrivedBytes (first :: arrivals) =
          first.chunk.length + arrivedBytes arrivals := List.sum_cons
      rw [hbytes, ← Nat.add_assoc]
      constructor
      · rcases List.mem_cons.mp ha with hfirst | hrest
        · rw [hfirst]
          exact ⟨_, List.mem_cons_self, rfl⟩
        · rcases (ih hrest).1 with ⟨r, hr, htotal⟩
          exact ⟨r, List.mem_cons_of_mem _ hr, htotal⟩
      · cases arrivals with
        | nil => exact ⟨_, List.mem_cons_self, rfl⟩
        | cons second arrivals =>
            rcases (ih List.mem_cons_self).2 with ⟨r, hr, hcount⟩
            exact ⟨r, List.mem_cons_of_mem _ hr, hcount⟩

theorem withinTotal_reportsFrom_iff (arrivals : List Arrival) :
    WithinTotal (reportsFrom 0 arrivals) ↔ FitsOneLength arrivals := by
  constructor
  · intro hreports
    constructor
    · intro a ha a' ha'
      rcases (reportsFrom_last ha).1 with ⟨r, hr, htotal⟩
      rcases (reportsFrom_last ha').1 with ⟨r', hr', htotal'⟩
      rw [← htotal, ← htotal']
      exact hreports.oneTotal r hr r' hr'
    · intro a ha hknown
      rcases reportsFrom_last ha with ⟨⟨r, hr, htotal⟩, last, hlast, hcount⟩
      have hsame : last.2.2 = a.size := (hreports.oneTotal last hlast r hr).trans htotal
      have hwithin := hreports.within last hlast (hsame.symm ▸ hknown)
      rw [hcount, Nat.zero_add, hsame] at hwithin
      exact hwithin
  · intro hfits
    constructor
    · intro r hr hknown
      rcases mem_reportsFrom hr with ⟨⟨a, ha, htotal⟩, hcount⟩
      rw [htotal] at hknown ⊢
      rw [Nat.zero_add] at hcount
      exact le_trans (Int.ofNat_le.mpr hcount) (hfits.fits a ha hknown)
    · intro r hr r' hr'
      rcases mem_reportsFrom hr with ⟨⟨a, ha, htotal⟩, _⟩
      rcases mem_reportsFrom hr' with ⟨⟨a', ha', htotal'⟩, _⟩
      rw [htotal, htotal']
      exact hfits.oneLength a ha a' ha'

/-!
# The observer of a device
-/

/-- The observer has counted and reported all of this, but for its total. -/
structure Counted (arrivals : List Arrival) (s : ProgressState) : Prop where
  transferred : s.transferred = arrivedBytes arrivals
  lastTransferred : s.lastTransferred = 0
  reports : s.reports = reportsFrom 0 arrivals

theorem Counted.onWrite {arrivals : List Arrival} {s : ProgressState}
    (hcounted : Counted arrivals s) (a : Arrival) (htotal : s.total = a.size) :
    Counted (arrivals ++ [a]) (s.onWrite a.chunk.length) := by
  have hsome : 0 < a.chunk.length := List.length_pos_iff.mpr a.nonempty
  have hpast : s.lastTransferred < s.transferred + a.chunk.length := by
    rw [hcounted.lastTransferred]
    exact Nat.add_pos_right _ hsome
  have hbytes : arrivedBytes [a] = a.chunk.length := List.sum_singleton
  unfold ProgressState.onWrite
  rw [if_pos hpast]
  constructor
  · rw [arrivedBytes_append, hbytes, ← hcounted.transferred]
  · exact hcounted.lastTransferred
  · rw [reportsFrom_append, Nat.zero_add, ← hcounted.transferred, ← hcounted.reports,
      reportsFrom, reportsFrom, ← htotal]

theorem onWrite_total (n : Nat) (s : ProgressState) : (s.onWrite n).total = s.total := by
  unfold ProgressState.onWrite
  simp only
  split
  · rfl
  · rfl

theorem Counted.setTotal {arrivals : List Arrival} {s : ProgressState}
    (hcounted : Counted arrivals s) (total : Int) :
    Counted arrivals { s with total := total } :=
  ⟨hcounted.transferred, hcounted.lastTransferred, hcounted.reports⟩

/-- The chunks of a response that a file takes, one after the other. -/
def FileKind.arrivals (k : FileKind φ) (size : Int) : List ByteString -> φ -> List Arrival
  | [], _ => []
  | chunk :: rest, f =>
      let f := k.ofstream.write chunk f
      if h : chunk ≠ [] ∧ (k.ofstream.rdstate f).fail = false then
        ⟨size, chunk, h.1⟩ :: k.arrivals size rest f
      else k.arrivals size rest f

/-- What arrives of an offer, when the file is as its sink has opened it. -/
def FileDevice.arrivals (v : FileDevice δ φ) (opened : Int -> δ -> δ) (d : δ) :
    Option Offer -> List Arrival
  | none => []
  | some offer =>
      v.kind.arrivals offer.size offer.chunks (v.file.get (opened offer.size d))

section Device

variable {v : FileDevice δ φ} {o : Observers}

/-- What the observers of a writer leave of the one that counts. -/
theorem observers_progress (hapart : v.crc.Apart v.progress) (data : ByteString) (d : δ) :
    v.progress.get
        (ByteWriterObserver.writeAll
          ((if o.crcObserver then [CRC64WriteObserver v.crc] else []) ++
            if o.progressObs then [ProgressWriteObserver v.progress] else []) data d) =
      if o.progressObs = true then (v.progress.get d).onWrite data.length
      else v.progress.get d := by
  have hcrc : forall d,
      v.progress.get ((CRC64WriteObserver v.crc).onWrite data d) = v.progress.get d :=
    fun _ => hapart.get_set_left _ _
  have hcounts : forall d,
      v.progress.get ((ProgressWriteObserver v.progress).onWrite data d) =
        (v.progress.get d).onWrite data.length := fun _ => v.progress.get_set _ _
  rcases o with ⟨crcObserver, progressObs⟩
  cases crcObserver with
  | false =>
      cases progressObs with
      | false => rfl
      | true => exact hcounts d
  | true =>
      cases progressObs with
      | false => exact hcrc d
      | true => exact (hcounts _).trans (congrArg _ (hcrc d))

theorem writer_write (data : ByteString) {d d' : δ} {written : Nat}
    (hwrite : ((OStreamWriter v.kind.ofstream).on v.file).write data d = (written, d')) :
    (v.writer o).write data d =
      (written,
        if 0 < written then
          ByteWriterObserver.writeAll
            ((if o.crcObserver then [CRC64WriteObserver v.crc] else []) ++
              if o.progressObs then [ProgressWriteObserver v.progress] else [])
            (data.take written) d'
        else d') := by
  rcases o with ⟨crcObserver, progressObs⟩
  have hobserved := fun observers => ObservableWriter_write observers hwrite
  cases crcObserver with
  | false =>
      cases progressObs with
      | false => exact hwrite.trans (congrArg (Prod.mk written) (ite_self d').symm)
      | true => exact hobserved _
  | true =>
      cases progressObs with
      | false => exact hobserved _
      | true => exact hobserved _

/-- The observer counts a chunk that the file has taken. -/
theorem writer_progress (hapart : v.crc.Apart v.progress) (data : ByteString) (d : δ) :
    v.progress.get ((v.writer o).write data d).2 =
      if o.progressObs = true ∧ data ≠ [] ∧
          (v.kind.ofstream.rdstate (v.kind.ofstream.write data (v.file.get d))).fail =
            false then
        (v.progress.get d).onWrite data.length
      else v.progress.get d := by
  let f := v.kind.ofstream.write data (v.file.get d)
  have hspared : v.progress.get (v.file.set f d) = v.progress.get d :=
    v.progressApart.get_set_right f d
  have hwrite : ((OStreamWriter v.kind.ofstream).on v.file).write data d =
      (if (v.kind.ofstream.rdstate f).fail then 0 else data.length, v.file.set f d) := rfl
  cases hfail : (v.kind.ofstream.rdstate f).fail with
  | true =>
      rw [hfail, if_pos rfl] at hwrite
      rw [writer_write data hwrite]
      exact hspared.trans (if_neg fun h => nomatch h.2.2).symm
  | false =>
      rw [hfail, if_neg (by decide)] at hwrite
      rw [writer_write data hwrite]
      cases data with
      | nil => exact hspared.trans (if_neg fun h => h.2.1 rfl).symm
      | cons b rest =>
          have hobserved := @observers_progress _ _ v o hapart (b :: rest) (v.file.set f d)
          rw [hspared] at hobserved
          have htake : (b :: rest).take (b :: rest).length = b :: rest := List.take_length
          rw [htake]
          refine hobserved.trans (if_congr ?_ rfl rfl)
          exact ⟨fun h => ⟨h, List.cons_ne_nil b rest, rfl⟩, fun h => h.1⟩

theorem writes_counted (hapart : v.crc.Apart v.progress) (hprogress : o.progressObs = true)
    {arrivals : List Arrival} {size : Int} (chunks : List ByteString) {d : δ}
    (hcounted : Counted arrivals (v.progress.get d))
    (htotal : (v.progress.get d).total = size) :
    Counted (arrivals ++ v.kind.arrivals size chunks (v.file.get d))
      (v.progress.get ((v.writer o).writes chunks d)) := by
  induction chunks generalizing arrivals d with
  | nil =>
      rw [FileKind.arrivals, List.append_nil]
      exact hcounted
  | cons chunk rest ih =>
      have hwritten := @writer_progress _ _ v o hapart chunk d
      have hfile := v.writer_file o chunk d
      rw [FileKind.arrivals, ByteWriter.writes]
      split
      · rename_i htaken
        rw [if_pos ⟨hprogress, htaken⟩] at hwritten
        have hstep := hcounted.onWrite ⟨size, chunk, htaken.1⟩ htotal
        rw [← hwritten] at hstep
        have hrest := ih hstep
          (hwritten ▸ (onWrite_total chunk.length (v.progress.get d)).trans htotal)
        rw [hfile, List.append_assoc] at hrest
        exact hrest
      · rename_i hrefused
        rw [if_neg (fun h => hrefused h.2)] at hwritten
        rw [← hwritten] at hcounted htotal
        have hrest := ih hcounted htotal
        rw [hfile] at hrest
        exact hrest

/-- Without a callback there is no observer. -/
theorem writes_unobserved (hapart : v.crc.Apart v.progress)
    (hprogress : o.progressObs = false) (chunks : List ByteString) (d : δ) :
    v.progress.get ((v.writer o).writes chunks d) = v.progress.get d := by
  induction chunks generalizing d with
  | nil => rfl
  | cons chunk rest ih =>
      have hwritten := @writer_progress _ _ v o hapart chunk d
      rw [if_neg (fun h => absurd (hprogress.symm.trans h.1) (by decide))] at hwritten
      exact (ih _).trans hwritten

/-- A sink is opened with a total, and leaves what was counted. -/
def OpensWithTotal (v : FileDevice δ φ) (o : Observers) (opened : Int -> δ -> δ) : Prop :=
  forall size d, v.progress.get (opened size d) =
    if o.progressObs = true then { v.progress.get d with total := size }
    else v.progress.get d

variable {opened : Int -> δ -> δ}

theorem leaves_counted (hapart : v.crc.Apart v.progress) (hprogress : o.progressObs = true)
    (hopened : OpensWithTotal v o opened) {arrivals : List Arrival} {d : δ}
    (hcounted : Counted arrivals (v.progress.get d)) (offer : Option Offer) :
    Counted (arrivals ++ v.arrivals opened d offer)
      (v.progress.get (Offer.leaves (v.writer o) opened d offer)) := by
  cases offer with
  | none =>
      rw [FileDevice.arrivals, List.append_nil]
      exact hcounted
  | some offer =>
      have hbegun := hopened offer.size d
      rw [if_pos hprogress] at hbegun
      refine writes_counted hapart hprogress offer.chunks ?_ ?_
      · rw [hbegun]
        exact hcounted.setTotal offer.size
      · rw [hbegun]

theorem leaves_unobserved (hapart : v.crc.Apart v.progress)
    (hprogress : o.progressObs = false) (hopened : OpensWithTotal v o opened) (d : δ)
    (offer : Option Offer) :
    v.progress.get (Offer.leaves (v.writer o) opened d offer) = v.progress.get d := by
  cases offer with
  | none => rfl
  | some offer =>
      have hbegun := hopened offer.size d
      rw [if_neg (fun h => absurd (hprogress.symm.trans h) (by decide))] at hbegun
      exact (writes_unobserved hapart hprogress offer.chunks _).trans hbegun

theorem updateTotal_progress (total : Int) (d : δ) :
    v.progress.get (v.updateTotal o total d) =
      if o.progressObs = true then { v.progress.get d with total := total }
      else v.progress.get d := by
  unfold FileDevice.updateTotal
  split
  · exact v.progress.get_modify _ _
  · rfl

/-- The observers that a call makes. -/
theorem observersMade_counted (d : δ) : Counted [] (v.progress.get (v.observersMade d)) := by
  have hmade : v.progress.get (v.observersMade d) = ⟨-1, 0, 0, []⟩ := v.progress.get_set _ _
  rw [hmade]
  exact ⟨rfl, rfl, rfl⟩

end Device

/-!
# The passes of the synchronous client
-/

/-- A client whose observers do not share what they keep. -/
structure WatchedClient (τ δ φ : Type) extends FileClient τ δ φ where
  observersApart : device.crc.Apart device.progress

def FileClient.progress (c : FileClient τ δ φ) (w : Runtime τ) : ProgressState :=
  c.device.progress.get (c.download w)

/-- What is left when the loop has been gone through so often, or has returned. -/
def FileClient.passed (c : FileClient τ δ φ) (plan : DownloadPlan) :
    Nat -> Nat -> GetObjectRequest τ -> Runtime τ -> Runtime τ
  | 0, _, _, w => w
  | fuel + 1, offset, req, w =>
      match c.pass plan offset req w with
      | .returns _ w => w
      | .resumes offset req w => c.passed plan fuel offset req w

def FileClient.passArrivals (c : FileClient τ δ φ) (plan : DownloadPlan) (offset : Nat)
    (req : GetObjectRequest τ) (w : Runtime τ) : List Arrival :=
  c.device.arrivals (c.opened plan offset) (c.close (c.download w))
    (c.passOffer plan offset req w)

/-- What arrives in these passes. -/
def FileClient.loopArrivals (c : FileClient τ δ φ) (plan : DownloadPlan) :
    Nat -> Nat -> GetObjectRequest τ -> Runtime τ -> List Arrival
  | 0, _, _, _ => []
  | fuel + 1, offset, req, w =>
      c.passArrivals plan offset req w ++
        match c.pass plan offset req w with
        | .returns _ _ => []
        | .resumes offset req w => c.loopArrivals plan fuel offset req w

/-- What a pass leaves. -/
def Pass.left : Pass τ -> Runtime τ
  | .returns _ w => w
  | .resumes _ _ w => w

namespace WatchedClient

variable {c : WatchedClient τ δ φ} {plan : DownloadPlan}

/-- The stream has no part in the progress. -/
theorem progress_modify_file (f : φ -> φ) (w : Runtime τ) :
    c.progress (c.modify (c.device.file.modify f) w) = c.progress w := by
  have hdownload := @download_modify_file _ _ _ c.toFileClient (c.device.file.modify f) w
  exact (congrArg c.device.progress.get hdownload).trans
    (c.device.progressApart.get_set_right _ _)

theorem pass_progress (offset : Nat) (req : GetObjectRequest τ) (w : Runtime τ) :
    c.progress (c.pass plan offset req w).left =
      c.device.progress.get
        (Offer.leaves (c.device.writer plan.observers) (c.opened plan offset)
          (c.close (c.download w)) (c.passOffer plan offset req w)) := by
  have htouches := @FileTransfer.touches _ _ _ c.transfer (c.passRequest plan offset req)
      (c.modify c.close w) (c.device.writer plan.observers) (c.opened plan offset) rfl
  have hclosed : c.cell.get (c.modify c.close w).env = c.close (c.download w) :=
    download_modify_file _ _
  rw [hclosed] at htouches
  refine Eq.trans ?_ (congrArg c.device.progress.get htouches)
  have hflushed := fun w => @progress_modify_file _ _ _ c c.device.kind.flush w
  unfold FileClient.pass
  rcases hgot : c.transfer.getObject (c.passRequest plan offset req)
    (c.modify c.close w) with ⟨outcome, w'⟩
  simp only [hgot]
  cases outcome with
  | ok result =>
      simp only
      split
      · rfl
      · rfl
  | error e =>
      simp only
      split
      · rfl
      · split
        · exact hflushed w'
        · split
          · exact hflushed w'
          · exact hflushed w'

theorem opened_opensWithTotal (offset : Nat) :
    OpensWithTotal c.device plan.observers (c.opened plan offset) := by
  intro size d
  have hopened : c.device.progress.get (c.device.openAt offset d) =
      c.device.progress.get d := c.device.progressApart.get_set_right _ _
  unfold FileClient.opened
  rw [updateTotal_progress, hopened]

theorem passed_counted (hprogress : plan.observers.progressObs = true) (fuel : Nat)
    {arrivals : List Arrival} {offset : Nat} {req : GetObjectRequest τ} {w : Runtime τ}
    (hcounted : Counted arrivals (c.progress w)) :
    Counted (arrivals ++ c.loopArrivals plan fuel offset req w)
      (c.progress (c.passed plan fuel offset req w)) := by
  induction fuel generalizing arrivals offset req w with
  | zero =>
      rw [FileClient.loopArrivals, List.append_nil]
      exact hcounted
  | succ fuel ih =>
      have hclosed : Counted arrivals (c.device.progress.get (c.close (c.download w))) := by
        have hsame : c.device.progress.get (c.close (c.download w)) = c.progress w :=
          c.device.progressApart.get_set_right _ _
        rw [hsame]
        exact hcounted
      have hpass := leaves_counted c.observersApart hprogress
        (@opened_opensWithTotal _ _ _ c plan offset) hclosed (c.passOffer plan offset req w)
      rw [← pass_progress] at hpass
      rw [FileClient.loopArrivals, FileClient.passed, ← List.append_assoc]
      cases hleft : c.pass plan offset req w with
      | returns outcome w' =>
          rw [hleft] at hpass
          simp only
          rw [List.append_nil]
          exact hpass
      | resumes offset' req' w' =>
          rw [hleft] at hpass
          exact ih hpass

theorem passed_unobserved (hprogress : plan.observers.progressObs = false) (fuel offset : Nat)
    (req : GetObjectRequest τ) (w : Runtime τ) :
    c.progress (c.passed plan fuel offset req w) = c.progress w := by
  induction fuel generalizing offset req w with
  | zero => rfl
  | succ fuel ih =>
      have hpass := @pass_progress _ _ _ c plan offset req w
      rw [leaves_unobserved c.observersApart hprogress (opened_opensWithTotal offset)] at hpass
      have hsame : c.device.progress.get (c.close (c.download w)) = c.progress w :=
        c.device.progressApart.get_set_right _ _
      rw [hsame] at hpass
      rw [FileClient.passed]
      cases hleft : c.pass plan offset req w with
      | returns outcome w' =>
          rw [hleft] at hpass
          exact hpass
      | resumes offset' req' w' =>
          rw [hleft] at hpass
          exact (ih offset' req' w').trans hpass

variable (c)

/-- The reports of a call whose loop has been gone through so often, or has returned. -/
def reports (fuel : Nat) (request : GetObjectRequest τ) (w : Runtime τ) :
    List (Nat × Nat × Int) :=
  match downloadRange request.getRange with
  | .error _ => []
  | .ok (rangeStart, rangeEnd) =>
      (c.progress (c.passed (c.plan request rangeStart rangeEnd) fuel 0 request
        (c.modify c.device.observersMade w))).reports

def arrivals (fuel : Nat) (request : GetObjectRequest τ) (w : Runtime τ) : List Arrival :=
  match downloadRange request.getRange with
  | .error _ => []
  | .ok (rangeStart, rangeEnd) =>
      c.loopArrivals (c.plan request rangeStart rangeEnd) fuel 0 request
        (c.modify c.device.observersMade w)

theorem loop_passed {fuel offset : Nat} {req : GetObjectRequest τ} {w w' : Runtime τ}
    {outcome : Except OperationError GetObjectResult}
    (hloop : c.loop plan fuel offset req w = some (outcome, w')) :
    c.passed plan fuel offset req w = w' := by
  induction fuel generalizing offset req w with
  | zero => cases hloop
  | succ fuel ih =>
      rw [FileClient.loop] at hloop
      rw [FileClient.passed]
      cases hpass : c.pass plan offset req w with
      | returns outcome' w1 =>
          rw [hpass] at hloop
          cases hloop
          rfl
      | resumes offset' req' w1 =>
          rw [hpass] at hloop
          exact ih hloop

/-- What has been reported when `getObjectToFile` returns. -/
theorem getObjectToFile_reports {fuel : Nat} {request : GetObjectRequest τ}
    {w w' : Runtime τ} {outcome : Except OperationError GetObjectResult}
    {range : Int × Int} (haccepted : downloadRange request.getRange = .ok range)
    (hrun : c.getObjectToFile fuel request w = some (outcome, w')) :
    c.reports fuel request w = (c.progress w').reports := by
  unfold FileClient.getObjectToFile at hrun
  unfold reports
  rw [haccepted] at hrun ⊢
  rcases Option.map_eq_some_iff.mp hrun with ⟨⟨outcome', w1⟩, hloop, hr⟩
  cases hr
  simp only
  rw [c.loop_passed hloop]
  exact congrArg ProgressState.reports (progress_modify_file _ _).symm

theorem modify_made_progress (w : Runtime τ) :
    Counted [] (c.progress (c.modify c.device.observersMade w)) := by
  have hmade := @download_modify_file _ _ _ c.toFileClient c.device.observersMade w
  unfold FileClient.progress
  rw [hmade]
  exact observersMade_counted _

theorem reports_eq (fuel : Nat) (request : GetObjectRequest τ) (w : Runtime τ) :
    c.reports fuel request w =
      if request.hasProgressCallback = true then
        reportsFrom 0 (c.arrivals fuel request w)
      else [] := by
  have hmade := c.modify_made_progress w
  unfold reports arrivals
  cases downloadRange request.getRange with
  | error e => exact (ite_self _).symm
  | ok range =>
      simp only
      split
      · rename_i hprogress
        exact (passed_counted hprogress fuel hmade).reports
      · rename_i hnone
        rw [passed_unobserved (Bool.not_eq_true _ ▸ hnone)]
        exact hmade.reports

end WatchedClient

/-!
# The attempts of the asynchronous client
-/

/-- An asynchronous client that nothing but its sinks touches the file of. -/
structure WatchedAsyncClient (τ δ φ : Type) extends AsyncFileClient τ δ φ where
  observersApart : device.crc.Apart device.progress
  leaves : toAsyncFileClient.client.Leaves cell.get

/-- What arrives in these exchanges, one after the other. -/
def AsyncFileClient.sentArrivals (c : AsyncFileClient τ δ φ) (o : Observers) :
    List (Exchange τ) -> δ -> List Arrival
  | [], _ => []
  | y :: rest, d =>
      c.device.arrivals (c.opened o) d
          (c.transport.offered y.request y.context.transportContext y.runtime.env) ++
        c.sentArrivals o rest
          (sinkEffect c.transport (c.device.writer o) (c.opened o) d y)

namespace WatchedAsyncClient

variable (c : WatchedAsyncClient τ δ φ)

def progress (w : Runtime τ) : ProgressState := c.device.progress.get (c.download w)

def sent (fuel : Nat) (request : GetObjectRequest τ) (opts : Option (OperationOptions τ))
    (w : Runtime τ) : List (Exchange τ) :=
  let req := c.asyncRequest request
  match req.missing with
  | some _ => []
  | none =>
      c.client.allSentAsync fuel (fromGetObject req) opts (some ⟨req.sinkFactory, [], []⟩)
        (c.modify c.device.observersMade w)

def arrivals (fuel : Nat) (request : GetObjectRequest τ)
    (opts : Option (OperationOptions τ)) (w : Runtime τ) : List Arrival :=
  c.sentArrivals (c.observers request) (c.sent fuel request opts w)
    (c.device.observersMade (c.download w))

variable {c}

theorem opened_opensWithTotal (o : Observers) :
    OpensWithTotal c.device o (c.opened o) := by
  intro size d
  have hopened : c.device.progress.get (c.device.openAnew o d) = c.device.progress.get d := by
    unfold FileDevice.openAnew
    refine (c.device.progressApart.get_set_right _ _).trans ?_
    split
    · exact c.observersApart.get_set_left _ _
    · rfl
  unfold AsyncFileClient.opened
  rw [updateTotal_progress, hopened]

theorem sent_counted {o : Observers} (hprogress : o.progressObs = true)
    (sent : List (Exchange τ)) {before : List Arrival} {d : δ}
    (hcounted : Counted before (c.device.progress.get d)) :
    Counted (before ++ c.sentArrivals o sent d)
      (c.device.progress.get
        (sent.foldl (sinkEffect c.transport (c.device.writer o) (c.opened o)) d)) := by
  induction sent generalizing before d with
  | nil =>
      rw [AsyncFileClient.sentArrivals, List.append_nil]
      exact hcounted
  | cons y rest ih =>
      have hfirst := leaves_counted c.observersApart hprogress (opened_opensWithTotal o)
        hcounted (c.transport.offered y.request y.context.transportContext y.runtime.env)
      rw [AsyncFileClient.sentArrivals, List.foldl_cons, ← List.append_assoc]
      exact ih hfirst

theorem sent_unobserved {o : Observers} (hprogress : o.progressObs = false)
    (sent : List (Exchange τ)) (d : δ) :
    c.device.progress.get
        (sent.foldl (sinkEffect c.transport (c.device.writer o) (c.opened o)) d) =
      c.device.progress.get d := by
  induction sent generalizing d with
  | nil => rfl
  | cons y rest ih =>
      rw [List.foldl_cons]
      exact (ih _).trans
        (leaves_unobserved c.observersApart hprogress (opened_opensWithTotal o) d _)

/-- The callback finds the progress that the attempts have left. -/
theorem getObjectToFileAsync_progress {fuel : Nat} {request : GetObjectRequest τ}
    {opts : Option (OperationOptions τ)} {w w' : Runtime τ}
    {outcome : Except OperationError GetObjectResult}
    (hrun : c.getObjectToFileAsync fuel request opts w = some (outcome, w')) :
    c.progress w' =
      c.device.progress.get
        ((c.sent fuel request opts w).foldl
          (sinkEffect c.transport (c.device.writer (c.observers request))
            (c.opened (c.observers request)))
          (c.device.observersMade (c.download w))) := by
  have hmade : c.download (c.modify c.device.observersMade w) =
      c.device.observersMade (c.download w) := c.cell.get_modify _ _
  unfold AsyncFileClient.getObjectToFileAsync at hrun
  unfold sent
  simp only
  cases hmissing : (c.asyncRequest request).missing with
  | some e =>
      rw [hmissing] at hrun
      cases hrun
      exact congrArg c.device.progress.get hmade
  | none =>
      rw [hmissing] at hrun
      rcases Option.map_eq_some_iff.mp hrun with ⟨⟨result, w1⟩, hoperation, hr⟩
      cases hr
      have hfinished : c.progress (c.finish w1) = c.progress w1 := by
        have hclosed : c.download (c.modify (c.device.file.modify c.device.kind.close) w1) =
            c.device.file.modify c.device.kind.close (c.download w1) := c.cell.get_modify _ _
        unfold AsyncFileClient.finish
        split
        · exact (congrArg c.device.progress.get hclosed).trans
            (c.device.progressApart.get_set_right _ _)
        · rfl
      have hsent := @executeAsync_sentBy _ _ _ _ _ (fun _ => True) _ c.leaves
        (@clientOver_hasEffect _ _ _ c.transport c.base c.disableState
          (c.device.writer (c.observers request)) (c.opened (c.observers request)) false)
        ⟨fun _ _ _ _ => trivial, fun _ _ _ _ => trivial⟩ fuel _ _ _ _ _
        (fun _ _ _ => trivial) hoperation
      have hpart := hsent.part
      rw [hfinished]
      refine (congrArg c.device.progress.get hpart).trans ?_
      exact congrArg (fun d => c.device.progress.get (List.foldl _ d _)) hmade

theorem reports_eq {fuel : Nat} {request : GetObjectRequest τ}
    {opts : Option (OperationOptions τ)} {w w' : Runtime τ}
    {outcome : Except OperationError GetObjectResult}
    (hrun : c.getObjectToFileAsync fuel request opts w = some (outcome, w')) :
    (c.progress w').reports =
      if request.hasProgressCallback = true then
        reportsFrom 0 (c.arrivals fuel request opts w)
      else [] := by
  have hmade : Counted [] (c.device.progress.get (c.device.observersMade (c.download w))) :=
    observersMade_counted _
  rw [getObjectToFileAsync_progress hrun]
  split
  · rename_i hprogress
    exact (sent_counted hprogress _ hmade).reports
  · rename_i hnone
    have hnone' : (c.observers request).progressObs = false := Bool.not_eq_true _ ▸ hnone
    rw [sent_unobserved hnone']
    exact hmade.reports

end WatchedAsyncClient

/-!
# A download of either client
-/

inductive WatchedCall (τ δ φ : Type) where
  | sync (c : WatchedClient τ δ φ)
  | async (c : WatchedAsyncClient τ δ φ) (opts : Option (OperationOptions τ))

namespace WatchedCall

/-- What the callback has been told, after so many passes or when the client calls back. -/
def reports : WatchedCall τ δ φ -> Nat -> GetObjectRequest τ -> Runtime τ ->
    Option (List (Nat × Nat × Int))
  | .sync c, fuel, request, w => some (c.reports fuel request w)
  | .async c opts, fuel, request, w =>
      (c.getObjectToFileAsync fuel request opts w).map fun r => (c.progress r.2).reports

def arrivals : WatchedCall τ δ φ -> Nat -> GetObjectRequest τ -> Runtime τ -> List Arrival
  | .sync c, fuel, request, w => c.arrivals fuel request w
  | .async c opts, fuel, request, w => c.arrivals fuel request opts w

end WatchedCall

/--
The reports of a download stay within one total if and only if all its responses that bring
bytes announce one length, and bring no more together than that: a second response does not
go with the bytes of the first, whether it is for the rest of the object or for all of it.
-/
theorem downloadProgress_within_iff (c : WatchedCall τ δ φ) (fuel : Nat)
    (request : GetObjectRequest τ) (w : Runtime τ) (reports : List (Nat × Nat × Int))
    (hreports : c.reports fuel request w = some reports) :
    WithinTotal reports ↔
      (request.hasProgressCallback = true -> FitsOneLength (c.arrivals fuel request w)) := by
  have heq : reports =
      if request.hasProgressCallback = true then
        reportsFrom 0 (c.arrivals fuel request w)
      else [] := by
    cases c with
    | sync c =>
        cases hreports
        exact c.reports_eq fuel request w
    | async c opts =>
        rcases Option.map_eq_some_iff.mp hreports with ⟨⟨outcome, w'⟩, hrun, hr⟩
        rw [← hr]
        exact WatchedAsyncClient.reports_eq hrun
  rw [heq]
  split
  · rename_i hprogress
    rw [withinTotal_reportsFrom_iff]
    exact ⟨fun h _ => h, fun h => h hprogress⟩
  · rename_i hnone
    constructor
    · exact fun _ hprogress => absurd hprogress hnone
    · exact fun _ => ⟨fun r hr => (nomatch hr), fun r hr => (nomatch hr)⟩

/-!
# A download that is resumed, and one that is tried again
-/

/-- The synchronous client that gets four bytes in two halves. -/
def halvesClient : WatchedClient Download Download OutputFile where
  toFileClient :=
    (rangeClient halves).fileClient (rangeClient_undisturbed halves).wire
      (rangeClient_undisturbed halves).leaves none
  observersApart := ⟨fun _ _ => rfl, fun _ _ => rfl⟩

/-- The asynchronous client, where every attempt gets the first half. -/
def firstHalfClient : WatchedAsyncClient Download Download OutputFile where
  toAsyncFileClient := (rangeClient halves).asyncFileClient (rangeClient_undisturbed halves).wire
  observersApart := ⟨fun _ _ => rfl, fun _ _ => rfl⟩
  leaves := (rangeClient_undisturbed halves).leaves

def watchedObject : GetObjectRequest Download :=
  { wholeObject with hasProgressCallback := true }

theorem downloadProgress_within_iff_halves :
    WithinTotal [(2, 2, 4), (2, 4, 2)] ↔
      (watchedObject.hasProgressCallback = true ->
        FitsOneLength
          ((WatchedCall.sync halvesClient).arrivals 2 watchedObject (fileOf none))) :=
  downloadProgress_within_iff (.sync halvesClient) 2 watchedObject (fileOf none)
    [(2, 2, 4), (2, 4, 2)] (by decide +kernel)

/--
The second half of the object is announced as two bytes, when four have arrived.  And the
observer goes on counting when the first half comes in again and again.
-/
theorem not_downloadProgress_within :
    (exists reports, (WatchedCall.sync halvesClient).reports 2 watchedObject (fileOf none) =
        some reports ∧ ¬ WithinTotal reports) ∧
    exists reports, (WatchedCall.async firstHalfClient none).reports 9 watchedObject
        (fileOf none) = some reports ∧ ¬ WithinTotal reports := by
  have hresumed : (WatchedCall.sync halvesClient).reports 2 watchedObject (fileOf none) =
      some [(2, 2, 4), (2, 4, 2)] := by
    decide +kernel
  have hretried : (WatchedCall.async firstHalfClient none).reports 9 watchedObject
      (fileOf none) = some [(2, 2, 4), (2, 4, 4), (2, 6, 4)] := by
    decide +kernel
  refine ⟨⟨_, hresumed, fun hreports => ?_⟩, ⟨_, hretried, fun hreports => ?_⟩⟩
  · have htotal := hreports.oneTotal (2, 2, 4) (by decide) (2, 4, 2) (by decide)
    revert htotal
    decide
  · have hwithin := hreports.within (2, 6, 4) (by decide) (by decide)
    revert hwithin
    decide

end Client
end OssSdk
