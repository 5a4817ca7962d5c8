import OssSdk.Client.DownloadedFile
import OssSdk.Client.FileLoop

/-!
# The progress of a resumed download

A pass that has failed is followed by another one where its stream is good, whether bytes
have come in or not.  The next pass begins where the stream stands.
-/

namespace OssSdk
namespace Client

open Foundation
open Internal
open Sync
open Transport
open Utils

variable {τ δ φ : Type}

/-!
# Where a stream stands
-/

/--
A good stream stands where it was opened, and behind what was written to it.  Streams that
have just been opened are ready, and stay so.
-/
structure FileKind.Lawful (k : FileKind φ) (ready : φ -> Prop) : Prop where
  openTrunc : forall f, ready (k.openTrunc f) ∧
    forall s, k.fileStream (k.openTrunc f) = some s -> s.position = 0
  seekp : forall n f, ready (k.seekp n (k.openUpdate f)) ∧
    forall s, k.fileStream (k.seekp n (k.openUpdate f)) = some s ->
      s.state.fail = false -> s.position = n
  write : forall data f, ready f -> ready (k.ofstream.write data f) ∧
    forall s', k.fileStream (k.ofstream.write data f) = some s' ->
      s'.state.fail = false ->
      exists s, k.fileStream f = some s ∧ s.state.fail = false ∧
        s'.position = s.position + data.length
  flush : forall f s', k.fileStream (k.flush f) = some s' -> s'.state.fail = false ->
    exists s, k.fileStream f = some s ∧ s.state.fail = false ∧ s'.position = s.position
  close : forall f, k.fileStream (k.close f) = none

/-- There is a file below a good stream. -/
def OutputFile.Ready (f : OutputFile) : Prop :=
  f.rdstate.fail = false -> f.content.isSome = true

theorem outputFile_lawful : outputFile.Lawful OutputFile.Ready where
  openTrunc f := by
    refine ⟨fun _ => rfl, fun s hs => ?_⟩
    cases hs
    rfl
  seekp n f := by
    change OutputFile.Ready (f.openUpdate.seekp n) ∧
      forall s, (f.openUpdate.seekp n).fileStream = some s -> s.state.fail = false ->
        s.position = n
    rcases f with ⟨content, fileStream⟩
    cases content with
    | none =>
        refine ⟨fun hgood => (nomatch hgood), fun s hs hgood => ?_⟩
        cases hs
        cases hgood
    | some content =>
        refine ⟨fun _ => rfl, fun s hs _ => ?_⟩
        cases hs
        rfl
  write data f := by
    intro hready
    change OutputFile.Ready (f.write data) ∧
      forall s', (f.write data).fileStream = some s' -> s'.state.fail = false ->
        exists s, f.fileStream = some s ∧ s.state.fail = false ∧
          s'.position = s.position + data.length
    rcases f with ⟨content, fileStream⟩
    cases fileStream with
    | none =>
        have hsame : OutputFile.write data ⟨content, none⟩ = ⟨content, none⟩ := by
          cases content with
          | none => rfl
          | some content => rfl
        rw [hsame]
        exact ⟨hready, fun s' hs' => (nomatch hs')⟩
    | some stream =>
        cases hfail : stream.state.fail with
        | true =>
            have hstate : OutputFile.rdstate ⟨content, some stream⟩ = stream.state := rfl
            rw [write_of_fail (by rw [hstate]; exact hfail)]
            refine ⟨hready, fun s' hs' hgood => ?_⟩
            cases hs'
            rw [hfail] at hgood
            cases hgood
        | false =>
            rcases Option.isSome_iff_exists.mp (hready hfail) with ⟨content', hcontent⟩
            cases hcontent
            unfold OutputFile.write
            simp only [hfail, Bool.false_eq_true, if_false]
            refine ⟨fun _ => rfl, fun s' hs' _ => ?_⟩
            cases hs'
            exact ⟨stream, rfl, hfail, rfl⟩
  flush f s' hs' hgood := ⟨s', hs', hgood, rfl⟩
  close _ := rfl

/-!
# Devices
-/

section Device

variable {v : FileDevice δ φ}

/-- An observer that leaves the file alone. -/
def FileDevice.Spares (v : FileDevice δ φ) (o : ByteWriterObserver δ) : Prop :=
  forall data d, v.file.get (o.onWrite data d) = v.file.get d

theorem writeAll_spares {observers : List (ByteWriterObserver δ)}
    (hspares : forall o, o ∈ observers -> v.Spares o) (data : ByteString) (d : δ) :
    v.file.get (ByteWriterObserver.writeAll observers data d) = v.file.get d := by
  induction observers generalizing d with
  | nil => rfl
  | cons o rest ih =>
      have hrest := ih (fun o' ho' => hspares o' (List.mem_cons_of_mem _ ho'))
        (o.onWrite data d)
      exact hrest.trans (hspares o List.mem_cons_self data d)

theorem crc_spares (v : FileDevice δ φ) : v.Spares (CRC64WriteObserver v.crc) :=
  fun _ _ => v.crcApart.get_set_left _ _

theorem progress_spares (v : FileDevice δ φ) :
    v.Spares (ProgressWriteObserver v.progress) :=
  fun _ _ => v.progressApart.get_set_left _ _

/-- The file takes what the writer is given, with or without observers. -/
theorem FileDevice.writer_file (v : FileDevice δ φ) (o : Observers) (data : ByteString)
    (d : δ) :
    v.file.get ((v.writer o).write data d).2 =
      v.kind.ofstream.write data (v.file.get d) := by
  have hfile : v.file.get
      (((OStreamWriter v.kind.ofstream).on v.file).write data d).2 =
        v.kind.ofstream.write data (v.file.get d) := v.file.get_set _ _
  unfold FileDevice.writer
  simp only
  split
  · exact hfile
  · rcases hwrite : ((OStreamWriter v.kind.ofstream).on v.file).write data d with
      ⟨written, d'⟩
    rw [hwrite] at hfile
    rw [ObservableWriter_write _ hwrite]
    simp only
    split
    · refine (writeAll_spares ?_ _ _).trans hfile
      intro ob hob
      rcases List.mem_append.mp hob with hcrc | hprogress
      · split at hcrc
        · rw [List.mem_singleton.mp hcrc]
          exact crc_spares v
        · cases hcrc
      · split at hprogress
        · rw [List.mem_singleton.mp hprogress]
          exact progress_spares v
        · cases hprogress
    · exact hfile

theorem updateTotal_file (o : Observers) (total : Int) (d : δ) :
    v.file.get (v.updateTotal o total d) = v.file.get d := by
  unfold FileDevice.updateTotal
  split
  · exact v.progressApart.get_set_left _ _
  · rfl

/-- The chunks of a body move a good stream on by their bytes. -/
theorem writes_position {ready : φ -> Prop} (hlawful : v.kind.Lawful ready)
    (o : Observers) (chunks : List ByteString) {d : δ}
    (hready : ready (v.file.get d)) {s' : FileStream}
    (hstream : v.fileStream ((v.writer o).writes chunks d) = some s')
    (hgood : s'.state.fail = false) :
    exists s, v.fileStream d = some s ∧ s.state.fail = false ∧
      s'.position = s.position + chunks.flatten.length := by
  induction chunks generalizing d with
  | nil => exact ⟨s', hstream, hgood, rfl⟩
  | cons chunk rest ih =>
      have hfile := v.writer_file o chunk d
      rcases hlawful.write chunk (v.file.get d) hready with ⟨hready', hmoves⟩
      rw [← hfile] at hready'
      rcases ih hready' hstream with ⟨s, hs, hfail, hposition⟩
      rw [FileDevice.fileStream, hfile] at hs
      rcases hmoves s hs hfail with ⟨s0, hs0, hfail0, hposition0⟩
      refine ⟨s0, hs0, hfail0, ?_⟩
      rw [hposition, hposition0, List.flatten_cons, List.length_append, Nat.add_assoc]

theorem openAt_position {ready : φ -> Prop} (hlawful : v.kind.Lawful ready)
    (offset : Nat) (d : δ) :
    ready (v.file.get (v.openAt offset d)) ∧
      forall s, v.fileStream (v.openAt offset d) = some s -> s.state.fail = false ->
        s.position = offset := by
  have hopened : v.file.get (v.openAt offset d) =
      if offset = 0 then v.kind.openTrunc (v.file.get d)
      else v.kind.seekp offset (v.kind.openUpdate (v.file.get d)) :=
    v.file.get_modify _ _
  unfold FileDevice.fileStream
  rw [hopened]
  split
  · rename_i hzero
    rcases hlawful.openTrunc (v.file.get d) with ⟨hready, hposition⟩
    exact ⟨hready, fun s hs _ => (hposition s hs).trans hzero.symm⟩
  · exact hlawful.seekp offset (v.file.get d)

end Device

/-!
# The passes of a download
-/

/-- What the loop may be at when it begins a pass. -/
inductive Reaches (c : FileClient τ δ φ) (plan : DownloadPlan)
    (request : GetObjectRequest τ) (w : Runtime τ) :
    Nat -> GetObjectRequest τ -> Runtime τ -> Prop where
  | start : Reaches c plan request w 0 request w
  | resumed {offset offset' : Nat} {req req' : GetObjectRequest τ} {w1 w2 : Runtime τ} :
      Reaches c plan request w offset req w1 ->
      c.pass plan offset req w1 = .resumes offset' req' w2 ->
      Reaches c plan request w offset' req' w2

/-- The call of a pass. -/
def FileClient.passCall (c : FileClient τ δ φ) (plan : DownloadPlan) (offset : Nat)
    (req : GetObjectRequest τ) (w : Runtime τ) :
    Except OperationError GetObjectResult × Runtime τ :=
  c.transfer.getObject (c.passRequest plan offset req) (c.modify c.close w)

/-- The call of a pass has failed, and the stream is good when it is flushed. -/
def FileClient.FailsGood (c : FileClient τ δ φ) (plan : DownloadPlan) (offset : Nat)
    (req : GetObjectRequest τ) (w : Runtime τ) : Prop :=
  (exists e, (c.passCall plan offset req w).1 = .error e) ∧
    exists s, c.device.fileStream
        (c.download (c.modify c.flush (c.passCall plan offset req w).2)) = some s ∧
      s.state.fail = false

/-- What the sink of a pass is offered, if the pass makes one. -/
def FileClient.passOffer (c : FileClient τ δ φ) (plan : DownloadPlan) (offset : Nat)
    (req : GetObjectRequest τ) (w : Runtime τ) : Option Offer :=
  c.transfer.offered (c.passRequest plan offset req) (c.modify c.close w)

/-- Every pass that is followed by another one moves the offset on. -/
def Advances (c : FileClient τ δ φ) (plan : DownloadPlan) (request : GetObjectRequest τ)
    (w : Runtime τ) : Prop :=
  forall offset req w1, Reaches c plan request w offset req w1 ->
    forall offset' req' w2, c.pass plan offset req w1 = .resumes offset' req' w2 ->
      offset < offset'

/-- Where the call of a pass has failed, and the stream is good, a byte has come in. -/
def BringsBytes (c : FileClient τ δ φ) (plan : DownloadPlan)
    (request : GetObjectRequest τ) (w : Runtime τ) : Prop :=
  forall offset req w1, Reaches c plan request w offset req w1 ->
    c.FailsGood plan offset req w1 ->
      forall offer, c.passOffer plan offset req w1 = some offer ->
        offer.chunks.flatten ≠ []

/-- Of an object of this size no pass brings more than what it has left. -/
def WithinObject (c : FileClient τ δ φ) (plan : DownloadPlan)
    (request : GetObjectRequest τ) (w : Runtime τ) (size : Nat) : Prop :=
  forall offset req w1, Reaches c plan request w offset req w1 ->
    forall offer, c.passOffer plan offset req w1 = some offer ->
      offset + offer.chunks.flatten.length ≤ size

section Loop

variable {c : FileClient τ δ φ} {plan : DownloadPlan} {request : GetObjectRequest τ}
variable {w : Runtime τ} {ready : φ -> Prop} {size : Nat}

theorem download_modify_file (f : δ -> δ) (w : Runtime τ) :
    c.download (c.modify f w) = f (c.download w) := c.cell.get_modify f w.env

/-- A pass is followed by another one, behind its stream, where it fails on a good one. -/
theorem pass_resumes_iff (hlawful : c.device.kind.Lawful ready) {offset offset' : Nat}
    {req req' : GetObjectRequest τ} {w2 : Runtime τ} :
    c.pass plan offset req w = .resumes offset' req' w2 ↔
      c.FailsGood plan offset req w ∧
        w2 = c.modify c.flush (c.passCall plan offset req w).2 ∧
        (c.device.fileStream (c.download w2)).map FileStream.position = some offset' ∧
        req' = c.passRequest plan offset req := by
  unfold FileClient.FailsGood FileClient.passCall FileClient.pass
  rcases hgot : c.transfer.getObject (c.passRequest plan offset req)
    (c.modify c.close w) with ⟨outcome, w1⟩
  simp only [hgot]
  have hflushed : c.device.fileStream (c.download (c.modify c.flush w1)) =
      c.device.kind.fileStream
        (c.device.kind.flush (c.device.file.get (c.download w1))) := by
    rw [download_modify_file]
    exact congrArg c.device.kind.fileStream (c.device.file.get_modify _ _)
  cases outcome with
  | ok result =>
      simp only
      constructor
      · intro hpass
        split at hpass
        · cases hpass
        · cases hpass
      · rintro ⟨⟨⟨e, he⟩, _⟩, _⟩
        cases he
  | error e =>
      simp only
      constructor
      · intro hpass
        split at hpass
        · cases hpass
        · split at hpass
          · cases hpass
          · rename_i stream hstream
            split at hpass
            · cases hpass
            · rename_i hgood
              cases hpass
              exact ⟨⟨⟨e, rfl⟩, stream, hstream, Bool.not_eq_true _ ▸ hgood⟩, rfl,
                congrArg (Option.map FileStream.position) hstream, rfl⟩
      · rintro ⟨⟨_, stream, hstream, hgood⟩, rfl, hposition, rfl⟩
        rcases hlawful.flush _ _ (hflushed.symm.trans hstream) hgood with ⟨s, hs, _⟩
        have hbefore : c.device.fileStream (c.download w1) = some s := hs
        rw [hstream] at hposition
        cases hposition
        simp only [hbefore, hstream, hgood, Bool.false_eq_true, if_false]

/-- A pass that is followed by another one has made a sink, and stands behind its bytes. -/
theorem pass_resumes_offer (hlawful : c.device.kind.Lawful ready) {offset offset' : Nat}
    {req req' : GetObjectRequest τ} {w2 : Runtime τ}
    (hpass : c.pass plan offset req w = .resumes offset' req' w2) :
    exists offer, c.passOffer plan offset req w = some offer ∧
      offset' = offset + offer.chunks.flatten.length := by
  have htouches := @FileTransfer.touches _ _ _ c.transfer (c.passRequest plan offset req)
      (c.modify c.close w) (c.device.writer plan.observers) (c.opened plan offset) rfl
  have hclosed : c.cell.get (c.modify c.close w).env = c.close (c.download w) :=
    download_modify_file _ _
  rw [hclosed] at htouches
  have hdownload : c.download (c.passCall plan offset req w).2 =
      Offer.leaves (c.device.writer plan.observers) (c.opened plan offset)
        (c.close (c.download w)) (c.passOffer plan offset req w) := htouches
  rcases (pass_resumes_iff hlawful).mp hpass with
    ⟨⟨_, stream, hstream, hgood⟩, rfl, hoffset, _⟩
  have hposition : stream.position = offset' := by
    rw [hstream] at hoffset
    exact Option.some.inj hoffset
  rw [download_modify_file] at hstream
  have hflushed : c.device.fileStream
      (c.flush (c.download (c.passCall plan offset req w).2)) =
        c.device.kind.fileStream (c.device.kind.flush
          (c.device.file.get (c.download (c.passCall plan offset req w).2))) :=
    congrArg c.device.kind.fileStream (c.device.file.get_modify _ _)
  rw [hflushed] at hstream
  rcases hlawful.flush _ _ hstream hgood with ⟨s, hs, hfail, hsame⟩
  rw [hdownload] at hs
  cases hoffer : c.passOffer plan offset req w with
  | none =>
      -- without a sink the stream of the pass before is gone
      rw [hoffer] at hs
      have hnone : c.device.fileStream (c.close (c.download w)) = none :=
        (congrArg c.device.kind.fileStream (c.device.file.get_modify _ _)).trans
          (hlawful.close _)
      exact absurd (hnone.symm.trans hs) (fun h => nomatch h)
  | some offer =>
      rw [hoffer] at hs
      rcases openAt_position hlawful offset (c.close (c.download w)) with
        ⟨hready, hopened⟩
      have hfile : c.device.file.get
          (c.opened plan offset offer.size (c.close (c.download w))) =
            c.device.file.get
              (c.device.openAt offset (c.close (c.download w))) :=
        updateTotal_file _ _ _
      rcases writes_position hlawful plan.observers offer.chunks
        (hfile.symm ▸ hready) hs hfail with ⟨s0, hs0, hfail0, hmoved⟩
      rw [FileDevice.fileStream, hfile] at hs0
      have hstart := hopened s0 hs0 hfail0
      refine ⟨offer, rfl, ?_⟩
      rw [← hposition, hsame, hmoved, hstart]

/-- The offset moves on exactly where bytes come in. -/
theorem advances_iff (hlawful : c.device.kind.Lawful ready) :
    Advances c plan request w ↔ BringsBytes c plan request w := by
  constructor
  · intro hadvances offset req w1 hreaches hfails offer hoffer hnil
    rcases hfails.2 with ⟨s, hs, _⟩
    have hpass := (pass_resumes_iff hlawful).mpr
      ⟨hfails, rfl, congrArg (Option.map FileStream.position) hs, rfl⟩
    rcases pass_resumes_offer hlawful hpass with ⟨offer', hoffer', hmoved⟩
    rw [hoffer] at hoffer'
    cases hoffer'
    have hless := hadvances offset req w1 hreaches _ _ _ hpass
    rw [hmoved, hnil] at hless
    exact Nat.lt_irrefl _ hless
  · intro hbrings offset req w1 hreaches offset' req' w2 hpass
    rcases pass_resumes_offer hlawful hpass with ⟨offer, hoffer, hmoved⟩
    have hfails := ((pass_resumes_iff hlawful).mp hpass).1
    have hsome := hbrings offset req w1 hreaches hfails offer hoffer
    rw [hmoved]
    exact Nat.lt_add_of_pos_right (List.length_pos_iff.mpr hsome)

/-- The object has fewer bytes left in every pass. -/
theorem loop_returns (hlawful : c.device.kind.Lawful ready)
    (hadvances : Advances c plan request w) (hwithin : WithinObject c plan request w size)
    (fuel : Nat) {offset : Nat} {req : GetObjectRequest τ} {w1 : Runtime τ}
    (hreaches : Reaches c plan request w offset req w1) (hoffset : offset ≤ size)
    (hfuel : size < offset + fuel) : (c.loop plan fuel offset req w1).isSome = true := by
  induction fuel generalizing offset req w1 with
  | zero => exact absurd hfuel (Nat.not_lt.mpr hoffset)
  | succ fuel ih =>
      rw [FileClient.loop]
      cases hpass : c.pass plan offset req w1 with
      | returns outcome w2 => rfl
      | resumes offset' req' w2 =>
          have hless := hadvances offset req w1 hreaches offset' req' w2 hpass
          rcases pass_resumes_offer hlawful hpass with ⟨offer, hoffer, hmoved⟩
          have hsize := hwithin offset req w1 hreaches offer hoffer
          exact ih (hreaches.resumed hpass) (hmoved ▸ hsize) (by omega)

end Loop

/--
The loop moves on in every pass, and is gone through no more often than the object has
bytes and once more, if and only if every pass that fails on a good stream has brought a
byte.
-/
theorem getObjectToFile_progress_iff (c : FileClient τ δ φ) (ready : φ -> Prop)
    (hlawful : c.device.kind.Lawful ready) (request : GetObjectRequest τ)
    (first last : Int) (haccepted : downloadRange request.getRange = .ok (first, last))
    (w : Runtime τ) (size : Nat)
    (hwithin : WithinObject c (c.plan request first last) request
      (c.modify c.device.observersMade w) size) :
    (Advances c (c.plan request first last) request (c.modify c.device.observersMade w) ∧
        (c.getObjectToFile (size + 1) request w).isSome = true) ↔
      BringsBytes c (c.plan request first last) request
        (c.modify c.device.observersMade w) := by
  rw [← advances_iff hlawful]
  constructor
  · exact And.left
  · intro hadvances
    refine ⟨hadvances, ?_⟩
    unfold FileClient.getObjectToFile
    rw [haccepted]
    simp only [Option.isSome_map]
    exact loop_returns hlawful hadvances hwithin (size + 1) .start (Nat.zero_le size)
      (by omega)

/-!
# libcurl and WinHTTP
-/

/-- libcurl makes a sink when the first byte comes in. -/
theorem fileClient_advances {c : DownloadClient τ} (hundisturbed : c.Undisturbed)
    (opts : Option (OperationOptions τ)) (plan : DownloadPlan)
    (request : GetObjectRequest τ) (w : Runtime τ) :
    Advances (c.fileClient hundisturbed.wire hundisturbed.leaves opts) plan request w := by
  have hholds : forall offset req w1,
      Reaches (c.fileClient hundisturbed.wire hundisturbed.leaves opts) plan request w
        offset req w1 ->
      exists written : ByteString, written.length = offset ∧
        Holds (c.download w).file.content written (c.download w1) := by
    intro offset req w1 hreaches
    induction hreaches with
    | start => exact ⟨[], rfl, rfl⟩
    | resumed _ hpass ih =>
        rcases ih with ⟨written, hlength, hwritten⟩
        rw [DownloadClient.pass_eq_fileClient, ← hlength] at hpass
        rcases pass_resumes hundisturbed hwritten hpass with
          ⟨y, _, hpasses, htaken, hoffset, _⟩
        exact ⟨written ++ c.body y, hoffset.symm, hpasses.holds hwritten htaken⟩
  intro offset req w1 hreaches offset' req' w2 hpass
  rcases hholds offset req w1 hreaches with ⟨written, hlength, hwritten⟩
  rw [DownloadClient.pass_eq_fileClient, ← hlength] at hpass
  rcases pass_resumes hundisturbed hwritten hpass with ⟨y, _, _, htaken, hoffset, _⟩
  have hsome : 0 < (c.body y).length :=
    List.length_pos_iff.mpr fun h => htaken (body_eq_nil_iff.mp h)
  rw [hoffset, List.length_append, ← hlength]
  omega

/-- The offset of the pass that follows. -/
def Pass.next : Pass τ -> Option Nat
  | .returns _ _ => none
  | .resumes offset _ _ => some offset

theorem anonymous_leaves (transport : HttpTransport τ) :
    ({ anonymousBase τ with
        httpTransport := transport
        disableState := ⟨fun _ => false, fun _ d => (false, d)⟩ } :
      ClientImpl τ).Leaves (Cell.whole : Cell τ τ).get := by
  refine ⟨?_, fun _ _ _ => rfl, fun _ _ => rfl, fun _ _ _ => rfl⟩
  intro provider hprovider env
  cases hprovider
  rfl

/-- A client over the synchronous transport of WinHTTP. -/
def winHttpFileClient (answer : WinHttp.Answer Download) :
    FileClient Download Download OutputFile where
  device := downloadDevice
  cell := Cell.whole
  transfer :=
    fileTransfer
      (WinHttp.WinHttpClient.sinkTransport ⟨fun _ d => (answer, d)⟩ Cell.whole
        fun _ _ => rfl)
      (anonymousBase Download) ⟨fun _ => false, fun _ d => (false, d)⟩ none
      (anonymous_leaves _)
  checksCrc := true

/-- Two bytes, and the end of the body. -/
def twoBytesAnswer : WinHttp.Answer Download :=
  .headers 200 SortedMap.empty
    [.dataAvailable 2, .readComplete [1, 2], .dataAvailable 0] fun r => by
      by_cases hbad : (r.write [1, 2]).bad = true
      · simp [WinHttp.readLoop, hbad, kWriteBufferLength]
      · simp [WinHttp.readLoop, hbad, kWriteBufferLength]

theorem getObjectToFile_progress_iff_twoBytes :
    (Advances (winHttpFileClient twoBytesAnswer)
          ((winHttpFileClient twoBytesAnswer).plan wholeObject 0 (-1)) wholeObject
          ((winHttpFileClient twoBytesAnswer).modify
            (winHttpFileClient twoBytesAnswer).device.observersMade (fileOf none)) ∧
        ((winHttpFileClient twoBytesAnswer).getObjectToFile (2 + 1) wholeObject
          (fileOf none)).isSome = true) ↔
      BringsBytes (winHttpFileClient twoBytesAnswer)
        ((winHttpFileClient twoBytesAnswer).plan wholeObject 0 (-1)) wholeObject
        ((winHttpFileClient twoBytesAnswer).modify
          (winHttpFileClient twoBytesAnswer).device.observersMade (fileOf none)) := by
  have hnext : ((winHttpFileClient twoBytesAnswer).pass
      ((winHttpFileClient twoBytesAnswer).plan wholeObject 0 (-1)) 0 wholeObject
      ((winHttpFileClient twoBytesAnswer).modify
        (winHttpFileClient twoBytesAnswer).device.observersMade (fileOf none))).next =
          none := by
    decide +kernel
  have hoffer : (winHttpFileClient twoBytesAnswer).passOffer
      ((winHttpFileClient twoBytesAnswer).plan wholeObject 0 (-1)) 0 wholeObject
      ((winHttpFileClient twoBytesAnswer).modify
        (winHttpFileClient twoBytesAnswer).device.observersMade (fileOf none)) =
          some ⟨-1, [[1, 2]]⟩ := by
    decide +kernel
  refine getObjectToFile_progress_iff (winHttpFileClient twoBytesAnswer) OutputFile.Ready
    outputFile_lawful wholeObject 0 (-1) rfl (fileOf none) 2 ?_
  intro offset req w1 hreaches
  -- the only pass returns, so that only the start is reached
  have hstart : offset = 0 ∧ req = wholeObject ∧
      w1 = (winHttpFileClient twoBytesAnswer).modify
        (winHttpFileClient twoBytesAnswer).device.observersMade (fileOf none) := by
    induction hreaches with
    | start => exact ⟨rfl, rfl, rfl⟩
    | resumed _ hpass ih =>
        rcases ih with ⟨hoffset, hreq, hw⟩
        rw [hoffset, hreq, hw] at hpass
        rw [hpass] at hnext
        cases hnext
  rcases hstart with ⟨hoffset, hreq, hw⟩
  rw [hoffset, hreq, hw]
  intro offer hoffered
  rw [hoffer] at hoffered
  cases hoffered
  decide

/-- The request is found canceled after the headers, before there is a byte. -/
def canceledAnswer : WinHttp.Answer Download :=
  .headers 200 SortedMap.empty [.failed true WinHttp.requestCanceled] fun _ => rfl

/-- What the loop is at before the second pass, and before every one after it. -/
def afterHeaders : Runtime Download :=
  ⟨0, ⟨some [], some ⟨0, IoState.goodbit⟩⟩, 0, ⟨-1, 0, 0, []⟩⟩

/-- Nothing has come in, and the loop begins the same pass over and over. -/
theorem not_progress_canceledAnswer :
    (forall fuel, (winHttpFileClient canceledAnswer).getObjectToFile fuel wholeObject
      (fileOf none) = none) ∧
    ¬ Advances (winHttpFileClient canceledAnswer)
        ((winHttpFileClient canceledAnswer).plan wholeObject 0 (-1)) wholeObject
        ((winHttpFileClient canceledAnswer).modify
          (winHttpFileClient canceledAnswer).device.observersMade (fileOf none)) := by
  let c := winHttpFileClient canceledAnswer
  let plan := c.plan wholeObject 0 (-1)
  have hfirst : c.pass plan 0 wholeObject
      (c.modify c.device.observersMade (fileOf none)) =
        .resumes 0 (c.passRequest plan 0 wholeObject) afterHeaders := rfl
  have hagain : c.pass plan 0 (c.passRequest plan 0 wholeObject) afterHeaders =
      .resumes 0 (c.passRequest plan 0 wholeObject) afterHeaders := rfl
  have hloop : forall fuel,
      c.loop plan fuel 0 (c.passRequest plan 0 wholeObject) afterHeaders = none := by
    intro fuel
    induction fuel with
    | zero => rfl
    | succ fuel ih =>
        rw [FileClient.loop, hagain]
        exact ih
  constructor
  · intro fuel
    cases fuel with
    | zero => rfl
    | succ fuel =>
        have hpasses : c.loop plan (fuel + 1) 0 wholeObject
            (c.modify c.device.observersMade (fileOf none)) = none := by
          rw [FileClient.loop, hfirst]
          exact hloop fuel
        exact congrArg (Option.map fun r => (r.1, c.modify c.close r.2)) hpasses
  · intro hadvances
    exact Nat.lt_irrefl 0 (hadvances 0 wholeObject _ .start 0 _ _ hfirst)

end Client
end OssSdk
