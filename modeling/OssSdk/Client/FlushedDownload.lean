import OssSdk.Client.ResumeProgress
import OssSdk.Io.BufferedFile

/-!
# Downloads to a file behind a buffer

A call is successful when its transfer is and its checksum is.  What waits in the buffer
of the stream by then is left to the destructor of the stream, which the callback of an
asynchronous transport may come before.
-/

namespace OssSdk
namespace Client

open Foundation
open Internal
open StackAgreement
open Sync
open Transport
open Utils

variable {τ δ φ : Type}

/-!
# The file
-/

def bufferedFile : FileKind BufferedFile where
  ofstream := BufferedFile.ofstream
  openTrunc := BufferedFile.openTrunc
  openUpdate := BufferedFile.openUpdate
  seekp := BufferedFile.seekp
  flush := BufferedFile.flush
  close := BufferedFile.close
  fileStream := BufferedFile.fileStream

section Device

variable {v : FileDevice δ BufferedFile}

theorem writer_bad (hkind : v.kind = bufferedFile) (o : Observers) (d : δ) :
    (v.writer o).bad d = (v.file.get d).rdstate.bad := by
  have hbad : ((OStreamWriter v.kind.ofstream).on v.file).bad d =
      (v.file.get d).rdstate.bad := by
    rw [hkind]
    rfl
  unfold FileDevice.writer
  simp only
  split
  · exact hbad
  · exact hbad

theorem writes_buffered (hkind : v.kind = bufferedFile) (o : Observers)
    (chunks : List ByteString) (d : δ) :
    v.file.get ((v.writer o).writes chunks d) = (v.file.get d).writes chunks := by
  induction chunks generalizing d with
  | nil => rfl
  | cons chunk rest ih =>
      have hfile := v.writer_file o chunk d
      rw [hkind] at hfile
      exact (ih _).trans (congrArg (BufferedFile.writes rest) hfile)

theorem openAt_buffered (hkind : v.kind = bufferedFile) (offset : Nat) (d : δ) :
    v.file.get (v.openAt offset d) =
      if offset = 0 then (v.file.get d).openTrunc
      else (v.file.get d).openUpdate.seekp offset := by
  have hopened := v.file.get_modify
    (fun f => if offset = 0 then v.kind.openTrunc f
      else v.kind.seekp offset (v.kind.openUpdate f)) d
  rw [hkind] at hopened
  unfold FileDevice.openAt
  rw [hkind]
  exact hopened

end Device

/-!
# What a call downloads
-/

/-- The bytes that were flushed between the passes, and what the last sink was offered. -/
structure Transferred where
  before : ByteString
  last : Option Offer

def Offer.bytes : Option Offer -> ByteString
  | none => []
  | some offer => offer.chunks.flatten

def Transferred.bytes (t : Transferred) : ByteString := t.before ++ Offer.bytes t.last

/--
The last stream was open, or had nothing to take, and nothing is left in its buffer, or the
destructor of the stream brings it to the file.
-/
def Transferred.EndsWell (t : Transferred) (closes : Bool) (f : BufferedFile) : Prop :=
  t.last.isSome = true ->
    (Offer.bytes t.last = [] ∨ f.rdstate.fail = false) ∧ f.Flushes closes

/-!
# The synchronous client
-/

/-- A synchronous client with a file behind a buffer. -/
structure BufferedClient (τ δ : Type) extends FileClient τ δ BufferedFile where
  buffered : device.kind = bufferedFile

namespace BufferedClient

variable (c : BufferedClient τ δ)

def file (w : Runtime τ) : BufferedFile := c.device.file.get (c.download w)

/-- What the loop downloads. -/
def loopTransferred (plan : DownloadPlan) :
    Nat -> Nat -> GetObjectRequest τ -> Runtime τ -> Transferred
  | 0, _, _, _ => ⟨[], none⟩
  | fuel + 1, offset, req, w =>
      let offer := c.passOffer plan offset req w
      match c.pass plan offset req w with
      | .returns _ _ => ⟨[], offer⟩
      | .resumes offset req w =>
          let rest := loopTransferred plan fuel offset req w
          { rest with before := Offer.bytes offer ++ rest.before }

end BufferedClient

/-- What is left of the file when a pass is over. -/
theorem BufferedClient.passCall_file (c : BufferedClient τ δ) (plan : DownloadPlan)
    (offset : Nat) (req : GetObjectRequest τ) (w : Runtime τ) :
    c.file (c.passCall plan offset req w).2 =
      match c.passOffer plan offset req w with
      | none => (c.file w).close
      | some offer =>
          BufferedFile.writes offer.chunks
            (if offset = 0 then (c.file w).close.openTrunc
            else (c.file w).close.openUpdate.seekp offset) := by
  have htouches := @FileTransfer.touches _ _ _ c.transfer (c.passRequest plan offset req)
      (c.modify c.close w) (c.device.writer plan.observers) (c.opened plan offset) rfl
  have hclosed : c.device.file.get (c.cell.get (c.modify c.close w).env) =
      (c.file w).close := by
    have hdownload : c.cell.get (c.modify c.close w).env = c.close (c.download w) :=
      download_modify_file _ _
    have hclose : c.device.file.get (c.close (c.download w)) =
        c.device.kind.close (c.file w) := c.device.file.get_modify _ _
    rw [hdownload, hclose, c.buffered]
    rfl
  have hfile := congrArg c.device.file.get htouches
  refine hfile.trans ?_
  unfold FileClient.passOffer
  cases c.transfer.offered (c.passRequest plan offset req) (c.modify c.close w) with
  | none => exact hclosed
  | some offer =>
      have hopened : c.device.file.get (c.opened plan offset offer.size
          (c.cell.get (c.modify c.close w).env)) =
            if offset = 0 then (c.file w).close.openTrunc
            else (c.file w).close.openUpdate.seekp offset := by
        unfold FileClient.opened
        rw [updateTotal_file, openAt_buffered c.buffered, hclosed]
      exact (writes_buffered c.buffered _ _ _).trans (congrArg _ hopened)

theorem bufferedFile_lawful : bufferedFile.Lawful fun _ => True where
  openTrunc f := by
    refine ⟨trivial, fun s hs => ?_⟩
    cases hs
    rfl
  seekp _ _ := ⟨trivial, fun _ hs hgood => BufferedFile.seekp_position hs hgood⟩
  write _ _ := fun _ => ⟨trivial, fun _ hs hgood => BufferedFile.write_position hs hgood⟩
  flush _ _ hs hgood := BufferedFile.flush_position hs hgood
  close f := f.close_fileStream

section Loop

variable {c : BufferedClient τ δ} {plan : DownloadPlan} {offset : Nat}
variable {req : GetObjectRequest τ} {w : Runtime τ} {before : ByteString}

/-- What the loop finds before a pass: all has arrived, and nothing waits in the buffer. -/
def Begun (before : ByteString) (f : BufferedFile) : Prop :=
  before = [] ∨
    (f.content = some before ∧ forall s, f.stream = some s -> s.buffer = [])

theorem Begun.close {f : BufferedFile} (hbegun : Begun before f) :
    f.close.Arrived before := by
  rcases hbegun with hnone | ⟨hsome, hempty⟩
  · exact Or.inl hnone
  · exact Or.inr ((BufferedFile.close_empty hempty).1.trans hsome)

theorem Begun.close_twice {f : BufferedFile} (hbegun : Begun before f) :
    f.close.close.Arrived before := by
  rcases hbegun.close with hnone | hsome
  · exact Or.inl hnone
  · refine Or.inr ((BufferedFile.close_empty fun s hs => ?_).1.trans hsome)
    have hclosed : f.close.fileStream = none := f.close_fileStream
    unfold BufferedFile.fileStream at hclosed
    rw [hs] at hclosed
    cases hclosed

/-- A pass that has made a sink has opened its stream behind all that has arrived. -/
theorem passCall_opened (hbegun : Begun before (c.file w)) {offer : Offer}
    (hoffer : c.passOffer plan before.length req w = some offer) :
    exists f, BufferedFile.Opened before f ∧
      c.file (c.passCall plan before.length req w).2 = f.writes offer.chunks := by
  refine ⟨_, BufferedFile.openAt_opened hbegun.close, ?_⟩
  rw [c.passCall_file, hoffer]

/-- The next pass finds what this one has brought. -/
theorem pass_begun (hbegun : Begun before (c.file w)) {offset' : Nat}
    {req' : GetObjectRequest τ} {w' : Runtime τ}
    (hpass : c.pass plan before.length req w = .resumes offset' req' w') :
    Begun (before ++ Offer.bytes (c.passOffer plan before.length req w)) (c.file w') ∧
      offset' = (before ++ Offer.bytes (c.passOffer plan before.length req w)).length := by
  have hlawful : c.device.kind.Lawful fun _ => True := by
    rw [c.buffered]
    exact bufferedFile_lawful
  rcases pass_resumes_offer hlawful hpass with ⟨offer, hoffer, hmoved⟩
  rcases (pass_resumes_iff hlawful).mp hpass with ⟨⟨_, stream, hstream, hgood⟩, hw', _, _⟩
  rcases passCall_opened hbegun hoffer with ⟨f, hopened, hfile⟩
  have hflushed : c.file w' = (f.writes offer.chunks).flush := by
    have hflush : c.device.file.get
        (c.flush (c.download (c.passCall plan before.length req w).2)) =
          c.device.kind.flush (c.file (c.passCall plan before.length req w).2) :=
      c.device.file.get_modify _ _
    rw [hw']
    unfold BufferedClient.file
    rw [download_modify_file, hflush, c.buffered, hfile]
    rfl
  have hstate : (f.writes offer.chunks).flush.rdstate.fail = false := by
    rw [← hw'] at hstream
    have hkind : (c.file w').fileStream = some stream := by
      have hdevice := hstream
      unfold FileDevice.fileStream at hdevice
      rw [c.buffered] at hdevice
      exact hdevice
    rw [hflushed] at hkind
    rcases Option.map_eq_some_iff.mp hkind with ⟨s, hs, hstate⟩
    rw [BufferedFile.rdstate_of_stream hs]
    rw [← hstate] at hgood
    exact hgood
  rcases hopened.flush_content offer.chunks hstate with ⟨hcontent, s, hs, hempty⟩
  rw [hoffer]
  constructor
  · rw [hflushed]
    refine Or.inr ⟨hcontent, fun s' hs' => ?_⟩
    rw [hs] at hs'
    cases hs'
    exact hempty
  · rw [hmoved, List.length_append]
    rfl

theorem pass_returns_ok {result : GetObjectResult} {w' : Runtime τ}
    (hpass : c.pass plan offset req w = .returns (.ok result) w') :
    (exists result', (c.passCall plan offset req w).1 = .ok result') ∧
      w' = (c.passCall plan offset req w).2 := by
  unfold FileClient.passCall
  unfold FileClient.pass at hpass
  rcases hgot : c.transfer.getObject (c.passRequest plan offset req)
    (c.modify c.close w) with ⟨outcome, w1⟩
  simp only [hgot] at hpass
  cases outcome with
  | ok result' =>
      refine ⟨⟨result', rfl⟩, ?_⟩
      simp only at hpass
      split at hpass
      · exact (Pass.returns.inj hpass).2.symm
      · exact (Pass.returns.inj hpass).2.symm
  | error e =>
      simp only at hpass
      split at hpass
      · cases hpass
      · split at hpass
        · cases hpass
        · split at hpass
          · cases hpass
          · cases hpass

/-- The last pass: what it leaves is behind a stream that is destroyed. -/
theorem pass_arrived_iff (hbegun : Begun before (c.file w)) {result : GetObjectResult}
    {w' : Runtime τ}
    (hpass : c.pass plan before.length req w = .returns (.ok result) w') :
    (c.file w').close.Arrived
        (before ++ Offer.bytes (c.passOffer plan before.length req w)) ↔
      Transferred.EndsWell ⟨before, c.passOffer plan before.length req w⟩ true
        (c.file w') := by
  rcases pass_returns_ok hpass with ⟨⟨result', hok⟩, hw'⟩
  have hfile := c.passCall_file plan before.length req w
  unfold Transferred.EndsWell
  cases hoffer : c.passOffer plan before.length req w with
  | none =>
      rw [hoffer, ← hw'] at hfile
      have harrived : (c.file w').close.Arrived before := by
        rw [hfile]
        exact hbegun.close_twice
      change (c.file w').close.Arrived (before ++ []) ↔ _
      rw [List.append_nil]
      exact ⟨fun _ hsome => (nomatch hsome), fun _ => harrived⟩
  | some offer =>
      rcases passCall_opened hbegun hoffer with ⟨f, hopened, hwritten⟩
      rw [← hw'] at hwritten
      have hgood : offer.chunks ≠ [] -> (f.writes offer.chunks).rdstate.bad = false := by
        intro hsome
        have hminds := @FileTransfer.minds _ _ _ c.transfer
          (c.passRequest plan before.length req) (c.modify c.close w)
          (c.device.writer plan.observers) (c.opened plan before.length) result' offer rfl
          hok hoffer hsome
        rw [writer_bad c.buffered] at hminds
        rw [← hwritten, hw']
        exact hminds
      have harrived := hopened.arrived_iff offer.chunks hgood true
      rw [hwritten]
      exact harrived.trans ⟨fun h _ => h, fun h => h rfl⟩

theorem loop_arrived_iff (fuel : Nat) (hbegun : Begun before (c.file w))
    {result : GetObjectResult} {w' : Runtime τ}
    (hloop : c.loop plan fuel before.length req w = some (.ok result, w')) :
    (c.file w').close.Arrived
        (before ++ (c.loopTransferred plan fuel before.length req w).bytes) ↔
      (c.loopTransferred plan fuel before.length req w).EndsWell true (c.file w') := by
  induction fuel generalizing req w before with
  | zero => cases hloop
  | succ fuel ih =>
      rw [FileClient.loop] at hloop
      rw [BufferedClient.loopTransferred]
      cases hpass : c.pass plan before.length req w with
      | returns outcome w1 =>
          rw [hpass] at hloop
          cases hloop
          exact pass_arrived_iff hbegun hpass
      | resumes offset' req' w1 =>
          rw [hpass] at hloop
          rcases pass_begun hbegun hpass with ⟨hnext, hoffset⟩
          rw [hoffset] at hloop
          have hrest := ih hnext hloop
          simp only
          rw [hoffset]
          unfold Transferred.bytes at hrest ⊢
          rw [List.append_assoc] at hrest ⊢
          exact hrest

end Loop

namespace BufferedClient

variable (c : BufferedClient τ δ)

def transferred (fuel : Nat) (request : GetObjectRequest τ) (w : Runtime τ) :
    Transferred :=
  match downloadRange request.getRange with
  | .error _ => ⟨[], none⟩
  | .ok (rangeStart, rangeEnd) =>
      c.loopTransferred (c.plan request rangeStart rangeEnd) fuel 0 request
        (c.modify c.device.observersMade w)

/-- The file before the last stream is destroyed. -/
def lastFile (fuel : Nat) (request : GetObjectRequest τ) (w : Runtime τ) :
    Option BufferedFile :=
  match downloadRange request.getRange with
  | .error _ => none
  | .ok (rangeStart, rangeEnd) =>
      (c.loop (c.plan request rangeStart rangeEnd) fuel 0 request
        (c.modify c.device.observersMade w)).map fun r => c.file r.2

theorem getObjectToFile_arrived {fuel : Nat} {request : GetObjectRequest τ}
    {w w' : Runtime τ} {result : GetObjectResult}
    (hok : c.getObjectToFile fuel request w = some (.ok result, w')) :
    exists f, c.lastFile fuel request w = some f ∧
      ((c.file w').Arrived (c.transferred fuel request w).bytes ↔
        (c.transferred fuel request w).EndsWell true f) := by
  unfold FileClient.getObjectToFile at hok
  unfold lastFile transferred
  cases hrange : downloadRange request.getRange with
  | error e =>
      rw [hrange] at hok
      cases hok
  | ok range =>
      rcases range with ⟨rangeStart, rangeEnd⟩
      rw [hrange] at hok
      rcases Option.map_eq_some_iff.mp hok with ⟨⟨outcome, w1⟩, hloop, hr⟩
      cases hr
      have hclosed : c.file (c.modify c.close w1) = (c.file w1).close := by
        have hdownload : c.download (c.modify c.close w1) = c.close (c.download w1) :=
          download_modify_file _ _
        have hclose : c.device.file.get (c.close (c.download w1)) =
            c.device.kind.close (c.file w1) := c.device.file.get_modify _ _
        unfold file
        rw [hdownload, hclose, c.buffered]
        rfl
      refine ⟨c.file w1, congrArg (Option.map _) hloop, ?_⟩
      rw [hclosed]
      exact loop_arrived_iff fuel (Or.inl rfl) hloop

end BufferedClient

/-!
# The asynchronous client
-/

/-- An asynchronous client, and the file that it downloads to. -/
structure AsyncFileClient (τ δ φ : Type) where
  device : FileDevice δ φ
  cell : Cell τ δ
  transport : SinkTransport cell
  base : ClientImplBase τ
  disableState : DisableState τ
  /-- Whether the context of a transfer is deleted before its callback is called. -/
  closesFirst : Bool

namespace AsyncFileClient

variable (c : AsyncFileClient τ δ φ)

def client : ClientImpl τ := clientOver c.transport c.base c.disableState

def download (w : Runtime τ) : δ := c.cell.get w.env

def modify (f : δ -> δ) (w : Runtime τ) : Runtime τ :=
  { w with env := c.cell.modify f w.env }

def observers (request : GetObjectRequest τ) : Observers where
  crcObserver :=
    c.base.hasFlag .EnableCRC64CheckDownload && request.getRange.isEmpty
  progressObs := request.hasProgressCallback

/-- The sink of an attempt. -/
def opened (o : Observers) (total : Int) (d : δ) : δ :=
  c.device.updateTotal o total (c.device.openAnew o d)

def asyncRequest (request : GetObjectRequest τ) : GetObjectRequest τ :=
  let o := c.observers request
  { request with
    sinkFactory := some (partFactory c.cell (c.device.writer o) (c.opened o) false) }

/-- The callback that the operation is given calls the user's with this. -/
def outcome (request : GetObjectRequest τ) (result : OperationResult) (w : Runtime τ) :
    Except OperationError GetObjectResult :=
  match result with
  | .error e => .error e
  | .output o =>
      if (c.observers request).crcObserver then
        c.device.checkCrc (c.download w) (toGetObject o)
      else .ok (toGetObject o)

def finish (w : Runtime τ) : Runtime τ :=
  if c.closesFirst then c.modify (c.device.file.modify c.device.kind.close) w else w

/-- What the operation comes to, when its tasks run on `fuel`. -/
def operation (fuel : Nat) (request : GetObjectRequest τ)
    (opts : Option (OperationOptions τ)) (w : Runtime τ) :
    Option (OperationResult × Runtime τ) :=
  let req := c.asyncRequest request
  executeAsyncOn c.client.httpTransport ⟨c.client.toClientImplBase⟩ fuel
    (fromGetObject req) opts (some ⟨req.sinkFactory, [], []⟩)
    (c.modify c.device.observersMade w)

/-- What the callback of `OSSAsyncClient::getObjectToFileAsync` gets. -/
def getObjectToFileAsync (fuel : Nat) (request : GetObjectRequest τ)
    (opts : Option (OperationOptions τ)) (w : Runtime τ) :
    Option (Except OperationError GetObjectResult × Runtime τ) :=
  match (c.asyncRequest request).missing with
  | some e => some (.error e, c.modify c.device.observersMade w)
  | none =>
      (c.operation fuel request opts w).map fun r =>
        (c.outcome request r.1 r.2, c.finish r.2)

/-- What the sink of the last attempt is offered, if it makes one. -/
def lastOffer (fuel : Nat) (request : GetObjectRequest τ)
    (opts : Option (OperationOptions τ)) (w : Runtime τ) : Option Offer :=
  let req := c.asyncRequest request
  (c.client.lastSentAsync fuel (fromGetObject req) opts (some ⟨req.sinkFactory, [], []⟩)
      (c.modify c.device.observersMade w)).bind fun y =>
    c.transport.offered y.request y.context.transportContext y.runtime.env

end AsyncFileClient

/-- The asynchronous client of libcurl, whose callback finds the context of the transfer. -/
def DownloadClient.asyncFileClient (c : DownloadClient τ)
    (hwire : forall request env,
      c.cell.get (c.curl.wire request env).2 = c.cell.get env) :
    AsyncFileClient τ Download OutputFile where
  device := downloadDevice
  cell := c.cell
  transport := c.curl.sinkTransport c.cell hwire
  base := c.base
  disableState := c.disableState
  closesFirst := false

theorem downloadDevice_openAnew (o : Observers) :
    downloadDevice.openAnew o = o.openAnew := by
  funext d
  unfold FileDevice.openAnew Observers.openAnew
  cases o.crcObserver with
  | true => rfl
  | false => rfl

theorem DownloadClient.getObjectToFileAsync_eq (c : DownloadClient τ)
    (hwire : forall request env,
      c.cell.get (c.curl.wire request env).2 = c.cell.get env) (fuel : Nat)
    (request : GetObjectRequest τ) (opts : Option (OperationOptions τ)) (w : Runtime τ) :
    (c.asyncFileClient hwire).getObjectToFileAsync fuel request opts w =
      c.getObjectToFileAsync fuel request opts w := by
  have hrequest :
      (c.asyncFileClient hwire).asyncRequest request = c.asyncRequest request := by
    have hopened : (c.asyncFileClient hwire).opened (c.asyncObservers request) =
        fun total d => (c.asyncObservers request).updateTotal total
          ((c.asyncObservers request).openAnew d) := by
      funext total d
      exact congrArg (fun opened : Download -> Download =>
        (c.asyncObservers request).updateTotal total (opened d))
        (downloadDevice_openAnew (c.asyncObservers request))
    exact congrArg (fun opened : Int -> Download -> Download =>
      { request with
        sinkFactory :=
          some (partFactory c.cell (c.asyncObservers request).writer opened false) })
      hopened
  have hoperation : (c.asyncFileClient hwire).operation fuel request opts w =
      executeAsyncOn c.client.httpTransport ⟨c.client.toClientImplBase⟩ fuel
        (fromGetObject (c.asyncRequest request)) opts
        (some ⟨(c.asyncRequest request).sinkFactory, [], []⟩)
        (c.modify Download.observersMade w) := by
    unfold AsyncFileClient.operation
    rw [hrequest]
    rfl
  unfold AsyncFileClient.getObjectToFileAsync DownloadClient.getObjectToFileAsync
  rw [hrequest, hoperation]
  simp only
  cases (c.asyncRequest request).missing with
  | some e => rfl
  | none => rfl

/-- That of WinHTTP, which deletes the context before it calls back. -/
def winHttpAsyncFileClient (device : FileDevice δ φ) (cell : Cell τ δ)
    (answer : RequestMessage τ -> τ -> WinHttp.AsyncAnswer τ × τ)
    (hanswer : forall request env, cell.get (answer request env).2 = cell.get env)
    (base : ClientImplBase τ) (disableState : DisableState τ) :
    AsyncFileClient τ δ φ where
  device := device
  cell := cell
  transport := WinHttp.asyncSinkTransport answer cell hanswer
  base := base
  disableState := disableState
  closesFirst := true

/-- An asynchronous client with a file behind a buffer. -/
structure BufferedAsyncClient (τ δ : Type) extends AsyncFileClient τ δ BufferedFile where
  buffered : device.kind = bufferedFile

namespace BufferedAsyncClient

variable (c : BufferedAsyncClient τ δ)

def file (w : Runtime τ) : BufferedFile := c.device.file.get (c.download w)

def transferred (fuel : Nat) (request : GetObjectRequest τ)
    (opts : Option (OperationOptions τ)) (w : Runtime τ) : Transferred :=
  ⟨[], c.lastOffer fuel request opts w⟩

/-- The file when the operation is over. -/
def lastFile (fuel : Nat) (request : GetObjectRequest τ)
    (opts : Option (OperationOptions τ)) (w : Runtime τ) : Option BufferedFile :=
  (c.operation fuel request opts w).map fun r => c.file r.2

theorem opened_file (o : Observers) (total : Int) (d : δ) :
    c.device.file.get (c.opened o total d) = (c.device.file.get d).openTrunc := by
  have hanew : c.device.file.get (c.device.openAnew o d) =
      c.device.kind.openTrunc
        (c.device.file.get (if o.crcObserver then c.device.crc.set 0 d else d)) :=
    c.device.file.get_modify _ _
  have hcrc : c.device.file.get (if o.crcObserver then c.device.crc.set 0 d else d) =
      c.device.file.get d := by
    split
    · exact c.device.crcApart.get_set_left _ _
    · rfl
  unfold AsyncFileClient.opened
  rw [updateTotal_file, hanew, hcrc, c.buffered]
  rfl

theorem finish_file (w : Runtime τ) :
    c.file (c.finish w) = (c.file w).closedIf c.closesFirst := by
  unfold AsyncFileClient.finish BufferedFile.closedIf
  split
  · have hdownload : c.download
        (c.modify (c.device.file.modify c.device.kind.close) w) =
          c.device.file.modify c.device.kind.close (c.download w) :=
      c.cell.get_modify _ _
    have hclose : c.device.file.get
        (c.device.file.modify c.device.kind.close (c.download w)) =
          c.device.kind.close (c.file w) := c.device.file.get_modify _ _
    unfold file
    rw [hdownload, hclose, c.buffered]
    rfl
  · rfl

/-- The sink of the last attempt has begun the file anew, and is not bad at the end. -/
theorem operation_sink {fuel : Nat} {request : GetObjectRequest τ}
    {opts : Option (OperationOptions τ)} {w w1 : Runtime τ} {o : OperationOutput}
    {offer : Offer} (hoperation : c.operation fuel request opts w = some (.output o, w1))
    (hoffer : c.lastOffer fuel request opts w = some offer) :
    exists f, BufferedFile.Opened [] f ∧ c.file w1 = f.writes offer.chunks ∧
      (offer.chunks ≠ [] -> (f.writes offer.chunks).rdstate.bad = false) := by
  have hrun := Runs.async hoperation
  rcases hrun.of_output (fun o ho => by cases ho; rfl) rfl with
    ⟨y, r, env, hsent, hsink, ⟨request', hsend⟩, _, henv⟩
  have hoffered : c.transport.offered y.request y.context.transportContext
      y.runtime.env = some offer := by
    unfold AsyncFileClient.lastOffer at hoffer
    simp only at hoffer
    rw [hsent] at hoffer
    exact hoffer
  have hsend' : c.transport.transport.send y.request y.context.transportContext
      y.runtime.env = (.response r, request', env) := hsend
  have hsink' : y.context.transportContext.sinkFactory =
      some (partFactory c.cell (c.device.writer (c.observers request))
        (c.opened (c.observers request)) false) := hsink
  have htouches := @SinkTransport.touches _ _ _ c.transport y.request _
    y.runtime.env _ _ _ hsink'
  have hminds := fun hsome => @SinkTransport.minds _ _ _ c.transport y.request _
    y.runtime.env _ _ _ r offer hsink' (congrArg Prod.fst hsend') hoffered hsome
  rw [hsend', hoffered] at htouches
  rw [hsend'] at hminds
  have hleft : c.file w1 = c.device.file.get (c.cell.get env) :=
    congrArg (fun env => c.device.file.get (c.cell.get env)) henv
  have hwritten : c.file w1 = BufferedFile.writes offer.chunks
      (c.device.file.get (c.cell.get y.runtime.env)).openTrunc := by
    rw [hleft, htouches, ← c.opened_file (c.observers request) offer.size]
    exact writes_buffered c.buffered _ _ _
  refine ⟨(c.device.file.get (c.cell.get y.runtime.env)).openTrunc,
    BufferedFile.openAt_opened (Or.inl rfl), hwritten, fun hsome => ?_⟩
  have hbad := hminds hsome
  rw [writer_bad c.buffered] at hbad
  rw [← hwritten, hleft]
  exact hbad

theorem getObjectToFileAsync_arrived {fuel : Nat} {request : GetObjectRequest τ}
    {opts : Option (OperationOptions τ)} {w w' : Runtime τ} {result : GetObjectResult}
    (hok : c.getObjectToFileAsync fuel request opts w = some (.ok result, w')) :
    exists f, c.lastFile fuel request opts w = some f ∧
      ((c.file w').Arrived (c.transferred fuel request opts w).bytes ↔
        (c.transferred fuel request opts w).EndsWell c.closesFirst f) := by
  unfold AsyncFileClient.getObjectToFileAsync at hok
  split at hok
  · cases hok
  · rcases Option.map_eq_some_iff.mp hok with ⟨⟨out, w1⟩, hoperation, hr⟩
    rcases Prod.mk.inj hr with ⟨houtcome, hw'⟩
    refine ⟨c.file w1, congrArg (Option.map _) hoperation, ?_⟩
    rw [← hw', c.finish_file]
    unfold transferred Transferred.EndsWell Transferred.bytes
    cases hoffer : c.lastOffer fuel request opts w with
    | none => exact ⟨fun _ hsome => (nomatch hsome), fun _ => Or.inl rfl⟩
    | some offer =>
        cases out with
        | error e => cases houtcome
        | output o =>
            rcases c.operation_sink hoperation hoffer with ⟨f, hopened, hwritten, hgood⟩
            rw [hwritten]
            exact (hopened.arrived_iff offer.chunks hgood c.closesFirst).trans
              ⟨fun h _ => h, fun h => h rfl⟩

end BufferedAsyncClient

/-!
# A successful download
-/

/-- A call of either client. -/
inductive BufferedCall (τ δ : Type) where
  | sync (c : BufferedClient τ δ)
  | async (c : BufferedAsyncClient τ δ) (opts : Option (OperationOptions τ))

namespace BufferedCall

/-- What the call returns, or its callback gets. -/
def run : BufferedCall τ δ -> Nat -> GetObjectRequest τ -> Runtime τ ->
    Option (Except OperationError GetObjectResult × Runtime τ)
  | .sync c, fuel, request, w => c.getObjectToFile fuel request w
  | .async c opts, fuel, request, w => c.getObjectToFileAsync fuel request opts w

def file : BufferedCall τ δ -> Runtime τ -> BufferedFile
  | .sync c, w => c.file w
  | .async c _, w => c.file w

def transferred : BufferedCall τ δ -> Nat -> GetObjectRequest τ -> Runtime τ -> Transferred
  | .sync c, fuel, request, w => c.transferred fuel request w
  | .async c opts, fuel, request, w => c.transferred fuel request opts w

/-- The file when all is transferred, with the last stream. -/
def lastFile : BufferedCall τ δ -> Nat -> GetObjectRequest τ -> Runtime τ ->
    Option BufferedFile
  | .sync c, fuel, request, w => c.lastFile fuel request w
  | .async c opts, fuel, request, w => c.lastFile fuel request opts w

/-- Whether the last stream is destroyed before the call returns, or calls back. -/
def closes : BufferedCall τ δ -> Bool
  | .sync _ => true
  | .async c _ => c.closesFirst

end BufferedCall

/--
Every byte of a successful download has been flushed to the file if and only if the last
stream was open and nothing is left in its buffer, or its destructor, where it comes in
time, can bring it to the file.
-/
theorem download_arrived_iff (c : BufferedCall τ δ) (fuel : Nat)
    (request : GetObjectRequest τ) (w w' : Runtime τ) (result : GetObjectResult)
    (hok : c.run fuel request w = some (.ok result, w')) :
    (c.file w').Arrived (c.transferred fuel request w).bytes ↔
      exists f, c.lastFile fuel request w = some f ∧
        (c.transferred fuel request w).EndsWell c.closes f := by
  have hends : exists f, c.lastFile fuel request w = some f ∧
      ((c.file w').Arrived (c.transferred fuel request w).bytes ↔
        (c.transferred fuel request w).EndsWell c.closes f) := by
    cases c with
    | sync c => exact c.getObjectToFile_arrived hok
    | async c opts => exact c.getObjectToFileAsync_arrived hok
  rcases hends with ⟨f, hlast, hiff⟩
  rw [hiff]
  constructor
  · intro hwell
    exact ⟨f, hlast, hwell⟩
  · intro hsome
    rcases hsome with ⟨f', hlast', hwell⟩
    rw [hlast] at hlast'
    cases hlast'
    exact hwell

/-!
# Downloads of two bytes through libcurl
-/

structure BufferedDownload where
  file : BufferedFile
  crc : BitVec 64
  progress : ProgressState
deriving DecidableEq

def bufferedDevice : FileDevice BufferedDownload BufferedFile where
  kind := bufferedFile
  file := ⟨fun d => d.file, fun f d => { d with file := f }, fun _ _ => rfl,
    fun _ _ _ => rfl, fun _ => rfl⟩
  crc := ⟨fun d => d.crc, fun value d => { d with crc := value }, fun _ _ => rfl,
    fun _ _ _ => rfl, fun _ => rfl⟩
  progress := ⟨fun d => d.progress, fun p d => { d with progress := p }, fun _ _ => rfl,
    fun _ _ _ => rfl, fun _ => rfl⟩
  crcApart := ⟨fun _ _ => rfl, fun _ _ => rfl⟩
  progressApart := ⟨fun _ _ => rfl, fun _ _ => rfl⟩

theorem twoBytes_nonempty :
    forall chunk, chunk ∈ ([[1, 2]] : List ByteString) -> chunk ≠ [] := by decide

def twoBytesReply : Curl.Reply where
  statusCode := 200
  headers := SortedMap.empty
  recvDataLength := 2
  chunks := [[1, 2]]
  res := Curl.CURLE_OK
  text := []
  chunks_nonempty := twoBytes_nonempty

def twoBytesTransport : SinkTransport (Cell.whole : Cell BufferedDownload BufferedDownload) :=
  Curl.CurlHttpClient.sinkTransport ⟨fun _ d => (twoBytesReply, d), none⟩ Cell.whole
    fun _ _ => rfl

def twoBytesClient : BufferedClient BufferedDownload BufferedDownload where
  device := bufferedDevice
  cell := Cell.whole
  transfer :=
    fileTransfer twoBytesTransport (anonymousBase BufferedDownload)
      ⟨fun _ => false, fun _ d => (false, d)⟩ none (anonymous_leaves _)
  checksCrc := true
  buffered := rfl

def twoBytesAsyncClient : BufferedAsyncClient BufferedDownload BufferedDownload where
  device := bufferedDevice
  cell := Cell.whole
  transport := twoBytesTransport
  base := anonymousBase BufferedDownload
  disableState := ⟨fun _ => false, fun _ d => (false, d)⟩
  closesFirst := false
  buffered := rfl

def bufferedObject : GetObjectRequest BufferedDownload where
  bucket := bytes "bucket"
  key := bytes "key"
  headers := SortedMap.empty
  parameters := SortedMap.empty
  sinkFactory := none

/-- No file yet, and what the file system does with the calls to come. -/
def diskOf (outcomes : List IoOutcome) : Runtime BufferedDownload :=
  ⟨0, ⟨none, none, outcomes⟩, 0, ⟨-1, 0, 0, []⟩⟩

/-- The two bytes are in the file, and there is no stream. -/
def onDisk : Runtime BufferedDownload :=
  ⟨0, ⟨some [1, 2], none, []⟩, CalcCRC64 0 [1, 2], ⟨-1, 0, 0, []⟩⟩

theorem download_arrived_iff_twoBytes :
    (twoBytesClient.file onDisk).Arrived
        (twoBytesClient.transferred 1 bufferedObject (diskOf [])).bytes ↔
      exists f, twoBytesClient.lastFile 1 bufferedObject (diskOf []) = some f ∧
        (twoBytesClient.transferred 1 bufferedObject (diskOf [])).EndsWell true f :=
  download_arrived_iff (.sync twoBytesClient) 1 bufferedObject (diskOf []) onDisk
    ⟨200, SortedMap.empty, none⟩ (by decide +kernel)

/-- The disk is full when the stream of `getObjectToFile` is destroyed. -/
def fullDisk : List IoOutcome := [⟨0, true⟩, ⟨0, true⟩, ⟨0, false⟩]

/--
Both clients report a success: the one leaves an empty file behind a flush that has failed,
the other calls back before there has been a flush.
-/
theorem not_arrived_buffered :
    (exists result w', twoBytesClient.getObjectToFile 1 bufferedObject (diskOf fullDisk) =
        some (.ok result, w') ∧
      ¬ (twoBytesClient.file w').Arrived
        (twoBytesClient.transferred 1 bufferedObject (diskOf fullDisk)).bytes) ∧
    (exists result w', twoBytesAsyncClient.getObjectToFileAsync 4 bufferedObject none
        (diskOf []) = some (.ok result, w') ∧
      ¬ (twoBytesAsyncClient.file w').Arrived
        (twoBytesAsyncClient.transferred 4 bufferedObject none (diskOf [])).bytes) := by
  have hsync : twoBytesClient.getObjectToFile 1 bufferedObject (diskOf fullDisk) =
      some (.ok ⟨200, SortedMap.empty, none⟩,
        ⟨0, ⟨some [], none, []⟩, CalcCRC64 0 [1, 2], ⟨-1, 0, 0, []⟩⟩) := by
    decide +kernel
  have hasync : twoBytesAsyncClient.getObjectToFileAsync 4 bufferedObject none
      (diskOf []) =
        some (.ok ⟨200, SortedMap.empty, none⟩,
          ⟨0, ⟨some [], some ⟨0, [1, 2], IoState.goodbit⟩, []⟩, CalcCRC64 0 [1, 2],
            ⟨-1, 0, 0, []⟩⟩) := by
    decide +kernel
  have hbytes : (twoBytesClient.transferred 1 bufferedObject (diskOf fullDisk)).bytes =
      [1, 2] := by
    decide +kernel
  have hbytes' : (twoBytesAsyncClient.transferred 4 bufferedObject none (diskOf [])).bytes =
      [1, 2] := by
    decide +kernel
  refine ⟨⟨_, _, hsync, ?_⟩, ⟨_, _, hasync, ?_⟩⟩
  · rw [hbytes]
    intro harrived
    rcases harrived with hnone | hcontent
    · cases hnone
    · cases hcontent
  · rw [hbytes']
    intro harrived
    rcases harrived with hnone | hcontent
    · cases hnone
    · cases hcontent

end Client
end OssSdk
