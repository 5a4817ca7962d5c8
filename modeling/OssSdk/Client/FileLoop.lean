import OssSdk.Client.GetObjectToFile
import OssSdk.Transport.SinkTransport

/-!
# Downloading to a file of any kind

The loop of a download, over what a stream does with its file, and over any transport
that touches the file through its sinks.
-/

namespace OssSdk
namespace Client

open Foundation
open Internal
open Sync
open Transport
open Utils

variable {τ δ φ : Type}

/-!
# Files
-/

/-- A kind of file, with the `std::ofstream` that is open on it, if one is. -/
structure FileKind (φ : Type) where
  ofstream : OStream φ
  openTrunc : φ -> φ
  openUpdate : φ -> φ
  seekp : Nat -> φ -> φ
  flush : φ -> φ
  /-- The destructor of the stream. -/
  close : φ -> φ
  fileStream : φ -> Option FileStream

/-- A kind of file, and where the file and the observers of its writer are. -/
structure FileDevice (δ φ : Type) where
  kind : FileKind φ
  file : Cell δ φ
  crc : Cell δ (BitVec 64)
  progress : Cell δ ProgressState
  crcApart : crc.Apart file
  progressApart : progress.Apart file

namespace FileDevice

variable (v : FileDevice δ φ)

def writer (o : Observers) : ByteWriter δ :=
  let writer := (OStreamWriter v.kind.ofstream).on v.file
  if !o.crcObserver && !o.progressObs then writer
  else
    ObservableWriter writer
      ((if o.crcObserver then [CRC64WriteObserver v.crc] else []) ++
        if o.progressObs then [ProgressWriteObserver v.progress] else [])

def updateTotal (o : Observers) (total : Int) (d : δ) : δ :=
  if o.progressObs then v.progress.modify (fun p => { p with total := total }) d else d

/-- The file begins anew at the offset zero, and is gone on with at any other. -/
def openAt (offset : Nat) (d : δ) : δ :=
  v.file.modify
    (fun f =>
      if offset = 0 then v.kind.openTrunc f
      else v.kind.seekp offset (v.kind.openUpdate f)) d

/-- The file begins anew, and so does the checksum. -/
def openAnew (o : Observers) (d : δ) : δ :=
  v.file.modify v.kind.openTrunc (if o.crcObserver then v.crc.set 0 d else d)

/-- Observers that have just been made. -/
def observersMade (d : δ) : δ := v.progress.set ⟨-1, 0, 0, []⟩ (v.crc.set 0 d)

def fileStream (d : δ) : Option FileStream := v.kind.fileStream (v.file.get d)

/-- A checksum that the service has sent is that of what went through the observer. -/
def checkCrc (d : δ) (result : GetObjectResult) : Except OperationError GetObjectResult :=
  let serverCrc := result.getHashCrc64ecma
  if serverCrc.isEmpty then .ok result
  else
    let ccrc := toDecimal (v.crc.get d).toNat
    if ccrc ≠ serverCrc then
      .error (downloadError .CrcMismatch (bytes "CRCInconsistent")
        (bytes "crc is inconsistent, client crc:" ++ ccrc ++ bytes ", server crc:" ++
          serverCrc))
    else .ok result

end FileDevice

/-!
# One call of `getObject`
-/

/--
A call of `getObject` whose sink may be used once: the file is touched through the sink
that was made in it, which is not bad when the call is successful.
-/
structure FileTransfer (cell : Cell τ δ) where
  getObject : GetObjectRequest τ -> Runtime τ ->
    Except OperationError GetObjectResult × Runtime τ
  offered : GetObjectRequest τ -> Runtime τ -> Option Offer
  touches : forall {req w writer opened},
    req.sinkFactory = some (partFactory cell writer opened true) ->
    cell.get (getObject req w).2.env =
      Offer.leaves writer opened (cell.get w.env) (offered req w)
  minds : forall {req w writer opened result offer},
    req.sinkFactory = some (partFactory cell writer opened true) ->
    (getObject req w).1 = .ok result ->
    offered req w = some offer -> offer.chunks ≠ [] ->
    writer.bad (cell.get (getObject req w).2.env) = false

/-- The exchange that reaches the transport last in a call of `getObject`. -/
def getObjectSent (c : ClientImpl τ) (req : GetObjectRequest τ)
    (opts : Option (OperationOptions τ)) (w : Runtime τ) : Option (Exchange τ) :=
  match req.missing with
  | some _ => none
  | none => c.lastSent (fromGetObject req) opts (some ⟨req.sinkFactory, [], []⟩) w

section OfClient

variable {cell : Cell τ δ}

/-- A client over a transport that touches the file through its sinks. -/
def clientOver (t : SinkTransport cell) (base : ClientImplBase τ)
    (disableState : DisableState τ) : ClientImpl τ :=
  { base with httpTransport := t.transport, disableState := disableState }

/-- What an exchange makes of the file. -/
def sinkEffect (t : SinkTransport cell) (writer : ByteWriter δ)
    (opened : Int -> δ -> δ) (d : δ) (y : Exchange τ) : δ :=
  Offer.leaves writer opened d
    (t.offered y.request y.context.transportContext y.runtime.env)

variable {t : SinkTransport cell} {base : ClientImplBase τ}
variable {disableState : DisableState τ} {writer : ByteWriter δ} {opened : Int -> δ -> δ}
variable {req : GetObjectRequest τ} {opts : Option (OperationOptions τ)} {w : Runtime τ}

theorem exchanged_send_env (c : ClientImpl τ) (y : Exchange τ) :
    (c.exchanged y).2.runtime.env =
      (c.httpTransport.send y.request y.context.transportContext y.runtime.env).2.2 := by
  unfold ClientImpl.exchanged
  rcases c.httpTransport.send y.request y.context.transportContext y.runtime.env with
    ⟨result, request, env⟩
  cases result with
  | error te => rfl
  | response r => rfl

theorem clientOver_hasEffect (isOneShot : Bool) :
    HasEffect (clientOver t base disableState) cell.get (sinkEffect t writer opened)
      (some (partFactory cell writer opened isOneShot)) := by
  intro y hsink
  rw [exchanged_send_env]
  exact t.touches hsink

theorem getObject_touches
    (hleaves : (clientOver t base disableState).Leaves cell.get)
    (hfactory : req.sinkFactory = some (partFactory cell writer opened true)) :
    cell.get (getObject (clientOver t base disableState) req opts w).2.env =
      Offer.leaves writer opened (cell.get w.env)
        ((getObjectSent (clientOver t base disableState) req opts w).bind fun y =>
          t.offered y.request y.context.transportContext y.runtime.env) := by
  unfold getObject getObjectSent
  cases hmissing : req.missing with
  | some e => rfl
  | none =>
      have hsent := @execute_sentBy _ _ _ _ _ (fun _ => True) _ hleaves
          (@clientOver_hasEffect _ _ _ t base disableState writer opened true)
          ⟨fun _ _ _ _ => trivial, fun _ _ _ _ => trivial⟩ rfl (fromGetObject req) opts w
          (fun _ _ _ => trivial)
      rw [← hfactory] at hsent
      have hpart := hsent.part
      simp only
      cases hlast : (clientOver t base disableState).lastSent (fromGetObject req) opts
          (some ⟨req.sinkFactory, [], []⟩) w with
      | none =>
          rw [hlast] at hpart
          cases hresult : ((clientOver t base disableState).Execute (fromGetObject req) opts
              (some ⟨req.sinkFactory, [], []⟩) w).1 with
          | error e => exact hpart
          | output o => exact hpart
      | some y =>
          rw [hlast] at hpart
          cases hresult : ((clientOver t base disableState).Execute (fromGetObject req) opts
              (some ⟨req.sinkFactory, [], []⟩) w).1 with
          | error e => exact hpart
          | output o => exact hpart

theorem getObject_minds {result : GetObjectResult} {offer : Offer}
    (hfactory : req.sinkFactory = some (partFactory cell writer opened true))
    (hok : (getObject (clientOver t base disableState) req opts w).1 = .ok result)
    (hoffered : ((getObjectSent (clientOver t base disableState) req opts w).bind fun y =>
      t.offered y.request y.context.transportContext y.runtime.env) = some offer)
    (hsome : offer.chunks ≠ []) :
    writer.bad (cell.get (getObject (clientOver t base disableState) req opts w).2.env) =
      false := by
  unfold getObject at hok ⊢
  unfold getObjectSent at hoffered
  cases hmissing : req.missing with
  | some e =>
      rw [hmissing] at hok
      cases hok
  | none =>
      simp only [hmissing] at hok hoffered ⊢
      have hrun : Runs (clientOver t base disableState) (fromGetObject req) opts
        (some ⟨req.sinkFactory, [], []⟩) w .sync _ _ _ := Runs.sync
      cases hresult : ((clientOver t base disableState).Execute (fromGetObject req) opts
          (some ⟨req.sinkFactory, [], []⟩) w).1 with
      | error e =>
          rw [hresult] at hok
          cases hok
      | output o =>
          rcases hrun.of_output (fun o ho => by cases ho; rfl) hresult with
            ⟨y, r, env, hsent, hsink, ⟨request, hsend⟩, _, henv⟩
          have hsink' : y.context.transportContext.sinkFactory =
              some (partFactory cell writer opened true) := by
            rw [hsink, ← hfactory]
            rfl
          have hsend' : t.transport.send y.request y.context.transportContext
              y.runtime.env = (.response r, request, env) := hsend
          rw [hsent, Option.bind_some] at hoffered
          have hgood := t.minds hsink' (congrArg Prod.fst hsend') hoffered hsome
          rw [hsend'] at hgood
          simp only
          rw [henv]
          exact hgood

/-- The calls of a client over such a transport. -/
def fileTransfer (t : SinkTransport cell) (base : ClientImplBase τ)
    (disableState : DisableState τ) (opts : Option (OperationOptions τ))
    (hleaves : (clientOver t base disableState).Leaves cell.get) : FileTransfer cell where
  getObject req w := getObject (clientOver t base disableState) req opts w
  offered req w :=
    (getObjectSent (clientOver t base disableState) req opts w).bind fun y =>
      t.offered y.request y.context.transportContext y.runtime.env
  touches := getObject_touches hleaves
  minds := getObject_minds

end OfClient

/-!
# The loop
-/

/-- A client, and the file that it downloads to. -/
structure FileClient (τ δ φ : Type) where
  device : FileDevice δ φ
  cell : Cell τ δ
  transfer : FileTransfer cell
  /-- Whether `EnableCRC64CheckDownload` is set. -/
  checksCrc : Bool

namespace FileClient

variable (c : FileClient τ δ φ)

def download (w : Runtime τ) : δ := c.cell.get w.env

def modify (f : δ -> δ) (w : Runtime τ) : Runtime τ :=
  { w with env := c.cell.modify f w.env }

def close (d : δ) : δ := c.device.file.modify c.device.kind.close d

def flush (d : δ) : δ := c.device.file.modify c.device.kind.flush d

/-- The sink of a pass. -/
def opened (plan : DownloadPlan) (offset : Nat) (total : Int) (d : δ) : δ :=
  c.device.updateTotal plan.observers total (c.device.openAt offset d)

/-- What is left of the request of the pass before is changed. -/
def passRequest (plan : DownloadPlan) (offset : Nat) (req : GetObjectRequest τ) :
    GetObjectRequest τ :=
  let factory := partFactory c.cell (c.device.writer plan.observers) (c.opened plan offset)
    true
  let req :=
    if 0 < (offset : Int) + plan.rangeStart ∨ plan.rangeEnd ≠ -1 then
      (req.setRange (printRange (plan.rangeStart + offset) plan.rangeEnd)).setRangeBehavior
        (bytes "standard")
    else req
  { req with sinkFactory := some factory }

/-- The stream of the pass before is gone when a pass begins. -/
def pass (plan : DownloadPlan) (offset : Nat) (req : GetObjectRequest τ)
    (w : Runtime τ) : Pass τ :=
  let req := c.passRequest plan offset req
  let (outcome, w) := c.transfer.getObject req (c.modify c.close w)
  match outcome with
  | .ok result =>
      if plan.observers.crcObserver = true ∧ offset = 0 then
        .returns (c.device.checkCrc (c.download w) result) w
      else .returns (.ok result) w
  | .error e =>
      match c.device.fileStream (c.download w) with
      | none => .returns (.error e) w
      | some _ =>
          let w := c.modify c.flush w
          match c.device.fileStream (c.download w) with
          | none => .returns (.error e) w
          | some stream =>
              if stream.state.fail then .returns (.error e) w
              else .resumes stream.position req w

/-- `fuel` is how often the loop may be gone through. -/
def loop (plan : DownloadPlan) :
    Nat -> Nat -> GetObjectRequest τ -> Runtime τ ->
      Option (Except OperationError GetObjectResult × Runtime τ)
  | 0, _, _, _ => none
  | fuel + 1, offset, req, w =>
      match c.pass plan offset req w with
      | .returns outcome w => some (outcome, w)
      | .resumes offset req w => loop plan fuel offset req w

def plan (request : GetObjectRequest τ) (rangeStart rangeEnd : Int) : DownloadPlan where
  rangeStart := rangeStart
  rangeEnd := rangeEnd
  observers :=
    { crcObserver := c.checksCrc && (rangeStart == 0 && rangeEnd == -1)
      progressObs := request.hasProgressCallback }

/-- `OSSClient::getObjectToFile`; the stream of the last pass is gone when it returns. -/
def getObjectToFile (fuel : Nat) (request : GetObjectRequest τ) (w : Runtime τ) :
    Option (Except OperationError GetObjectResult × Runtime τ) :=
  match downloadRange request.getRange with
  | .error e => some (.error e, w)
  | .ok (rangeStart, rangeEnd) =>
      (c.loop (c.plan request rangeStart rangeEnd) fuel 0 request
        (c.modify c.device.observersMade w)).map fun r => (r.1, c.modify c.close r.2)

end FileClient

/-!
# The client of libcurl and its files
-/

/-- A file to which all that is written to its stream goes at once. -/
def outputFile : FileKind OutputFile where
  ofstream := OutputFile.ofstream
  openTrunc := OutputFile.openTrunc
  openUpdate := OutputFile.openUpdate
  seekp := OutputFile.seekp
  flush f := f
  close f := { f with fileStream := none }
  fileStream := OutputFile.fileStream

def downloadDevice : FileDevice Download OutputFile where
  kind := outputFile
  file := Download.fileCell
  crc := Download.crcCell
  progress := Download.progressCell
  crcApart := ⟨fun _ _ => rfl, fun _ _ => rfl⟩
  progressApart := ⟨fun _ _ => rfl, fun _ _ => rfl⟩

namespace DownloadClient

variable (c : DownloadClient τ)

/-- The synchronous client of libcurl, where its network leaves the file alone. -/
def fileClient (hwire : forall request env,
      c.cell.get (c.curl.wire request env).2 = c.cell.get env)
    (hleaves : c.client.Leaves c.cell.get) (opts : Option (OperationOptions τ)) :
    FileClient τ Download OutputFile where
  device := downloadDevice
  cell := c.cell
  transfer := fileTransfer (c.curl.sinkTransport c.cell hwire) c.base c.disableState opts
    hleaves
  checksCrc := c.base.hasFlag .EnableCRC64CheckDownload

theorem pass_eq_fileClient {hwire : forall request env,
      c.cell.get (c.curl.wire request env).2 = c.cell.get env}
    {hleaves : c.client.Leaves c.cell.get} (plan : DownloadPlan)
    (opts : Option (OperationOptions τ)) (offset : Nat) (req : GetObjectRequest τ)
    (w : Runtime τ) :
    (c.fileClient hwire hleaves opts).pass plan offset req w =
      c.pass plan opts offset req w := by
  have hflush : forall w, (c.fileClient hwire hleaves opts).modify
      (c.fileClient hwire hleaves opts).flush w = w := by
    intro w
    have henv : c.cell.modify (c.fileClient hwire hleaves opts).flush w.env = w.env :=
      c.cell.set_get w.env
    exact congrArg (fun env => { w with env := env }) henv
  have hrequest : (c.fileClient hwire hleaves opts).passRequest plan offset req =
      c.passRequest plan offset req := rfl
  have hgot : forall req, (c.fileClient hwire hleaves opts).transfer.getObject req
      ((c.fileClient hwire hleaves opts).modify (c.fileClient hwire hleaves opts).close w) =
        getObject c.client req opts (c.modify Download.forgetStream w) := fun _ => rfl
  unfold FileClient.pass DownloadClient.pass
  simp only [hrequest, hgot, hflush]
  rcases getObject c.client (c.passRequest plan offset req) opts
    (c.modify Download.forgetStream w) with ⟨outcome, w'⟩
  cases outcome with
  | ok result => rfl
  | error e =>
      have hstream : (c.fileClient hwire hleaves opts).device.fileStream
          ((c.fileClient hwire hleaves opts).download w') =
            (c.download w').file.fileStream := rfl
      simp only [hstream]
      cases (c.download w').file.fileStream with
      | none => rfl
      | some stream => rfl

theorem loop_eq_fileClient {hwire : forall request env,
      c.cell.get (c.curl.wire request env).2 = c.cell.get env}
    {hleaves : c.client.Leaves c.cell.get} (plan : DownloadPlan)
    (opts : Option (OperationOptions τ)) (fuel offset : Nat) (req : GetObjectRequest τ)
    (w : Runtime τ) :
    (c.fileClient hwire hleaves opts).loop plan fuel offset req w =
      c.loop plan opts fuel offset req w := by
  induction fuel generalizing offset req w with
  | zero => rfl
  | succ fuel ih =>
      rw [FileClient.loop, DownloadClient.loop, pass_eq_fileClient]
      cases c.pass plan opts offset req w with
      | returns outcome w' => rfl
      | resumes offset' req' w' => exact ih offset' req' w'

end DownloadClient

end Client
end OssSdk
