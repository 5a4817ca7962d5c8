import OssSdk.Client.GetObject
import OssSdk.Io.OutputFile
import OssSdk.Internal.SentExchanges
import OssSdk.Transport.Curl.CurlHttpClient
import OssSdk.Utils.RangeHeader

/-!
# Downloading to a file

The synchronous client goes on with a download that has broken off, from the byte where
its file ends.  The asynchronous client leaves it to the retries of its operation, each
of which begins the file anew.
-/

namespace OssSdk
namespace Client

open Foundation
open Internal
open Sync
open StackAgreement
open Transport
open Utils

variable {τ : Type}

/-!
# The file and its writer
-/

/-- The file, and what the observers of its writer keep. -/
structure Download where
  file : OutputFile
  crc : BitVec 64
  progress : ProgressState
deriving DecidableEq

namespace Download

def fileCell : Cell Download OutputFile where
  get d := d.file
  set file d := { d with file := file }
  get_set _ _ := rfl
  set_set _ _ _ := rfl
  set_get _ := rfl

def crcCell : Cell Download (BitVec 64) where
  get d := d.crc
  set crc d := { d with crc := crc }
  get_set _ _ := rfl
  set_set _ _ _ := rfl
  set_get _ := rfl

def progressCell : Cell Download ProgressState where
  get d := d.progress
  set progress d := { d with progress := progress }
  get_set _ _ := rfl
  set_set _ _ _ := rfl
  set_get _ := rfl

/-- Observers that have just been made. -/
def observersMade (d : Download) : Download :=
  { d with crc := 0, progress := ⟨-1, 0, 0, []⟩ }

/-- `fileStream = nullptr`. -/
def forgetStream (d : Download) : Download :=
  { d with file := { d.file with fileStream := none } }

end Download

/-- The observers that a call has. -/
structure Observers where
  crcObserver : Bool
  progressObs : Bool

def Observers.writer (o : Observers) : ByteWriter Download :=
  let writer := (OStreamWriter OutputFile.ofstream).on Download.fileCell
  if !o.crcObserver && !o.progressObs then writer
  else
    ObservableWriter writer
      ((if o.crcObserver then [CRC64WriteObserver Download.crcCell] else []) ++
        if o.progressObs then [ProgressWriteObserver Download.progressCell] else [])

/-- `updateTotal`, where there is an observer of the progress. -/
def Observers.updateTotal (o : Observers) (total : Int) (d : Download) : Download :=
  if o.progressObs then { d with progress := { d.progress with total := total } }
  else d

/-- A factory that opens the file in this way. -/
def Observers.sinkFactory (o : Observers) (cell : Cell τ Download) (isOneShot : Bool)
    (opened : Download -> Download) : SinkFactory τ where
  supplier := some fun contentLength _ w =>
    (some (o.writer.on cell),
      cell.modify (fun d => o.updateTotal contentLength (opened d)) w)
  isOneShot := isOneShot

/-- The file begins anew at the offset zero, and is gone on with at any other. -/
def openAt (offset : Nat) (d : Download) : Download :=
  { d with
    file :=
      if offset = 0 then d.file.openTrunc else d.file.openUpdate.seekp offset }

/-- The file begins anew, and so does the checksum. -/
def Observers.openAnew (o : Observers) (d : Download) : Download :=
  { d with
    file := d.file.openTrunc
    crc := if o.crcObserver then 0 else d.crc }

/-!
# What both clients check
-/

def downloadError (code : ClientErrorCode) (name message : ByteString) :
    OperationError :=
  OperationError.ofCode (ErrorCode.client code)
    (((SortedMap.empty : ErrorFields).emplace (bytes "Code") name).emplace
      (bytes "Message") message)

/-- The start and the end of the range, the end -1 where there is none. -/
def downloadRange (range : ByteString) : Except OperationError (Int × Int) :=
  let invalidRange := downloadError .ArgumentInvalid (bytes "ArgumentInvalid")
    (bytes "Invalid, multi-range, or suffix-range is not supported for getObjectToFile")
  if range.isEmpty then .ok (0, -1)
  else
    match ParseRangeHeader range [] with
    | (true, [(first, last)]) =>
        if first = -1 then .error invalidRange else .ok (first, last)
    | _ => .error invalidRange

/-- A checksum that the service has sent is that of what went through the observer. -/
def checkCrc (d : Download) (result : GetObjectResult) :
    Except OperationError GetObjectResult :=
  let serverCrc := result.getHashCrc64ecma
  if serverCrc.isEmpty then .ok result
  else
    let ccrc := toDecimal d.crc.toNat
    if ccrc ≠ serverCrc then
      .error (downloadError .CrcMismatch (bytes "CRCInconsistent")
        (bytes "crc is inconsistent, client crc:" ++ ccrc ++ bytes ", server crc:" ++
          serverCrc))
    else .ok result

/-!
# The clients
-/

/-- A client, and the place of the file that it downloads to. -/
structure DownloadClient (τ : Type) where
  base : ClientImplBase τ
  disableState : DisableState τ
  curl : Curl.CurlHttpClient τ
  cell : Cell τ Download

/-- What the loop of a synchronous download does not change. -/
structure DownloadPlan where
  rangeStart : Int
  rangeEnd : Int
  observers : Observers

/-- What one pass of the loop comes to. -/
inductive Pass (τ : Type) where
  | returns (outcome : Except OperationError GetObjectResult) (w : Runtime τ)
  | resumes (offset : Nat) (req : GetObjectRequest τ) (w : Runtime τ)

namespace DownloadClient

variable (c : DownloadClient τ)

def client : ClientImpl τ :=
  { c.base with httpTransport := c.curl.send, disableState := c.disableState }

def download (w : Runtime τ) : Download := c.cell.get w.env

def modify (f : Download -> Download) (w : Runtime τ) : Runtime τ :=
  { w with env := c.cell.modify f w.env }

/-- What is left of the request of the pass before is changed. -/
def passRequest (plan : DownloadPlan) (offset : Nat) (req : GetObjectRequest τ) :
    GetObjectRequest τ :=
  let factory := plan.observers.sinkFactory c.cell true (openAt offset)
  let req :=
    if 0 < (offset : Int) + plan.rangeStart ∨ plan.rangeEnd ≠ -1 then
      (req.setRange (printRange (plan.rangeStart + offset) plan.rangeEnd)).setRangeBehavior
        (bytes "standard")
    else req
  { req with sinkFactory := some factory }

def pass (plan : DownloadPlan) (opts : Option (OperationOptions τ)) (offset : Nat)
    (req : GetObjectRequest τ) (w : Runtime τ) : Pass τ :=
  let req := c.passRequest plan offset req
  let (outcome, w) := getObject c.client req opts (c.modify Download.forgetStream w)
  match outcome with
  | .ok result =>
      if plan.observers.crcObserver = true ∧ offset = 0 then
        .returns (checkCrc (c.download w) result) w
      else .returns (.ok result) w
  | .error e =>
      match (c.download w).file.fileStream with
      | none => .returns (.error e) w
      | some stream =>
          if stream.state.fail then .returns (.error e) w
          else .resumes stream.position req w

/-- `fuel` is how often the loop may be gone through. -/
def loop (plan : DownloadPlan) (opts : Option (OperationOptions τ)) :
    Nat -> Nat -> GetObjectRequest τ -> Runtime τ ->
      Option (Except OperationError GetObjectResult × Runtime τ)
  | 0, _, _, _ => none
  | fuel + 1, offset, req, w =>
      match c.pass plan opts offset req w with
      | .returns outcome w => some (outcome, w)
      | .resumes offset req w => loop plan opts fuel offset req w

def plan (request : GetObjectRequest τ) (rangeStart rangeEnd : Int) : DownloadPlan where
  rangeStart := rangeStart
  rangeEnd := rangeEnd
  observers :=
    { crcObserver :=
        c.base.hasFlag .EnableCRC64CheckDownload &&
          (rangeStart == 0 && rangeEnd == -1)
      progressObs := request.hasProgressCallback }

/-- `OSSClient::getObjectToFile`. -/
def getObjectToFile (fuel : Nat) (request : GetObjectRequest τ)
    (opts : Option (OperationOptions τ)) (w : Runtime τ) :
    Option (Except OperationError GetObjectResult × Runtime τ) :=
  match downloadRange request.getRange with
  | .error e => some (.error e, w)
  | .ok (rangeStart, rangeEnd) =>
      c.loop (c.plan request rangeStart rangeEnd) opts fuel 0 request
        (c.modify Download.observersMade w)

def asyncObservers (request : GetObjectRequest τ) : Observers where
  crcObserver :=
    c.base.hasFlag .EnableCRC64CheckDownload && request.getRange.isEmpty
  progressObs := request.hasProgressCallback

def asyncRequest (request : GetObjectRequest τ) : GetObjectRequest τ :=
  let o := c.asyncObservers request
  { request with sinkFactory := some (o.sinkFactory c.cell false o.openAnew) }

/-- The callback that the operation is given calls the user's with this. -/
def asyncOutcome (request : GetObjectRequest τ) (result : OperationResult)
    (w : Runtime τ) : Except OperationError GetObjectResult :=
  match result with
  | .error e => .error e
  | .output o =>
      if (c.asyncObservers request).crcObserver then
        checkCrc (c.download w) (toGetObject o)
      else .ok (toGetObject o)

/-- What the callback gets, when the tasks of the operation run on `fuel`. -/
def getObjectToFileAsync (fuel : Nat) (request : GetObjectRequest τ)
    (opts : Option (OperationOptions τ)) (w : Runtime τ) :
    Option (Except OperationError GetObjectResult × Runtime τ) :=
  let req := c.asyncRequest request
  let w := c.modify Download.observersMade w
  match req.missing with
  | some e => some (.error e, w)
  | none =>
      (executeAsyncOn c.client.httpTransport ⟨c.client.toClientImplBase⟩ fuel
        (fromGetObject req) opts (some ⟨req.sinkFactory, [], []⟩) w).map fun r =>
          (c.asyncOutcome request r.1 r.2, r.2)

/-!
# What is sent
-/

/-- The exchange that reaches the transport last in a call of `getObject`. -/
def getObjectSent (req : GetObjectRequest τ) (opts : Option (OperationOptions τ))
    (w : Runtime τ) : Option (Exchange τ) :=
  match req.missing with
  | some _ => none
  | none =>
      c.client.lastSent (fromGetObject req) opts (some ⟨req.sinkFactory, [], []⟩) w

def passSent (plan : DownloadPlan) (opts : Option (OperationOptions τ)) (offset : Nat)
    (req : GetObjectRequest τ) (w : Runtime τ) : Option (Exchange τ) :=
  c.getObjectSent (c.passRequest plan offset req) opts
    (c.modify Download.forgetStream w)

def loopSent (plan : DownloadPlan) (opts : Option (OperationOptions τ)) :
    Nat -> Nat -> GetObjectRequest τ -> Runtime τ -> List (Exchange τ)
  | 0, _, _, _ => []
  | fuel + 1, offset, req, w =>
      (c.passSent plan opts offset req w).toList ++
        match c.pass plan opts offset req w with
        | .returns _ _ => []
        | .resumes offset req w => loopSent plan opts fuel offset req w

def sent (fuel : Nat) (request : GetObjectRequest τ)
    (opts : Option (OperationOptions τ)) (w : Runtime τ) : List (Exchange τ) :=
  match downloadRange request.getRange with
  | .error _ => []
  | .ok (rangeStart, rangeEnd) =>
      c.loopSent (c.plan request rangeStart rangeEnd) opts fuel 0 request
        (c.modify Download.observersMade w)

def sentAsync (fuel : Nat) (request : GetObjectRequest τ)
    (opts : Option (OperationOptions τ)) (w : Runtime τ) : List (Exchange τ) :=
  let req := c.asyncRequest request
  match req.missing with
  | some _ => []
  | none =>
      c.client.allSentAsync fuel (fromGetObject req) opts
        (some ⟨req.sinkFactory, [], []⟩) (c.modify Download.observersMade w)

end DownloadClient

/-- A call of either client that returns or calls back, with all that it sent. -/
inductive Downloads (c : DownloadClient τ) (request : GetObjectRequest τ)
    (opts : Option (OperationOptions τ)) (w : Runtime τ) :
    ClientKind -> List (Exchange τ) ->
      Except OperationError GetObjectResult -> Runtime τ -> Prop where
  | sync {fuel : Nat} {outcome : Except OperationError GetObjectResult}
      {w' : Runtime τ} :
      c.getObjectToFile fuel request opts w = some (outcome, w') ->
      Downloads c request opts w .sync (c.sent fuel request opts w) outcome w'
  | async {fuel : Nat} {outcome : Except OperationError GetObjectResult}
      {w' : Runtime τ} :
      c.getObjectToFileAsync fuel request opts w = some (outcome, w') ->
      Downloads c request opts w .async (c.sentAsync fuel request opts w) outcome w'

end Client
end OssSdk
