import OssSdk.Client.GetObjectToFile
import OssSdk.Internal.ReportedBody

/-!
# What a download makes of its file

The file of a download is changed by the replies alone: each that brings bytes for the
caller opens the file and writes them all.
-/

namespace OssSdk
namespace Client

open Foundation
open Internal
open Sync
open StackAgreement
open Transport
open Utils

variable {τ : Type}

/-!
# The writer
-/

theorem rdstate_write (data : ByteString) (f : OutputFile) :
    (f.write data).rdstate = f.rdstate := by
  rcases f with ⟨content, fileStream⟩
  cases content with
  | none => rfl
  | some content =>
      cases fileStream with
      | none => rfl
      | some stream =>
          unfold OutputFile.write
          simp only
          split
          · rfl
          · rfl

theorem write_of_fail {f : OutputFile} (hfail : f.rdstate.fail = true)
    (data : ByteString) : f.write data = f := by
  rcases f with ⟨content, fileStream⟩
  cases content with
  | none => rfl
  | some content =>
      cases fileStream with
      | none => rfl
      | some stream =>
          have hstream : stream.state.fail = true := hfail
          unfold OutputFile.write
          simp only [if_pos hstream]

theorem ObservableWriter_write {σ : Type} {writer : ByteWriter σ}
    (observers : List (ByteWriterObserver σ)) {data : ByteString} {w w' : σ}
    {written : Nat}
    (hwrite : writer.write data w = (written, w')) :
    (ObservableWriter writer observers).write data w =
      (written,
        if 0 < written then
          ByteWriterObserver.writeAll observers (data.take written) w'
        else w') := by
  have hobserved : (ObservableWriter writer observers).write data w =
      (fun r : Nat × σ =>
        (r.1,
          if 0 < r.1 then ByteWriterObserver.writeAll observers (data.take r.1) r.2
          else r.2)) (writer.write data w) := rfl
  rw [hobserved, hwrite]

namespace Observers

variable (o : Observers)

theorem writer_iostate (d : Download) : o.writer.iostate d = d.file.rdstate := by
  unfold Observers.writer
  simp only
  split
  · rfl
  · rfl

/-- The writer below the observers. -/
theorem fileWriter_write (data : ByteString) (d : Download) :
    ((OStreamWriter OutputFile.ofstream).on Download.fileCell).write data d =
      (if d.file.rdstate.fail then 0 else data.length,
        { d with file := d.file.write data }) := by
  have hstate := rdstate_write data d.file
  have hwrite : ((OStreamWriter OutputFile.ofstream).on Download.fileCell).write data d =
      (if (d.file.write data).rdstate.fail then 0 else data.length,
        { d with file := d.file.write data }) := rfl
  rw [hwrite, hstate]

/-- A file that has failed takes nothing, and the observers see nothing. -/
theorem writer_failed (data : ByteString) {d : Download}
    (hfail : d.file.rdstate.fail = true) : (o.writer.write data d).2 = d := by
  have hfile := fileWriter_write data d
  rw [if_pos hfail, write_of_fail hfail] at hfile
  unfold Observers.writer
  simp only
  split
  · rw [hfile]
  · rw [ObservableWriter_write _ hfile]
    rfl

/-- The observers see what the file has taken. -/
theorem writer_good (data : ByteString) {d : Download}
    (hgood : d.file.rdstate.fail = false) :
    (o.writer.write data d).2.file = d.file.write data ∧
      (o.writer.write data d).2.crc =
        if o.crcObserver then CalcCRC64 d.crc data else d.crc := by
  have hfile := fileWriter_write data d
  rw [hgood, if_neg Bool.false_ne_true] at hfile
  rcases o with ⟨crcObserver, progressObs⟩
  by_cases hdata : 0 < data.length
  · have htake : data.take data.length = data := List.take_length
    have hobserved := fun observers => ObservableWriter_write observers hfile
    simp only [if_pos hdata, htake] at hobserved
    cases crcObserver with
    | false =>
        cases progressObs with
        | false => exact ⟨congrArg (·.2.file) hfile, congrArg (·.2.crc) hfile⟩
        | true =>
            have hall := hobserved [ProgressWriteObserver Download.progressCell]
            exact ⟨congrArg (·.2.file) hall, congrArg (·.2.crc) hall⟩
    | true =>
        cases progressObs with
        | false =>
            have hall := hobserved [CRC64WriteObserver Download.crcCell]
            exact ⟨congrArg (·.2.file) hall, congrArg (·.2.crc) hall⟩
        | true =>
            have hall := hobserved [CRC64WriteObserver Download.crcCell,
              ProgressWriteObserver Download.progressCell]
            exact ⟨congrArg (·.2.file) hall, congrArg (·.2.crc) hall⟩
  · have hnil : data = [] := List.length_eq_zero_iff.mp (Nat.eq_zero_of_not_pos hdata)
    have hcrc : CalcCRC64 d.crc data = d.crc := by
      rw [hnil]
      exact crc64.update_nil d.crc
    rw [hcrc, ite_self]
    simp only [Observers.writer]
    split
    · exact ⟨congrArg (·.2.file) hfile, congrArg (·.2.crc) hfile⟩
    · rw [ObservableWriter_write _ hfile, if_neg hdata]
      exact ⟨rfl, rfl⟩

theorem writer_steady : Curl.Steady o.writer := by
  constructor
  · intro data d
    rw [o.writer_iostate, o.writer_iostate]
    cases hfail : d.file.rdstate.fail with
    | true => rw [o.writer_failed data hfail]
    | false => rw [(o.writer_good data hfail).1, rdstate_write]
  · intro data d hfail
    unfold ByteWriter.fail at hfail
    rw [o.writer_iostate] at hfail
    exact o.writer_failed data hfail

/-- The chunks of a body, written to a stream that is at the end of its file. -/
theorem writes_atEnd (chunks : List ByteString) {d : Download} {content : ByteString}
    (hfile : d.file = OutputFile.atEnd content) :
    (o.writer.writes chunks d).file = OutputFile.atEnd (content ++ chunks.flatten) ∧
      (o.writer.writes chunks d).crc =
        if o.crcObserver then CalcCRC64 d.crc chunks.flatten else d.crc := by
  induction chunks generalizing d content with
  | nil =>
      have hnil : CalcCRC64 d.crc [] = d.crc := crc64.update_nil d.crc
      rw [List.flatten_nil, List.append_nil, hnil, ite_self]
      exact ⟨hfile, rfl⟩
  | cons chunk rest ih =>
      have hgood : d.file.rdstate.fail = false := by
        rw [hfile]
        rfl
      rcases o.writer_good chunk hgood with ⟨hwritten, hcrc⟩
      rw [hfile, OutputFile.write_atEnd] at hwritten
      rcases ih hwritten with ⟨hrest, hsum⟩
      rw [ByteWriter.writes, hrest, hsum, hcrc, List.flatten_cons, List.append_assoc]
      refine ⟨rfl, ?_⟩
      cases o.crcObserver with
      | false => rfl
      | true => exact (crc64.update_append d.crc chunk rest.flatten).symm

end Observers

theorem on_steady {σ : Type} (cell : Cell τ σ) {writer : ByteWriter σ}
    (hsteady : Curl.Steady writer) : Curl.Steady (writer.on cell) := by
  constructor
  · intro data w
    have hget : cell.get ((writer.on cell).write data w).2 =
        (writer.write data (cell.get w)).2 := cell.get_set _ _
    exact (congrArg writer.iostate hget).trans (hsteady.iostate data (cell.get w))
  · intro data w hfail
    have hset : ((writer.on cell).write data w).2 =
        cell.set (writer.write data (cell.get w)).2 w := rfl
    rw [hset, hsteady.failed data (cell.get w) hfail, cell.set_get]

/-!
# Replies
-/

/-- The chunks that go to the sink of the caller. -/
def taken (reply : Curl.Reply) : List ByteString :=
  if isErrorStatus reply.statusCode then [] else reply.chunks

namespace DownloadClient

variable (c : DownloadClient τ)

/-- What comes in for a request. -/
def replied (y : Exchange τ) : Curl.Reply := (c.curl.wire y.request y.runtime.env).1

/-- The bytes that a reply brings for the caller. -/
def body (y : Exchange τ) : ByteString := (taken (c.replied y)).flatten

def bodies (sent : List (Exchange τ)) : ByteString := (sent.map c.body).flatten

/-- What a reply makes of the file, where the factory opens it in this way. -/
def effect (o : Observers) (opened : Download -> Download) (d : Download)
    (y : Exchange τ) : Download :=
  if taken (c.replied y) = [] then d
  else
    o.writer.writes (taken (c.replied y))
      (o.updateTotal (c.replied y).recvDataLength (opened d))

/-- Nothing but the writer of the download touches its file. -/
structure Undisturbed : Prop where
  leaves : c.client.Leaves c.cell.get
  wire : forall request env, c.cell.get (c.curl.wire request env).2 = c.cell.get env

end DownloadClient

section Replies

variable {c : DownloadClient τ}

theorem body_eq_nil_iff {y : Exchange τ} :
    c.body y = [] ↔ taken (c.replied y) = [] := by
  constructor
  · intro hbody
    cases htaken : taken (c.replied y) with
    | nil => rfl
    | cons chunk rest =>
        have hmem : chunk ∈ (c.replied y).chunks := by
          unfold taken at htaken
          split at htaken
          · cases htaken
          · rw [htaken]
            exact List.mem_cons_self
        rw [DownloadClient.body, htaken, List.flatten_cons] at hbody
        exact absurd (List.append_eq_nil_iff.mp hbody).1
          ((c.replied y).chunks_nonempty chunk hmem)
  · intro htaken
    rw [DownloadClient.body, htaken, List.flatten_nil]

theorem exchanged_env (y : Exchange τ) :
    (c.client.exchanged y).2.runtime.env =
      (c.curl.received y.request y.context.transportContext
        y.runtime.env).2.reception.env := by
  have hsend : c.client.exchanged y =
      receive
        { y.setEnv (c.curl.received y.request y.context.transportContext
            y.runtime.env).2.reception.env with
          request := y.request }
        (c.curl.send.send y.request y.context.transportContext y.runtime.env).1 := rfl
  rw [hsend]
  cases (c.curl.send.send y.request y.context.transportContext y.runtime.env).1 with
  | error te => rfl
  | response r => rfl

theorem hasEffect (hundisturbed : c.Undisturbed) (o : Observers) (isOneShot : Bool)
    (opened : Download -> Download) :
    HasEffect c.client c.cell.get (c.effect o opened)
      (some (o.sinkFactory c.cell isOneShot opened)) := by
  intro y hsink
  have hwire := hundisturbed.wire y.request y.runtime.env
  rw [exchanged_env]
  unfold DownloadClient.effect taken Curl.CurlHttpClient.received DownloadClient.replied
  cases hstatus : isErrorStatus (c.curl.wire y.request y.runtime.env).1.statusCode with
  | true =>
      rw [(Curl.Reply.perform_default hstatus).1, if_pos rfl, if_pos rfl]
      exact hwire
  | false =>
      rw [if_neg Bool.false_ne_true]
      by_cases hchunks : (c.curl.wire y.request y.runtime.env).1.chunks = []
      · rw [(Curl.Reply.perform_empty hchunks).2, if_pos hchunks]
        exact hwire
      · rw [if_neg hchunks,
          Curl.Reply.perform_steady (on_steady c.cell o.writer_steady) hsink hstatus
            hchunks rfl,
          ByteWriter.on_writes, Cell.get_modify, hwire]

/-!
# One call of `getObject`
-/

/-- If the signer keeps the range of a request, it is that of `req`. -/
def SameRange (c : DownloadClient τ) (req : GetObjectRequest τ)
    (r : RequestMessage τ) : Prop :=
  c.base.options.signer.KeepsHeader (bytes "Range") ->
    r.headers.find? (bytes "Range") = req.headers.find? (bytes "Range")

theorem keepsRequests_sameRange (c : DownloadClient τ) (req : GetObjectRequest τ) :
    KeepsRequests c.client (SameRange c req) := by
  constructor
  · intro r context env hr hkeeps
    exact (hkeeps r context env).trans (hr hkeeps)
  · exact fun _ _ _ hr => hr

theorem prepare_sameRange {req : GetObjectRequest τ}
    {opts : Option (OperationOptions τ)}
    {innerOpts : Option (OperationInnerOptions τ)} {clockOffset : Int}
    {context : ExecuteContext τ} {r : RequestMessage τ}
    (hprepare : prepare c.client.toClientImplBase clockOffset (fromGetObject req) opts
      innerOpts = .ok (context, r)) : SameRange c req r := by
  have hagent : SortedMap.equivalent caseInsensitiveLess (bytes "User-Agent")
      (bytes "Range") = false := by decide
  intro _
  rw [prepare_headers hprepare, SortedMap.find?_insertOrAssign, hagent,
    if_neg Bool.false_ne_true, fromGetObject_range]

/-- A result is made of the reply to an exchange. -/
structure Answered (c : DownloadClient τ) (y : Exchange τ) (result : GetObjectResult) :
    Prop where
  res : (c.replied y).res = Curl.CURLE_OK
  status : (c.replied y).statusCode.tdiv 100 = 2 ∨ (c.replied y).statusCode = 0
  headers : result.headers = (c.replied y).headers

theorem answered_of_output {input : OperationInput τ}
    {opts : Option (OperationOptions τ)} {innerOpts : OperationInnerOptions τ}
    {w w' : Runtime τ} {kind : ClientKind} {sent : Option (Exchange τ)}
    {o : OperationOutput}
    (hown : innerOpts.onResponseMessage = [])
    (hrun : Runs c.client input opts (some innerOpts) w kind sent (.output o) w') :
    exists y, sent = some y ∧ Answered c y (toGetObject o) := by
  have hown' : forall inner, some innerOpts = some inner ->
      inner.onResponseMessage = [] := by
    intro inner hinner
    cases hinner
    exact hown
  rcases hrun.of_output hown' rfl with ⟨y, r, env, hsent, _, ⟨request, hsend⟩, ho, _⟩
  have hstatus := hrun.of_output_status hown'
  rcases Curl.CurlHttpClient.send_response_iff.mp hsend with ⟨_, hok, _, hr⟩
  refine ⟨y, hsent, Curl.Reply.res_of_perform hok, ?_, ?_⟩
  · rw [ho, hr] at hstatus
    exact hstatus
  · rw [ho, hr]
    rfl

section GetObject

variable {req : GetObjectRequest τ} {opts : Option (OperationOptions τ)}
variable {w : Runtime τ}

theorem getObject_answered {result : GetObjectResult}
    (hok : (getObject c.client req opts w).1 = .ok result) :
    exists y, c.getObjectSent req opts w = some y ∧ Answered c y result := by
  unfold getObject at hok
  unfold DownloadClient.getObjectSent
  cases hmissing : req.missing with
  | some e =>
      rw [hmissing] at hok
      cases hok
  | none =>
      rw [hmissing] at hok
      simp only at hok ⊢
      have hrun : Runs c.client (fromGetObject req) opts
        (some ⟨req.sinkFactory, [], []⟩) w .sync _ _ _ := Runs.sync
      cases hresult : (c.client.Execute (fromGetObject req) opts
          (some ⟨req.sinkFactory, [], []⟩) w).1 with
      | error e =>
          rw [hresult] at hok
          cases hok
      | output o =>
          rw [hresult] at hok hrun
          cases hok
          exact answered_of_output rfl hrun

theorem getObject_sentBy (hundisturbed : c.Undisturbed) {o : Observers}
    {opened : Download -> Download}
    (hfactory : req.sinkFactory = some (o.sinkFactory c.cell true opened)) :
    SentBy c.cell.get (c.effect o opened) (some (o.sinkFactory c.cell true opened))
      (SameRange c req) (c.download w) (c.getObjectSent req opts w).toList
      (getObject c.client req opts w).2.env (c.getObjectSent req opts w) := by
  unfold getObject DownloadClient.getObjectSent
  cases hmissing : req.missing with
  | some e =>
      exact ⟨rfl, fun y hy => (nomatch hy), fun y hy => (nomatch hy),
        fun y hy => (nomatch hy)⟩
  | none =>
      have hsent := @execute_sentBy _ _ _ _ _ _ _ hundisturbed.leaves
          (hasEffect hundisturbed o true opened) (keepsRequests_sameRange c req) rfl
          (fromGetObject req) opts w fun _ _ => prepare_sameRange
      rw [← hfactory] at hsent ⊢
      simp only
      cases hresult : (c.client.Execute (fromGetObject req) opts
          (some ⟨req.sinkFactory, [], []⟩) w).1 with
      | error e => exact hsent
      | output output => exact hsent

end GetObject

/-!
# The file before and after a reply
-/

/-- The file holds what was written, and what it held before where that is nothing. -/
def Holds (before : Option ByteString) (written : ByteString) (d : Download) : Prop :=
  d.file.content = if written = [] then before else some written

theorem updateTotal_kept (o : Observers) (total : Int) (d : Download) :
    (o.updateTotal total d).file = d.file ∧ (o.updateTotal total d).crc = d.crc := by
  unfold Observers.updateTotal
  split
  · exact ⟨rfl, rfl⟩
  · exact ⟨rfl, rfl⟩

theorem openAt_file {before : Option ByteString} {written : ByteString} {d : Download}
    (hholds : Holds before written d) :
    (openAt written.length d).file = OutputFile.atEnd written := by
  unfold openAt
  simp only
  split
  · rename_i hzero
    rw [List.length_eq_zero_iff.mp hzero]
    rfl
  · rename_i hpos
    have hne : written ≠ [] := fun h => hpos (List.length_eq_zero_iff.mpr h)
    unfold Holds at hholds
    rw [if_neg hne] at hholds
    exact OutputFile.seekp_openUpdate hholds

/-- A reply that brings bytes adds them to the file. -/
theorem effect_taken {o : Observers} {before : Option ByteString} {written : ByteString}
    {d : Download} (hholds : Holds before written d) {y : Exchange τ}
    (htaken : taken (c.replied y) ≠ []) :
    (c.effect o (openAt written.length) d.forgetStream y).file =
        OutputFile.atEnd (written ++ c.body y) ∧
      (c.effect o (openAt written.length) d.forgetStream y).crc =
        if o.crcObserver then CalcCRC64 d.crc (c.body y) else d.crc := by
  have hholds' : Holds before written d.forgetStream := hholds
  rcases updateTotal_kept o (c.replied y).recvDataLength
    (openAt written.length d.forgetStream) with ⟨hfile, hcrc⟩
  rw [openAt_file hholds'] at hfile
  rcases o.writes_atEnd (taken (c.replied y)) hfile with ⟨hwritten, hsum⟩
  rw [DownloadClient.effect, if_neg htaken]
  refine ⟨hwritten, hsum.trans ?_⟩
  rw [hcrc]
  rfl

theorem effect_untaken {o : Observers} {opened : Download -> Download} {d : Download}
    {y : Exchange τ} (htaken : taken (c.replied y) = []) :
    c.effect o opened d y = d := if_pos htaken

/-!
# One pass of the loop
-/

/-- The header that a pass asks for its range with. -/
def asked (plan : DownloadPlan) (req : GetObjectRequest τ) (offset : Nat) :
    Option ByteString :=
  if 0 < (offset : Int) + plan.rangeStart ∨ plan.rangeEnd ≠ -1 then
    some (printRange (plan.rangeStart + offset) plan.rangeEnd)
  else req.headers.find? (bytes "Range")

theorem passRequest_range (plan : DownloadPlan) (offset : Nat)
    (req : GetObjectRequest τ) :
    (c.passRequest plan offset req).headers.find? (bytes "Range") =
      asked plan req offset := by
  have hbehavior : SortedMap.equivalent caseInsensitiveLess
      (bytes "x-oss-range-behavior") (bytes "Range") = false := by decide
  have hrange : SortedMap.equivalent caseInsensitiveLess (bytes "Range")
      (bytes "Range") = true := by decide
  unfold DownloadClient.passRequest asked
  simp only
  split
  · simp only [GetObjectRequest.setRangeBehavior, GetObjectRequest.setRange,
      SortedMap.find?_insertOrAssign, hbehavior, hrange, Bool.false_eq_true, if_false,
      if_true]
  · rfl

/-- The ranges that exchanges ask for, each from where the body before it ends. -/
def AsksFrom (c : DownloadClient τ) (plan : DownloadPlan) (req : GetObjectRequest τ) :
    Nat -> List (Exchange τ) -> Prop
  | _, [] => True
  | offset, y :: rest =>
      y.request.headers.find? (bytes "Range") = asked plan req offset ∧
        AsksFrom c plan req (offset + (c.body y).length) rest

section Pass

variable {plan : DownloadPlan} {opts : Option (OperationOptions τ)} {offset : Nat}
variable {req : GetObjectRequest τ} {w w' : Runtime τ}

theorem checkCrc_ok {d : Download} {got result : GetObjectResult}
    (hcheck : checkCrc d got = .ok result) : got = result := by
  unfold checkCrc at hcheck
  simp only at hcheck
  split at hcheck
  · cases hcheck
    rfl
  · split at hcheck
    · cases hcheck
    · cases hcheck
      rfl

/-- What holds of a pass in which this exchange was sent. -/
structure Passes (c : DownloadClient τ) (plan : DownloadPlan) (offset : Nat)
    (req : GetObjectRequest τ) (w w' : Runtime τ) (y : Exchange τ) : Prop where
  download : c.download w' =
    c.effect plan.observers (openAt offset) (c.download w).forgetStream y
  range : c.base.options.signer.KeepsHeader (bytes "Range") ->
    y.request.headers.find? (bytes "Range") = asked plan req offset

theorem download_modify (c : DownloadClient τ) (f : Download -> Download)
    (w : Runtime τ) : c.download (c.modify f w) = f (c.download w) :=
  c.cell.get_modify f w.env

theorem pass_passes (hundisturbed : c.Undisturbed) {y : Exchange τ}
    (hsent : c.passSent plan opts offset req w = some y)
    (hleft : (getObject c.client (c.passRequest plan offset req) opts
      (c.modify Download.forgetStream w)).2 = w') :
    Passes c plan offset req w w' y := by
  have hsentBy := @getObject_sentBy _ _ (c.passRequest plan offset req) opts
      (c.modify Download.forgetStream w) hundisturbed plan.observers (openAt offset)
      rfl
  have hsent' : c.getObjectSent (c.passRequest plan offset req) opts
      (c.modify Download.forgetStream w) = some y := hsent
  rw [hsent', hleft, download_modify] at hsentBy
  refine ⟨hsentBy.part, fun hkeeps => ?_⟩
  rw [hsentBy.request y List.mem_cons_self hkeeps, passRequest_range]

/-- Without an exchange the stream is not made. -/
theorem pass_unsent (hundisturbed : c.Undisturbed)
    (hsent : c.passSent plan opts offset req w = none)
    (hleft : (getObject c.client (c.passRequest plan offset req) opts
      (c.modify Download.forgetStream w)).2 = w') :
    c.download w' = (c.download w).forgetStream := by
  have hsentBy := @getObject_sentBy _ _ (c.passRequest plan offset req) opts
      (c.modify Download.forgetStream w) hundisturbed plan.observers (openAt offset)
      rfl
  have hsent' : c.getObjectSent (c.passRequest plan offset req) opts
      (c.modify Download.forgetStream w) = none := hsent
  rw [hsent', hleft, download_modify] at hsentBy
  exact hsentBy.part

theorem pass_returns (hundisturbed : c.Undisturbed) {result : GetObjectResult}
    (hpass : c.pass plan opts offset req w = .returns (.ok result) w') :
    exists y, c.passSent plan opts offset req w = some y ∧
      Passes c plan offset req w w' y ∧ Answered c y result ∧
      (plan.observers.crcObserver = true -> offset = 0 ->
        checkCrc (c.download w') result = .ok result) := by
  unfold DownloadClient.pass at hpass
  rcases hgot : getObject c.client (c.passRequest plan offset req) opts
    (c.modify Download.forgetStream w) with ⟨outcome, w''⟩
  simp only [hgot] at hpass
  cases outcome with
  | error e =>
      simp only at hpass
      split at hpass
      · cases hpass
      · split at hpass
        · cases hpass
        · cases hpass
  | ok got =>
      simp only at hpass
      have hsplit : w'' = w' ∧ got = result ∧
          (plan.observers.crcObserver = true -> offset = 0 ->
            checkCrc (c.download w') result = .ok result) := by
        split at hpass
        · rw [Pass.returns.injEq] at hpass
          rcases hpass with ⟨hcheck, hw⟩
          have hsame := checkCrc_ok hcheck
          rw [hw, hsame] at hcheck
          exact ⟨hw, hsame, fun _ _ => hcheck⟩
        · rename_i hnot
          rw [Pass.returns.injEq] at hpass
          rcases hpass with ⟨hok, hw⟩
          cases hok
          exact ⟨hw, rfl, fun hcrc hzero => absurd ⟨hcrc, hzero⟩ hnot⟩
      rcases hsplit with ⟨hw, hsame, hcheck⟩
      rw [hw, hsame] at hgot
      rcases getObject_answered (congrArg Prod.fst hgot) with ⟨y, hsent, hanswered⟩
      exact ⟨y, hsent, pass_passes hundisturbed hsent (congrArg Prod.snd hgot),
        hanswered, hcheck⟩

theorem pass_resumes (hundisturbed : c.Undisturbed) {before : Option ByteString}
    {written : ByteString} (hholds : Holds before written (c.download w))
    {offset' : Nat} {req' : GetObjectRequest τ}
    (hpass : c.pass plan opts written.length req w = .resumes offset' req' w') :
    exists y, c.passSent plan opts written.length req w = some y ∧
      Passes c plan written.length req w w' y ∧ taken (c.replied y) ≠ [] ∧
      offset' = (written ++ c.body y).length ∧
      req' = c.passRequest plan written.length req := by
  unfold DownloadClient.pass at hpass
  rcases hgot : getObject c.client (c.passRequest plan written.length req) opts
    (c.modify Download.forgetStream w) with ⟨outcome, w''⟩
  simp only [hgot] at hpass
  cases outcome with
  | ok got =>
      simp only at hpass
      split at hpass
      · cases hpass
      · cases hpass
  | error e =>
      simp only at hpass
      split at hpass
      · cases hpass
      · rename_i stream hstream
        split at hpass
        · cases hpass
        · cases hpass
          cases hsent : c.passSent plan opts written.length req w with
          | none =>
              rw [pass_unsent hundisturbed hsent (congrArg Prod.snd hgot)] at hstream
              cases hstream
          | some y =>
              have hpasses := pass_passes hundisturbed hsent (congrArg Prod.snd hgot)
              have htaken : taken (c.replied y) ≠ [] := by
                intro hnone
                rw [hpasses.download, effect_untaken hnone] at hstream
                cases hstream
              refine ⟨y, rfl, hpasses, htaken, ?_, rfl⟩
              rw [hpasses.download, (effect_taken hholds htaken).1] at hstream
              cases hstream
              rfl

end Pass

/-!
# The whole loop
-/

section Loop

variable {plan : DownloadPlan} {opts : Option (OperationOptions τ)}
variable {req : GetObjectRequest τ}

/-- A pass that resumes does not ask for the range of the request. -/
theorem asked_resumed (hstart : 0 ≤ plan.rangeStart) {offset : Nat} (hpos : 0 < offset)
    (req req' : GetObjectRequest τ) : asked plan req offset = asked plan req' offset := by
  have hresumed : 0 < (offset : Int) + plan.rangeStart ∨ plan.rangeEnd ≠ -1 :=
    Or.inl (by omega)
  rw [asked, asked, if_pos hresumed, if_pos hresumed]

theorem asksFrom_resumed (hstart : 0 ≤ plan.rangeStart) {offset : Nat} (hpos : 0 < offset)
    {req req' : GetObjectRequest τ} {sent : List (Exchange τ)}
    (hasks : AsksFrom c plan req offset sent) : AsksFrom c plan req' offset sent := by
  induction sent generalizing offset with
  | nil => trivial
  | cons y rest ih =>
      refine ⟨hasks.1.trans (asked_resumed hstart hpos req req'), ?_⟩
      exact ih (Nat.add_pos_left hpos _) hasks.2

theorem bodies_cons (y : Exchange τ) (rest : List (Exchange τ)) :
    c.bodies (y :: rest) = c.body y ++ c.bodies rest := rfl

theorem bodies_single (y : Exchange τ) : c.bodies [y] = c.body y :=
  List.append_nil _

theorem written_ne_nil (written : ByteString) {y : Exchange τ}
    (htaken : taken (c.replied y) ≠ []) : written ++ c.body y ≠ [] :=
  fun h => htaken (body_eq_nil_iff.mp (List.append_eq_nil_iff.mp h).2)

/-- A pass that brought bytes leaves the file with them. -/
theorem Passes.holds {before : Option ByteString} {written : ByteString}
    {w w' : Runtime τ} {y : Exchange τ}
    (hpasses : Passes c plan written.length req w w' y)
    (hholds : Holds before written (c.download w))
    (htaken : taken (c.replied y) ≠ []) :
    Holds before (written ++ c.body y) (c.download w') := by
  unfold Holds
  rw [if_neg (written_ne_nil written htaken), hpasses.download,
    (effect_taken hholds htaken).1]
  rfl

/-- Whatever comes of it, every pass goes on from where the bodies before it end. -/
theorem loop_asks (hundisturbed : c.Undisturbed)
    (hkeeps : c.base.options.signer.KeepsHeader (bytes "Range"))
    (hstart : 0 ≤ plan.rangeStart) (fuel : Nat)
    {before : Option ByteString} {written : ByteString} {w : Runtime τ}
    (hholds : Holds before written (c.download w)) :
    AsksFrom c plan req written.length
      (c.loopSent plan opts fuel written.length req w) := by
  induction fuel generalizing req written w with
  | zero => trivial
  | succ fuel ih =>
      rw [DownloadClient.loopSent]
      cases hpass : c.pass plan opts written.length req w with
      | returns outcome w'' =>
          cases hsent : c.passSent plan opts written.length req w with
          | none => trivial
          | some y => exact ⟨(pass_passes hundisturbed hsent rfl).range hkeeps, trivial⟩
      | resumes offset' req' w'' =>
          rcases pass_resumes hundisturbed hholds hpass with
            ⟨y, hsent, hpasses, htaken, hoffset, _⟩
          have hne := written_ne_nil written htaken
          have hholds' := hpasses.holds hholds htaken
          have hrest := @ih req' _ _ hholds'
          simp only [hsent, Option.toList_some, List.singleton_append]
          rw [hoffset]
          refine ⟨hpasses.range hkeeps, ?_⟩
          rw [← List.length_append]
          exact asksFrom_resumed hstart (List.length_pos_iff.mpr hne) hrest

/-- A successful run of the loop, from where `written` has been written. -/
structure Completed (c : DownloadClient τ) (plan : DownloadPlan)
    (req : GetObjectRequest τ) (before : Option ByteString) (written : ByteString)
    (crc : BitVec 64) (sent : List (Exchange τ)) (result : GetObjectResult)
    (w' : Runtime τ) : Prop where
  holds : Holds before (written ++ c.bodies sent) (c.download w')
  asks : c.base.options.signer.KeepsHeader (bytes "Range") ->
    AsksFrom c plan req written.length sent
  attempts : exists earlier y, sent = earlier ++ [y] ∧
    (forall z, z ∈ earlier -> taken (c.replied z) ≠ []) ∧ Answered c y result
  checked : plan.observers.crcObserver = true -> written = [] -> sent.length = 1 ->
    checkCrc (c.download w') result = .ok result ∧
      (c.download w').crc = CalcCRC64 crc (c.bodies sent)

theorem loop_completed (hundisturbed : c.Undisturbed) (hstart : 0 ≤ plan.rangeStart)
    (fuel : Nat)
    {before : Option ByteString} {written : ByteString} {w w' : Runtime τ}
    {result : GetObjectResult}
    (hholds : Holds before written (c.download w))
    (hloop : c.loop plan opts fuel written.length req w = some (.ok result, w')) :
    Completed c plan req before written (c.download w).crc
      (c.loopSent plan opts fuel written.length req w) result w' := by
  induction fuel generalizing req written w with
  | zero => cases hloop
  | succ fuel ih =>
      rw [DownloadClient.loop] at hloop
      rw [DownloadClient.loopSent]
      cases hpass : c.pass plan opts written.length req w with
      | returns outcome w'' =>
          rw [hpass] at hloop
          cases hloop
          rcases pass_returns hundisturbed hpass with
            ⟨y, hsent, hpasses, hanswered, hchecked⟩
          simp only [hsent, Option.toList_some, List.append_nil]
          refine ⟨?_, fun hkeeps => ⟨hpasses.range hkeeps, trivial⟩,
            ⟨[], y, rfl, fun z hz => (nomatch hz), hanswered⟩, ?_⟩
          · by_cases htaken : taken (c.replied y) = []
            · rw [hpasses.download, bodies_single, effect_untaken htaken,
                body_eq_nil_iff.mpr htaken, List.append_nil]
              exact hholds
            · rw [bodies_single]
              exact hpasses.holds hholds htaken
          · intro hcrc hwritten _
            refine ⟨hchecked hcrc (by rw [hwritten]; rfl), ?_⟩
            rw [hpasses.download, bodies_single]
            by_cases htaken : taken (c.replied y) = []
            · rw [effect_untaken htaken, body_eq_nil_iff.mpr htaken]
              exact (crc64.update_nil _).symm
            · rw [(effect_taken hholds htaken).2, if_pos hcrc]
      | resumes offset' req' w'' =>
          rw [hpass] at hloop
          rcases pass_resumes hundisturbed hholds hpass with
            ⟨y, hsent, hpasses, htaken, hoffset, _⟩
          simp only [hsent, Option.toList_some, List.singleton_append]
          rw [hoffset] at hloop ⊢
          have hrest := ih (hpasses.holds hholds htaken) hloop
          have hpos := List.length_pos_iff.mpr (written_ne_nil written htaken)
          rcases hrest.attempts with ⟨earlier, last, hall, hearlier, hanswered⟩
          refine ⟨?_, fun hkeeps => ⟨hpasses.range hkeeps, ?_⟩,
            ⟨y :: earlier, last, by rw [hall]; rfl, ?_, hanswered⟩, ?_⟩
          · have hwhole := hrest.holds
            rw [List.append_assoc] at hwhole
            exact hwhole
          · rw [← List.length_append]
            exact asksFrom_resumed hstart hpos (hrest.asks hkeeps)
          · intro z hz
            rcases List.mem_cons.mp hz with hfirst | hlater
            · rw [hfirst]
              exact htaken
            · exact hearlier z hlater
          · intro _ _ hlength
            rw [hall] at hlength
            simp at hlength

end Loop

/-!
# Starting anew
-/

/-- A reply that brings bytes is all that the file holds. -/
theorem anew_taken (o : Observers) (d : Download) {y : Exchange τ}
    (htaken : taken (c.replied y) ≠ []) :
    (c.effect o o.openAnew d y).file = OutputFile.atEnd (c.body y) ∧
      (o.crcObserver = true ->
        (c.effect o o.openAnew d y).crc = CalcCRC64 0 (c.body y)) := by
  rcases updateTotal_kept o (c.replied y).recvDataLength (o.openAnew d) with
    ⟨hfile, hcrc⟩
  have hstart : (o.openAnew d).file = OutputFile.atEnd [] := rfl
  rcases o.writes_atEnd (taken (c.replied y)) (hfile.trans hstart) with
    ⟨hwritten, hsum⟩
  rw [DownloadClient.effect, if_neg htaken]
  refine ⟨hwritten, fun hobserved => hsum.trans ?_⟩
  have hzero : (o.openAnew d).crc = 0 := if_pos hobserved
  rw [if_pos hobserved, hcrc, hzero]
  rfl

/-- The file is what it was, or the observer has seen all of it. -/
theorem anew_foldl (o : Observers) (sent : List (Exchange τ)) (d : Download) :
    (c.bodies sent = [] -> sent.foldl (c.effect o o.openAnew) d = d) ∧
      (c.bodies sent ≠ [] -> exists content,
        (sent.foldl (c.effect o o.openAnew) d).file.content = some content ∧
        (o.crcObserver = true ->
          (sent.foldl (c.effect o o.openAnew) d).crc = CalcCRC64 0 content)) := by
  induction sent generalizing d with
  | nil => exact ⟨fun _ => rfl, fun hne => absurd rfl hne⟩
  | cons y rest ih =>
      rcases ih (c.effect o o.openAnew d y) with ⟨hnone, hsome⟩
      rw [bodies_cons, List.foldl_cons]
      constructor
      · intro hnil
        rcases List.append_eq_nil_iff.mp hnil with ⟨hbody, hrest⟩
        rw [hnone hrest, effect_untaken (body_eq_nil_iff.mp hbody)]
      · intro hne
        by_cases hrest : c.bodies rest = []
        · rw [hrest, List.append_nil] at hne
          have htaken : taken (c.replied y) ≠ [] := fun h => hne (body_eq_nil_iff.mpr h)
          rcases anew_taken o d htaken with ⟨hfile, hcrc⟩
          rw [hnone hrest, hfile]
          exact ⟨c.body y, rfl, hcrc⟩
        · exact hsome hrest

/-!
# Both clients
-/

section Downloads

variable {request : GetObjectRequest τ} {opts : Option (OperationOptions τ)}
variable {w w' : Runtime τ} {result : GetObjectResult} {fuel : Nat}

theorem downloadRange_start {range : ByteString} {first last : Int}
    (hrange : downloadRange range = .ok (first, last)) : 0 ≤ first := by
  unfold downloadRange at hrange
  simp only at hrange
  split at hrange
  · cases hrange
    exact Int.le_refl 0
  · split at hrange
    · rename_i first' last' hparse
      split at hrange
      · cases hrange
      · rename_i hpresent
        cases hrange
        have hside := (ParseRangeHeader_parsed hparse List.mem_cons_self).firstSide
        omega
    · cases hrange

theorem sync_completed (hundisturbed : c.Undisturbed)
    (hrun : c.getObjectToFile fuel request opts w = some (.ok result, w')) :
    exists first last, downloadRange request.getRange = .ok (first, last) ∧
      Completed c (c.plan request first last) request (c.download w).file.content [] 0
        (c.sent fuel request opts w) result w' := by
  unfold DownloadClient.getObjectToFile at hrun
  unfold DownloadClient.sent
  cases hrange : downloadRange request.getRange with
  | error e =>
      rw [hrange] at hrun
      cases hrun
  | ok range =>
      rcases range with ⟨first, last⟩
      rw [hrange] at hrun
      have hmade := download_modify c Download.observersMade w
      have hholds : Holds (c.download w).file.content []
          (c.download (c.modify Download.observersMade w)) := by
        rw [hmade]
        rfl
      have hcompleted := @loop_completed _ _ (c.plan request first last) _ _
          hundisturbed (downloadRange_start hrange) fuel _ _ _ _ _ hholds hrun
      rw [hmade] at hcompleted
      exact ⟨first, last, rfl, hcompleted⟩

/-- A successful run of the asynchronous client. -/
structure CompletedAsync (c : DownloadClient τ) (request : GetObjectRequest τ)
    (d : Download) (sent : List (Exchange τ)) (result : GetObjectResult)
    (w' : Runtime τ) : Prop where
  download : c.download w' =
    sent.foldl (c.effect (c.asyncObservers request) (c.asyncObservers request).openAnew) d
  asks : c.base.options.signer.KeepsHeader (bytes "Range") -> forall y, y ∈ sent ->
    y.request.headers.find? (bytes "Range") = request.headers.find? (bytes "Range")
  attempts : exists earlier y, sent = earlier ++ [y] ∧ Answered c y result
  checked : (c.asyncObservers request).crcObserver = true ->
    checkCrc (c.download w') result = .ok result

theorem async_completed (hundisturbed : c.Undisturbed)
    (hrun : c.getObjectToFileAsync fuel request opts w = some (.ok result, w')) :
    CompletedAsync c request (c.download w).observersMade
      (c.sentAsync fuel request opts w) result w' := by
  unfold DownloadClient.getObjectToFileAsync at hrun
  unfold DownloadClient.sentAsync
  simp only at hrun ⊢
  cases hmissing : (c.asyncRequest request).missing with
  | some e =>
      rw [hmissing] at hrun
      cases hrun
  | none =>
      rw [hmissing] at hrun
      simp only [Option.map_eq_some_iff] at hrun
      rcases hrun with ⟨⟨opResult, w''⟩, hexecute, houtcome⟩
      rw [Prod.mk.injEq] at houtcome
      rcases houtcome with ⟨hok, hw⟩
      simp only at hok hw
      rw [hw] at hexecute hok
      have heffect := hasEffect hundisturbed (c.asyncObservers request) false
        (c.asyncObservers request).openAnew
      have hkeeps := keepsRequests_sameRange c (c.asyncRequest request)
      have hsentBy := executeAsync_sentBy hundisturbed.leaves heffect hkeeps
        (fun _ _ => prepare_sameRange) hexecute
      have hdownload := hsentBy.part
      have hmade : c.cell.get (c.modify Download.observersMade w).env =
          (c.download w).observersMade := download_modify c _ w
      rw [hmade] at hdownload
      cases opResult with
      | error e => cases hok
      | output o =>
          have hruns : Runs c.client _ _ _ _ .async _ _ _ := Runs.async hexecute
          rcases answered_of_output rfl hruns with ⟨y, hsent, hanswered⟩
          have hlast := hsentBy.last y hsent
          rcases List.getLast?_eq_some_iff.mp hlast with ⟨earlier, hall⟩
          have hresult : toGetObject o = result ∧
              ((c.asyncObservers request).crcObserver = true ->
                checkCrc (c.download w') result = .ok result) := by
            unfold DownloadClient.asyncOutcome at hok
            simp only at hok
            split at hok
            · have hsame := checkCrc_ok hok
              exact ⟨hsame, fun _ => hsame ▸ hok⟩
            · rename_i hnot
              cases hok
              exact ⟨rfl, fun hobserved => absurd hobserved hnot⟩
          rw [hresult.1] at hanswered
          exact ⟨hdownload, fun hkeeps z hz => hsentBy.request z hz hkeeps,
            ⟨earlier, y, hall, hanswered⟩, hresult.2⟩

end Downloads

end Replies

end Client
end OssSdk
