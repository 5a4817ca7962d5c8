import OssSdk.Client.SelectObject

/-!
# What the outcome of a select operation tells

The transport looks at the decoder before and after every chunk, and not after the
last one.  Nobody asks the decoder whether the result came to its end.
-/

namespace OssSdk
namespace Client

open Foundation
open Internal
open Sync
open Transport
open Transform

variable {τ σ ρ : Type}

/-!
# The decoder as a sink
-/

/-- What the decoder shows to the transport, by what it has taken in. -/
def showsFail (inner : Option (ByteWriter ρ)) (a : Deframer ρ) : Bool :=
  a.fault || inner.any (·.fail a.env)

def showsBad (inner : Option (ByteWriter ρ)) (a : Deframer ρ) : Bool :=
  !a.fault && inner.any (·.bad a.env)

/-- A failure shows before a chunk, or as a bad state after one. -/
def refusalShown (inner : Option (ByteWriter ρ)) :
    List ByteString -> Deframer ρ -> Bool
  | [], _ => false
  | chunk :: rest, a =>
      let a' := (SelectFrameDecodingWriter.actions inner).takeIn a chunk
      showsFail inner a || showsBad inner a' || refusalShown inner rest a'

section Decoder

variable {decoder : Cell τ (FrameParser DecodedResult)} {sink : Cell τ ρ}
variable {inner : Option (ByteWriter ρ)} {a : Deframer ρ} {w : τ}

/-- The decoder and its sink, after what has been taken in. -/
def Decoded (decoder : Cell τ (FrameParser DecodedResult)) (sink : Cell τ ρ)
    (inner : Option (ByteWriter ρ)) (a : Deframer ρ) (w : τ) : Prop :=
  Represents (SelectFrameDecodingWriter.actions inner) ⟨0, []⟩ (decoder.get w)
    (sink.get w) a

theorem Decoded.iostate (hdecoded : Decoded decoder sink inner a w) :
    (SelectFrameDecodingWriter decoder sink inner).iostate w =
      if a.fault then ⟨false, true, false⟩
      else inner.elim IoState.goodbit (·.iostate a.env) := by
  have hstate : (SelectFrameDecodingWriter decoder sink inner).iostate w =
      SelectFrameDecodingWriter.iostate inner (decoder.get w) (sink.get w) := rfl
  rw [hstate, hdecoded.reflects.env]
  unfold SelectFrameDecodingWriter.iostate
  rw [hdecoded.reflects.error]
  cases inner <;> rfl

theorem Decoded.fail (hdecoded : Decoded decoder sink inner a w) :
    (SelectFrameDecodingWriter decoder sink inner).fail w = showsFail inner a := by
  unfold ByteWriter.fail showsFail
  rw [hdecoded.iostate]
  cases a.fault with
  | true => rfl
  | false => cases inner <;> rfl

theorem Decoded.bad (hdecoded : Decoded decoder sink inner a w) :
    (SelectFrameDecodingWriter decoder sink inner).bad w = showsBad inner a := by
  unfold ByteWriter.bad showsBad
  rw [hdecoded.iostate]
  cases a.fault with
  | true => rfl
  | false => cases inner <;> rfl

theorem Decoded.write (hapart : decoder.Apart sink)
    (hdecoded : Decoded decoder sink inner a w)
    (chunk : ByteString) :
    Decoded decoder sink inner
      ((SelectFrameDecodingWriter.actions inner).takeIn a chunk)
      ((SelectFrameDecodingWriter decoder sink inner).write chunk w).2 := by
  have hnext := hdecoded.onWrite chunk
  unfold Decoded ByteWriter.write SelectFrameDecodingWriter
    SelectFrameDecodingWriter.onWrite
  simp only [Cell.get_set, hapart.get_set_left]
  exact hnext

theorem Decoded.refusalSeen (hapart : decoder.Apart sink)
    (hdecoded : Decoded decoder sink inner a w)
    (chunks : List ByteString) :
    Transport.refusalSeen true (SelectFrameDecodingWriter decoder sink inner)
      chunks w = refusalShown inner chunks a := by
  induction chunks generalizing a w with
  | nil => rfl
  | cons chunk rest ih =>
      have hnext := hdecoded.write hapart chunk
      rw [Transport.refusalSeen, refusalShown, hdecoded.fail, hnext.bad, ih hnext,
        Bool.true_and]

theorem Decoded.writeAll (hapart : decoder.Apart sink)
    (hdecoded : Decoded decoder sink inner a w)
    (chunks : List ByteString) (writes : List (ByteString × Nat)) :
    let writer := SelectFrameDecodingWriter decoder sink inner
    let r := Reception.writeAll ⟨some (.user writer), writes, w⟩ chunks
    r.sink = some (.user writer) ∧
      Decoded decoder sink inner
        ((SelectFrameDecodingWriter.actions inner).takeAll a chunks) r.env := by
  induction chunks generalizing a w writes with
  | nil => exact ⟨rfl, hdecoded⟩
  | cons chunk rest ih => exact ih (hdecoded.write hapart chunk) _

end Decoder

/-!
# The reply to the last request
-/

namespace SelectClient

variable (c : SelectClient τ σ)

/-- What comes in for a request, and what is left of the environment. -/
def replied (y : Exchange τ) : Curl.Reply × τ :=
  c.curl.wire y.request y.runtime.env

def received (y : Exchange τ) : Int × Curl.TransferIO τ :=
  (c.replied y).1.perform y.context.transportContext c.curl.isRequestDisabled
    (c.replied y).2

/-- The sink that the frames of a reply are decoded into. -/
def innerOf (request : SelectObjectRequest σ) (y : Exchange τ) :
    Option (ByteWriter (σ × ByteString)) × σ × ByteString :=
  innerSink request.sinkFactory (c.replied y).1.recvDataLength
    (c.replied y).1.headers (c.cells.sinks.get (c.replied y).2)

/-- What the decoder of a reply takes in. -/
def takes (request : SelectObjectRequest σ) (y : Exchange τ) :
    Deframer (σ × ByteString) :=
  (SelectFrameDecodingWriter.actions (c.innerOf request y).1).takeAll
    (Deframer.init (c.innerOf request y).2) (c.replied y).1.chunks

/--
The body went to a decoder, which is at rest, and an end frame with a successful
status was among its frames.
-/
structure ReceivesEnd (y : Exchange τ) (w' : Runtime τ) : Prop where
  decoded : exists writer, (c.received y).2.reception.sink = some (.user writer)
  atRest : (c.cells.decoder.get w'.env).AtRest
  ends : exists f,
    f ∈ (SelectFraming.split (c.replied y).1.chunks.flatten).frames ∧
      SelectFrame.endsWell f = true

/-- A successful outcome of a result in frames is that of a result that ended well. -/
def TellsOfEnd (sent : Option (Exchange τ))
    (outcome : Except OperationError SelectObjectResult) (w' : Runtime τ) : Prop :=
  forall result, outcome = .ok result -> result.statusCode.tdiv 100 = 2 ->
    isRaw result.headers = false ->
    exists y, sent = some y ∧ c.ReceivesEnd y w'

/-- What the decoder makes of a reply is seen in time, or is a complete result. -/
def DecodesWell (request : SelectObjectRequest σ) (y : Exchange τ) : Prop :=
  refusalShown (c.innerOf request y).1 (c.replied y).1.chunks
      (Deframer.init (c.innerOf request y).2) = true ∨
    (c.takes request y).fault = false ∧ (c.takes request y).pending = [] ∧
      exists f, f ∈ (c.takes request y).frames ∧ SelectFrame.endsWell f = true

/-- A reply that is not taken for a success, or is one. -/
def TellsWhen (request : SelectObjectRequest σ) (y : Exchange τ) : Prop :=
  let reply := (c.replied y).1
  reply.res ≠ Curl.CURLE_OK ∨ reply.statusCode.tdiv 100 ≠ 2 ∨
    isRaw reply.headers = true ∨
    reply.statusCode ≠ 203 ∧ reply.chunks ≠ [] ∧ c.DecodesWell request y

end SelectClient

/-!
# What the transport makes of a reply
-/

section Reply

variable {c : SelectClient τ σ} {request : SelectObjectRequest σ} {y : Exchange τ}

/-- The sink factory of the request is the one that decodes. -/
def DecodesFor (c : SelectClient τ σ) (request : SelectObjectRequest σ)
    (y : Exchange τ) : Prop :=
  y.context.transportContext.sinkFactory =
    some (selectSinkFactory c.cells request.sinkFactory)

theorem answers_iff (r : ResponseMessage) (env : τ) :
    c.client.Answers y r env ↔
      (c.received y).1 = Curl.CURLE_OK ∧
        (c.received y).2.reception.env = env ∧
        r = { statusCode := (c.received y).2.statusCode
              reason := []
              headers := (c.received y).2.headers
              body := (c.received y).2.reception.defaultSink } := by
  have hsend : c.client.httpTransport.send y.request y.context.transportContext
      y.runtime.env =
        (Curl.transferResult (c.received y).1 (c.replied y).1.text
          (c.received y).2, y.request, (c.received y).2.reception.env) := rfl
  unfold ClientImpl.Answers Curl.transferResult at *
  rw [hsend]
  by_cases hok : (c.received y).1 = Curl.CURLE_OK
  · rw [if_pos hok]
    constructor
    · intro hanswers
      rcases hanswers with ⟨_, hsame⟩
      cases hsame
      exact ⟨hok, rfl, rfl⟩
    · intro hanswers
      rcases hanswers with ⟨_, henv, hr⟩
      rw [henv, hr]
      exact ⟨y.request, rfl⟩
  · rw [if_neg hok]
    constructor
    · intro hanswers
      rcases hanswers with ⟨_, hsame⟩
      cases hsame
    · exact fun hanswers => absurd hanswers.1 hok

theorem received_fields :
    (c.received y).2.statusCode = (c.replied y).1.statusCode ∧
      (c.received y).2.headers = (c.replied y).1.headers :=
  Curl.easyPerform_fields _ _ _

/-- What the transfer is when the first chunk comes. -/
def SelectClient.begun (c : SelectClient τ σ) (y : Exchange τ) :
    Curl.TransferIO τ :=
  { Curl.TransferIO.init (c.replied y).1.statusCode (c.replied y).1.headers
      y.context.transportContext.sinkFactory (c.replied y).1.recvDataLength
      (c.replied y).2 with
    cancellationToken := y.context.transportContext.cancellationToken
    isRequestDisabled := c.curl.isRequestDisabled }

/-- Where the body does not go to the factory's sink, it is received as it is. -/
theorem received_default
    (hres : (c.replied y).1.res = Curl.CURLE_OK)
    (hdefault : (c.replied y).1.chunks = [] ∨
      isErrorStatus (c.replied y).1.statusCode = true) :
    (c.received y).1 = Curl.CURLE_OK ∧
      forall writer, (c.received y).2.reception.sink ≠ some (.user writer) := by
  have hreceived : c.received y =
      Curl.easyPerform Curl.CURLE_OK (c.replied y).1.chunks (c.begun y) := by
    rw [← hres]
    rfl
  by_cases hchunks : (c.replied y).1.chunks = []
  · rw [hreceived, hchunks]
    exact ⟨rfl, fun _ h => nomatch h⟩
  · have hstatus := hdefault.resolve_left hchunks
    have hsink : (c.begun y).chooseSink.reception =
        ⟨some (.default []), [], (c.replied y).2⟩ := by
      unfold Curl.TransferIO.chooseSink
      split
      · rename_i hgood
        rw [show isErrorStatus (c.replied y).1.statusCode = false from hgood]
          at hstatus
        cases hstatus
      · rfl
    have hchosen : (c.begun y).chooseSink.recvFirstData = false := by
      unfold Curl.TransferIO.chooseSink
      split <;> rfl
    have hperform := (Curl.easyPerform_eq Curl.CURLE_OK (c.replied y).1.chunks
      (c.begun y).chooseSink (c.replied y).1.chunks_nonempty hchosen
      (by rw [hsink]; rfl)).2
      (by rw [hsink]; exact Reception.refusalSeen_default ..)
    rw [hreceived, Curl.easyPerform_first _ hchunks rfl, hperform]
    refine ⟨rfl, fun writer hwriter => ?_⟩
    rw [hsink, Reception.writeAll_default] at hwriter
    cases hwriter

/-- Where the body comes in frames, the decoder takes them in. -/
theorem received_decoded
    (hfactory : DecodesFor c request y)
    (hres : (c.replied y).1.res = Curl.CURLE_OK)
    (hchunks : (c.replied y).1.chunks ≠ [])
    (hstatus : isErrorStatus (c.replied y).1.statusCode = false)
    (hraw : isRaw (c.replied y).1.headers = false) :
    let seen := refusalShown (c.innerOf request y).1 (c.replied y).1.chunks
      (Deframer.init (c.innerOf request y).2)
    (seen = true -> (c.received y).1 ≠ Curl.CURLE_OK) ∧
      (seen = false ->
        (c.received y).1 = Curl.CURLE_OK ∧
          (exists writer,
            (c.received y).2.reception.sink = some (.user writer)) ∧
          Decoded c.cells.decoder c.cells.sinks (c.innerOf request y).1
            (c.takes request y) (c.received y).2.reception.env) := by
  intro seen
  have hapart := c.cells.apart
  have hreceived : c.received y =
      Curl.easyPerform Curl.CURLE_OK (c.replied y).1.chunks (c.begun y) := by
    rw [← hres]
    rfl
  let writer := SelectFrameDecodingWriter c.cells.decoder c.cells.sinks
    (c.innerOf request y).1
  let w := c.cells.decoder.set SelectFrameDecodingWriter.init
    (c.cells.sinks.set (c.innerOf request y).2 (c.replied y).2)
  have hcall : (selectSinkFactory c.cells request.sinkFactory).call
      (c.replied y).1.recvDataLength (c.replied y).1.headers (c.replied y).2 =
        (some writer, w) := by
    simp only [SinkFactory.call, selectSinkFactory, hraw, Bool.false_eq_true,
      if_false]
    rfl
  have hbegun : (c.begun y).chooseSink =
      { c.begun y with
        recvFirstData := false
        reception := ⟨some (.user writer), [], w⟩ } := by
    have hsink : (c.begun y).sinkFactory =
        some (selectSinkFactory c.cells request.sinkFactory) := hfactory
    have hgood : isErrorStatus (c.begun y).statusCode = false := hstatus
    unfold Curl.TransferIO.chooseSink
    rw [hsink, hgood]
    have hcall' : (selectSinkFactory c.cells request.sinkFactory).call
        (c.begun y).recvDataLength (c.begun y).headers (c.begun y).reception.env =
          (some writer, w) := hcall
    simp only [hcall']
    rw [← hsink]
    rfl
  have hdecoded : Decoded c.cells.decoder c.cells.sinks (c.innerOf request y).1
      (Deframer.init (c.innerOf request y).2) w := by
    unfold Decoded
    simp only [w, Cell.get_set, hapart.get_set_left]
    exact represents_init _ _ _
  have hseen : Reception.refusalSeen true (c.replied y).1.chunks
      ⟨some (.user writer), [], w⟩ = seen := by
    rw [Reception.refusalSeen_user]
    exact hdecoded.refusalSeen hapart _
  have hperform := Curl.easyPerform_eq Curl.CURLE_OK (c.replied y).1.chunks
    { c.begun y with
      recvFirstData := false
      reception := ⟨some (.user writer), [], w⟩ }
    (c.replied y).1.chunks_nonempty rfl rfl
  rw [hseen] at hperform
  rw [hreceived, Curl.easyPerform_first _ hchunks rfl, hbegun]
  constructor
  · intro htrue
    rw [hperform.1 htrue]
    decide
  · intro hfalse
    rw [hperform.2 hfalse]
    rcases hdecoded.writeAll hapart (c.replied y).1.chunks [] with ⟨hsink, hall⟩
    exact ⟨rfl, ⟨writer, hsink⟩, hall⟩

end Reply

/-!
# Outcomes
-/

section Outcome

variable {c : SelectClient τ σ} {request : SelectObjectRequest σ}
variable {opts : Option (OperationOptions τ)} {w w' : Runtime τ} {kind : ClientKind}
variable {sent : Option (Exchange τ)}
variable {outcome : Except OperationError SelectObjectResult}

theorem innerOpts_checks (o : OperationInnerOptions τ)
    (ho : c.innerOpts request = some o) : o.onResponseMessage = [] := by
  cases ho
  rfl

/-- A call fails before it sends anything, or is a run of the client. -/
theorem Selects.runs (hselects : Selects c request opts w kind sent outcome w') :
    (sent = none ∧ exists e, outcome = .error e) ∨
      exists result, outcome = c.outcome request result w' ∧
        Runs c.client (fromSelectObject c.CalcContentMD5 request) opts
          (c.innerOpts request) w kind sent result w' := by
  cases hselects with
  | sync =>
      unfold SelectClient.lastSent SelectClient.selectObject
      cases hmissing : request.missing with
      | some e => exact Or.inl ⟨rfl, e, rfl⟩
      | none => exact Or.inr ⟨_, rfl, Runs.sync⟩
  | async hcalled =>
      unfold SelectClient.selectObjectAsync at hcalled
      unfold SelectClient.lastSentAsync
      cases hmissing : request.missing with
      | some e =>
          rw [hmissing] at hcalled
          cases hcalled
          exact Or.inl ⟨rfl, e, rfl⟩
      | none =>
          rw [hmissing] at hcalled
          simp only [Option.map_eq_some_iff] at hcalled
          rcases hcalled with ⟨⟨result, w''⟩, hrun, hsame⟩
          cases hsame
          exact Or.inr ⟨result, rfl, Runs.async hrun⟩

/-- A successful outcome is that of the response to what was sent last. -/
theorem Selects.of_ok {result : SelectObjectResult}
    (hselects : Selects c request opts w kind sent outcome w')
    (hok : outcome = .ok result) :
    exists y r, sent = some y ∧ DecodesFor c request y ∧
      c.client.Answers y r w'.env ∧ result.statusCode = r.statusCode ∧
      result.headers = r.headers := by
  rcases hselects.runs with ⟨_, e, herror⟩ | ⟨op, houtcome, hruns⟩
  · rw [herror] at hok
    cases hok
  · cases op with
    | error e =>
        rw [houtcome] at hok
        cases hok
    | output o =>
        rcases hruns.of_output innerOpts_checks rfl with
          ⟨y, r, env, hsent, hfactory, hanswers, ho, henv⟩
        refine ⟨y, r, hsent, hfactory, henv ▸ hanswers, ?_⟩
        rw [houtcome] at hok
        unfold SelectClient.outcome at hok
        simp only at hok
        split at hok
        · cases hok
          rw [ho]
          exact ⟨rfl, rfl⟩
        · cases hok
          rw [ho]
          exact ⟨rfl, rfl⟩

/-- A response of a successful status makes a successful outcome. -/
theorem Selects.of_answered {y : Exchange τ} {r : ResponseMessage} {env : τ}
    (hselects : Selects c request opts w kind (some y) outcome w')
    (hanswers : c.client.Answers y r env)
    (hstatus : r.statusCode.tdiv 100 = 2) :
    w'.env = env ∧ exists result, outcome = .ok result ∧
      result.statusCode = r.statusCode ∧ result.headers = r.headers := by
  rcases hselects.runs with ⟨hnone, _⟩ | ⟨op, houtcome, hruns⟩
  · cases hnone
  · rcases hruns.of_answered innerOpts_checks hanswers hstatus with
      ⟨_, hop, henv⟩
    refine ⟨henv, ?_⟩
    rw [houtcome, hop]
    unfold SelectClient.outcome
    simp only
    split
    · exact ⟨_, rfl, rfl, rfl⟩
    · exact ⟨_, rfl, rfl, rfl⟩

/-- The factory that decodes is that of every request that was sent. -/
theorem Selects.decodesFor {y : Exchange τ}
    (hselects : Selects c request opts w kind (some y) outcome w') :
    DecodesFor c request y := by
  rcases hselects.runs with ⟨hnone, _⟩ | ⟨op, _, hruns⟩
  · cases hnone
  · rcases hruns.lastAttempt innerOpts_checks with ⟨hnone, _⟩ |
      ⟨z, hsent, _, _, hsink, _⟩
    · cases hnone
    · cases attempt_attempted c.client z with
      | stopped _ hnone _ _ _ =>
          rw [hnone] at hsent
          cases hsent
      | sent y' hhands _ _ hsame =>
          rw [hhands] at hsent
          cases hsent
          unfold DecodesFor
          rw [hsame.transportContext, hsink]
          rfl

/-- The frames that were taken in are those of the body. -/
theorem frames_takes {y : Exchange τ}
    (hgood : (c.takes request y).fault = false) :
    SelectFraming.split (c.replied y).1.chunks.flatten =
      ⟨(c.takes request y).frames, (c.takes request y).pending⟩ :=
  takeAll_feed (Deframer.between_init _) (c.replied y).1.chunks hgood

/-- What a reply that is received tells, where its body comes in frames. -/
theorem receivesEnd_iff {y : Exchange τ}
    (hdecoded : Decoded c.cells.decoder c.cells.sinks (c.innerOf request y).1
      (c.takes request y) w'.env)
    (hwriter : exists writer,
      (c.received y).2.reception.sink = some (.user writer)) :
    c.ReceivesEnd y w' ↔
      (c.takes request y).fault = false ∧ (c.takes request y).pending = [] ∧
        exists f, f ∈ (c.takes request y).frames ∧
          SelectFrame.endsWell f = true := by
  have hrest := hdecoded.atRest_iff
  constructor
  · intro hreceives
    rcases hrest.mp hreceives.atRest with ⟨hfault, hpending⟩
    have hends := hreceives.ends
    rw [frames_takes hfault] at hends
    exact ⟨hfault, hpending, hends⟩
  · intro hall
    rcases hall with ⟨hfault, hpending, hends⟩
    refine ⟨hwriter, hrest.mpr ⟨hfault, hpending⟩, ?_⟩
    rw [frames_takes hfault]
    exact hends

theorem not_errorStatus {statusCode : Int} (hstatus : statusCode.tdiv 100 = 2) :
    isErrorStatus statusCode = false ↔ statusCode ≠ 203 := by
  unfold isErrorStatus
  rw [hstatus]
  simp

end Outcome

/-!
# A result that is cut off
-/

/-- The decoder, nothing of the caller's, and the stream of the client. -/
abbrev SelectState : Type := FrameParser DecodedResult × Unit × ByteString

def selectCells : SelectCells SelectState Unit where
  decoder := Cell.fst
  sinks := Cell.snd
  apart := ⟨fun _ _ => rfl, fun _ _ => rfl⟩

/-- Three bytes of a header, and then the end of the body. -/
def truncatedReply : Curl.Reply where
  statusCode := 200
  headers := SortedMap.empty
  recvDataLength := 3
  chunks := [[1, 128, 0]]
  res := Curl.CURLE_OK
  text := []
  chunks_nonempty := by decide

def truncatedClient : SelectClient SelectState Unit where
  base := anonymousBase _
  disableState := ⟨fun _ => false, fun _ s => (false, s)⟩
  curl := ⟨fun _ s => (truncatedReply, s), none⟩
  cells := selectCells
  CalcContentMD5 data := data

def selectAll : SelectObjectRequest Unit where
  bucket := bytes "bucket"
  key := bytes "key"
  process := bytes "csv/select"
  headers := SortedMap.empty
  parameters := SortedMap.empty
  selectRequest := some (bytes "<SelectRequest/>")
  sinkFactory := none

def selectStart : Runtime SelectState :=
  ⟨0, SelectFrameDecodingWriter.init, (), []⟩

theorem truncated_ok :
    (truncatedClient.selectObject selectAll none selectStart).1 =
      .ok ⟨200, SortedMap.empty, some []⟩ := by
  decide +kernel

end Client
end OssSdk
