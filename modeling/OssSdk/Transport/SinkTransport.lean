import OssSdk.Transport.Curl.CurlHttpClient
import OssSdk.Transport.WinHttp.WinHttpHelper

/-!
# Transports and the part of the state that a sink writes to

A transport touches that part through the sinks that it has made, if it makes any: the
factory prepares it, and the writer is offered some chunks.  libcurl makes a sink when the
first byte comes in, WinHTTP when the headers do.
-/

namespace OssSdk
namespace Transport

open Foundation
open Internal

variable {τ δ : Type}

/-- A factory whose sinks write to one part of the state. -/
def partFactory (cell : Cell τ δ) (writer : ByteWriter δ) (opened : Int -> δ -> δ)
    (isOneShot : Bool) : SinkFactory τ where
  supplier := some fun size _ w => (some (writer.on cell), cell.modify (opened size) w)
  isOneShot := isOneShot

/-- A sink for so many bytes, with the chunks that it was offered. -/
structure Offer where
  size : Int
  chunks : List ByteString
deriving DecidableEq

/-- What is left of the part, whether a sink was made or not. -/
def Offer.leaves (writer : ByteWriter δ) (opened : Int -> δ -> δ) (d : δ) :
    Option Offer -> δ
  | none => d
  | some offer => writer.writes offer.chunks (opened offer.size d)

/-- The chunks that the sink of a caller has been offered. -/
def Reception.offered (r : Reception τ) (size : Int) : Option Offer :=
  match r.sink with
  | some (.user _) => some ⟨size, r.writes.map Prod.fst⟩
  | _ => none

/-- A transport that touches the part through sinks alone, and minds their bad state. -/
structure SinkTransport (cell : Cell τ δ) where
  transport : HttpTransport τ
  offered : RequestMessage τ -> RequestOptions τ -> τ -> Option Offer
  touches : forall {request options env writer opened isOneShot},
    options.sinkFactory = some (partFactory cell writer opened isOneShot) ->
    cell.get (transport.send request options env).2.2 =
      Offer.leaves writer opened (cell.get env) (offered request options env)
  minds : forall {request options env writer opened isOneShot response offer},
    options.sinkFactory = some (partFactory cell writer opened isOneShot) ->
    (transport.send request options env).1 = .response response ->
    offered request options env = some offer -> offer.chunks ≠ [] ->
    writer.bad (cell.get (transport.send request options env).2.2) = false

/-!
# Receptions
-/

section Reception

variable {cell : Cell τ δ} {writer : ByteWriter δ} {opened : Int -> δ -> δ}
variable {size : Int} {env : τ} {r : Reception τ}

/-- A reception that has begun with this part of the state. -/
structure Reception.OffersTo (cell : Cell τ δ) (writer : ByteWriter δ)
    (opened : Int -> δ -> δ) (size : Int) (env : τ) (r : Reception τ) : Prop where
  sink : forall b, r.sink = some (.user b) -> b = writer.on cell
  part : cell.get r.env = Offer.leaves writer opened (cell.get env) (r.offered size)

theorem writes_concat (writer : ByteWriter δ) (chunks : List ByteString)
    (chunk : ByteString) (d : δ) :
    writer.writes (chunks ++ [chunk]) d = (writer.write chunk (writer.writes chunks d)).2 := by
  induction chunks generalizing d with
  | nil => rfl
  | cons first rest ih => exact ih _

theorem Reception.OffersTo.write (hoffers : r.OffersTo cell writer opened size env)
    (chunk : ByteString) : (r.write chunk).OffersTo cell writer opened size env := by
  have hpart := hoffers.part
  unfold Reception.offered at hpart
  unfold Reception.write
  cases hsink : r.sink with
  | none => exact hoffers
  | some sink =>
      rw [hsink] at hpart
      cases sink with
      | default body =>
          constructor
          · intro b hb
            cases hb
          · exact hpart
      | user b =>
          rw [hoffers.sink b hsink]
          constructor
          · intro b' hb'
            cases hb'
            rfl
          · have hwritten : cell.get ((writer.on cell).write chunk r.env).2 =
                (writer.write chunk (cell.get r.env)).2 := cell.get_set _ _
            simp only [Reception.offered, List.map_append, List.map_cons, List.map_nil]
            rw [hwritten, hpart]
            exact (writes_concat writer _ chunk _).symm

end Reception

/-!
# libcurl
-/

namespace Curl

section Curl

variable {cell : Cell τ δ} {writer : ByteWriter δ} {opened : Int -> δ -> δ}
variable {isOneShot : Bool} {env : τ}

theorem chooseSink_offersTo {io : TransferIO τ}
    (hfactory : io.sinkFactory = some (partFactory cell writer opened isOneShot))
    (hreception : io.reception = ⟨none, [], env⟩) :
    io.chooseSink.reception.OffersTo cell writer opened io.recvDataLength env := by
  have hcall : (partFactory cell writer opened isOneShot).call io.recvDataLength io.headers
      env = (some (writer.on cell), cell.modify (opened io.recvDataLength) env) := rfl
  unfold TransferIO.chooseSink
  rw [hfactory, hreception]
  cases isErrorStatus io.statusCode with
  | true =>
      constructor
      · intro b hb
        cases hb
      · rfl
  | false =>
      simp only [hcall]
      constructor
      · intro b hb
        cases hb
        rfl
      · exact cell.get_modify _ _

/-- The callbacks of a transfer write to its sink, and a good one has found it good. -/
theorem easyPerform_offersTo {size : Int} (res : Int) (chunks : List ByteString)
    {io : TransferIO τ} (hchosen : io.recvFirstData = false)
    (hoffers : io.reception.OffersTo cell writer opened size env) :
    (easyPerform res chunks io).2.reception.OffersTo cell writer opened size env ∧
      ((forall chunk, chunk ∈ chunks -> chunk ≠ []) ->
        (easyPerform res chunks io).1 = CURLE_OK -> chunks ≠ [] ->
        (easyPerform res chunks io).2.reception.bad = false) := by
  induction chunks generalizing io with
  | nil => exact ⟨hoffers, fun _ _ hnone => absurd rfl hnone⟩
  | cons chunk rest ih =>
      rcases hcall : recvBodyCallback io chunk with ⟨got, io'⟩
      have hstep : io'.recvFirstData = false ∧
          io'.reception.OffersTo cell writer opened size env ∧
          (got ≠ 0 -> io'.reception.bad = false) := by
        unfold recvBodyCallback at hcall
        rw [hchosen, if_neg Bool.false_ne_true] at hcall
        simp only at hcall
        split at hcall
        · cases hcall
          exact ⟨hchosen, hoffers, fun hzero => absurd rfl hzero⟩
        · split at hcall
          · cases hcall
            exact ⟨hchosen, hoffers.write chunk, fun hzero => absurd rfl hzero⟩
          · rename_i hgood
            cases hcall
            exact ⟨hchosen, hoffers.write chunk, fun _ => Bool.eq_false_iff.mpr hgood⟩
      rcases hstep with ⟨hchosen', hoffers', hgood⟩
      rcases ih hchosen' hoffers' with ⟨hall, hlast⟩
      simp only [easyPerform, hcall]
      split
      · rename_i hgot
        refine ⟨hall, fun hnonempty hok _ => ?_⟩
        by_cases hrest : rest = []
        · rw [hrest]
          refine hgood ?_
          rw [hgot]
          intro hzero
          exact hnonempty chunk List.mem_cons_self (List.length_eq_zero_iff.mp hzero)
        · exact hlast (fun c hc => hnonempty c (List.mem_cons_of_mem _ hc)) hok hrest
      · refine ⟨hoffers', fun _ hok _ => ?_⟩
        cases hok

theorem perform_offersTo (env : τ) (reply : Reply) {options : RequestOptions τ}
    (isRequestDisabled : Option (τ -> Bool))
    (hfactory : options.sinkFactory = some (partFactory cell writer opened isOneShot)) :
    (reply.perform options isRequestDisabled env).2.reception.OffersTo cell writer opened
        reply.recvDataLength env ∧
      ((reply.perform options isRequestDisabled env).1 = CURLE_OK -> reply.chunks ≠ [] ->
        (reply.perform options isRequestDisabled env).2.reception.bad = false) := by
  by_cases hchunks : reply.chunks = []
  · rw [(Reply.perform_empty hchunks).2]
    refine ⟨⟨fun b hb => (nomatch hb), rfl⟩, fun _ hsome => absurd hchunks hsome⟩
  · let begun : TransferIO τ :=
      { TransferIO.init reply.statusCode reply.headers options.sinkFactory
          reply.recvDataLength env with
        cancellationToken := options.cancellationToken
        isRequestDisabled := isRequestDisabled }
    have hperform : reply.perform options isRequestDisabled env =
        easyPerform reply.res reply.chunks begun.chooseSink :=
      easyPerform_first _ hchunks rfl
    have hchosen : begun.chooseSink.recvFirstData = false := by
      unfold TransferIO.chooseSink
      split
      · rfl
      · rfl
    have hbegun := @chooseSink_offersTo _ _ cell writer opened isOneShot env begun
        hfactory rfl
    rcases easyPerform_offersTo reply.res reply.chunks hchosen hbegun with ⟨hall, hlast⟩
    rw [hperform]
    exact ⟨hall, fun hok hsome => hlast reply.chunks_nonempty hok hsome⟩

/-- The synchronous client of libcurl, on a network that leaves the part alone. -/
def CurlHttpClient.sinkTransport (c : CurlHttpClient τ) (cell : Cell τ δ)
    (hwire : forall request env, cell.get (c.wire request env).2 = cell.get env) :
    SinkTransport cell where
  transport := c.send
  offered request options env :=
    (c.received request options env).2.reception.offered
      (c.wire request env).1.recvDataLength
  touches := by
    intro request options env writer opened isOneShot hfactory
    have hpart := (perform_offersTo (c.wire request env).2 (c.wire request env).1
      c.isRequestDisabled hfactory).1.part
    rw [hwire] at hpart
    exact hpart
  minds := by
    intro request options env writer opened isOneShot response offer hfactory hresponse
      hoffer hsome
    rcases perform_offersTo (c.wire request env).2 (c.wire request env).1
      c.isRequestDisabled hfactory with ⟨hoffers, hgood⟩
    have hgot : (c.received request options env).1 = CURLE_OK := by
      by_contra hfailed
      have hsend : (c.send.send request options env).1 =
          transferResult (c.received request options env).1 (c.wire request env).1.text
            (c.received request options env).2 := rfl
      rw [hsend, transferResult, if_neg hfailed] at hresponse
      cases hresponse
    have hchunks : (c.wire request env).1.chunks ≠ [] := by
      intro hnone
      have hempty := (@Reply.perform_empty _ _ options c.isRequestDisabled
          (c.wire request env).2 hnone).2
      have hoffer' : ((c.wire request env).1.perform options c.isRequestDisabled
          (c.wire request env).2).2.reception.offered
            (c.wire request env).1.recvDataLength = some offer := hoffer
      rw [hempty] at hoffer'
      cases hoffer'
    have hbad := hgood hgot hchunks
    have hsend : (c.send.send request options env).2.2 =
        ((c.wire request env).1.perform options c.isRequestDisabled
          (c.wire request env).2).2.reception.env := rfl
    unfold Reception.bad at hbad
    unfold CurlHttpClient.received Reception.offered at hoffer
    rw [hsend]
    split at hoffer
    · rename_i b hsink
      rw [hsink, hoffers.sink b hsink] at hbad
      exact hbad
    · cases hoffer

end Curl

end Curl

/-!
# WinHTTP
-/

namespace WinHttp

section WinHttp

variable {cell : Cell τ δ} {writer : ByteWriter δ} {opened : Int -> δ -> δ}
variable {isOneShot : Bool} {env : τ}

theorem createResponseSink_offersTo (statusCode : Int) (headers : HeaderCollection) :
    (createResponseSink statusCode (some (partFactory cell writer opened isOneShot))
      headers env).OffersTo cell writer opened (contentLengthOf headers) env := by
  have hcall : (partFactory cell writer opened isOneShot).call (contentLengthOf headers)
      headers env =
        (some (writer.on cell), cell.modify (opened (contentLengthOf headers)) env) := rfl
  unfold createResponseSink
  cases isErrorStatus statusCode with
  | true =>
      constructor
      · intro b hb
        cases hb
      · rfl
  | false =>
      simp only [hcall]
      constructor
      · intro b hb
        cases hb
        rfl
      · exact cell.get_modify _ _

/-- The read loop writes to its sink, and has found it good where it is complete. -/
theorem readLoop_offersTo {size : Int} (replies : List Reply) (available : Nat)
    {r : Reception τ} {out : Received τ}
    (hoffers : r.OffersTo cell writer opened size env)
    (hgood : r.writes ≠ [] -> r.bad = false)
    (hout : readLoop replies available r = some out) :
    out.reception.OffersTo cell writer opened size env ∧
      (forall r', out = .complete r' -> r'.writes ≠ [] -> r'.bad = false) := by
  induction replies generalizing available r with
  | nil =>
      cases available with
      | zero => cases hout
      | succ n => cases hout
  | cons reply rest ih =>
      cases available with
      | zero =>
          cases reply with
          | dataAvailable count =>
              simp only [readLoop] at hout
              split at hout
              · cases hout
                exact ⟨hoffers, fun r' hr' => by cases hr'; exact hgood⟩
              · exact ih count hoffers hgood hout
          | readComplete chunk => cases hout
          | failed aborted error =>
              simp only [readLoop] at hout
              split at hout
              · cases hout
                exact ⟨hoffers, fun r' hr' => by cases hr'⟩
              · cases hout
                exact ⟨hoffers, fun r' hr' => by cases hr'; exact hgood⟩
      | succ n =>
          cases reply with
          | dataAvailable count => cases hout
          | readComplete chunk =>
              simp only [readLoop] at hout
              split at hout
              · cases hout
              · split at hout
                · exact ih 0 hoffers hgood hout
                · split at hout
                  · cases hout
                    exact ⟨hoffers.write chunk, fun r' hr' => by cases hr'⟩
                  · rename_i hbad
                    exact ih _ (hoffers.write chunk)
                      (fun _ => Bool.eq_false_iff.mpr hbad) hout
          | failed aborted error =>
              simp only [readLoop] at hout
              split at hout
              · cases hout
                exact ⟨hoffers, fun r' hr' => by cases hr'⟩
              · exact ih 0 hoffers hgood hout

/--
What WinHTTP answers to a request: an error, or headers and the replies to the calls of
the read loop, which take it to its end whatever its sink is.
-/
inductive Answer (τ : Type) where
  | failed (te : TransportError)
  | headers (statusCode : Int) (headers : HeaderCollection) (replies : List Reply)
      (ends : forall r : Reception τ, (readLoop replies 0 r).isSome = true)

/-- `answer` is the network, the server and WinHTTP. -/
structure WinHttpClient (τ : Type) where
  answer : RequestMessage τ -> τ -> Answer τ × τ

/-- What the read loop comes to, where there are headers. -/
def WinHttpClient.received (c : WinHttpClient τ) (request : RequestMessage τ)
    (options : RequestOptions τ) (env : τ) : Option (Received τ) :=
  match c.answer request env with
  | (.failed _, _) => none
  | (.headers statusCode headers replies _, env) =>
      readLoop replies 0
        (createResponseSink statusCode options.sinkFactory headers env)

def WinHttpClient.send (c : WinHttpClient τ) : HttpTransport τ where
  send request options env :=
    match c.answer request env with
    | (.failed te, env) => (.error te, request, env)
    | (.headers statusCode headers replies ends, env) =>
        let out := (readLoop replies 0
          (createResponseSink statusCode options.sinkFactory headers env)).get (ends _)
        (out.result statusCode headers options.sinkFactory, request, out.reception.env)

theorem WinHttpClient.send_failed {c : WinHttpClient τ} {request : RequestMessage τ}
    {options : RequestOptions τ} {env env' : τ} {te : TransportError}
    (hanswer : c.answer request env = (.failed te, env')) :
    c.send.send request options env = (.error te, request, env') := by
  simp only [WinHttpClient.send, hanswer]

theorem WinHttpClient.send_headers {c : WinHttpClient τ} {request : RequestMessage τ}
    {options : RequestOptions τ} {env env' : τ} {statusCode : Int}
    {headers : HeaderCollection} {replies : List Reply}
    {ends : forall r : Reception τ, (readLoop replies 0 r).isSome = true}
    (hanswer : c.answer request env = (.headers statusCode headers replies ends, env'))
    {out : Received τ}
    (hout : readLoop replies 0
      (createResponseSink statusCode options.sinkFactory headers env') = some out) :
    c.send.send request options env =
      (out.result statusCode headers options.sinkFactory, request, out.reception.env) := by
  simp only [WinHttpClient.send, hanswer, hout, Option.get_some]

theorem createResponseSink_writes (statusCode : Int) (factory : Option (SinkFactory τ))
    (headers : HeaderCollection) (env : τ) :
    (createResponseSink statusCode factory headers env).writes = [] := by
  unfold createResponseSink
  split
  · split
    · rfl
    · rfl
  · rfl

/-- What has been received completely has found its sink good. -/
theorem Received.minds {size : Int} {out : Received τ}
    (hoffers : out.reception.OffersTo cell writer opened size env)
    (hgood : forall r, out = .complete r -> r.writes ≠ [] -> r.bad = false)
    {statusCode : Int} {headers : HeaderCollection} {factory : Option (SinkFactory τ)}
    {response : ResponseMessage} {offer : Offer}
    (hresponse : out.result statusCode headers factory = .response response)
    (hoffer : out.reception.offered size = some offer) (hsome : offer.chunks ≠ []) :
    writer.bad (cell.get out.reception.env) = false := by
  cases out with
  | error te r => cases hresponse
  | complete r =>
      simp only [Reception.offered, Received.reception] at hoffer hoffers ⊢
      split at hoffer
      · rename_i b hsink
        cases hoffer
        have hwritten : r.writes ≠ [] := by
          intro hnil
          rw [hnil] at hsome
          exact hsome rfl
        have hbad := hgood r rfl hwritten
        unfold Reception.bad at hbad
        rw [hsink] at hbad
        simp only [hoffers.sink b hsink] at hbad
        exact hbad
      · cases hoffer

/-- The synchronous client of WinHTTP, on a network that leaves the part alone. -/
def WinHttpClient.sinkTransport (c : WinHttpClient τ) (cell : Cell τ δ)
    (hanswer : forall request env, cell.get (c.answer request env).2 = cell.get env) :
    SinkTransport cell where
  transport := c.send
  offered request options env :=
    (c.received request options env).bind fun out =>
      match (c.answer request env).1 with
      | .headers _ headers _ _ => out.reception.offered (contentLengthOf headers)
      | .failed _ => none
  touches := by
    intro request options env writer opened isOneShot hfactory
    have hkept := hanswer request env
    unfold WinHttpClient.received
    rcases hcase : c.answer request env with ⟨answer, env'⟩
    rw [hcase] at hkept
    cases answer with
    | failed te =>
        rw [WinHttpClient.send_failed hcase]
        exact hkept
    | headers statusCode headers replies ends =>
        have hbegun := @createResponseSink_offersTo _ _ cell writer opened isOneShot env'
            statusCode headers
        rw [← hfactory] at hbegun
        have hnone : (createResponseSink statusCode options.sinkFactory headers
            env').writes = [] := createResponseSink_writes _ _ _ _
        rcases Option.isSome_iff_exists.mp (ends (createResponseSink statusCode
          options.sinkFactory headers env')) with ⟨out, hout⟩
        have hoffers := (readLoop_offersTo replies 0 hbegun
          (fun hsome => absurd hnone hsome) hout).1
        rw [WinHttpClient.send_headers hcase hout]
        simp only [hout, Option.bind_some]
        rw [← hkept]
        exact hoffers.part
  minds := by
    intro request options env writer opened isOneShot response offer hfactory
    unfold WinHttpClient.received
    rcases hcase : c.answer request env with ⟨answer, env'⟩
    cases answer with
    | failed te =>
        rw [WinHttpClient.send_failed hcase]
        intro hresponse
        cases hresponse
    | headers statusCode headers replies ends =>
        have hbegun := @createResponseSink_offersTo _ _ cell writer opened isOneShot env'
            statusCode headers
        rw [← hfactory] at hbegun
        have hnone : (createResponseSink statusCode options.sinkFactory headers
            env').writes = [] := createResponseSink_writes _ _ _ _
        rcases Option.isSome_iff_exists.mp (ends (createResponseSink statusCode
          options.sinkFactory headers env')) with ⟨out, hout⟩
        rcases readLoop_offersTo replies 0 hbegun (fun hsome => absurd hnone hsome) hout
          with ⟨hoffers, hgood⟩
        rw [WinHttpClient.send_headers hcase hout]
        simp only [hout, Option.bind_some]
        exact Received.minds hoffers hgood

/-!
# The asynchronous client of WinHTTP
-/

/-- The handlers write to their sink, and have found it good where they are complete. -/
theorem onReplies_offersTo {size : Int} (replies : List Reply) (state : ReadState)
    {r : Reception τ} {out : Received τ}
    (hoffers : r.OffersTo cell writer opened size env)
    (hgood : r.writes ≠ [] -> r.bad = false)
    (hout : onReplies replies state r = some out) :
    out.reception.OffersTo cell writer opened size env ∧
      (forall r', out = .complete r' -> r'.writes ≠ [] -> r'.bad = false) := by
  induction replies generalizing state r with
  | nil => cases hout
  | cons reply rest ih =>
      cases reply with
      | dataAvailable count =>
          cases state with
          | ReadData _ => cases hout
          | QueryData =>
              simp only [onReplies] at hout
              split at hout
              · cases hout
                exact ⟨hoffers, fun r' hr' => by cases hr'; exact hgood⟩
              · exact ih _ hoffers hgood hout
      | readComplete chunk =>
          cases state with
          | QueryData => cases hout
          | ReadData _ =>
              simp only [onReplies] at hout
              split at hout
              · cases hout
              · split at hout
                · cases hout
                  exact ⟨hoffers, fun r' hr' => by cases hr'; exact hgood⟩
                · split at hout
                  · cases hout
                    exact ⟨hoffers.write chunk, fun r' hr' => by cases hr'⟩
                  · rename_i hbad
                    exact ih _ (hoffers.write chunk)
                      (fun _ => Bool.eq_false_iff.mpr hbad) hout
      | failed aborted error =>
          have herror : out = .error error r := (Option.some.inj hout).symm
          rw [herror]
          exact ⟨hoffers, fun r' hr' => by cases hr'⟩

/--
An error, or headers and the notices that take the handlers behind them to their end,
whatever the sink is.
-/
inductive AsyncAnswer (τ : Type) where
  | failed (te : TransportError)
  | headers (statusCode : Int) (headers : HeaderCollection) (replies : List Reply)
      (ends : forall r : Reception τ, (onReplies replies .QueryData r).isSome = true)

/-- What the handlers come to, and the size that their sink was made for. -/
def AsyncAnswer.received (options : RequestOptions τ) (env : τ) :
    AsyncAnswer τ -> Option (Received τ × Int)
  | .failed _ => none
  | .headers statusCode fields replies _ =>
      (onReplies replies .QueryData
        (createResponseSink statusCode options.sinkFactory fields env)).map fun out =>
          (out, contentLengthOf fields)

def AsyncAnswer.result (options : RequestOptions τ) (env : τ) :
    AsyncAnswer τ -> ResponseResult × τ
  | .failed te => (.error te, env)
  | .headers statusCode fields replies ends =>
      let out := (onReplies replies .QueryData
        (createResponseSink statusCode options.sinkFactory fields env)).get (ends _)
      (out.result statusCode fields options.sinkFactory, out.reception.env)

theorem AsyncAnswer.result_offersTo (env : τ) {options : RequestOptions τ}
    (hfactory : options.sinkFactory = some (partFactory cell writer opened isOneShot))
    (answer : AsyncAnswer τ) :
    match answer.received options env with
    | none => (answer.result options env).2 = env ∧
        forall response, (answer.result options env).1 ≠ .response response
    | some (out, size) =>
        out.reception.OffersTo cell writer opened size env ∧
          (forall r, out = .complete r -> r.writes ≠ [] -> r.bad = false) ∧
          (answer.result options env).2 = out.reception.env ∧
          exists statusCode fields, (answer.result options env).1 =
            out.result statusCode fields options.sinkFactory := by
  cases answer with
  | failed te => exact ⟨rfl, fun response h => (nomatch h)⟩
  | headers statusCode headers replies ends =>
      have hbegun := @createResponseSink_offersTo _ _ cell writer opened isOneShot env
          statusCode headers
      rw [← hfactory] at hbegun
      have hnone := createResponseSink_writes statusCode options.sinkFactory headers env
      rcases Option.isSome_iff_exists.mp (ends (createResponseSink statusCode
        options.sinkFactory headers env)) with ⟨out, hout⟩
      rcases onReplies_offersTo replies .QueryData hbegun
        (fun hsome => absurd hnone hsome) hout with ⟨hoffers, hgood⟩
      simp only [AsyncAnswer.received, AsyncAnswer.result, hout, Option.map_some,
        Option.get_some]
      exact ⟨hoffers, hgood, trivial, statusCode, headers, rfl⟩

/-- The asynchronous client of WinHTTP, on a network that leaves the part alone. -/
def asyncSinkTransport (answer : RequestMessage τ -> τ -> AsyncAnswer τ × τ)
    (cell : Cell τ δ)
    (hanswer : forall request env, cell.get (answer request env).2 = cell.get env) :
    SinkTransport cell where
  transport :=
    { send := fun request options env =>
        let (result, env) := (answer request env).1.result options (answer request env).2
        (result, request, env) }
  offered request options env :=
    ((answer request env).1.received options (answer request env).2).bind fun r =>
      r.1.reception.offered r.2
  touches := by
    intro request options env writer opened isOneShot hfactory
    have hends := AsyncAnswer.result_offersTo (answer request env).2 hfactory
      (answer request env).1
    rw [← hanswer request env]
    simp only
    cases hreceived : (answer request env).1.received options (answer request env).2 with
    | none =>
        rw [hreceived] at hends
        rw [hends.1]
        rfl
    | some r =>
        rw [hreceived] at hends
        rw [hends.2.2.1]
        exact hends.1.part
  minds := by
    intro request options env writer opened isOneShot response offer hfactory hresponse
      hoffer hsome
    have hends := AsyncAnswer.result_offersTo (answer request env).2 hfactory
      (answer request env).1
    simp only at hresponse hoffer ⊢
    cases hreceived : (answer request env).1.received options (answer request env).2 with
    | none =>
        rw [hreceived] at hends
        exact absurd hresponse (hends.2 response)
    | some r =>
        rw [hreceived] at hends hoffer
        rcases hends with ⟨hoffers, hgood, henv, statusCode, headers, hresult⟩
        rw [hresult] at hresponse
        rw [henv]
        exact Received.minds hoffers hgood hresponse hoffer hsome

end WinHttp

end WinHttp

end Transport
end OssSdk
