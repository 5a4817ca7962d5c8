import OssSdk.Transport.Curl.CurlHelper
import OssSdk.Internal.ExecuteContext

/-!
# The synchronous curl client

What libcurl brings in for a request is one reply: the status and the headers of
the response, the chunks of its body, and the code that the transfer ends with
when no callback stops it.  `CurlMultiTransport` receives a reply in the same way.
-/

namespace OssSdk
namespace Transport
namespace Curl

open Foundation
open Internal

variable {σ : Type}

structure Reply where
  statusCode : Int
  headers : HeaderCollection
  /-- The length that libcurl reports, or -1. -/
  recvDataLength : Int
  chunks : List ByteString
  res : Int
  text : ByteString
  chunks_nonempty : forall chunk, chunk ∈ chunks -> chunk ≠ []
deriving DecidableEq

theorem no_chunks : forall chunk, chunk ∈ ([] : List ByteString) -> chunk ≠ [] := by decide

/-- A transfer that brings in this reply. -/
def Reply.perform (reply : Reply) (options : RequestOptions σ)
    (isRequestDisabled : Option (σ -> Bool)) (env : σ) : Int × TransferIO σ :=
  easyPerform reply.res reply.chunks
    { TransferIO.init reply.statusCode reply.headers options.sinkFactory
        reply.recvDataLength env with
      cancellationToken := options.cancellationToken
      isRequestDisabled := isRequestDisabled }

/-- `wire` is the network and the server, and reads the body of the request. -/
structure CurlHttpClient (σ : Type) where
  wire : RequestMessage σ -> σ -> Reply × σ
  isRequestDisabled : Option (σ -> Bool)

def CurlHttpClient.send (c : CurlHttpClient σ) : HttpTransport σ where
  send request options env :=
    let (reply, env) := c.wire request env
    let (res, io) := reply.perform options c.isRequestDisabled env
    (transferResult res reply.text io, request, io.reception.env)

/-!
# What becomes of a reply
-/

section Reply

variable {reply : Reply} {options : RequestOptions σ}
variable {isRequestDisabled : Option (σ -> Bool)} {env : σ}

theorem Reply.perform_fields :
    (reply.perform options isRequestDisabled env).2.statusCode = reply.statusCode ∧
      (reply.perform options isRequestDisabled env).2.headers = reply.headers :=
  easyPerform_fields _ _ _

/-- A transfer is not better than libcurl says. -/
theorem Reply.res_of_perform
    (hok : (reply.perform options isRequestDisabled env).1 = CURLE_OK) :
    reply.res = CURLE_OK := by
  by_contra hfailed
  exact easyPerform_failed _ _ hfailed hok

/-- Without a body nobody asks the factory for a sink. -/
theorem Reply.perform_empty (hchunks : reply.chunks = []) :
    (reply.perform options isRequestDisabled env).1 = reply.res ∧
      (reply.perform options isRequestDisabled env).2.reception = ⟨none, [], env⟩ := by
  unfold Reply.perform
  rw [hchunks]
  exact ⟨rfl, rfl⟩

/-- The body of an error goes to a stream of the transport's own. -/
theorem Reply.perform_default (hstatus : isErrorStatus reply.statusCode = true) :
    (reply.perform options isRequestDisabled env).2.reception.env = env ∧
      (forall writer, (reply.perform options isRequestDisabled env).2.reception.sink ≠
        some (.user writer)) := by
  by_cases hchunks : reply.chunks = []
  · rw [(Reply.perform_empty hchunks).2]
    exact ⟨rfl, fun _ hsink => nomatch hsink⟩
  · let begun : TransferIO σ :=
      { TransferIO.init reply.statusCode reply.headers options.sinkFactory
          reply.recvDataLength env with
        cancellationToken := options.cancellationToken
        isRequestDisabled := isRequestDisabled }
    have hchosen : begun.chooseSink =
        { begun with recvFirstData := false, reception := ⟨some (.default []), [], env⟩ } := by
      have hstatus' : isErrorStatus begun.statusCode = true := hstatus
      unfold TransferIO.chooseSink
      rw [hstatus']
      split
      · rename_i hfalse
        cases hfalse
      · rfl
    have hperform : reply.perform options isRequestDisabled env =
        easyPerform reply.res reply.chunks begun.chooseSink :=
      easyPerform_first _ hchunks rfl
    have heq := easyPerform_eq reply.res reply.chunks begun.chooseSink
      reply.chunks_nonempty (by rw [hchosen]) (by rw [hchosen]; rfl)
    have hseen : begun.chooseSink.reception.refusalSeen true reply.chunks = false := by
      rw [hchosen]
      exact Reception.refusalSeen_default _ _ _ _ _
    rw [hperform, heq.2 hseen, hchosen, Reception.writeAll_default]
    exact ⟨rfl, fun _ hsink => nomatch hsink⟩

section Factory

variable {factory : SinkFactory σ} {sink : Option (ByteWriter σ)} {w : σ}

theorem Reply.perform_called (hfactory : options.sinkFactory = some factory)
    (hstatus : isErrorStatus reply.statusCode = false)
    (hchunks : reply.chunks ≠ [])
    (hcall : factory.call reply.recvDataLength reply.headers env = (sink, w)) :
    exists io : TransferIO σ, io.recvFirstData = false ∧
      io.reception = ⟨sink.map .user, [], w⟩ ∧
      reply.perform options isRequestDisabled env =
        easyPerform reply.res reply.chunks io := by
  let begun : TransferIO σ :=
    { TransferIO.init reply.statusCode reply.headers options.sinkFactory
        reply.recvDataLength env with
      cancellationToken := options.cancellationToken
      isRequestDisabled := isRequestDisabled }
  have hbegun : begun.chooseSink =
      { begun with recvFirstData := false, reception := ⟨sink.map .user, [], w⟩ } := by
    have hsink : begun.sinkFactory = some factory := hfactory
    have hgood : isErrorStatus begun.statusCode = false := hstatus
    have hcall' : factory.call begun.recvDataLength begun.headers
        begun.reception.env = (sink, w) := hcall
    unfold TransferIO.chooseSink
    rw [hsink, hgood]
    simp only [hcall']
    rw [← hsink]
    rfl
  refine ⟨begun.chooseSink, ?_, ?_, easyPerform_first _ hchunks rfl⟩
  · rw [hbegun]
  · rw [hbegun]

/-- The sink of the factory is offered the whole body, if the transfer is good. -/
theorem Reply.perform_user {writer : ByteWriter σ}
    (hfactory : options.sinkFactory = some factory)
    (hstatus : isErrorStatus reply.statusCode = false)
    (hchunks : reply.chunks ≠ [])
    (hcall : factory.call reply.recvDataLength reply.headers env = (some writer, w))
    (hok : (reply.perform options isRequestDisabled env).1 = CURLE_OK) :
    (reply.perform options isRequestDisabled env).2.reception.sink =
        some (.user writer) ∧
      (reply.perform options isRequestDisabled env).2.reception.env =
        writer.writes reply.chunks w := by
  rcases @Reply.perform_called _ _ _ isRequestDisabled _ _ _ _ hfactory hstatus
      hchunks hcall with ⟨io, hchosen, hreception, hperform⟩
  have heq := easyPerform_eq reply.res reply.chunks io reply.chunks_nonempty hchosen
    (by rw [hreception]; rfl)
  rw [hperform] at hok ⊢
  cases hseen : io.reception.refusalSeen true reply.chunks with
  | true =>
      rw [heq.1 hseen] at hok
      cases hok
  | false =>
      rw [heq.2 hseen, hreception]
      exact Reception.writeAll_writes writer reply.chunks [] w

/-- A writer that keeps its state, and takes nothing in when that is a failure. -/
structure Steady (writer : ByteWriter σ) : Prop where
  iostate : forall data w, writer.iostate (writer.write data w).2 = writer.iostate w
  failed : forall data w, writer.fail w = true -> (writer.write data w).2 = w

theorem Steady.refusalSeen {writer : ByteWriter σ} (hsteady : Steady writer)
    (hgood : writer.fail w = false) (chunks : List ByteString) :
    Transport.refusalSeen true writer chunks w = false := by
  induction chunks generalizing w with
  | nil => rfl
  | cons chunk rest ih =>
      have hsame := hsteady.iostate chunk w
      have hfail : writer.fail (writer.write chunk w).2 = false := by
        unfold ByteWriter.fail at hgood ⊢
        rw [hsame]
        exact hgood
      have hbad : writer.bad (writer.write chunk w).2 = false := by
        by_contra hnot
        have htrue := ByteWriter.fail_of_bad (Bool.eq_true_of_not_eq_false hnot)
        rw [hfail] at htrue
        cases htrue
      simp only [Transport.refusalSeen, hgood, hbad, ih hfail, Bool.and_false,
        Bool.or_self]

theorem Steady.writes_failed {writer : ByteWriter σ} (hsteady : Steady writer)
    (hfail : writer.fail w = true) (chunks : List ByteString) :
    writer.writes chunks w = w := by
  induction chunks with
  | nil => rfl
  | cons chunk rest ih => rw [ByteWriter.writes, hsteady.failed chunk w hfail, ih]

/-- Whatever a transfer comes to, such a writer has been offered the whole body. -/
theorem Reply.perform_steady {writer : ByteWriter σ} (hsteady : Steady writer)
    (hfactory : options.sinkFactory = some factory)
    (hstatus : isErrorStatus reply.statusCode = false)
    (hchunks : reply.chunks ≠ [])
    (hcall : factory.call reply.recvDataLength reply.headers env = (some writer, w)) :
    (reply.perform options isRequestDisabled env).2.reception.env =
      writer.writes reply.chunks w := by
  rcases @Reply.perform_called _ _ _ isRequestDisabled _ _ _ _ hfactory hstatus
      hchunks hcall with ⟨io, hchosen, hreception, hperform⟩
  have hsink : io.reception.sink.isNone = false := by
    rw [hreception]
    rfl
  rw [hperform]
  cases hfail : writer.fail w with
  | false =>
      have hseen : io.reception.refusalSeen true reply.chunks = false := by
        rw [hreception]
        exact (Reception.refusalSeen_user true writer reply.chunks [] w).trans
          (hsteady.refusalSeen hfail _)
      rw [(easyPerform_eq reply.res reply.chunks io reply.chunks_nonempty hchosen
        hsink).2 hseen, hreception]
      exact (Reception.writeAll_writes writer reply.chunks [] w).2
  | true =>
      have hfails : io.reception.fail = true := by
        rw [hreception]
        exact hfail
      rw [hsteady.writes_failed hfail]
      cases hall : reply.chunks with
      | nil => exact absurd hall hchunks
      | cons chunk rest =>
          have hlength : 0 ≠ chunk.length := by
            intro hzero
            have hmem : chunk ∈ reply.chunks := hall ▸ List.mem_cons_self
            exact reply.chunks_nonempty chunk hmem
              (List.length_eq_zero_iff.mp hzero.symm)
          rw [easyPerform_cons, recvBodyCallback_chosen io chunk hchosen hsink, if_pos hfails]
          simp only [if_neg hlength]
          rw [hreception]

/-- A writer that is failed takes the transfer with it. -/
theorem Reply.perform_failed {writer : ByteWriter σ}
    (hfactory : options.sinkFactory = some factory)
    (hstatus : isErrorStatus reply.statusCode = false)
    (hchunks : reply.chunks ≠ [])
    (hcall : factory.call reply.recvDataLength reply.headers env = (some writer, w))
    (hfail : writer.fail w = true) :
    (reply.perform options isRequestDisabled env).1 ≠ CURLE_OK := by
  rcases @Reply.perform_called _ _ _ isRequestDisabled _ _ _ _ hfactory hstatus
      hchunks hcall with ⟨io, hchosen, hreception, hperform⟩
  have heq := easyPerform_eq reply.res reply.chunks io reply.chunks_nonempty hchosen
    (by rw [hreception]; rfl)
  have hseen : io.reception.refusalSeen true reply.chunks = true := by
    rw [hreception]
    refine (Reception.refusalSeen_user true writer reply.chunks [] w).trans ?_
    cases hall : reply.chunks with
    | nil => exact absurd hall hchunks
    | cons chunk rest =>
        simp only [Transport.refusalSeen, hfail, Bool.and_self, Bool.true_or]
  rw [hperform, heq.1 hseen]
  intro h
  cases h

theorem Reply.perform_null
    (hfactory : options.sinkFactory = some factory)
    (hstatus : isErrorStatus reply.statusCode = false)
    (hchunks : reply.chunks ≠ [])
    (hcall : factory.call reply.recvDataLength reply.headers env = (none, w)) :
    (reply.perform options isRequestDisabled env).1 ≠ CURLE_OK := by
  rcases @Reply.perform_called _ _ _ isRequestDisabled _ _ _ _ hfactory hstatus
      hchunks hcall with ⟨io, hchosen, hreception, hperform⟩
  rw [hperform, easyPerform_null reply.res reply.chunks_nonempty hchunks hchosen
    (by rw [hreception]; rfl)]
  exact fun h => nomatch h

end Factory

/-- What comes in for a request, when the transport has received it. -/
def CurlHttpClient.received (c : CurlHttpClient σ) (request : RequestMessage σ)
    (options : RequestOptions σ) (env : σ) : Int × TransferIO σ :=
  (c.wire request env).1.perform options c.isRequestDisabled (c.wire request env).2

/-- The transport gives a response to exactly the transfers that are good. -/
theorem CurlHttpClient.send_response_iff {c : CurlHttpClient σ}
    {request request' : RequestMessage σ} {env' : σ} {r : ResponseMessage} :
    c.send.send request options env = (.response r, request', env') ↔
      request' = request ∧ (c.received request options env).1 = CURLE_OK ∧
        (c.received request options env).2.reception.env = env' ∧
        r = { statusCode := (c.wire request env).1.statusCode
              reason := []
              headers := (c.wire request env).1.headers
              body := (c.received request options env).2.reception.defaultSink } := by
  have hsend : c.send.send request options env =
      (transferResult (c.received request options env).1 (c.wire request env).1.text
        (c.received request options env).2, request,
        (c.received request options env).2.reception.env) := rfl
  rcases @Reply.perform_fields _ (c.wire request env).1 options c.isRequestDisabled
    (c.wire request env).2 with ⟨hcode, hheaders⟩
  change (c.received request options env).2.statusCode = _ at hcode
  change (c.received request options env).2.headers = _ at hheaders
  rw [hsend, transferResult, hcode, hheaders]
  by_cases hok : (c.received request options env).1 = CURLE_OK
  · rw [if_pos hok]
    constructor
    · intro hsame
      cases hsame
      exact ⟨rfl, hok, rfl, rfl⟩
    · intro hgot
      rcases hgot with ⟨hrequest, _, henv, hr⟩
      rw [hrequest, henv, hr]
  · rw [if_neg hok]
    constructor
    · intro hsame
      cases hsame
    · exact fun hgot => absurd hgot.2.1 hok

end Reply

end Curl
end Transport
end OssSdk
