import OssSdk.Transport.Curl.CurlHelper
import OssSdk.Transport.WinHttp.WinHttpHelper

/-!
# The body of a response, whatever the transport

The transports decide whether a transfer was successful from the state bits that
they look at around a write.  None of them looks at the count that `write`
returns, and none looks at `failbit` after the last chunk.
-/

namespace OssSdk
namespace Transport

open Foundation

variable {σ : Type}

/-- `Curl` is both `CurlHttpClient` and `CurlMultiTransport`. -/
inductive HttpClientKind where
  | Curl
  | WinHttp
  | WinHttpAsync
deriving DecidableEq

/-- What a transport has at hand when the body of a response begins. -/
structure BodyInput (σ : Type) where
  statusCode : Int
  headers : HeaderCollection
  sinkFactory : Option (SinkFactory σ)
  /-- The length that libcurl reports, or -1. -/
  recvDataLength : Int
  env : σ

/-- A transfer of these chunks, with its result and what became of the body. -/
inductive Transfers (m : BodyInput σ) : HttpClientKind -> List ByteString ->
    ResponseResult -> Reception σ -> Prop where
  | curl {chunks : List ByteString} {res : Int} {io : Curl.TransferIO σ}
      (text : ByteString) :
      (forall chunk, chunk ∈ chunks -> chunk ≠ []) ->
      Curl.easyPerform Curl.CURLE_OK chunks
        (Curl.TransferIO.init m.statusCode m.headers m.sinkFactory
          m.recvDataLength m.env) = (res, io) ->
      Transfers m .Curl chunks (Curl.transferResult res text io) io.reception
  | winHttp {chunks : List ByteString} {replies : List WinHttp.Reply}
      {out : WinHttp.Received σ} :
      WinHttp.Delivers 0 replies chunks ->
      WinHttp.readLoop replies 0
        (WinHttp.createResponseSink m.statusCode m.sinkFactory m.headers m.env) =
          some out ->
      Transfers m .WinHttp chunks
        (out.result m.statusCode m.headers m.sinkFactory) out.reception
  | winHttpAsync {chunks : List ByteString} {replies : List WinHttp.Reply}
      {out : WinHttp.Received σ} :
      WinHttp.DeliversAsync replies chunks ->
      WinHttp.onReplies replies .QueryData
        (WinHttp.createResponseSink m.statusCode m.sinkFactory m.headers m.env) =
          some out ->
      Transfers m .WinHttpAsync chunks
        (out.result m.statusCode m.headers m.sinkFactory) out.reception

/-- Only libcurl's callback looks at the sink before a write. -/
def HttpClientKind.looksBefore : HttpClientKind -> Bool
  | .Curl => true
  | _ => false

/-- The length that is given to the sink factory. -/
def HttpClientKind.contentLength (m : BodyInput σ) : HttpClientKind -> Int
  | .Curl => m.recvDataLength
  | _ => WinHttp.contentLengthOf m.headers

/-- A sink that keeps these chunks, or shows in time that it does not. -/
def sinkKeeps (kind : HttpClientKind) (chunks : List ByteString) :
    Option (ByteWriter σ) × σ -> Bool
  | (some writer, w) =>
      refusalSeen kind.looksBefore writer chunks w || acceptsAll writer chunks w
  | (none, _) => kind.looksBefore

def keepsWhen (m : BodyInput σ) (kind : HttpClientKind)
    (chunks : List ByteString) : Bool :=
  chunks.isEmpty || isErrorStatus m.statusCode ||
    match m.sinkFactory with
    | none => true
    | some factory =>
        sinkKeeps kind chunks
          (factory.call (kind.contentLength m) m.headers m.env)

/-- Where the body goes to the transport's own stream, nothing is in question. -/
theorem keepsWhen_default {m : BodyInput σ} {kind : HttpClientKind}
    {chunks : List ByteString}
    (hdefault : isErrorStatus m.statusCode = true ∨ m.sinkFactory = none) :
    keepsWhen m kind chunks = true := by
  unfold keepsWhen
  rcases hdefault with hstatus | hfactory
  · rw [hstatus, Bool.or_true, Bool.true_or]
  · rw [hfactory, Bool.or_true]

theorem keepsWhen_factory {m : BodyInput σ} {kind : HttpClientKind}
    {chunks : List ByteString} {factory : SinkFactory σ}
    (hchunks : chunks ≠ [])
    (hstatus : isErrorStatus m.statusCode = false)
    (hfactory : m.sinkFactory = some factory) :
    keepsWhen m kind chunks = sinkKeeps kind chunks
      (factory.call (kind.contentLength m) m.headers m.env) := by
  have hempty : chunks.isEmpty = false := by simpa using hchunks
  simp only [keepsWhen, hempty, hstatus, hfactory, Bool.or_self, Bool.false_or]

/-!
# libcurl
-/

/-- The start of a transfer, after the choice of its sink. -/
def curlStart (m : BodyInput σ) : Curl.TransferIO σ :=
  (Curl.TransferIO.init m.statusCode m.headers m.sinkFactory m.recvDataLength
    m.env).chooseSink

theorem curlStart_chosen (m : BodyInput σ) :
    (curlStart m).recvFirstData = false := by
  unfold curlStart Curl.TransferIO.chooseSink
  split <;> rfl

theorem curlStart_default {m : BodyInput σ}
    (hdefault : isErrorStatus m.statusCode = true ∨ m.sinkFactory = none) :
    (curlStart m).reception = ⟨some (.default []), [], m.env⟩ := by
  unfold curlStart Curl.TransferIO.chooseSink
  split
  · rename_i hfactory hstatus
    rcases hdefault with herror | hnone
    · rw [show isErrorStatus m.statusCode = false from hstatus] at herror
      cases herror
    · rw [show m.sinkFactory = some _ from hfactory] at hnone
      cases hnone
  · rfl

theorem curlStart_factory {m : BodyInput σ} {factory : SinkFactory σ}
    {sink : Option (ByteWriter σ)} {w : σ}
    (hstatus : isErrorStatus m.statusCode = false)
    (hfactory : m.sinkFactory = some factory)
    (hcall : factory.call m.recvDataLength m.headers m.env = (sink, w)) :
    (curlStart m).reception = ⟨sink.map .user, [], w⟩ := by
  simp only [curlStart, Curl.TransferIO.chooseSink, Curl.TransferIO.init,
    hstatus, hfactory, hcall]

theorem curl_keepsBody_iff {m : BodyInput σ} {chunks : List ByteString}
    {res : Int} {io : Curl.TransferIO σ}
    (text : ByteString)
    (hnonempty : forall chunk, chunk ∈ chunks -> chunk ≠ [])
    (hperform : Curl.easyPerform Curl.CURLE_OK chunks
      (Curl.TransferIO.init m.statusCode m.headers m.sinkFactory
        m.recvDataLength m.env) = (res, io)) :
    KeepsBody chunks (Curl.transferResult res text io) io.reception ↔
      keepsWhen m .Curl chunks = true := by
  by_cases hchunks : chunks = []
  · subst hchunks
    cases hperform
    simp only [keepsWhen, List.isEmpty_nil, Bool.true_or, iff_true]
    intro response _
    refine ⟨rfl, ?_, fun h => absurd rfl h, fun h => absurd rfl h⟩
    intro x hx
    cases hx
  · have hres : res = (res, io).1 := rfl
    have hio : io = (res, io).2 := rfl
    have hstart : Curl.easyPerform Curl.CURLE_OK chunks (curlStart m) =
        (res, io) := by
      rw [← hperform]
      exact (Curl.easyPerform_first _ hchunks rfl).symm
    have hchosen := curlStart_chosen m
    rw [hres, hio, ← hstart]
    by_cases hdefault : isErrorStatus m.statusCode = true ∨ m.sinkFactory = none
    · have hreception := curlStart_default hdefault
      have hends := Curl.easyPerform_ends text chunks (curlStart m) hnonempty
        hchosen (by rw [hreception]; rfl)
      rw [hreception] at hends
      have hkeeps := hends.keepsBody_default hchunks
      rw [hkeeps, keepsWhen_default hdefault]
    · have hstatus : isErrorStatus m.statusCode = false := by
        simpa using fun h => hdefault (Or.inl h)
      rcases Option.ne_none_iff_exists'.mp (fun h => hdefault (Or.inr h)) with
        ⟨factory, hfactory⟩
      rw [keepsWhen_factory hchunks hstatus hfactory]
      rcases hcall : factory.call m.recvDataLength m.headers m.env with
        ⟨sink, w⟩
      have hreception := curlStart_factory hstatus hfactory hcall
      simp only [HttpClientKind.contentLength, hcall]
      cases sink with
      | none =>
          have herror := Curl.easyPerform_null Curl.CURLE_OK hnonempty hchunks
            hchosen (by rw [hreception]; rfl)
          obtain ⟨io, hio⟩ : exists io, io =
              (Curl.easyPerform Curl.CURLE_OK chunks (curlStart m)).2 := ⟨_, rfl⟩
          have hkeeps := @KeepsBody.of_error _ chunks _ io.reception
            ⟨Curl.buildTransportError Curl.CURLE_WRITE_ERROR text io, rfl⟩
          rw [hio] at hkeeps
          rw [herror]
          exact ⟨fun _ => rfl, fun _ => hkeeps⟩
      | some writer =>
          have hends := Curl.easyPerform_ends text chunks (curlStart m)
            hnonempty hchosen (by rw [hreception]; rfl)
          rw [hreception] at hends
          have hkeeps := hends.keepsBody_user hchunks
          rw [hkeeps]
          simp [sinkKeeps, HttpClientKind.looksBefore]

/-!
# WinHTTP
-/

theorem winHttpStart_default {m : BodyInput σ}
    (hdefault : isErrorStatus m.statusCode = true ∨ m.sinkFactory = none) :
    WinHttp.createResponseSink m.statusCode m.sinkFactory m.headers m.env =
      ⟨some (.default []), [], m.env⟩ := by
  unfold WinHttp.createResponseSink
  split
  · rename_i hfactory hstatus
    rcases hdefault with herror | hnone
    · rw [hstatus] at herror
      cases herror
    · rw [hfactory] at hnone
      cases hnone
  · rfl

/-- What is known of a transfer in either of the two clients. -/
theorem winHttp_keepsBody_iff {m : BodyInput σ} {kind : HttpClientKind}
    {chunks : List ByteString} {result : ResponseResult} {r : Reception σ}
    (hkind : kind ≠ .Curl)
    (hends : Ends false (WinHttp.reachable m.statusCode m.sinkFactory) chunks
      (WinHttp.createResponseSink m.statusCode m.sinkFactory m.headers m.env)
      result r) :
    KeepsBody chunks result r ↔ keepsWhen m kind chunks = true := by
  have hlooks : kind.looksBefore = false := by
    cases kind with
    | Curl => exact absurd rfl hkind
    | WinHttp => rfl
    | WinHttpAsync => rfl
  have hlength : kind.contentLength m = WinHttp.contentLengthOf m.headers := by
    cases kind with
    | Curl => exact absurd rfl hkind
    | WinHttp => rfl
    | WinHttpAsync => rfl
  by_cases hchunks : chunks = []
  · subst hchunks
    simp only [keepsWhen, List.isEmpty_nil, Bool.true_or, iff_true]
    rcases hends.received rfl with ⟨response, hresult, hr, _⟩
    intro response' _
    have hwrites : r.writes = [] := by
      rw [hr]
      simp only [Reception.writeAll, List.foldl_nil,
        WinHttp.createResponseSink]
      split
      · split <;> rfl
      · rfl
    refine ⟨by rw [hwrites]; rfl, ?_, fun h => absurd rfl h,
      fun h => absurd rfl h⟩
    intro x hx
    rw [hwrites] at hx
    cases hx
  · by_cases hdefault : isErrorStatus m.statusCode = true ∨ m.sinkFactory = none
    · rw [winHttpStart_default hdefault] at hends
      have hreachable :
          WinHttp.reachable m.statusCode m.sinkFactory = true := by
        unfold WinHttp.reachable
        rcases hdefault with hstatus | hfactory
        · rw [hstatus, Bool.true_or]
        · rw [hfactory, Option.isNone_none, Bool.or_true]
      rw [hends.keepsBody_default hchunks, keepsWhen_default hdefault,
        hreachable]
    · have hstatus : isErrorStatus m.statusCode = false := by
        simpa using fun h => hdefault (Or.inl h)
      rcases Option.ne_none_iff_exists'.mp (fun h => hdefault (Or.inr h)) with
        ⟨factory, hfactory⟩
      rw [keepsWhen_factory hchunks hstatus hfactory, hlength]
      rcases hcall : factory.call (WinHttp.contentLengthOf m.headers) m.headers
        m.env with ⟨sink, w⟩
      cases sink with
      | none =>
          have hstart : WinHttp.createResponseSink m.statusCode m.sinkFactory
              m.headers m.env = ⟨some (.default []), [], w⟩ := by
            simp only [WinHttp.createResponseSink, hstatus, hfactory, hcall]
          rw [hstart] at hends
          rw [hends.keepsBody_default hchunks]
          simp [sinkKeeps, hlooks, WinHttp.reachable, hstatus, hfactory]
      | some writer =>
          have hstart : WinHttp.createResponseSink m.statusCode m.sinkFactory
              m.headers m.env = ⟨some (.user writer), [], w⟩ := by
            simp only [WinHttp.createResponseSink, hstatus, hfactory, hcall]
          rw [hstart] at hends
          rw [hends.keepsBody_user hchunks]
          simp [sinkKeeps, hlooks]

/-!
# Any transport
-/

/--
A body is kept if and only if it goes to the transport's own stream, or the sink
keeps it, or the sink shows in time that it does not.
-/
theorem keepsBody_iff {m : BodyInput σ} {kind : HttpClientKind}
    {chunks : List ByteString} {result : ResponseResult} {r : Reception σ}
    (htransfer : Transfers m kind chunks result r) :
    KeepsBody chunks result r ↔ keepsWhen m kind chunks = true := by
  cases htransfer with
  | curl text hnonempty hperform =>
      exact curl_keepsBody_iff text hnonempty hperform
  | winHttp hdelivers hout =>
      have heq := WinHttp.readLoop_eq
        (WinHttp.createResponseSink m.statusCode m.sinkFactory m.headers m.env)
        hdelivers
      rw [hout] at heq
      exact winHttp_keepsBody_iff (by simp)
        (WinHttp.received_ends heq.1 heq.2)
  | winHttpAsync hdelivers hout =>
      have heq := WinHttp.onReplies_eq
        (WinHttp.createResponseSink m.statusCode m.sinkFactory m.headers m.env)
        hdelivers
      rw [hout] at heq
      exact winHttp_keepsBody_iff (by simp)
        (WinHttp.received_ends heq.1 heq.2)

/-!
# A buffer that is too small for the last chunk
-/

/-- A response whose body goes into a buffer of the caller. -/
def intoBuffer (capacity : Nat) : BodyInput MemoryWriterState where
  statusCode := 200
  headers := SortedMap.empty
  sinkFactory :=
    some
      { supplier := some fun _ _ w => (some (MemoryWriter Cell.whole), w)
        isOneShot := true }
  recvDataLength := -1
  env := ⟨[], capacity, false⟩

def twoChunks : List ByteString := [[1, 2, 3], [4, 5, 6]]

theorem keepsBody_intoBuffer :
    exists result r, Transfers (intoBuffer 6) .WinHttp twoChunks result r ∧
      (KeepsBody twoChunks result r ↔
        keepsWhen (intoBuffer 6) .WinHttp twoChunks = true) := by
  have hdelivers : WinHttp.Delivers 0
      [.dataAvailable 6, .readComplete [1, 2, 3], .readComplete [4, 5, 6],
        .dataAvailable 0] twoChunks :=
    .available (by decide)
      (.read (by decide) (by decide) (.read (by decide) (by decide) .done))
  have htransfer := Transfers.winHttp (m := intoBuffer 6) hdelivers rfl
  exact ⟨_, _, htransfer, keepsBody_iff htransfer⟩

/-- The buffer refuses the second chunk, and the transfer is successful. -/
theorem not_keepsBody_tooSmall :
    exists result r, Transfers (intoBuffer 4) .Curl twoChunks result r ∧
      (exists response, result = .response response) ∧
      ¬ KeepsBody twoChunks result r := by
  have hnonempty : forall chunk, chunk ∈ twoChunks -> chunk ≠ [] := by decide
  have hok : (Curl.easyPerform Curl.CURLE_OK twoChunks
      (Curl.TransferIO.init 200 SortedMap.empty (intoBuffer 4).sinkFactory (-1)
        (intoBuffer 4).env)).1 = Curl.CURLE_OK := by decide
  rcases hperform : Curl.easyPerform Curl.CURLE_OK twoChunks
      (Curl.TransferIO.init 200 SortedMap.empty (intoBuffer 4).sinkFactory (-1)
        (intoBuffer 4).env) with ⟨res, io⟩
  rw [hperform] at hok
  refine ⟨_, _, .curl [] hnonempty hperform, ?_, ?_⟩
  · rw [show res = Curl.CURLE_OK from hok]
    exact ⟨_, rfl⟩
  · intro hkeeps
    have hwhen := (curl_keepsBody_iff (m := intoBuffer 4) [] hnonempty
      hperform).mp hkeeps
    revert hwhen
    decide

end Transport
end OssSdk
