import OssSdk.Io.StreamContent
import OssSdk.Transport.WinHttp.WinHttpAsyncClient
import OssSdk.Transport.WinHttp.WinHttpClient

/-!
# The body of a request on its connection

Both clients read the source of the body to its end, and write what they read, if the
length that they have found for it is positive.
-/

namespace OssSdk
namespace Transport
namespace WinHttp

open Foundation

variable {ρ σ : Type}

def MAXDWORD : Int := 4294967295

/--
The length that the server is told: the total length that `WinHttpSendRequest` is given,
or what the request's own header says where that is ignored.
-/
def announcedLength (input : SendInput ρ σ) : Option Nat :=
  let contentLength := resolveContentLength input.headers input.body
  if 0 ≤ contentLength ∧ contentLength ≤ MAXDWORD then some contentLength.toNat
  else if 0 ≤ contentLengthOf input.headers then
    some (contentLengthOf input.headers).toNat
  else none

/-- What is written is the content, up to the length that is announced, if one is. -/
structure UploadsBody (content : ByteString) (announced : Option Nat)
    (sent : ByteString) : Prop where
  limited : sent =
    match announced with
    | some length => content.take length
    | none => content
  whole : forall length, announced = some length -> sent.length = length

/-- What both clients write. -/
def uploaded (input : SendInput ρ σ) (content : ByteString) : ByteString :=
  if 0 < resolveContentLength input.headers input.body then content else []

section uploading

variable {input : SendInput ρ σ} {source : ByteSource ρ} {left : ρ -> ByteString}

/-- The state of an upload: what has been written goes before what is left. -/
def Uploading (source : ByteSource ρ) (left : ρ -> ByteString) (content : ByteString)
    (rest : Option (ByteSource ρ × ρ)) (sent : List ByteString) : Prop :=
  exists r, rest = some (source, r) ∧ content = sent.flatten ++ left r

/-- The next buffer is the last one, or goes before what is left after it. -/
theorem uploading_read (hspans : source.Spans left) {content : ByteString} {r : ρ}
    {sent : List ByteString} (hsplit : content = sent.flatten ++ left r) :
    ((source.readToCount kWriteBufferLength r).1 = [] -> sent.flatten = content) ∧
      Uploading source left content
        (some (source, (source.readToCount kWriteBufferLength r).2))
        (sent ++ [(source.readToCount kWriteBufferLength r).1]) := by
  rcases ByteSource.readToCount_spans hspans kWriteBufferLength r with ⟨hleft, hended⟩
  constructor
  · intro hnone
    have hnothing : left r = [] := by
      rw [hleft, hnone, hended (by rw [hnone]; decide)]
      rfl
    rw [hsplit, hnothing, List.append_nil]
  · refine ⟨_, rfl, ?_⟩
    rw [List.flatten_append, List.flatten_singleton, List.append_assoc, ← hleft]
    exact hsplit

/-!
# The synchronous client
-/

/-- What is written when `send` is at this wait. -/
def SendFrame.Writes (f : SendFrame ρ σ) (source : ByteSource ρ) (left : ρ -> ByteString)
    (input : SendInput ρ σ) (content : ByteString) : Prop :=
  match f.wait with
  | .SendRequest => f.sent = []
  | .WriteData _ =>
      0 < resolveContentLength input.headers input.body ∧
        Uploading source left content f.source f.sent
  | .ReceiveResponse => f.sent.flatten = uploaded input content
  | _ => True

theorem writes_writeBody (hspans : source.Spans left) {content : ByteString}
    {f : SendFrame ρ σ}
    (hpositive : 0 < resolveContentLength input.headers input.body)
    (huploading : Uploading source left content f.source f.sent) :
    (WinHttpClient.writeBody f).Writes source left input content := by
  rcases huploading with ⟨r, hrest, hsplit⟩
  rcases uploading_read hspans hsplit with ⟨hlast, hnext⟩
  unfold WinHttpClient.writeBody
  rw [hrest]
  simp only
  split
  · exact trivial
  · split
    · rename_i hnone
      change f.sent.flatten = uploaded input content
      unfold uploaded
      rw [if_pos hpositive]
      exact hlast hnone
    · exact ⟨hpositive, hnext⟩

theorem writes_readNext (content : ByteString) (f : SendFrame ρ σ) (available : Nat) :
    (WinHttpClient.readNext f available).Writes source left input content := by
  unfold WinHttpClient.readNext
  split
  · exact trivial
  · exact trivial

theorem writes_resume (hspans : source.Spans left) {content : ByteString}
    (hsource : 0 < resolveContentLength input.headers input.body ->
      Uploading source left content input.uploadSource [])
    {f : SendFrame ρ σ} (hwrites : f.Writes source left input content) (event : Event) :
    (WinHttpClient.resume input f event).Writes source left input content := by
  have hreturned : forall te,
      (WinHttpClient.returned f te).Writes source left input content := fun _ => trivial
  unfold WinHttpClient.resume
  cases hwait : f.wait with
  | SendRequest =>
      have hnone : f.sent = [] := by
        unfold SendFrame.Writes at hwrites
        rw [hwait] at hwrites
        exact hwrites
      simp only
      split
      · exact hwrites
      · exact hreturned _
      · by_cases hpositive : 0 < resolveContentLength input.headers input.body
        · refine writes_writeBody hspans hpositive ?_
          rw [hnone]
          exact hsource hpositive
        · have hupload : input.uploadSource = none := if_neg hpositive
          unfold WinHttpClient.writeBody
          rw [hupload]
          change f.sent.flatten = uploaded input content
          unfold uploaded
          rw [hnone, if_neg hpositive]
          rfl
  | WriteData buffer =>
      have huploading : 0 < resolveContentLength input.headers input.body ∧
          Uploading source left content f.source f.sent := by
        unfold SendFrame.Writes at hwrites
        rw [hwait] at hwrites
        exact hwrites
      simp only
      split
      · exact hwrites
      · exact hreturned _
      · exact writes_writeBody hspans huploading.1 huploading.2
  | ReceiveResponse =>
      simp only
      split
      · exact hwrites
      · exact hreturned _
      · split
        · exact trivial
        · exact hwrites
  | QueryDataAvailable =>
      simp only
      split
      · split
        · exact hreturned _
        · exact trivial
      · split
        · exact trivial
        · exact trivial
      · exact hwrites
  | ReadData available =>
      simp only
      split
      · split
        · exact hreturned _
        · exact writes_readNext content f 0
      · split
        · exact writes_readNext content f 0
        · split
          · exact trivial
          · exact writes_readNext content _ _
      · exact hwrites
  | Returned result => exact hwrites

theorem sync_sent (hspans : source.Spans left) {content : ByteString}
    (hsource : 0 < resolveContentLength input.headers input.body ->
      Uploading source left content input.uploadSource [])
    (events : List Event)
    (hsent : (events.foldl (WinHttpClient.resume input) WinHttpClient.start).wait =
      .ReceiveResponse) :
    (events.foldl (WinHttpClient.resume input) WinHttpClient.start).sent.flatten =
      uploaded input content := by
  have hwrites : forall (events : List Event) (f : SendFrame ρ σ),
      f.Writes source left input content ->
      (events.foldl (WinHttpClient.resume input) f).Writes source left input content := by
    intro events
    induction events with
    | nil => exact fun _ h => h
    | cons event rest ih => exact fun f h => ih _ (writes_resume hspans hsource h event)
  have hend := hwrites events WinHttpClient.start rfl
  unfold SendFrame.Writes at hend
  rw [hsent] at hend
  exact hend

/-!
# The asynchronous client
-/

/-- What is written when the context is in this state. -/
def AsyncRequestContext.Writes (ctx : AsyncRequestContext ρ σ) (source : ByteSource ρ)
    (left : ρ -> ByteString) (input : SendInput ρ σ) (content : ByteString) : Prop :=
  match ctx.state with
  | .SendRequest =>
      ctx.sent = [] ∧ ctx.source = input.uploadSource ∧
        ctx.contentLength = resolveContentLength input.headers input.body
  | .WriteBody =>
      0 < resolveContentLength input.headers input.body ∧
        Uploading source left content ctx.source ctx.sent
  | .ReceiveResponse => ctx.sent.flatten = uploaded input content
  | _ => True

theorem writes_writeNextChunk (hspans : source.Spans left) {content : ByteString}
    {ctx : AsyncRequestContext ρ σ} (hstate : ctx.state = .WriteBody)
    (hpositive : 0 < resolveContentLength input.headers input.body)
    (huploading : Uploading source left content ctx.source ctx.sent) :
    ctx.writeNextChunk.Writes source left input content := by
  rcases huploading with ⟨r, hrest, hsplit⟩
  rcases uploading_read hspans hsplit with ⟨hlast, hnext⟩
  unfold AsyncRequestContext.writeNextChunk
  rw [hrest]
  simp only
  split
  · exact trivial
  · split
    · rename_i hnone
      change ctx.sent.flatten = uploaded input content
      unfold uploaded
      rw [if_pos hpositive]
      exact hlast hnone
    · unfold AsyncRequestContext.Writes
      rw [hstate]
      exact ⟨hpositive, hnext⟩

theorem writes_onSendComplete (hspans : source.Spans left) {content : ByteString}
    (hsource : 0 < resolveContentLength input.headers input.body ->
      Uploading source left content input.uploadSource [])
    {ctx : AsyncRequestContext ρ σ} (hsent : ctx.sent = [])
    (hupload : ctx.source = input.uploadSource)
    (hlength : ctx.contentLength = resolveContentLength input.headers input.body) :
    ctx.onSendComplete.Writes source left input content := by
  unfold AsyncRequestContext.onSendComplete
  rw [hupload, hlength]
  by_cases hpositive : 0 < resolveContentLength input.headers input.body
  · have huploading := hsource hpositive
    have hsome : input.uploadSource.isSome = true := by
      rcases huploading with ⟨r, hrest, _⟩
      rw [hrest]
      rfl
    rw [if_pos ⟨hsome, hpositive⟩]
    refine writes_writeNextChunk hspans rfl hpositive ?_
    change Uploading source left content input.uploadSource ctx.sent
    rw [hsent]
    exact huploading
  · rw [if_neg fun h => hpositive h.2]
    change ctx.sent.flatten = uploaded input content
    unfold uploaded
    rw [hsent, if_neg hpositive]
    rfl

theorem writes_onStatus (hspans : source.Spans left) {content : ByteString}
    (hsource : 0 < resolveContentLength input.headers input.body ->
      Uploading source left content input.uploadSource [])
    {ctx : AsyncRequestContext ρ σ} (hwrites : ctx.Writes source left input content)
    (event : Event) :
    (ctx.onStatus input event).Writes source left input content := by
  rcases event with ⟨notice, aborted⟩
  have hfail : forall te, (ctx.fail te).Writes source left input content :=
    fun _ => trivial
  have hchecked : forall handler : AsyncRequestContext ρ σ,
      handler.Writes source left input content ->
      (if aborted then ctx.fail requestCanceled else handler).Writes source left input
        content := by
    intro handler hhandler
    cases aborted with
    | true => exact hfail _
    | false => exact hhandler
  unfold AsyncRequestContext.onStatus
  cases hstate : ctx.state with
  | SendRequest =>
      cases notice with
      | failed failure => exact hfail _
      | sendRequestComplete =>
          unfold AsyncRequestContext.Writes at hwrites
          rw [hstate] at hwrites
          rcases hwrites with ⟨hsent, hupload, hlength⟩
          exact hchecked _ (writes_onSendComplete hspans hsource hsent hupload hlength)
      | _ => exact hwrites
  | WriteBody =>
      cases notice with
      | failed failure => exact hfail _
      | writeComplete =>
          unfold AsyncRequestContext.Writes at hwrites
          rw [hstate] at hwrites
          exact hchecked _ (writes_writeNextChunk hspans hstate hwrites.1 hwrites.2)
      | _ => exact hwrites
  | ReceiveResponse =>
      cases notice with
      | failed failure => exact hfail _
      | headersAvailable statusCode headers => exact hchecked _ trivial
      | _ => exact hwrites
  | QueryData =>
      cases notice with
      | failed failure => exact hfail _
      | dataAvailable count =>
          simp only
          split
          · apply hchecked
            unfold AsyncRequestContext.onDataAvailable
            split
            · exact trivial
            · exact trivial
          · exact hwrites
      | _ => exact hwrites
  | ReadData =>
      cases notice with
      | failed failure => exact hfail _
      | readComplete chunk =>
          simp only
          split
          · apply hchecked
            unfold AsyncRequestContext.onReadComplete
            split
            · exact trivial
            · simp only
              split
              · exact trivial
              · exact trivial
          · exact hwrites
      | _ => exact hwrites
  | CloseHandle => exact hwrites

theorem async_sent (hspans : source.Spans left) {content : ByteString}
    (hsource : 0 < resolveContentLength input.headers input.body ->
      Uploading source left content input.uploadSource [])
    (events : List Event)
    (hsent : (events.foldl (AsyncRequestContext.onStatus input)
      (AsyncRequestContext.start input)).state = .ReceiveResponse) :
    (events.foldl (AsyncRequestContext.onStatus input)
      (AsyncRequestContext.start input)).sent.flatten = uploaded input content := by
  have hwrites : forall (events : List Event) (ctx : AsyncRequestContext ρ σ),
      ctx.Writes source left input content ->
      (events.foldl (AsyncRequestContext.onStatus input) ctx).Writes source left input
        content := by
    intro events
    induction events with
    | nil => exact fun _ h => h
    | cons event rest ih => exact fun ctx h => ih _ (writes_onStatus hspans hsource h event)
  have hend := hwrites events (AsyncRequestContext.start input) ⟨rfl, rfl, rfl⟩
  unfold AsyncRequestContext.Writes at hend
  rw [hsent] at hend
  exact hend

end uploading

/-!
# What is announced and what is sent
-/

/--
The length that is announced is that of the content, unless nothing is sent because
there is nothing to send; and without one the content has a length, or is empty.
-/
def AnnouncesContent (input : SendInput ρ σ) (content : ByteString) : Prop :=
  match announcedLength input with
  | some length => length = 0 ∨ content.length = length
  | none => 0 < resolveContentLength input.headers input.body ∨ content = []

theorem announcedLength_eq_some {input : SendInput ρ σ} {length : Nat}
    (hannounced : announcedLength input = some length) :
    resolveContentLength input.headers input.body = length := by
  unfold announcedLength at hannounced
  simp only at hannounced
  split at hannounced
  · rename_i hbounds
    rw [← Option.some.inj hannounced, Int.toNat_of_nonneg hbounds.1]
  · split at hannounced
    · rename_i hheader
      have hresolve : resolveContentLength input.headers input.body =
          contentLengthOf input.headers := by
        unfold resolveContentLength
        simp only
        rw [if_neg (Int.not_lt.mpr hheader)]
      rw [hresolve, ← Option.some.inj hannounced, Int.toNat_of_nonneg hheader]
    · cases hannounced

theorem uploadsBody_uploaded (input : SendInput ρ σ) (content : ByteString) :
    UploadsBody content (announcedLength input) (uploaded input content) ↔
      AnnouncesContent input content := by
  unfold AnnouncesContent uploaded
  cases hannounced : announcedLength input with
  | none =>
      by_cases hpositive : 0 < resolveContentLength input.headers input.body
      · rw [if_pos hpositive]
        exact ⟨fun _ => Or.inl hpositive, fun _ => ⟨rfl, fun _ h => by cases h⟩⟩
      · rw [if_neg hpositive]
        constructor
        · intro huploads
          exact Or.inr huploads.limited.symm
        · intro hempty
          exact ⟨(hempty.resolve_left hpositive).symm, fun _ h => by cases h⟩
  | some length =>
      rw [announcedLength_eq_some hannounced]
      cases length with
      | zero =>
          have hzero : ¬ (0 : Int) < (0 : Nat) := Int.lt_irrefl 0
          rw [if_neg hzero]
          refine ⟨fun _ => Or.inl rfl, fun _ => ⟨rfl, ?_⟩⟩
          intro length hlength
          cases hlength
          rfl
      | succ length =>
          rw [if_pos (Int.natCast_pos.mpr (Nat.succ_pos length))]
          constructor
          · intro huploads
            exact Or.inr (huploads.whole _ rfl)
          · intro hlength
            have hcontent := hlength.resolve_left (Nat.succ_ne_zero length)
            refine ⟨?_, ?_⟩
            · simp only
              rw [← hcontent, List.take_length]
            · intro length' heq
              cases heq
              exact hcontent

/--
When a client has sent its request and waits for the response, it has written what it
announced if the length is that of the content, or the request has none of it to send.
-/
theorem uploadsBody_iff {input : SendInput ρ σ} {length : Option Nat}
    {source : ByteSource ρ} {r : ρ} {left : ρ -> ByteString}
    (hbody : input.body = some ⟨length, some (source, r)⟩)
    (hspans : source.Spans left) {events events' : List Event}
    (hsync : (events.foldl (WinHttpClient.resume input) WinHttpClient.start).wait =
      .ReceiveResponse)
    (hasync : (events'.foldl (AsyncRequestContext.onStatus input)
      (AsyncRequestContext.start input)).state = .ReceiveResponse) :
    (UploadsBody (left r) (announcedLength input)
        (events.foldl (WinHttpClient.resume input) WinHttpClient.start).sent.flatten ∧
      UploadsBody (left r) (announcedLength input)
        (events'.foldl (AsyncRequestContext.onStatus input)
          (AsyncRequestContext.start input)).sent.flatten) ↔
      AnnouncesContent input (left r) := by
  have hsource : 0 < resolveContentLength input.headers input.body ->
      Uploading source left (left r) input.uploadSource [] := by
    intro hpositive
    unfold SendInput.uploadSource
    rw [if_pos hpositive, hbody]
    exact ⟨r, rfl, rfl⟩
  rw [sync_sent hspans hsource events hsync, async_sent hspans hsource events' hasync,
    and_self_iff]
  exact uploadsBody_uploaded input (left r)

/-- A body that is as long as it says is sent as it is, without a header of its own. -/
theorem announcesContent_of_length {input : SendInput ρ σ} {content : ByteString}
    {span : Option (ByteSource ρ × ρ)}
    (hheader : input.headers.find? (bytes "Content-Length") = none)
    (hbody : input.body = some ⟨some content.length, span⟩) :
    AnnouncesContent input content := by
  have hnone : contentLengthOf input.headers = -1 := by
    unfold contentLengthOf
    rw [hheader]
  have hresolve : resolveContentLength input.headers input.body = content.length := by
    unfold resolveContentLength
    rw [hnone, hbody]
    rfl
  unfold AnnouncesContent
  cases hannounced : announcedLength input with
  | none =>
      rw [hresolve]
      cases content with
      | nil => exact Or.inr rfl
      | cons c rest => exact Or.inl (Int.natCast_pos.mpr (Nat.succ_pos _))
  | some length =>
      have hlength := announcedLength_eq_some hannounced
      rw [hresolve] at hlength
      exact Or.inr (Int.ofNat.inj hlength)

/-!
# A part of a file
-/

/-- A PUT of the first bytes of a file. -/
def putPart (length : Option Nat) : SendInput IStream Unit where
  headers := SortedMap.empty
  body := some (FileContent.body (some [1, 2, 3]) 0 length)
  sinkFactory := none
  env := ()
  formatWinHttpError := fun _ => []

/-- The request is sent, its one buffer written. -/
def writtenOnce : List Event :=
  [⟨.sendRequestComplete, false⟩, ⟨.writeComplete, false⟩]

theorem uploadsBody_iff_wholeFile :
    (UploadsBody [1, 2, 3] (announcedLength (putPart none))
        (writtenOnce.foldl (WinHttpClient.resume (putPart none))
          WinHttpClient.start).sent.flatten ∧
      UploadsBody [1, 2, 3] (announcedLength (putPart none))
        (writtenOnce.foldl (AsyncRequestContext.onStatus (putPart none))
          (AsyncRequestContext.start (putPart none))).sent.flatten) ↔
      AnnouncesContent (putPart none) [1, 2, 3] := by
  have hbody : (putPart none).body = some ⟨some 3, some (StreamSource,
      ⟨[1, 2, 3], 0, IoState.goodbit, true⟩)⟩ := rfl
  have hsync : (writtenOnce.foldl (WinHttpClient.resume (putPart none))
      WinHttpClient.start).wait = .ReceiveResponse := by decide +kernel
  have hasync : (writtenOnce.foldl (AsyncRequestContext.onStatus (putPart none))
      (AsyncRequestContext.start (putPart none))).state = .ReceiveResponse := by
    decide +kernel
  exact uploadsBody_iff hbody StreamSource.spans hsync hasync

/-- Two of the three bytes are announced, and all three are written. -/
theorem not_uploadsBody_part :
    (writtenOnce.foldl (WinHttpClient.resume (putPart (some 2)))
        WinHttpClient.start).wait = .ReceiveResponse ∧
      (putPart (some 2)).body = some ⟨some 2, some (StreamSource,
        ⟨[1, 2, 3], 0, IoState.goodbit, true⟩)⟩ ∧
      ¬ UploadsBody [1, 2, 3] (announcedLength (putPart (some 2)))
        (writtenOnce.foldl (WinHttpClient.resume (putPart (some 2)))
          WinHttpClient.start).sent.flatten := by
  have hsync : (writtenOnce.foldl (WinHttpClient.resume (putPart (some 2)))
      WinHttpClient.start).wait = .ReceiveResponse := by decide +kernel
  refine ⟨hsync, rfl, ?_⟩
  intro huploads
  have hlength := huploads.whole 2 (by decide +kernel)
  revert hlength
  decide +kernel

end WinHttp
end Transport
end OssSdk
