import OssSdk.Transport.WinHttp.WinHttpAsyncClient
import OssSdk.Transport.WinHttp.WinHttpClient

/-!
# What the two clients make of a body

Both clients are told the same about a body.  The synchronous client asks for it in
other steps, and goes on after a read that fails.
-/

namespace OssSdk
namespace Transport
namespace WinHttp

open Foundation

variable {ρ σ : Type} {input : SendInput ρ σ}

/-!
# The asynchronous client
-/

/-- The asynchronous client ends at the first failure and at a read of nothing. -/
def receivedAsync (input : SendInput ρ σ) : Reception σ -> List Happening -> Received σ
  | r, .chunk data :: rest =>
      if data = [] then .complete r
      else if (r.write data).bad then .error writeStreamError (r.write data)
      else receivedAsync input (r.write data) rest
  | r, .failed failure :: _ =>
      .error (AsyncRequestContext.failureError input failure) r
  | r, _ => .complete r

/-- Some call has failed. -/
def Failing (notices : List Notice) : Prop :=
  exists failure, Notice.failed failure ∈ notices

theorem failing_cons {notice : Notice} {notices : List Notice}
    (hnotice : forall failure, notice ≠ .failed failure) :
    Failing (notice :: notices) ↔ Failing notices := by
  constructor
  · intro hfailing
    rcases hfailing with ⟨failure, hmem⟩
    rcases List.mem_cons.mp hmem with heq | hrest
    · exact absurd heq.symm (hnotice failure)
    · exact ⟨failure, hrest⟩
  · intro hfailing
    rcases hfailing with ⟨failure, hmem⟩
    exact ⟨failure, List.mem_cons_of_mem _ hmem⟩

theorem not_failing_nil : ¬ Failing [] := by
  intro hfailing
  rcases hfailing with ⟨_, hmem⟩
  cases hmem

namespace AsyncRequestContext

/-- What the context tells its caller in the end. -/
def Ends (input : SendInput ρ σ) (statusCode : Int) (headers : HeaderCollection)
    (t : AsyncRequestContext ρ σ) (notices : List Notice) (out : Received σ) : Prop :=
  t.finish = some (out.result statusCode headers input.sinkFactory) ∧
    t.rs = some out.reception ∧ (Failing notices -> exists te r, out = .error te r)

theorem ends_complete {ctx t : AsyncRequestContext ρ σ} {r : Reception σ}
    {notices : List Notice} {script : List Happening}
    (hrs : ctx.rs = some r) (herror : ctx.error = none)
    (hconverses : Converses (caller input) Answers (finalize input ctx r) script notices t) :
    Ends input ctx.statusCode ctx.headers t notices (.complete r) := by
  rcases hconverses.of_call_none rfl with ⟨hnotices, ht⟩
  rw [hnotices, ht]
  refine ⟨?_, hrs, fun hfailing => absurd hfailing not_failing_nil⟩
  unfold finish finalize closeHandle
  simp only [herror]
  rfl

theorem ends_error {ctx t : AsyncRequestContext ρ σ} {r : Reception σ}
    {notices : List Notice} {script : List Happening} {te : TransportError}
    (hrs : ctx.rs = some r)
    (hconverses : Converses (caller input) Answers (fail ctx te) script notices t) :
    notices = [] ∧ t.finish = some (.error te) ∧ t.rs = some r := by
  rcases hconverses.of_call_none rfl with ⟨hnotices, ht⟩
  rw [hnotices, ht]
  exact ⟨rfl, rfl, hrs⟩

theorem ends_cons {statusCode : Int} {headers : HeaderCollection}
    {t : AsyncRequestContext ρ σ} {notices : List Notice} {notice : Notice}
    {out : Received σ} (hnotice : forall failure, notice ≠ .failed failure)
    (hends : Ends input statusCode headers t notices out) :
    Ends input statusCode headers t (notice :: notices) out :=
  ⟨hends.1, hends.2.1, fun hfailing => hends.2.2 ((failing_cons hnotice).mp hfailing)⟩

theorem call_queryData {ctx : AsyncRequestContext ρ σ} (hstate : ctx.state = .QueryData) :
    (caller input).call ctx = some .QueryDataAvailable := by
  change call ctx = _
  unfold call
  rw [hstate]

/-- A failure ends the conversation, whichever call it is of. -/
theorem ends_failed {script : List Happening} {ctx t : AsyncRequestContext ρ σ}
    {r : Reception σ} {notices : List Notice} {failure : Failure}
    (hstate : ctx.state ≠ .CloseHandle) (hrs : ctx.rs = some r)
    (hconverses : Converses (caller input) Answers
      ((caller input).resume ctx (.failed failure)) script notices t) :
    Ends input ctx.statusCode ctx.headers t (.failed failure :: notices)
      (.error (failureError input failure) r) := by
  change Converses _ _ (onStatus input ctx ⟨.failed failure, false⟩) _ _ _ at hconverses
  rw [onStatus_failed hstate] at hconverses
  rcases ends_error hrs hconverses with ⟨_, hfinish, hsink⟩
  exact ⟨hfinish, hsink, fun _ => ⟨_, r, rfl⟩⟩

/-- What the next read makes of a body, if the rest of it is known. -/
theorem ends_read {script : List Happening} {ctx t : AsyncRequestContext ρ σ}
    {r : Reception σ} {notices : List Notice} {toRead : Nat} (hrs : ctx.rs = some r)
    (herror : ctx.error = none)
    (hlater : forall data rest r' notices', script = .chunk data :: rest ->
      Converses (caller input) Answers
        (queryData { ctx with state := .ReadData, toRead := toRead, rs := some r' }) rest
        notices' t ->
      Ends input ctx.statusCode ctx.headers t notices' (receivedAsync input r' rest))
    (hconverses : Converses (caller input) Answers
      { ctx with state := .ReadData, toRead := toRead } script notices t) :
    Ends input ctx.statusCode ctx.headers t notices (receivedAsync input r script) := by
  rcases hconverses.of_call_some rfl with
    ⟨notice, tail, script', hnotices, hanswer, hrest⟩
  rw [hnotices]
  have hread := @resume_readComplete _ _ input
      { ctx with state := .ReadData, toRead := toRead } _ rfl hrs
  cases hanswer with
  | @readChunk _ data rest hlength =>
      rw [hread] at hrest
      apply ends_cons (fun failure h => by cases h)
      unfold receivedAsync
      unfold onReadComplete at hrest
      by_cases hdata : data = []
      · rw [if_pos hdata] at hrest ⊢
        exact @ends_complete _ _ _ { ctx with state := .ReadData, toRead := toRead }
            _ _ _ _ hrs herror hrest
      · rw [if_neg hdata] at hrest ⊢
        by_cases hbad : (r.write data).bad = true
        · simp only [if_pos hbad] at hrest ⊢
          rcases @ends_error _ _ _
              { ctx with state := .ReadData, toRead := toRead, rs := some (r.write data) }
              _ _ _ _ _ rfl hrest with
            ⟨hnone, hfinish, hsink⟩
          exact ⟨hfinish, hsink, fun _ => ⟨_, _, rfl⟩⟩
        · simp only [if_neg hbad] at hrest ⊢
          exact hlater data _ _ _ rfl hrest
  | readEnded =>
      rw [hread] at hrest
      apply ends_cons (fun failure h => by cases h)
      unfold onReadComplete at hrest
      rw [if_pos rfl] at hrest
      exact @ends_complete _ _ _ { ctx with state := .ReadData, toRead := toRead } _
          _ _ _ hrs herror hrest
  | failed =>
      exact @ends_failed _ _ _ _ { ctx with state := .ReadData, toRead := toRead } _
          _ _ _ (fun h => by cases h) hrs hrest

/-- The end of a context that waits for a query. -/
theorem ends_receivedAsync {script : List Happening} {ctx t : AsyncRequestContext ρ σ}
    {r : Reception σ} {notices : List Notice} (hstate : ctx.state = .QueryData)
    (hrs : ctx.rs = some r) (herror : ctx.error = none)
    (hconverses : Converses (caller input) Answers ctx script notices t) :
    Ends input ctx.statusCode ctx.headers t notices (receivedAsync input r script) := by
  induction script generalizing ctx r notices with
  | nil =>
      rcases hconverses.of_call_some (call_queryData hstate) with
        ⟨notice, tail, script', hnotices, hanswer, hrest⟩
      rw [hnotices]
      cases hanswer with
      | @queryEnded count =>
          rw [resume_dataAvailable hstate hrs] at hrest
          apply ends_cons (fun failure h => by cases h)
          unfold onDataAvailable at hrest
          by_cases hcount : count = 0
          · rw [if_pos hcount] at hrest
            exact ends_complete hrs herror hrest
          · rw [if_neg hcount] at hrest
            exact ends_read hrs herror (fun _ _ _ _ h _ => by cases h) hrest
  | cons happening rest ih =>
      rcases hconverses.of_call_some (call_queryData hstate) with
        ⟨notice, tail, script', hnotices, hanswer, hrest⟩
      rw [hnotices]
      cases hanswer with
      | @queryChunk count data _ hcount =>
          rw [resume_dataAvailable hstate hrs] at hrest
          apply ends_cons (fun failure h => by cases h)
          unfold onDataAvailable at hrest
          rw [if_neg (Nat.ne_of_gt hcount)] at hrest
          refine ends_read hrs herror ?_ hrest
          intro _ _ r' _ heq hquery
          cases heq
          exact @ih (queryData { ctx with
              state := .ReadData
              toRead := min count kWriteBufferLength
              rs := some r' }) r' _ rfl rfl herror hquery
      | @queryFailing count failure _ hcount =>
          rw [resume_dataAvailable hstate hrs] at hrest
          apply ends_cons (fun failure h => by cases h)
          unfold onDataAvailable at hrest
          rw [if_neg (Nat.ne_of_gt hcount)] at hrest
          exact ends_read hrs herror (fun _ _ _ _ h _ => by cases h) hrest
      | failed =>
          exact ends_failed (by rw [hstate]; exact fun h => by cases h) hrs hrest

end AsyncRequestContext

/-!
# The synchronous client
-/

/--
What `send` makes of a body, and whether a call fails on the way.  A query that fails
ends the body, and after a read that fails `send` asks again.
-/
inductive ReceivesSync : Reception σ -> List Happening -> Bool -> Received σ -> Prop where
  | ended {r : Reception σ} : ReceivesSync r [] false (.complete r)
  | queryFailed {r : Reception σ} {failure : Failure} {rest : List Happening} :
      ReceivesSync r (.failed failure :: rest) true (.complete r)
  | readFailed {r : Reception σ} {failure : Failure} {rest : List Happening}
      {failing : Bool} {out : Received σ} :
      ReceivesSync r rest failing out ->
      ReceivesSync r (.failed failure :: rest) true out
  | nothing {r : Reception σ} {rest : List Happening} {failing : Bool}
      {out : Received σ} :
      ReceivesSync r rest failing out ->
      ReceivesSync r (.chunk [] :: rest) failing out
  | refused {r : Reception σ} {data : ByteString} {rest : List Happening} :
      data ≠ [] -> (r.write data).bad = true ->
      ReceivesSync r (.chunk data :: rest) false (.error writeStreamError (r.write data))
  | chunk {r : Reception σ} {data : ByteString} {rest : List Happening}
      {failing : Bool} {out : Received σ} :
      data ≠ [] -> (r.write data).bad = false ->
      ReceivesSync (r.write data) rest failing out ->
      ReceivesSync r (.chunk data :: rest) failing out

namespace WinHttpClient

/-- `send` is in one of its two loops. -/
def Reading (f : SendFrame ρ σ) : Prop :=
  f.wait = .QueryDataAvailable ∨ exists available, f.wait = .ReadData available

theorem reading_readNext (f : SendFrame ρ σ) (available : Nat) :
    Reading (readNext f available) := by
  unfold readNext
  split
  · exact Or.inl rfl
  · exact Or.inr ⟨available, rfl⟩

/-- What `send` returns, and whether a call of it has failed. -/
def Ends (input : SendInput ρ σ) (statusCode : Int) (headers : HeaderCollection)
    (t : SendFrame ρ σ) (notices : List Notice) (failing : Bool) (out : Received σ) :
    Prop :=
  t.wait = .Returned (out.result statusCode headers input.sinkFactory) ∧
    t.rs = some out.reception ∧ (failing = true ↔ Failing notices)

theorem ends_cons {statusCode : Int} {headers : HeaderCollection} {t : SendFrame ρ σ}
    {notices : List Notice} {notice : Notice} {failing : Bool} {out : Received σ}
    (hnotice : forall failure, notice ≠ .failed failure)
    (hends : Ends input statusCode headers t notices failing out) :
    Ends input statusCode headers t (notice :: notices) failing out :=
  ⟨hends.1, hends.2.1, hends.2.2.trans (failing_cons hnotice).symm⟩

theorem caller_resume (f : SendFrame ρ σ) (notice : Notice) :
    (caller input).resume f notice = resume input f ⟨notice, false⟩ := rfl

/-- The body is at its end, or cannot be had. -/
theorem ends_finalize {f t : SendFrame ρ σ} {r : Reception σ} {script : List Happening}
    {notices : List Notice} (hrs : f.rs = some r)
    (hconverses : Converses (caller input) Answers (finalize input f r) script notices t) :
    notices = [] ∧
      t.wait = .Returned
        ((Received.complete r).result f.statusCode f.headers input.sinkFactory) ∧
      t.rs = some r := by
  rcases hconverses.of_call_none rfl with ⟨hnotices, ht⟩
  rw [hnotices, ht]
  exact ⟨rfl, rfl, hrs⟩

theorem receivesSync_of_converses {script : List Happening} {f t : SendFrame ρ σ}
    {r : Reception σ} {notices : List Notice} (hreading : Reading f)
    (hrs : f.rs = some r)
    (hconverses : Converses (caller input) Answers f script notices t) :
    exists failing out, ReceivesSync r script failing out ∧
      Ends input f.statusCode f.headers t notices failing out := by
  induction hconverses generalizing r with
  | @done f script hcall =>
      change call f = none at hcall
      unfold call at hcall
      rcases hreading with hwait | ⟨available, hwait⟩
      · rw [hwait] at hcall
        cases hcall
      · rw [hwait] at hcall
        cases hcall
  | @step f t script script' c notice notices hcall hanswer hrest ih =>
      change call f = some c at hcall
      unfold call at hcall
      rcases hreading with hwait | ⟨available, hwait⟩
      · rw [hwait] at hcall
        cases hcall
        cases hanswer with
        | @queryChunk count data rest hcount =>
            rw [caller_resume, resume_dataAvailable hwait hrs, if_neg (Nat.ne_of_gt hcount)] at ih
            rcases ih (Or.inr ⟨count, rfl⟩) hrs with ⟨failing, out, hreceives, hends⟩
            exact ⟨failing, out, hreceives, ends_cons (fun _ h => by cases h) hends⟩
        | @queryFailing count failure rest hcount =>
            rw [caller_resume, resume_dataAvailable hwait hrs, if_neg (Nat.ne_of_gt hcount)] at ih
            rcases ih (Or.inr ⟨count, rfl⟩) hrs with ⟨failing, out, hreceives, hends⟩
            exact ⟨failing, out, hreceives, ends_cons (fun _ h => by cases h) hends⟩
        | @queryEnded count =>
            by_cases hcount : count = 0
            · rw [caller_resume, resume_dataAvailable hwait hrs, if_pos hcount] at hrest
              rcases ends_finalize hrs hrest with ⟨hnone, hreturned, hsink⟩
              refine ⟨false, .complete r, .ended, ?_⟩
              rw [hnone]
              exact ends_cons (fun _ h => by cases h)
                ⟨hreturned, hsink, Bool.false_ne_true.elim, fun h => absurd h not_failing_nil⟩
            · rw [caller_resume, resume_dataAvailable hwait hrs, if_neg hcount] at ih
              rcases ih (Or.inr ⟨count, rfl⟩) hrs with ⟨failing, out, hreceives, hends⟩
              exact ⟨failing, out, hreceives, ends_cons (fun _ h => by cases h) hends⟩
        | @failed _ failure _ =>
            rw [caller_resume, resume_queryFailed hwait hrs, if_neg Bool.false_ne_true] at hrest
            rcases ends_finalize hrs hrest with ⟨_, hreturned, hsink⟩
            exact ⟨true, .complete r, .queryFailed, hreturned, hsink,
              fun _ => ⟨failure, List.mem_cons_self⟩, fun _ => rfl⟩
      · rw [hwait] at hcall
        cases hcall
        cases hanswer with
        | @readChunk _ data rest hlength =>
            rw [caller_resume, resume_readComplete hwait hrs] at ih hrest
            by_cases hdata : data = []
            · rw [if_pos hdata] at ih
              rcases readNext_eq f 0 with ⟨wait, hnext⟩
              have hagain := ih (reading_readNext f 0) (by rw [hnext]; exact hrs)
              rw [hnext] at hagain
              rcases hagain with ⟨failing, out, hreceives, hends⟩
              rw [hdata]
              exact ⟨failing, out, .nothing hreceives,
                ends_cons (fun _ h => by cases h) hends⟩
            · rw [if_neg hdata] at ih hrest
              by_cases hbad : (r.write data).bad = true
              · rw [if_pos hbad] at hrest
                rcases hrest.of_call_none rfl with ⟨hnone, ht⟩
                refine ⟨false, _, .refused hdata hbad, ?_⟩
                rw [hnone, ht]
                exact ends_cons (fun _ h => by cases h)
                  ⟨rfl, rfl, Bool.false_ne_true.elim, fun h => absurd h not_failing_nil⟩
              · rw [if_neg hbad] at ih
                rcases readNext_eq { f with rs := some (r.write data) }
                  (available - data.length) with ⟨wait, hnext⟩
                have hagain := ih (reading_readNext _ _) (by rw [hnext])
                rw [hnext] at hagain
                rcases hagain with ⟨failing, out, hreceives, hends⟩
                exact ⟨failing, out, .chunk hdata (Bool.eq_false_iff.mpr hbad) hreceives,
                  ends_cons (fun _ h => by cases h) hends⟩
        | readEnded =>
            rw [caller_resume, resume_readComplete hwait hrs, if_pos rfl] at ih
            rcases readNext_eq f 0 with ⟨wait, hnext⟩
            have hagain := ih (reading_readNext f 0) (by rw [hnext]; exact hrs)
            rw [hnext] at hagain
            rcases hagain with ⟨failing, out, hreceives, hends⟩
            exact ⟨failing, out, hreceives, ends_cons (fun _ h => by cases h) hends⟩
        | @failed _ failure _ =>
            rw [caller_resume, resume_readFailed hwait hrs, if_neg Bool.false_ne_true] at ih
            rcases readNext_eq f 0 with ⟨wait, hnext⟩
            have hagain := ih (reading_readNext f 0) (by rw [hnext]; exact hrs)
            rw [hnext] at hagain
            rcases hagain with ⟨failing, out, hreceives, hends⟩
            exact ⟨true, out, .readFailed hreceives, hends.1, hends.2.1,
              fun _ => ⟨failure, List.mem_cons_self⟩, fun _ => rfl⟩

end WinHttpClient
/-!
# Agreement
-/

/-- What the caller of a client can tell of its outcome. -/
def SameOutcome : ResponseResult -> ResponseResult -> Prop
  | .response response, .response response' => response = response'
  | .error te, .error te' => te.error = te'.error
  | _, _ => False

/--
No call of a body fails, and no read finds nothing before the end of the body, up to a
chunk that the sink refuses.
-/
def Intact : Reception σ -> List Happening -> Prop
  | r, .chunk data :: rest =>
      if data = [] then forall happening, happening ∈ rest -> happening = .chunk []
      else (r.write data).bad = true ∨ Intact (r.write data) rest
  | _, .failed _ :: _ => False
  | _, _ => True

namespace ReceivesSync

theorem sink_write {r : Reception σ} (hsink : r.sink.isSome = true) (data : ByteString) :
    (r.write data).sink.isSome = true ∧
      (r.write data).writes.length = r.writes.length + 1 := by
  unfold Reception.write
  cases hcase : r.sink with
  | none =>
      rw [hcase] at hsink
      cases hsink
  | some sink =>
      cases sink with
      | default body => exact ⟨rfl, List.length_append⟩
      | user writer => exact ⟨rfl, List.length_append⟩

theorem writes_le {r : Reception σ} {script : List Happening} {failing : Bool}
    {out : Received σ} (hsink : r.sink.isSome = true)
    (hreceives : ReceivesSync r script failing out) :
    r.writes.length ≤ out.reception.writes.length := by
  induction hreceives with
  | ended => exact Nat.le_refl _
  | queryFailed => exact Nat.le_refl _
  | readFailed _ ih => exact ih hsink
  | nothing _ ih => exact ih hsink
  | @refused r data rest _ _ =>
      rw [Received.reception, (sink_write hsink data).2]
      exact Nat.le_succ _
  | @chunk r data _ _ _ _ _ _ ih =>
      rcases sink_write hsink data with ⟨hsink', hlength⟩
      rw [hlength] at ih
      exact Nat.le_of_succ_le (ih hsink')

/-- `send` has no error of its own but that of a write. -/
theorem complete_or_writes {r : Reception σ} {script : List Happening} {failing : Bool}
    {out : Received σ} (hsink : r.sink.isSome = true)
    (hreceives : ReceivesSync r script failing out) :
    (exists r', out = .complete r') ∨
      r.writes.length < out.reception.writes.length := by
  induction hreceives with
  | @ended r => exact Or.inl ⟨r, rfl⟩
  | @queryFailed r _ _ => exact Or.inl ⟨r, rfl⟩
  | readFailed _ ih => exact ih hsink
  | nothing _ ih => exact ih hsink
  | @refused r data _ _ _ =>
      right
      rw [Received.reception, (sink_write hsink data).2]
      exact Nat.lt_succ_self _
  | @chunk r data _ _ _ _ _ hrest _ =>
      right
      rcases sink_write hsink data with ⟨hsink', hlength⟩
      have hle := writes_le hsink' hrest
      rw [hlength] at hle
      exact hle

/-- `send` gets past reads of nothing. -/
theorem of_nothing {r : Reception σ} {script : List Happening} {failing : Bool}
    {out : Received σ} (hreceives : ReceivesSync r script failing out)
    (hnothing : forall happening, happening ∈ script -> happening = .chunk []) :
    failing = false ∧ out = .complete r := by
  induction hreceives with
  | ended => exact ⟨rfl, rfl⟩
  | queryFailed => cases hnothing _ List.mem_cons_self
  | readFailed _ _ => cases hnothing _ List.mem_cons_self
  | nothing _ ih => exact ih fun h hmem => hnothing h (List.mem_cons_of_mem _ hmem)
  | refused hdata _ =>
      cases hnothing _ List.mem_cons_self
      exact absurd rfl hdata
  | chunk hdata _ _ _ =>
      cases hnothing _ List.mem_cons_self
      exact absurd rfl hdata

/-- Without a write and a failure there were reads of nothing alone. -/
theorem nothing_of_complete {r : Reception σ} {script : List Happening} {failing : Bool}
    {out : Received σ} (hsink : r.sink.isSome = true)
    (hreceives : ReceivesSync r script failing out) (hfailing : failing = false)
    (hwrites : out.reception.writes.length = r.writes.length) :
    forall happening, happening ∈ script -> happening = .chunk [] := by
  induction hreceives with
  | ended =>
      intro _ hmem
      cases hmem
  | queryFailed => cases hfailing
  | readFailed _ _ => cases hfailing
  | nothing _ ih =>
      intro happening hmem
      rcases List.mem_cons.mp hmem with heq | hrest
      · exact heq
      · exact ih hsink hfailing hwrites happening hrest
  | @refused r data _ _ _ =>
      rw [Received.reception, (sink_write hsink data).2] at hwrites
      exact absurd hwrites (Nat.succ_ne_self _)
  | @chunk r data _ _ _ _ _ hrest _ =>
      rcases sink_write hsink data with ⟨hsink', hlength⟩
      have hle := writes_le hsink' hrest
      rw [hlength, hwrites] at hle
      exact absurd hle (Nat.not_succ_le_self _)

end ReceivesSync

/-- The same of both, and an error where a call of `send` has failed. -/
structure BodyAgrees (statusCode : Int) (headers : HeaderCollection)
    (factory : Option (SinkFactory σ)) (failing : Bool) (out out' : Received σ) :
    Prop where
  outcome : SameOutcome (out.result statusCode headers factory)
    (out'.result statusCode headers factory)
  sink : out.reception = out'.reception
  reported : failing = true -> exists te r, out = .error te r

theorem bodyAgrees_iff {r : Reception σ} {script : List Happening} {failing : Bool}
    {out : Received σ} (hsink : r.sink.isSome = true)
    (hreceives : ReceivesSync r script failing out) (statusCode : Int)
    (headers : HeaderCollection) :
    BodyAgrees statusCode headers input.sinkFactory failing out
      (receivedAsync input r script) ↔ Intact r script := by
  induction hreceives with
  | ended => exact ⟨fun _ => trivial, fun _ => ⟨rfl, rfl, Bool.false_ne_true.elim⟩⟩
  | queryFailed => exact ⟨fun hagrees => hagrees.outcome.elim, False.elim⟩
  | readFailed hrest _ =>
      constructor
      · intro hagrees
        rcases ReceivesSync.complete_or_writes hsink hrest with ⟨r', hout⟩ | hwrites
        · rw [hout] at hagrees
          exact hagrees.outcome
        · rw [hagrees.sink] at hwrites
          exact (Nat.lt_irrefl _ hwrites).elim
      · exact False.elim
  | @nothing r rest failing out hrest _ =>
      have hasync : receivedAsync input r (.chunk [] :: rest) = .complete r := if_pos rfl
      have hintact : Intact r (.chunk [] :: rest) ↔
          forall happening, happening ∈ rest -> happening = .chunk [] := by
        unfold Intact
        rw [if_pos rfl]
      rw [hasync, hintact]
      constructor
      · intro hagrees
        have hfailing : failing = false := by
          rw [Bool.eq_false_iff]
          intro hfailing
          rcases hagrees.reported hfailing with ⟨te, r', hout⟩
          have houtcome := hagrees.outcome
          rw [hout] at houtcome
          exact houtcome
        exact ReceivesSync.nothing_of_complete hsink hrest hfailing (by rw [hagrees.sink]; rfl)
      · intro hnothing
        rcases ReceivesSync.of_nothing hrest hnothing with ⟨hfailing, hout⟩
        rw [hfailing, hout]
        exact ⟨rfl, rfl, Bool.false_ne_true.elim⟩
  | @refused r data rest hdata hbad =>
      have hasync : receivedAsync input r (.chunk data :: rest) =
          .error writeStreamError (r.write data) := by
        rw [receivedAsync, if_neg hdata, if_pos hbad]
      have hintact : Intact r (.chunk data :: rest) := by
        unfold Intact
        rw [if_neg hdata]
        exact Or.inl hbad
      rw [hasync]
      exact ⟨fun _ => hintact, fun _ => ⟨rfl, rfl, Bool.false_ne_true.elim⟩⟩
  | @chunk r data rest failing out hdata hbad hrest ih =>
      have hasync : receivedAsync input r (.chunk data :: rest) =
          receivedAsync input (r.write data) rest := by
        rw [receivedAsync, if_neg hdata, hbad, if_neg Bool.false_ne_true]
      have hintact : Intact r (.chunk data :: rest) ↔ Intact (r.write data) rest := by
        rw [Intact, if_neg hdata, hbad]
        simp only [Bool.false_eq_true, false_or]
      rw [hasync, hintact]
      exact ih (ReceivesSync.sink_write hsink data).1

end WinHttp
end Transport
end OssSdk
