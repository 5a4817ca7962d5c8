import OssSdk.Foundation.Transition
import OssSdk.Transport.WinHttp.WinHttpAsyncClient

/-!
# The end of a request of the asynchronous client

WinHTTP answers every call that was issued with one notice at most, and tells once that a
handle is closed, behind the notices of the handle.  It does so for any request at any
time, while other threads call `sendAsync` and one of them destroys the client.
-/

namespace OssSdk
namespace Transport
namespace WinHttp

open Foundation

variable {ρ σ : Type}

/-- The notices that a call may be answered with. -/
def Call.fits : Call -> Notice -> Bool
  | .SendRequest, .sendRequestComplete => true
  | .WriteData _, .writeComplete => true
  | .ReceiveResponse, .headersAvailable .. => true
  | .QueryDataAvailable, .dataAvailable _ => true
  | .ReadData toRead, .readComplete chunk => chunk.length ≤ toRead
  | _, .failed (.requestError _) => true
  | _, _ => false

namespace AsyncRequestContext

/-- Whether the switch of `onStatus` has a handler for a completion. -/
def handles (ctx : AsyncRequestContext ρ σ) : Notice -> Bool
  | .sendRequestComplete => ctx.state == .SendRequest
  | .writeComplete => ctx.state == .WriteBody
  | .headersAvailable .. => ctx.state == .ReceiveResponse
  | .dataAvailable _ => ctx.state == .QueryData
  | .readComplete _ => ctx.state == .ReadData
  | .failed _ => false

/-- What `finish` calls the callback with. -/
def result (ctx : AsyncRequestContext ρ σ) : ResponseResult :=
  match ctx.error with
  | some te => .error te
  | none =>
      .response
        { statusCode := ctx.statusCode
          reason := []
          headers := ctx.headers
          body := ctx.body }

theorem call_none {ctx : AsyncRequestContext ρ σ} :
    ctx.call = none ↔ ctx.state = .CloseHandle := by
  unfold call
  cases ctx.state with
  | CloseHandle => exact ⟨fun _ => rfl, fun _ => rfl⟩
  | _ =>
      constructor
      · intro h
        cases h
      · intro h
        cases h

/-- A completion of the call that was issued last is handled. -/
theorem handles_of_fits {ctx : AsyncRequestContext ρ σ} {c : Call} {notice : Notice}
    (hcall : ctx.call = some c) (hfits : c.fits notice = true) :
    ctx.handles notice = true ∨ exists dwError, notice = .failed (.requestError dwError) := by
  unfold call at hcall
  unfold handles
  cases hstate : ctx.state with
  | CloseHandle =>
      rw [hstate] at hcall
      cases hcall
  | _ =>
      rw [hstate] at hcall
      cases hcall
      cases notice with
      | failed failure =>
          cases failure with
          | refused _ => cases hfits
          | requestError dwError => exact Or.inr ⟨dwError, rfl⟩
      | _ =>
          first
          | exact Or.inl rfl
          | cases hfits

end AsyncRequestContext

/-!
# A request
-/

/-- How `start` ends.  `contextKept` says that WinHTTP knows the context all the same. -/
inductive StartOutcome where
  | openFailed (te : TransportError)
  | callbackRefused (lastError : WinError)
  | sendRefused (lastError : WinError) (contextKept : Bool)
  | sent

def StartOutcome.error (formatWinHttpError : Nat -> ByteString) :
    StartOutcome -> Option TransportError
  | .openFailed te => some te
  | .callbackRefused lastError =>
      some (makeWinHttpError formatWinHttpError .ConnectionFailed lastError.code)
  | .sendRefused lastError _ =>
      some (makeWinHttpError formatWinHttpError .SendRecvError lastError.code)
  | .sent => none

def StartOutcome.contextKept : StartOutcome -> Bool
  | .sendRefused _ contextKept => contextKept
  | _ => false

/-- Where a request is. -/
inductive Phase (ρ σ : Type) where
  /-- `sendAsync` is about to count it. -/
  | entered
  /-- Its callback runs in `sendAsync`, which has not counted it. -/
  | answering
  /-- It is counted and in `start`. -/
  | starting
  | running (ctx : AsyncRequestContext ρ σ)
  /-- Its context is deleted and its callback runs. -/
  | calling
  | over

/--
`calls` are issued and not answered, and `closings` is how many handles are closed without
WinHTTP having said so.  `callbacks` has what the callback was called with.
-/
structure Request (ρ σ : Type) where
  input : SendInput ρ σ
  caller : Option Nat
  phase : Phase ρ σ
  calls : List Call
  closings : Nat
  callbacks : List ResponseResult

inductive Act where
  | counts
  | starts (outcome : StartOutcome)
  /-- `lastError` is the error of the call that the handler issues, if it is refused. -/
  | notice (event : Event) (lastError : Option WinError)
  | handleClosing
  | returns

namespace Request

def isEntered (r : Request ρ σ) : Bool :=
  match r.phase with
  | .entered => true
  | _ => false

/-- `sendAsync` is at work on it and has not counted it. -/
def uncounted (r : Request ρ σ) : Bool :=
  match r.phase with
  | .entered | .answering => true
  | _ => false

def isCalling (r : Request ρ σ) : Bool :=
  match r.phase with
  | .calling => true
  | _ => false

/-- It is started, and its callback has not returned. -/
def inFlight (r : Request ρ σ) : Bool :=
  match r.phase with
  | .starting | .running _ | .calling => true
  | _ => false

def callsBack (r : Request ρ σ) (result : ResponseResult) : Request ρ σ :=
  { r with phase := .calling, callbacks := r.callbacks ++ [result] }

/-- `closeHandle` of a context that is left like this. -/
def closes (r : Request ρ σ) (hRequest : Bool) (ctx : AsyncRequestContext ρ σ) :
    Request ρ σ :=
  if hRequest then { r with phase := .running ctx, closings := r.closings + 1 }
  else r.callsBack ctx.result

/-- A handler goes to its next state and issues the call of that state. -/
def goesOn (r : Request ρ σ) (hRequest : Bool) (lastError : Option WinError)
    (ctx : AsyncRequestContext ρ σ) : Request ρ σ :=
  match ctx.call, lastError with
  | none, _ => r.closes hRequest ctx
  | some c, none => { r with phase := .running ctx, calls := r.calls ++ [c] }
  | some _, some e =>
      r.closes hRequest (ctx.fail (AsyncRequestContext.failureError r.input (.refused e)))

/-- `onStatus`, where the handle is open as long as it has not been closed here. -/
def onStatus (r : Request ρ σ) (ctx : AsyncRequestContext ρ σ) (event : Event)
    (lastError : Option WinError) : Request ρ σ :=
  let hRequest := ctx.state != .CloseHandle
  match event.notice with
  | .failed failure =>
      r.closes hRequest (ctx.fail (AsyncRequestContext.failureError r.input failure))
  | notice =>
      if ctx.handles notice then
        r.goesOn hRequest lastError (ctx.onStatus r.input event)
      else { r with phase := .running ctx }

/-- What becomes of a request, of `inflightCount_`, and whether a deleted context is used. -/
structure Outcome (ρ σ : Type) where
  request : Request ρ σ
  count : Int
  usesFreed : Bool

/--
A notice that finds the context deleted does nothing more than to use it.  The closing of a
handle runs `finish` there, with a callback that was moved from, and its guard counts down.
A callback returns together with the guard.
-/
def act (r : Request ρ σ) : Act -> Option (Outcome ρ σ)
  | .counts =>
      match r.phase with
      | .entered => some ⟨{ r with phase := .starting }, 1, false⟩
      | _ => none
  | .starts outcome =>
      match r.phase, outcome.error r.input.formatWinHttpError with
      | .starting, some te =>
          some
            ⟨{ r.callsBack (.error te) with
              closings := if outcome.contextKept then 1 else 0 }, 0, false⟩
      | .starting, none =>
          some
            ⟨{ r with
              phase := .running (AsyncRequestContext.start r.input)
              calls := [.SendRequest] }, 0, false⟩
      | _, _ => none
  | .notice event lastError =>
      if r.calls.any (·.fits event.notice) then
        let r := { r with calls := r.calls.eraseP (·.fits event.notice) }
        match r.phase with
        | .running ctx => some ⟨r.onStatus ctx event lastError, 0, false⟩
        | _ => some ⟨r, 0, true⟩
      else none
  | .handleClosing =>
      if r.calls.isEmpty ∧ 0 < r.closings then
        let r := { r with closings := r.closings - 1 }
        match r.phase with
        | .running ctx => some ⟨r.callsBack ctx.result, 0, false⟩
        | _ => some ⟨r, -1, true⟩
      else none
  | .returns =>
      match r.phase with
      | .answering => some ⟨{ r with phase := .over }, 0, false⟩
      | .calling => some ⟨{ r with phase := .over }, -1, false⟩
      | _ => none

end Request

/-!
# The client
-/

inductive Destructor where
  | notBegun
  | waiting
  | returned
deriving DecidableEq

/-- `usesFreed` says that a deleted context was used, or the client behind its destructor. -/
structure AsyncClient (ρ σ : Type) where
  hSession : Bool
  requests : List (Request ρ σ)
  inflightCount : Int
  destructor : Destructor
  usesFreed : Bool

/--
`caller` is the request whose callback calls `sendAsync`, and `canceled` what it sees of
the token.
-/
inductive ClientStep (ρ σ : Type) where
  | sendAsync (input : SendInput ρ σ) (canceled : Bool) (caller : Option Nat)
  | act (id : Nat) (a : Act)
  | destroys
  | destructorReturns

namespace AsyncClient

def notInitialized : TransportError :=
  TransportError.make .ConnectionFailed (bytes "WinHttpError")
    (bytes "WinHttp session is not initialized")

/-- `sendAsync` up to where it counts the request. -/
def sendAsync (s : AsyncClient ρ σ) (input : SendInput ρ σ) (canceled : Bool)
    (caller : Option Nat) : Request ρ σ :=
  let answered (te : TransportError) : Request ρ σ :=
    ⟨input, caller, .answering, [], 0, [.error te]⟩
  if s.hSession = false then answered notInitialized
  else if canceled then answered requestCanceled
  else ⟨input, caller, .entered, [], 0, []⟩

/--
A thread may be in `sendAsync` before the client is destroyed, a callback that the
destructor waits for may be so at any time.
-/
def mayCall (s : AsyncClient ρ σ) : Option Nat -> Bool
  | none => s.destructor == .notBegun
  | some p => s.requests[p]?.any (·.isCalling)

/-- A callback returns after the calls of `sendAsync` that it makes. -/
def blocked (s : AsyncClient ρ σ) (id : Nat) : Act -> Bool
  | .returns => s.requests.any fun r => r.caller == some id && r.uncounted
  | _ => false

/-- Nobody destroys a client while a thread is on its way into it. -/
def mayDestroy (s : AsyncClient ρ σ) : Bool :=
  s.destructor == .notBegun &&
    s.requests.all fun r => !(r.caller.isNone && r.isEntered)

def step (s : AsyncClient ρ σ) : ClientStep ρ σ -> Option (AsyncClient ρ σ)
  | .sendAsync input canceled caller =>
      if s.mayCall caller then
        some { s with requests := s.requests ++ [s.sendAsync input canceled caller] }
      else none
  | .act id a =>
      if s.blocked id a then none
      else
        (s.requests[id]?.bind (·.act a)).map fun (out : Request.Outcome ρ σ) =>
          { s with
            requests := s.requests.set id out.request
            inflightCount := s.inflightCount + out.count
            usesFreed := s.usesFreed || out.usesFreed ||
              (out.count != 0 && s.destructor == .returned) }
  | .destroys =>
      if s.mayDestroy then some { s with hSession := false, destructor := .waiting }
      else none
  | .destructorReturns =>
      if s.destructor = .waiting ∧ s.inflightCount = 0 then
        some { s with destructor := .returned }
      else none

def system (ρ σ : Type) : TransitionSystem (AsyncClient ρ σ) (ClientStep ρ σ) where
  initial s := exists hSession, s = ⟨hSession, [], 0, .notBegun, false⟩
  step := step

def inFlight (s : AsyncClient ρ σ) : Nat := s.requests.countP (·.inFlight)

/--
A request that nothing can happen to any more has had its callback, no request has it
twice, and the destructor waits for all that are in flight.
-/
structure CompletesOnce (s : AsyncClient ρ σ) : Prop where
  atMostOnce : forall r, r ∈ s.requests -> r.callbacks.length ≤ 1
  completed : forall r, r ∈ s.requests -> (forall a, r.act a = none) ->
    r.callbacks.length = 1
  counted : s.inflightCount = s.inFlight
  drained : s.destructor = .returned -> s.inFlight = 0
  noneFreed : s.usesFreed = false

end AsyncClient

/-- A `WinHttpSendRequest` that is refused has not stored its context. -/
def ClientStep.contextDropped : ClientStep ρ σ -> Bool
  | .act _ (.starts outcome) => !outcome.contextKept
  | _ => true

/-!
# What a request does
-/

namespace Request

/-- What WinHTTP owes to a request, in each of its phases. -/
def Sound (r : Request ρ σ) : Prop :=
  match r.phase with
  | .entered | .starting => r.calls = [] ∧ r.closings = 0 ∧ r.callbacks = []
  | .running ctx =>
      r.calls = ctx.call.toList ∧
        r.closings = (if ctx.state = .CloseHandle then 1 else 0) ∧ r.callbacks = []
  | .answering | .calling | .over =>
      r.calls = [] ∧ r.closings = 0 ∧ r.callbacks.length = 1

section handlers

variable {r : Request ρ σ} {ctx : AsyncRequestContext ρ σ}

theorem closes_sound (hcalls : r.calls = []) (hclosings : r.closings = 0)
    (hcallbacks : r.callbacks = []) (hstate : ctx.state = .CloseHandle) :
    (r.closes true ctx).Sound := by
  refine ⟨?_, ?_, hcallbacks⟩
  · rw [AsyncRequestContext.call_none.mpr hstate]
    exact hcalls
  · rw [if_pos hstate]
    exact congrArg (· + 1) hclosings

theorem goesOn_sound (lastError : Option WinError) (hcalls : r.calls = [])
    (hclosings : r.closings = 0) (hcallbacks : r.callbacks = []) :
    (r.goesOn true lastError ctx).Sound := by
  unfold goesOn
  cases hcall : ctx.call with
  | none =>
      exact closes_sound hcalls hclosings hcallbacks
        (AsyncRequestContext.call_none.mp hcall)
  | some c =>
      cases lastError with
      | some e => exact closes_sound hcalls hclosings hcallbacks rfl
      | none =>
          have hopen : ctx.state ≠ .CloseHandle := fun hstate => by
            rw [AsyncRequestContext.call_none.mpr hstate] at hcall
            cases hcall
          refine ⟨?_, ?_, hcallbacks⟩
          · change r.calls ++ [c] = _
            rw [hcalls, hcall]
            rfl
          · rw [if_neg hopen]
            exact hclosings

/-- The only notice that a running context is given is one that it handles. -/
theorem onStatus_sound {event : Event} {c : Call} (lastError : Option WinError)
    (hcalls : r.calls = []) (hclosings : r.closings = 0) (hcallbacks : r.callbacks = [])
    (hcall : ctx.call = some c) (hfits : c.fits event.notice = true) :
    (r.onStatus ctx event lastError).Sound := by
  have hopen : (ctx.state != .CloseHandle) = true := by
    refine bne_iff_ne.mpr fun hstate => ?_
    rw [AsyncRequestContext.call_none.mpr hstate] at hcall
    cases hcall
  unfold onStatus
  simp only [hopen]
  rcases AsyncRequestContext.handles_of_fits hcall hfits with hhandles | ⟨dwError, hfailed⟩
  · split
    · exact closes_sound hcalls hclosings hcallbacks rfl
    · rw [if_pos hhandles]
      exact goesOn_sound lastError hcalls hclosings hcallbacks
  · rw [hfailed]
    exact closes_sound hcalls hclosings hcallbacks rfl

/-- A context that is running goes on, or its callback runs. -/
def Underway (r r' : Request ρ σ) : Prop :=
  r'.inFlight = true ∧ r'.isEntered = false ∧ r'.caller = r.caller

theorem closes_underway (r : Request ρ σ) (hRequest : Bool) (ctx : AsyncRequestContext ρ σ) :
    Underway r (r.closes hRequest ctx) := by
  unfold closes
  cases hRequest with
  | false => exact ⟨rfl, rfl, rfl⟩
  | true => exact ⟨rfl, rfl, rfl⟩

theorem onStatus_underway (r : Request ρ σ) (ctx : AsyncRequestContext ρ σ) (event : Event)
    (lastError : Option WinError) : Underway r (r.onStatus ctx event lastError) := by
  unfold onStatus
  simp only
  split
  · exact closes_underway ..
  · split
    · unfold goesOn
      split
      · exact closes_underway ..
      · exact ⟨rfl, rfl, rfl⟩
      · exact closes_underway ..
    · exact ⟨rfl, rfl, rfl⟩

end handlers

/-!
# What a step of a request keeps
-/

def inFlightCount (r : Request ρ σ) : Nat := if r.inFlight then 1 else 0

structure Kept (r : Request ρ σ) (a : Act) (out : Outcome ρ σ) : Prop where
  sound : out.request.Sound
  caller : out.request.caller = r.caller
  notEntered : out.request.isEntered = false
  unfreed : out.usesFreed = false
  counted : r.inFlightCount + out.count = out.request.inFlightCount
  active : out.count ≠ 0 -> r.isEntered = true ∨ r.inFlight = true
  calling : r.isCalling = true -> a = .returns

variable {r : Request ρ σ} {out : Outcome ρ σ}

theorem counts_kept (hsound : r.Sound) (hact : r.act .counts = some out) :
    Kept r .counts out := by
  rcases r with ⟨input, caller, phase, calls, closings, callbacks⟩
  cases phase with
  | entered =>
      cases hact
      exact ⟨hsound, rfl, rfl, rfl, rfl, fun _ => Or.inl rfl, fun h => nomatch h⟩
  | _ => cases hact

theorem starts_kept {outcome : StartOutcome} (hdropped : outcome.contextKept = false)
    (hsound : r.Sound) (hact : r.act (.starts outcome) = some out) :
    Kept r (.starts outcome) out := by
  rcases r with ⟨input, caller, phase, calls, closings, callbacks⟩
  cases phase with
  | starting =>
      rcases hsound with ⟨hcalls, hclosings, hcallbacks⟩
      simp only [act] at hact
      cases herror : outcome.error input.formatWinHttpError with
      | none =>
          rw [herror] at hact
          cases hact
          exact ⟨⟨rfl, hclosings, hcallbacks⟩, rfl, rfl, rfl, rfl,
            fun _ => Or.inr rfl, fun h => nomatch h⟩
      | some te =>
          rw [herror, hdropped] at hact
          cases hact
          have honce : (callbacks ++ [ResponseResult.error te]).length = 1 := by
            change callbacks = [] at hcallbacks
            rw [hcallbacks]
            rfl
          exact ⟨⟨hcalls, rfl, honce⟩, rfl, rfl, rfl, rfl,
            fun _ => Or.inr rfl, fun h => nomatch h⟩
  | _ =>
      simp only [act] at hact
      cases hact

/-- The closing of a handle comes to the context that closed it. -/
theorem handleClosing_kept (hsound : r.Sound) (hact : r.act .handleClosing = some out) :
    Kept r .handleClosing out := by
  rcases r with ⟨input, caller, phase, calls, closings, callbacks⟩
  simp only [act] at hact
  split at hact
  · rename_i howed
    cases phase with
    | running ctx =>
        rcases hsound with ⟨hcalls, hclosings, hcallbacks⟩
        cases hact
        have hone : closings = 1 := by
          change closings = _ at hclosings
          split at hclosings
          · exact hclosings
          · exact absurd hclosings (Nat.ne_of_gt howed.right)
        have honce : (callbacks ++ [ctx.result]).length = 1 := by
          change callbacks = [] at hcallbacks
          rw [hcallbacks]
          rfl
        refine ⟨⟨List.isEmpty_iff.mp howed.left, ?_, honce⟩, rfl, rfl, rfl, rfl,
          fun h => absurd rfl h, fun h => nomatch h⟩
        change closings - 1 = 0
        rw [hone]
    | _ =>
        rcases hsound with ⟨_, hclosings, _⟩
        exact absurd hclosings (Nat.ne_of_gt howed.right)
  · cases hact

/-- A call that is not answered is the last one of a running context. -/
theorem Sound.called {c : Call} (hsound : r.Sound) (hc : c ∈ r.calls) :
    exists ctx, r.phase = .running ctx ∧ ctx.call = some c ∧ r.calls = [c] ∧
      r.closings = 0 ∧ r.callbacks = [] := by
  unfold Sound at hsound
  cases hphase : r.phase with
  | running ctx =>
      rw [hphase] at hsound
      rcases hsound with ⟨hcalls, hclosings, hcallbacks⟩
      cases hcall : ctx.call with
      | none =>
          rw [hcalls, hcall] at hc
          cases hc
      | some last =>
          rw [hcall] at hcalls
          have hlast : c = last := by
            rw [hcalls] at hc
            exact List.mem_singleton.mp hc
          have hopen : ctx.state ≠ .CloseHandle := fun hstate => by
            rw [AsyncRequestContext.call_none.mpr hstate] at hcall
            cases hcall
          rw [hlast]
          exact ⟨ctx, rfl, hcall, hcalls, hclosings.trans (if_neg hopen), hcallbacks⟩
  | _ =>
      rw [hphase] at hsound
      rcases hsound with ⟨hcalls, _, _⟩
      rw [hcalls] at hc
      cases hc

theorem notice_kept {event : Event} {lastError : Option WinError} (hsound : r.Sound)
    (hact : r.act (.notice event lastError) = some out) :
    Kept r (.notice event lastError) out := by
  simp only [act] at hact
  split at hact
  · rename_i hany
    rcases List.any_eq_true.mp hany with ⟨c, hc, hfits⟩
    rcases hsound.called hc with ⟨ctx, hphase, hcall, hcalls, hclosings, hcallbacks⟩
    have hrest : r.calls.eraseP (·.fits event.notice) = [] := by
      rw [hcalls]
      exact List.eraseP_cons_of_pos hfits
    rw [hphase] at hact
    cases hact
    have hflying : r.inFlight = true := by
      unfold inFlight
      rw [hphase]
    have hcalling : r.isCalling ≠ true := by
      unfold isCalling
      rw [hphase]
      exact Bool.false_ne_true
    rcases onStatus_underway
      { r with phase := .running ctx, calls := r.calls.eraseP (·.fits event.notice) } ctx
      event lastError with ⟨hflight, hentered, hcaller⟩
    refine ⟨onStatus_sound lastError hrest hclosings hcallbacks hcall hfits, hcaller,
      hentered, rfl, ?_, fun h => absurd rfl h, fun h => absurd h hcalling⟩
    unfold inFlightCount
    rw [if_pos hflying, if_pos hflight]
    rfl
  · cases hact

theorem returns_kept (hsound : r.Sound) (hact : r.act .returns = some out) :
    Kept r .returns out := by
  rcases r with ⟨input, caller, phase, calls, closings, callbacks⟩
  cases phase with
  | answering =>
      cases hact
      exact ⟨hsound, rfl, rfl, rfl, rfl, fun h => absurd rfl h, fun _ => rfl⟩
  | calling =>
      cases hact
      exact ⟨hsound, rfl, rfl, rfl, rfl, fun _ => Or.inr rfl, fun _ => rfl⟩
  | _ => cases hact

theorem act_kept {a : Act}
    (hdropped : forall outcome, a = .starts outcome -> outcome.contextKept = false)
    (hsound : r.Sound) (hact : r.act a = some out) : Kept r a out := by
  cases a with
  | counts => exact counts_kept hsound hact
  | starts outcome => exact starts_kept (hdropped outcome rfl) hsound hact
  | notice event lastError => exact notice_kept hsound hact
  | handleClosing => exact handleClosing_kept hsound hact
  | returns => exact returns_kept hsound hact

/-- As long as the callback has not run, something is still to happen. -/
theorem Sound.completed (hsound : r.Sound) (hdone : forall a, r.act a = none) :
    r.callbacks.length = 1 := by
  rcases r with ⟨input, caller, phase, calls, closings, callbacks⟩
  cases phase with
  | entered => exact absurd (hdone .counts) (Option.some_ne_none _)
  | starting => exact absurd (hdone (.starts .sent)) (Option.some_ne_none _)
  | running ctx =>
      rcases hsound with ⟨hcalls, hclosings, _⟩
      change calls = _ at hcalls
      change closings = _ at hclosings
      cases hcall : ctx.call with
      | none =>
          have hstate := AsyncRequestContext.call_none.mp hcall
          have hnone := hdone .handleClosing
          rw [hcall] at hcalls
          rw [if_pos hstate] at hclosings
          rw [hcalls, hclosings] at hnone
          exact absurd hnone (Option.some_ne_none _)
      | some c =>
          have hnone := hdone (.notice ⟨.failed (.requestError ⟨1, Nat.one_ne_zero⟩), false⟩ none)
          have hany : calls.any (·.fits (.failed (.requestError ⟨1, Nat.one_ne_zero⟩))) =
              true := by
            rw [hcalls, hcall]
            cases c <;> rfl
          simp only [act, if_pos hany] at hnone
          cases hnone
  | _ =>
      rcases hsound with ⟨_, _, honce⟩
      exact honce

theorem Sound.atMostOnce (hsound : r.Sound) : r.callbacks.length ≤ 1 := by
  rcases r with ⟨input, caller, phase, calls, closings, callbacks⟩
  cases phase with
  | answering | calling | «over» => exact le_of_eq hsound.right.right
  | _ =>
      rcases hsound with ⟨_, _, hnone⟩
      change callbacks = [] at hnone
      rw [hnone]
      exact Nat.zero_le 1

end Request

/-!
# What a step of the client keeps
-/

namespace AsyncClient

structure Inv (s : AsyncClient ρ σ) : Prop where
  sound : forall r, r ∈ s.requests -> r.Sound
  counted : s.inflightCount = s.inFlight
  callers : forall r, r ∈ s.requests -> r.isEntered = true -> s.mayCall r.caller = true
  drained : s.destructor = .returned -> s.inFlight = 0
  noneFreed : s.usesFreed = false

theorem Inv.completesOnce {s : AsyncClient ρ σ} (hinv : s.Inv) : s.CompletesOnce where
  atMostOnce r hr := (hinv.sound r hr).atMostOnce
  completed r hr hdone := (hinv.sound r hr).completed hdone
  counted := hinv.counted
  drained := hinv.drained
  noneFreed := hinv.noneFreed

theorem inFlight_pos {s : AsyncClient ρ σ} {r : Request ρ σ} (hr : r ∈ s.requests)
    (hflight : r.inFlight = true) : 0 < s.inFlight :=
  List.countP_pos_iff.mpr ⟨r, hr, hflight⟩

theorem inFlight_of_calling {r : Request ρ σ} (hcalling : r.isCalling = true) :
    r.inFlight = true := by
  unfold Request.isCalling at hcalling
  unfold Request.inFlight
  split at hcalling
  · rename_i hphase
    rw [hphase]
  · cases hcalling

theorem mayCall_some {s : AsyncClient ρ σ} {p : Nat} :
    s.mayCall (some p) = true ↔
      exists r, s.requests[p]? = some r ∧ r.isCalling = true := by
  change (s.requests[p]?).any _ = true ↔ _
  rw [Option.any_eq_true]

/-- When the destructor has returned, nobody is on the way into the client. -/
theorem Inv.mayCall_false {s : AsyncClient ρ σ} (hinv : s.Inv)
    (hreturned : s.destructor = .returned) (caller : Option Nat) :
    s.mayCall caller = false := by
  cases caller with
  | none =>
      unfold mayCall
      rw [hreturned]
      rfl
  | some p =>
      rw [Bool.eq_false_iff]
      intro hcalls
      rcases mayCall_some.mp hcalls with ⟨r, hr, hcalling⟩
      have hpos := inFlight_pos (List.mem_of_getElem? hr) (inFlight_of_calling hcalling)
      exact Nat.ne_of_gt hpos (hinv.drained hreturned)

theorem sendAsync_sound (s : AsyncClient ρ σ) (input : SendInput ρ σ) (canceled : Bool)
    (caller : Option Nat) :
    (s.sendAsync input canceled caller).Sound ∧
      (s.sendAsync input canceled caller).inFlight = false ∧
      (s.sendAsync input canceled caller).caller = caller := by
  unfold sendAsync
  simp only
  split
  · exact ⟨⟨rfl, rfl, rfl⟩, rfl, rfl⟩
  · split
    · exact ⟨⟨rfl, rfl, rfl⟩, rfl, rfl⟩
    · exact ⟨⟨rfl, rfl, rfl⟩, rfl, rfl⟩

theorem sendAsync_inv {s : AsyncClient ρ σ} (input : SendInput ρ σ) (canceled : Bool)
    {caller : Option Nat} (hmay : s.mayCall caller = true) (hinv : s.Inv) :
    Inv { s with requests := s.requests ++ [s.sendAsync input canceled caller] } := by
  rcases sendAsync_sound s input canceled caller with ⟨hsound, hidle, hcaller⟩
  have hflight : inFlight
      { s with requests := s.requests ++ [s.sendAsync input canceled caller] } =
        s.inFlight := by
    change List.countP _ (s.requests ++ [_]) = s.inFlight
    rw [List.countP_append, List.countP_singleton, hidle]
    rfl
  have hstill : forall other, s.mayCall other = true -> mayCall
      { s with requests := s.requests ++ [s.sendAsync input canceled caller] } other =
        true := by
    intro other hother
    cases other with
    | none => exact hother
    | some p =>
        rcases mayCall_some.mp hother with ⟨r, hr, hcalling⟩
        refine mayCall_some.mpr ⟨r, ?_, hcalling⟩
        rw [List.getElem?_append_left (List.getElem?_eq_some_iff.mp hr).1]
        exact hr
  constructor
  · intro r hr
    rcases List.mem_append.mp hr with hold | hnew
    · exact hinv.sound r hold
    · rw [List.mem_singleton.mp hnew]
      exact hsound
  · rw [hflight]
    exact hinv.counted
  · intro r hr hentered
    rcases List.mem_append.mp hr with hold | hnew
    · exact hstill _ (hinv.callers r hold hentered)
    · rw [List.mem_singleton.mp hnew, hcaller]
      exact hstill _ hmay
  · intro hreturned
    rw [hflight]
    exact hinv.drained hreturned
  · exact hinv.noneFreed

theorem inFlight_set {s : AsyncClient ρ σ} {id : Nat} {r : Request ρ σ}
    (hget : s.requests[id]? = some r) (r' : Request ρ σ) :
    ((s.requests.set id r').countP (·.inFlight) : Int) + r.inFlightCount =
      s.inFlight + r'.inFlightCount := by
  rcases List.getElem?_eq_some_iff.mp hget with ⟨hid, hr⟩
  have hset := List.countP_set (p := (·.inFlight)) (a := r') hid
  rw [hr] at hset
  have hhere : r.inFlightCount ≤ s.inFlight := by
    unfold Request.inFlightCount
    split
    · rename_i hflight
      exact inFlight_pos (List.mem_of_getElem? hget) hflight
    · exact Nat.zero_le _
  unfold inFlight Request.inFlightCount at *
  omega

/-- Behind its destructor nothing counts in the client. -/
theorem Inv.count_zero {s : AsyncClient ρ σ} {id : Nat} {a : Act} {r : Request ρ σ}
    {out : Request.Outcome ρ σ} (hinv : s.Inv) (hget : s.requests[id]? = some r)
    (hkept : Request.Kept r a out) (hreturned : s.destructor = .returned) :
    out.count = 0 := by
  by_contra hcount
  have hr := List.mem_of_getElem? hget
  cases hkept.active hcount with
  | inl hentered =>
      have hcalls := hinv.callers r hr hentered
      rw [hinv.mayCall_false hreturned] at hcalls
      cases hcalls
  | inr hflight =>
      exact Nat.ne_of_gt (inFlight_pos hr hflight) (hinv.drained hreturned)

/-- A request on its way in finds its caller still in its callback. -/
theorem Inv.stillCalls {s : AsyncClient ρ σ} {id : Nat} {a : Act} {r q : Request ρ σ}
    {out : Request.Outcome ρ σ} (hinv : s.Inv) (hblocked : s.blocked id a = false)
    (hget : s.requests[id]? = some r) (hkept : Request.Kept r a out)
    (hq : q ∈ s.requests) (hentered : q.isEntered = true) {p : Nat}
    (hcaller : q.caller = some p) :
    exists t, (s.requests.set id out.request)[p]? = some t ∧ t.isCalling = true := by
  have hmay := hinv.callers q hq hentered
  rw [hcaller] at hmay
  rcases mayCall_some.mp hmay with ⟨t, ht, hcalling⟩
  by_cases hid : id = p
  · rw [hid, ht] at hget
    have hreturns := hkept.calling (Option.some.inj hget ▸ hcalling)
    rw [hreturns] at hblocked
    have hwaits := List.any_eq_false.mp hblocked q hq
    have huncounted : q.uncounted = true := by
      unfold Request.isEntered at hentered
      unfold Request.uncounted
      split at hentered
      · rename_i hphase
        rw [hphase]
      · cases hentered
    rw [hcaller, huncounted, hid, beq_self_eq_true] at hwaits
    exact absurd rfl hwaits
  · rw [List.getElem?_set_ne hid]
    exact ⟨t, ht, hcalling⟩

theorem act_inv {s : AsyncClient ρ σ} {id : Nat} {a : Act} {r : Request ρ σ}
    {out : Request.Outcome ρ σ} (hblocked : s.blocked id a = false)
    (hget : s.requests[id]? = some r) (hkept : Request.Kept r a out) (hinv : s.Inv) :
    Inv
      { s with
        requests := s.requests.set id out.request
        inflightCount := s.inflightCount + out.count
        usesFreed := s.usesFreed || out.usesFreed ||
          (out.count != 0 && s.destructor == .returned) } := by
  have hflight := inFlight_set hget out.request
  have hcounted := hinv.counted
  have hdelta := hkept.counted
  constructor
  · intro q hq
    rcases List.mem_or_eq_of_mem_set hq with hold | hnew
    · exact hinv.sound q hold
    · rw [hnew]
      exact hkept.sound
  · change s.inflightCount + out.count = ((s.requests.set id out.request).countP _ : Nat)
    omega
  · intro q hq hentered
    rcases List.mem_or_eq_of_mem_set hq with hold | hnew
    · cases hcaller : q.caller with
      | none =>
          have hmay := hinv.callers q hold hentered
          rw [hcaller] at hmay
          exact hmay
      | some p =>
          exact mayCall_some.mpr
            (hinv.stillCalls hblocked hget hkept hold hentered hcaller)
    · rw [hnew, hkept.notEntered] at hentered
      cases hentered
  · intro hreturned
    have hzero := hinv.count_zero hget hkept hreturned
    have hnone := hinv.drained hreturned
    change (s.requests.set id out.request).countP _ = 0
    omega
  · change (s.usesFreed || out.usesFreed || _) = false
    rw [hinv.noneFreed, hkept.unfreed]
    cases hreturned : s.destructor == .returned with
    | false => exact Bool.and_false _
    | true =>
        rw [hinv.count_zero hget hkept (eq_of_beq hreturned)]
        rfl

theorem destroys_inv {s : AsyncClient ρ σ} (hmay : s.mayDestroy = true) (hinv : s.Inv) :
    Inv { s with hSession := false, destructor := .waiting } := by
  rcases Bool.and_eq_true_iff.mp hmay with ⟨_, hnobody⟩
  constructor
  · exact hinv.sound
  · exact hinv.counted
  · intro r hr hentered
    cases hcaller : r.caller with
    | none =>
        have hout := List.all_eq_true.mp hnobody r hr
        rw [hcaller, hentered] at hout
        cases hout
    | some p =>
        have hcalls := hinv.callers r hr hentered
        rw [hcaller] at hcalls
        exact hcalls
  · intro hreturned
    cases hreturned
  · exact hinv.noneFreed

theorem destructorReturns_inv {s : AsyncClient ρ σ} (hwaiting : s.destructor = .waiting)
    (hzero : s.inflightCount = 0) (hinv : s.Inv) :
    Inv { s with destructor := .returned } := by
  constructor
  · exact hinv.sound
  · exact hinv.counted
  · intro r hr hentered
    have hcalls := hinv.callers r hr hentered
    cases hcaller : r.caller with
    | none =>
        rw [hcaller] at hcalls
        unfold mayCall at hcalls
        rw [hwaiting] at hcalls
        cases hcalls
    | some p =>
        rw [hcaller] at hcalls
        exact hcalls
  · intro _
    exact Int.ofNat.inj (hinv.counted.symm.trans hzero)
  · exact hinv.noneFreed

theorem step_inv {s t : AsyncClient ρ σ} {l : ClientStep ρ σ} (hinv : s.Inv)
    (hdropped : l.contextDropped = true) (hstep : s.step l = some t) : t.Inv := by
  cases l with
  | sendAsync input canceled caller =>
      simp only [step] at hstep
      split at hstep
      · rename_i hmay
        cases hstep
        exact sendAsync_inv input canceled hmay hinv
      · cases hstep
  | act id a =>
      simp only [step] at hstep
      split at hstep
      · cases hstep
      · rename_i hblocked
        rcases Option.map_eq_some_iff.mp hstep with ⟨out, hout, ht⟩
        rcases Option.bind_eq_some_iff.mp hout with ⟨r, hget, hact⟩
        cases ht
        have hsends : forall outcome, a = .starts outcome ->
            outcome.contextKept = false := by
          intro outcome hstarts
          rw [hstarts] at hdropped
          exact (Bool.not_eq_eq_eq_not.mp hdropped).trans rfl
        have hkept := Request.act_kept hsends (hinv.sound r (List.mem_of_getElem? hget)) hact
        exact act_inv (Bool.eq_false_iff.mpr hblocked) hget hkept hinv
  | destroys =>
      simp only [step] at hstep
      split at hstep
      · rename_i hmay
        cases hstep
        exact destroys_inv hmay hinv
      · cases hstep
  | destructorReturns =>
      simp only [step] at hstep
      split at hstep
      · rename_i hready
        cases hstep
        exact destructorReturns_inv hready.left hready.right hinv
      · cases hstep

/--
In a run in which no refused `WinHttpSendRequest` has stored its context, every request is
completed exactly once and the destructor drains the client.
-/
theorem requests_completeOnce :
    ((system ρ σ).guarded fun _ l => l.contextDropped = true).Invariant
      CompletesOnce := by
  intro s hs
  refine Inv.completesOnce (TransitionSystem.guarded_invariant_of_step ?_ ?_ s hs)
  · intro s0 hs0
    rcases hs0 with ⟨hSession, hs0⟩
    rw [hs0]
    constructor
    · exact fun r hr => absurd hr List.not_mem_nil
    · rfl
    · exact fun r hr => absurd hr List.not_mem_nil
    · exact fun _ => rfl
    · rfl
  · intro s l t hinv hdropped hstep
    exact step_inv hinv hdropped hstep

/-- A request without a body, of which WinHTTP describes no error. -/
def bareRequest : SendInput Unit Unit where
  headers := SortedMap.empty
  body := none
  sinkFactory := none
  env := ()
  formatWinHttpError winError := bytes "WinHTTP error " ++ toDecimal winError

/--
Two requests.  The call that starts the first is refused for want of memory, WinHTTP having
its context, and the closing of its handle is told while the second waits for an answer.
-/
def strayClosing : List (ClientStep Unit Unit) :=
  [.sendAsync bareRequest false none, .act 0 .counts,
    .act 0 (.starts (.sendRefused ⟨8, by decide⟩ true)), .act 0 .returns,
    .sendAsync bareRequest false none, .act 1 .counts, .act 1 (.starts .sent),
    .destroys, .act 0 .handleClosing, .destructorReturns]

/-- The destructor returns while the second request is in flight. -/
theorem not_completeOnce_strayClosing :
    ¬ (system Unit Unit).Invariant CompletesOnce := by
  intro hinvariant
  have hreached : exists s, (system Unit Unit).run ⟨true, [], 0, .notBegun, false⟩
      strayClosing = some s ∧ s.destructor = .returned ∧ s.inFlight = 1 :=
    ⟨_, rfl, rfl, rfl⟩
  rcases hreached with ⟨s, hrun, hreturned, hone⟩
  have honce := hinvariant s (TransitionSystem.reachable_of_run ⟨true, rfl⟩ hrun)
  have hzero := honce.drained hreturned
  rw [hone] at hzero
  cases hzero

end AsyncClient

end WinHttp
end Transport
end OssSdk
