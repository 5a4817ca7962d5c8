import OssSdk.Transport.HttpTypes
import OssSdk.Transport.RequestLedger
import OssSdk.Foundation.Transition
import Mathlib.Data.Multiset.Range

/-!
# The asynchronous transport over a curl multi handle

Any thread may be in a call of `sendAsync`; one I/O thread moves the requests
from the pending list to the multi handle and completes them; the destructor
sets a flag and joins that thread.  A step of the model is what a thread does
between two points where another one can be seen to have moved: a read or write
of the flag, a critical section, an operation on the pool, a callback.

A request is named by the number of its call, and `α` is what its callback has
captured.
-/

namespace OssSdk
namespace Transport
namespace Curl

open Foundation

/-!
# The pool of easy handles
-/

/-- The handles are alike; `resources` counts those that are in the pool. -/
structure CurlContainer where
  resources : Nat
  poolSize : Nat
  maxPoolSize : Nat
deriving DecidableEq

namespace CurlContainer

def init (maxSize : Nat) : CurlContainer := ⟨0, 0, maxSize⟩

def HasResourcesAvailable (c : CurlContainer) : Bool :=
  decide (0 < c.resources)

def amountToAdd (c : CurlContainer) : Nat :=
  min ((if 0 < c.poolSize then c.poolSize else 1) * 2 % 2 ^ 32)
    (c.maxPoolSize - c.poolSize)

/-- `curl_easy_init` fails after `made` handles, or makes them all. -/
def growPool (c : CurlContainer) (made : Nat) : CurlContainer :=
  if c.poolSize < c.maxPoolSize then
    { c with
      resources := c.resources + min made c.amountToAdd
      poolSize := c.poolSize + min made c.amountToAdd }
  else c

/-- `ResourceManager::Acquire` waits while the pool is empty. -/
def Acquire (c : CurlContainer) : Option CurlContainer :=
  if 0 < c.resources then some { c with resources := c.resources - 1 }
  else none

def Release (c : CurlContainer) : CurlContainer :=
  { c with resources := c.resources + 1 }

/-- The destructor waits until every handle is back, and cleans them up. -/
def ShutdownAndWait (c : CurlContainer) : Option CurlContainer :=
  if c.resources < c.poolSize then none
  else some { c with resources := 0, poolSize := 0 }

end CurlContainer

/-!
# Threads
-/

/-- Where a call of `sendAsync` is. -/
inductive SendPc where
  /-- Before the first look at `stopped_`. -/
  | entered
  /-- In `CurlContainer::Acquire`, before the look into the pool. -/
  | acquiring
  /-- Before `growPool`. -/
  | growing
  /-- In `ResourceManager::Acquire`. -/
  | waiting
  /-- With a handle, before the second look at `stopped_`. -/
  | acquired
  /-- With a context that is not in `pendingRequests_` yet. -/
  | ready
  /-- Before calling back with an error. -/
  | failing (result : ResponseResult)
  | returned
deriving DecidableEq

def SendPc.stage : SendPc -> Stage
  | .entered => .mayAcquire
  | .acquiring => .mayAcquire
  | .growing => .mayAcquire
  | .waiting => .mayAcquire
  | .acquired => .holding
  | .ready => .holding
  | .failing _ => .failing
  | .returned => .left

structure Call (α : Type) where
  callback : α
  pc : SendPc
deriving DecidableEq

/-- Where the I/O thread is; the lists are the local vectors. -/
inductive IoPc where
  | head
  | drainPending
  | adding (batch : List Nat)
  /-- In `processCompleted`. -/
  | completed
  | check
  | poll
  /-- In `processCompleted` after the loop. -/
  | lastCompleted
  /-- At the beginning of `cleanupInflight`. -/
  | cleanup
  | cancelling (batch : List Nat)
  | cleanInflight
  | returned
deriving DecidableEq

def IoPc.batch : IoPc -> List Nat
  | .adding batch => batch
  | .cancelling batch => batch
  | _ => []

/-- `pendingRequests_` will not be looked at again. -/
def IoPc.swapped : IoPc -> Bool
  | .cancelling _ => true
  | .cleanInflight => true
  | .returned => true
  | _ => false

inductive Destructor where
  | alive
  /-- In `ioThread_.join()`. -/
  | stopping
  /-- Before the destruction of the members. -/
  | joined
  | returned
deriving DecidableEq

/--
`ioCallback` is the callback that the I/O thread is about to call.  The last
three fields record what has happened to each request.
-/
structure CurlMultiTransport (α : Type) where
  multiHandle : Bool
  stopped : Bool
  calls : List (Call α)
  pendingRequests : List Nat
  inflightHandles : List Nat
  io : IoPc
  ioCallback : Option (Nat × ResponseResult)
  container : CurlContainer
  destructor : Destructor
  acquired : List Nat
  released : List Nat
  callbacks : List (Nat × ResponseResult)
deriving DecidableEq

def clientError (errno : Int) (message : ByteString)
    (hcode : (ErrorCode.generic errno).isError = true) : ResponseResult :=
  .error ⟨ErrorCode.generic errno, bytes "ClientError", message, hcode⟩

/-- `std::errc::operation_canceled`. -/
def stoppedError : ResponseResult :=
  clientError 125 (bytes "transport is stopped") rfl

/-- `std::errc::operation_not_supported`. -/
def notSupportedError : ResponseResult :=
  clientError 95 (bytes "curl_multi_init failed") rfl

namespace CurlMultiTransport

variable {α : Type}

/-- Without a multi handle there is no I/O thread. -/
def init (multiHandle : Bool) (maxConnections : Nat) :
    CurlMultiTransport α where
  multiHandle := multiHandle
  stopped := false
  calls := []
  pendingRequests := []
  inflightHandles := []
  io := if multiHandle then .head else .returned
  ioCallback := none
  container := CurlContainer.init maxConnections
  destructor := .alive
  acquired := []
  released := []
  callbacks := []

def setCall (t : CurlMultiTransport α) (id : Nat) (pc : SendPc) :
    CurlMultiTransport α :=
  { t with calls := t.calls.modify id fun c => { c with pc := pc } }

def release (t : CurlMultiTransport α) (id : Nat) : CurlMultiTransport α :=
  { t with
    container := t.container.Release
    released := id :: t.released }

def callBack (t : CurlMultiTransport α) (id : Nat) (result : ResponseResult) :
    CurlMultiTransport α :=
  { t with callbacks := (id, result) :: t.callbacks }

def pcAt (t : CurlMultiTransport α) (id : Nat) : SendPc :=
  match t.calls[id]? with
  | some c => c.pc
  | none => .returned

/-!
# The steps
-/

/-- A thread enters `sendAsync`. -/
def sendAsync (t : CurlMultiTransport α) (callback : α) :
    CurlMultiTransport α :=
  { t with calls := t.calls ++ [⟨callback, .entered⟩] }

/--
The pool holds no null handle, so that `Acquire` does not return one; the call
that has to grow the pool goes on with `growStep`.
-/
def callStep (t : CurlMultiTransport α) (id : Nat) :
    Option (CurlMultiTransport α) :=
  match t.pcAt id with
  | .entered =>
      if !t.multiHandle then some (t.setCall id (.failing notSupportedError))
      else if t.stopped then some (t.setCall id (.failing stoppedError))
      else some (t.setCall id .acquiring)
  | .acquiring =>
      if t.container.HasResourcesAvailable then some (t.setCall id .waiting)
      else some (t.setCall id .growing)
  | .growing => none
  | .waiting =>
      match t.container.Acquire with
      | none => none
      | some container =>
          some { t.setCall id .acquired with
            container := container
            acquired := id :: t.acquired }
  | .acquired =>
      if t.stopped then
        some ((t.release id).setCall id (.failing stoppedError))
      else some (t.setCall id .ready)
  | .ready =>
      some { t.setCall id .returned with
        pendingRequests := t.pendingRequests ++ [id] }
  | .failing result => some ((t.callBack id result).setCall id .returned)
  | .returned => none

def growStep (t : CurlMultiTransport α) (id made : Nat) :
    Option (CurlMultiTransport α) :=
  match t.pcAt id with
  | .growing =>
      some { t.setCall id .waiting with
        container := t.container.growPool made }
  | _ => none

/--
`curl_multi_perform` changes nothing here; which transfers it has finished is
left to `completeStep`.
-/
def ioAdvance (t : CurlMultiTransport α) : Option (CurlMultiTransport α) :=
  match t.io with
  | .head =>
      if t.stopped then some { t with io := .lastCompleted }
      else some { t with io := .drainPending }
  | .drainPending =>
      some { t with
        io := .adding t.pendingRequests
        pendingRequests := [] }
  | .adding [] => some { t with io := .completed }
  | .adding (id :: rest) =>
      some { t with
        io := .adding rest
        inflightHandles := id :: t.inflightHandles }
  | .completed => some { t with io := .check }
  | .check =>
      if t.stopped then some { t with io := .lastCompleted }
      else some { t with io := .poll }
  | .poll => some { t with io := .head }
  | .lastCompleted => some { t with io := .cleanup }
  | .cleanup =>
      some { t with
        io := .cancelling t.pendingRequests
        pendingRequests := [] }
  | .cancelling [] => some { t with io := .cleanInflight }
  | .cancelling (id :: rest) =>
      some { t.release id with
        io := .cancelling rest
        ioCallback := some (id, stoppedError) }
  | .cleanInflight =>
      -- The source clears the set after its loop over it.
      match t.inflightHandles with
      | [] => some { t with io := .returned }
      | id :: rest =>
          some { t.release id with
            inflightHandles := rest
            ioCallback := some (id, stoppedError) }
  | .returned => none

def ioStep (t : CurlMultiTransport α) : Option (CurlMultiTransport α) :=
  match t.ioCallback with
  | some (id, result) => some { t.callBack id result with ioCallback := none }
  | none => t.ioAdvance

/-- One round of `processCompleted`: the transfer of a request is over. -/
def completeStep (t : CurlMultiTransport α) (id : Nat)
    (result : ResponseResult) : Option (CurlMultiTransport α) :=
  if t.ioCallback = none ∧ (t.io = .completed ∨ t.io = .lastCompleted) ∧
      id ∈ t.inflightHandles then
    some { t.release id with
      inflightHandles := t.inflightHandles.erase id
      ioCallback := some (id, result) }
  else none

/--
The members die in the reverse order of their declaration: what is left in
`pendingRequests_` without a callback, then the pool, which waits.
-/
def destroyStep (t : CurlMultiTransport α) : Option (CurlMultiTransport α) :=
  match t.destructor with
  | .alive => some { t with stopped := true, destructor := .stopping }
  | .stopping =>
      if t.io = .returned then some { t with destructor := .joined } else none
  | .joined =>
      match t.container.ShutdownAndWait with
      | none => none
      | some container =>
          some { t with
            pendingRequests := []
            inflightHandles := []
            container := container
            destructor := .returned }
  | .returned => none

inductive Label (α : Type) where
  | send (callback : α)
  | call (id : Nat)
  | grow (id made : Nat)
  | io
  | complete (id : Nat) (result : ResponseResult)
  | destroy
deriving DecidableEq

def step (t : CurlMultiTransport α) :
    Label α -> Option (CurlMultiTransport α)
  | .send callback =>
      if t.destructor = .returned then none else some (t.sendAsync callback)
  | .call id => t.callStep id
  | .grow id made => t.growStep id made
  | .io => t.ioStep
  | .complete id result => t.completeStep id result
  | .destroy => t.destroyStep

def system (α : Type) :
    TransitionSystem (CurlMultiTransport α) (Label α) where
  initial t := exists multiHandle maxConnections,
    t = init multiHandle maxConnections
  step := step

/-- The callback that a step calls. -/
def callbackOf (t : CurlMultiTransport α) :
    Label α -> Option (Nat × ResponseResult)
  | .call id =>
      match t.pcAt id with
      | .failing result => some (id, result)
      | _ => none
  | .io => t.ioCallback
  | _ => none

def captured (t : CurlMultiTransport α) : List α :=
  t.calls.map Call.callback

/-!
# The ledger of a transport
-/

def contexts (t : CurlMultiTransport α) : List Nat :=
  t.pendingRequests ++ t.io.batch ++ t.inflightHandles

def calling (t : CurlMultiTransport α) : List Nat :=
  t.ioCallback.toList.map Prod.fst

def called (t : CurlMultiTransport α) : List Nat :=
  t.callbacks.map Prod.fst

def ledger (t : CurlMultiTransport α) : RequestLedger where
  entered := Multiset.range t.calls.length
  stage id := (t.pcAt id).stage
  contexts := t.contexts
  calling := t.calling
  called := t.called
  acquired := t.acquired
  released := t.released
  resources := t.container.resources
  poolSize := t.container.poolSize

def Accounted (t : CurlMultiTransport α) : Prop :=
  t.ledger.Accounted

theorem lt_of_pcAt {t : CurlMultiTransport α} {id : Nat}
    (hpc : t.pcAt id ≠ .returned) : id < t.calls.length := by
  unfold pcAt at hpc
  split at hpc
  · rename_i hcall
    exact (List.getElem?_eq_some_iff.mp hcall).1
  · exact absurd rfl hpc

theorem pcAt_setCall {t : CurlMultiTransport α} {id : Nat} (pc : SendPc)
    (hid : id < t.calls.length) :
    (t.setCall id pc).pcAt = Function.update t.pcAt id pc := by
  funext id'
  rw [Function.update_apply]
  unfold pcAt setCall
  rw [List.getElem?_modify]
  by_cases hsame : id = id'
  · rw [← hsame, List.getElem?_eq_getElem hid]
    simp
  · cases t.calls[id']? <;> simp [hsame, Ne.symm hsame]

theorem captured_setCall (t : CurlMultiTransport α) (id : Nat) (pc : SendPc) :
    (t.setCall id pc).captured = t.captured := by
  apply List.ext_getElem?
  intro id'
  simp only [captured, setCall, List.getElem?_map, List.getElem?_modify,
    Functor.map, Option.map_map]
  congr 1
  funext c
  by_cases hsame : id = id'
  · simp [hsame]
  · simp [hsame]

theorem pcAt_sendAsync (t : CurlMultiTransport α) (callback : α) :
    (t.sendAsync callback).pcAt =
      Function.update t.pcAt t.calls.length .entered := by
  funext id
  rw [Function.update_apply]
  unfold pcAt sendAsync
  rw [List.getElem?_append]
  by_cases hlt : id < t.calls.length
  · rw [if_pos hlt, if_neg (Nat.ne_of_lt hlt)]
  · rw [if_neg hlt, List.getElem?_eq_none (Nat.le_of_not_lt hlt)]
    by_cases hlast : id = t.calls.length
    · simp [hlast]
    · have hbeyond : [(⟨callback, .entered⟩ : Call α)].length ≤
          id - t.calls.length := by
        simp only [List.length_singleton]
        omega
      rw [List.getElem?_eq_none hbeyond, if_neg hlast]

theorem stage_update (pcs : Nat -> SendPc) (id : Nat) (pc : SendPc) :
    (fun id' => (Function.update pcs id pc id').stage) =
      Function.update (fun id' => (pcs id').stage) id pc.stage := by
  funext id'
  rw [Function.update_apply, Function.update_apply]
  split <;> rfl

theorem ledger_sendAsync (t : CurlMultiTransport α) (callback : α) :
    (t.sendAsync callback).ledger = t.ledger.enter t.calls.length := by
  unfold ledger
  rw [pcAt_sendAsync, stage_update]
  simp [RequestLedger.enter, RequestLedger.setStage, sendAsync, contexts,
    calling, called, SendPc.stage, Multiset.range_succ]

theorem ledger_setCall {t : CurlMultiTransport α} {id : Nat} (pc : SendPc)
    (hid : id < t.calls.length) :
    (t.setCall id pc).ledger = t.ledger.setStage id pc.stage := by
  unfold ledger
  rw [pcAt_setCall pc hid, stage_update]
  simp [RequestLedger.setStage, setCall, contexts, calling, called]

theorem accounted_init (multiHandle : Bool) (maxConnections : Nat) :
    Accounted (init multiHandle maxConnections : CurlMultiTransport α) := by
  cases multiHandle with
  | true => exact RequestLedger.accounted_empty 0
  | false => exact RequestLedger.accounted_empty 0

/-!
# Each step keeps the account
-/

/-- A step of a call that moves neither the request nor a handle. -/
theorem Accounted.setCall {t : CurlMultiTransport α} {id : Nat} {pc : SendPc}
    (ht : Accounted t)
    (hid : id < t.calls.length)
    (hstage : (t.pcAt id).stage = pc.stage) :
    Accounted (t.setCall id pc) := by
  unfold Accounted
  rw [ledger_setCall pc hid, RequestLedger.setStage_self hstage]
  exact ht

theorem Accounted.giveUp {t : CurlMultiTransport α} {id : Nat}
    (result : ResponseResult)
    (ht : Accounted t)
    (hpc : t.pcAt id = .entered) :
    Accounted (t.setCall id (.failing result)) := by
  have hid : id < t.calls.length := lt_of_pcAt (by simp [hpc])
  have hstage : t.ledger.stage id = .mayAcquire := by
    simp only [ledger, hpc, SendPc.stage]
  unfold Accounted
  rw [ledger_setCall _ hid]
  exact RequestLedger.Accounted.giveUp ht hstage

theorem Accounted.grow {t : CurlMultiTransport α} {id : Nat} (made : Nat)
    (ht : Accounted t)
    (hpc : t.pcAt id = .growing) :
    Accounted
      { t.setCall id .waiting with
        container := t.container.growPool made } := by
  have hid : id < t.calls.length := lt_of_pcAt (by simp [hpc])
  have hset : Accounted (t.setCall id .waiting) :=
    ht.setCall hid (by rw [hpc]; rfl)
  unfold CurlContainer.growPool
  split
  · exact RequestLedger.Accounted.grow (min made t.container.amountToAdd) hset
  · exact hset

theorem Accounted.acquire {t : CurlMultiTransport α} {id : Nat}
    {container : CurlContainer}
    (ht : Accounted t)
    (hpc : t.pcAt id = .waiting)
    (hacquire : t.container.Acquire = some container) :
    Accounted
      { t.setCall id .acquired with
        container := container
        acquired := id :: t.acquired } := by
  have hid : id < t.calls.length := lt_of_pcAt (by simp [hpc])
  have hstage : t.ledger.stage id = .mayAcquire := by
    simp only [ledger, hpc, SendPc.stage]
  unfold CurlContainer.Acquire at hacquire
  split at hacquire
  · rename_i hresources
    cases hacquire
    have hledger := ledger_setCall .acquired hid
    have hafter := RequestLedger.Accounted.acquire ht hstage hresources
    unfold RequestLedger.acquire at hafter
    rw [show t.ledger.setStage id .holding = _ from hledger.symm] at hafter
    exact hafter
  · cases hacquire

theorem Accounted.giveBack {t : CurlMultiTransport α} {id : Nat}
    (result : ResponseResult)
    (ht : Accounted t)
    (hpc : t.pcAt id = .acquired) :
    Accounted ((t.release id).setCall id (.failing result)) := by
  have hid : id < t.calls.length := lt_of_pcAt (by simp [hpc])
  have hstage : t.ledger.stage id = .holding := by
    simp only [ledger, hpc, SendPc.stage]
  unfold Accounted
  rw [ledger_setCall _ (show id < (t.release id).calls.length from hid)]
  exact RequestLedger.Accounted.giveBack ht hstage

theorem Accounted.push {t : CurlMultiTransport α} {id : Nat}
    (ht : Accounted t)
    (hpc : t.pcAt id = .ready) :
    Accounted
      { t.setCall id .returned with
        pendingRequests := t.pendingRequests ++ [id] } := by
  have hid : id < t.calls.length := lt_of_pcAt (by simp [hpc])
  have hstage : t.ledger.stage id = .holding := by
    simp only [ledger, hpc, SendPc.stage]
  have hset := ledger_setCall .returned hid
  have hcontexts : ((t.pendingRequests ++ [id] ++ t.io.batch ++
      t.inflightHandles : List Nat) : Multiset Nat) = id ::ₘ t.contexts := by
    rw [Multiset.cons_coe, Multiset.coe_eq_coe]
    simp [contexts]
  have hledger : ledger { t.setCall id .returned with
      pendingRequests := t.pendingRequests ++ [id] } = t.ledger.push id := by
    apply RequestLedger.ext
    · exact (congrArg RequestLedger.entered hset :)
    · exact (congrArg RequestLedger.stage hset :)
    · exact hcontexts
    · rfl
    · rfl
    · rfl
    · rfl
    · rfl
    · rfl
  unfold Accounted
  rw [hledger]
  exact RequestLedger.Accounted.push ht hstage

theorem Accounted.fail {t : CurlMultiTransport α} {id : Nat}
    {result : ResponseResult}
    (ht : Accounted t)
    (hpc : t.pcAt id = .failing result) :
    Accounted ((t.callBack id result).setCall id .returned) := by
  have hid : id < t.calls.length := lt_of_pcAt (by simp [hpc])
  have hstage : t.ledger.stage id = .failing := by
    simp only [ledger, hpc, SendPc.stage]
  unfold Accounted
  rw [ledger_setCall _
    (show id < (t.callBack id result).calls.length from hid)]
  exact RequestLedger.Accounted.fail ht hstage

theorem callStep_accounted {t t' : CurlMultiTransport α} {id : Nat}
    (ht : Accounted t) (hstep : t.callStep id = some t') : Accounted t' := by
  have hlt : t.pcAt id ≠ .returned -> id < t.calls.length := lt_of_pcAt
  unfold callStep at hstep
  cases hpc : t.pcAt id with
  | entered =>
      simp only [hpc] at hstep hlt
      split at hstep
      · cases hstep
        exact ht.giveUp _ hpc
      · split at hstep
        · cases hstep
          exact ht.giveUp _ hpc
        · cases hstep
          exact ht.setCall (hlt (by simp)) (by rw [hpc]; rfl)
  | acquiring =>
      simp only [hpc] at hstep hlt
      split at hstep
      · cases hstep
        exact ht.setCall (hlt (by simp)) (by rw [hpc]; rfl)
      · cases hstep
        exact ht.setCall (hlt (by simp)) (by rw [hpc]; rfl)
  | growing =>
      simp only [hpc] at hstep
      cases hstep
  | waiting =>
      simp only [hpc] at hstep
      split at hstep
      · cases hstep
      · rename_i container hacquire
        cases hstep
        exact ht.acquire hpc hacquire
  | acquired =>
      simp only [hpc] at hstep hlt
      split at hstep
      · cases hstep
        exact ht.giveBack _ hpc
      · cases hstep
        exact ht.setCall (hlt (by simp)) (by rw [hpc]; rfl)
  | ready =>
      simp only [hpc] at hstep
      cases hstep
      exact ht.push hpc
  | failing result =>
      simp only [hpc] at hstep
      cases hstep
      exact ht.fail hpc
  | returned =>
      simp only [hpc] at hstep
      cases hstep

/-- The request of a context is over, and is about to be called back. -/
theorem Accounted.finish {t : CurlMultiTransport α} {id : Nat} {io : IoPc}
    {inflightHandles : List Nat}
    (result : ResponseResult)
    (ht : Accounted t)
    (hcallback : t.ioCallback = none)
    (hcontexts : t.contexts.Perm
      (id :: (t.pendingRequests ++ io.batch ++ inflightHandles))) :
    Accounted
      { t.release id with
        io := io
        inflightHandles := inflightHandles
        ioCallback := some (id, result) } := by
  have hid : id ∈ t.ledger.contexts :=
    Multiset.mem_coe.mpr (hcontexts.mem_iff.mpr List.mem_cons_self)
  have hledger : ledger
      { t.release id with
        io := io
        inflightHandles := inflightHandles
        ioCallback := some (id, result) } = t.ledger.finish id := by
    apply RequestLedger.ext
    · rfl
    · rfl
    · have hcoe : t.ledger.contexts = id ::ₘ
          ((t.pendingRequests ++ io.batch ++ inflightHandles : List Nat) :
            Multiset Nat) := Multiset.coe_eq_coe.mpr hcontexts
      simp only [RequestLedger.finish]
      rw [hcoe, Multiset.erase_cons_head]
      rfl
    · simp [ledger, RequestLedger.finish, calling, hcallback]
    · rfl
    · rfl
    · rfl
    · rfl
    · rfl
  unfold Accounted
  rw [hledger]
  exact RequestLedger.Accounted.finish ht hid

/-- A step of the I/O thread that moves contexts between its lists. -/
theorem Accounted.move {t : CurlMultiTransport α} {io : IoPc}
    {pendingRequests inflightHandles : List Nat}
    (ht : Accounted t)
    (hcontexts : t.contexts.Perm
      (pendingRequests ++ io.batch ++ inflightHandles)) :
    Accounted
      { t with
        io := io
        pendingRequests := pendingRequests
        inflightHandles := inflightHandles } := by
  have hledger : ledger
      { t with
        io := io
        pendingRequests := pendingRequests
        inflightHandles := inflightHandles } = t.ledger := by
    apply RequestLedger.ext
    · rfl
    · rfl
    · exact (Multiset.coe_eq_coe.mpr hcontexts).symm
    · rfl
    · rfl
    · rfl
    · rfl
    · rfl
    · rfl
  unfold Accounted
  rw [hledger]
  exact ht

theorem Accounted.deliver {t : CurlMultiTransport α} {id : Nat}
    {result : ResponseResult}
    (ht : Accounted t)
    (hcallback : t.ioCallback = some (id, result)) :
    Accounted { t.callBack id result with ioCallback := none } := by
  have hid : id ∈ t.ledger.calling := by
    simp [ledger, calling, hcallback]
  have hledger : ledger { t.callBack id result with ioCallback := none } =
      t.ledger.deliver id := by
    apply RequestLedger.ext
    · rfl
    · rfl
    · rfl
    · simp [ledger, RequestLedger.deliver, calling, hcallback]
    · rfl
    · rfl
    · rfl
    · rfl
    · rfl
  unfold Accounted
  rw [hledger]
  exact RequestLedger.Accounted.deliver ht hid

/-- What a step of the I/O thread does when there is nobody to call back. -/
inductive Advances (t : CurlMultiTransport α) : CurlMultiTransport α -> Prop where
  | moves (io : IoPc) :
      t.io.batch = [] -> io.batch = [] -> io ≠ .returned ->
      (io.swapped = true -> t.io.swapped = true) ->
      Advances t { t with io := io }
  | takes (io : IoPc) :
      t.io.batch = [] -> io.batch = t.pendingRequests -> io ≠ .returned ->
      Advances t { t with io := io, pendingRequests := [] }
  | adds (id : Nat) (rest : List Nat) :
      t.io = .adding (id :: rest) ->
      Advances t { t with io := .adding rest, inflightHandles := id :: t.inflightHandles }
  | cancels (id : Nat) (rest : List Nat) :
      t.io = .cancelling (id :: rest) ->
      Advances t { t.release id with
        io := .cancelling rest
        ioCallback := some (id, stoppedError) }
  | cleans (id : Nat) (rest : List Nat) :
      t.io = .cleanInflight -> t.inflightHandles = id :: rest ->
      Advances t { t.release id with
        inflightHandles := rest
        ioCallback := some (id, stoppedError) }
  | returns :
      t.io = .cleanInflight -> t.inflightHandles = [] ->
      Advances t { t with io := .returned }

theorem ioAdvance_advances {t t' : CurlMultiTransport α}
    (hstep : t.ioAdvance = some t') : t.io ≠ .returned ∧ Advances t t' := by
  unfold ioAdvance at hstep
  cases hio : t.io with
  | head | check =>
      simp only [hio] at hstep
      refine ⟨fun h => (nomatch h), ?_⟩
      split at hstep
      · cases hstep
        exact .moves _ (by rw [hio]; rfl) rfl (fun h => nomatch h) (fun h => nomatch h)
      · cases hstep
        exact .moves _ (by rw [hio]; rfl) rfl (fun h => nomatch h) (fun h => nomatch h)
  | drainPending | cleanup =>
      simp only [hio] at hstep
      cases hstep
      exact ⟨fun h => (nomatch h), .takes _ (by rw [hio]; rfl) rfl (fun h => nomatch h)⟩
  | completed | poll | lastCompleted =>
      simp only [hio] at hstep
      cases hstep
      exact ⟨fun h => (nomatch h),
        .moves _ (by rw [hio]; rfl) rfl (fun h => nomatch h) (fun h => nomatch h)⟩
  | adding batch =>
      refine ⟨fun h => (nomatch h), ?_⟩
      cases batch with
      | nil =>
          simp only [hio] at hstep
          cases hstep
          exact .moves _ (by rw [hio]; rfl) rfl (fun h => nomatch h) (fun h => nomatch h)
      | cons id rest =>
          simp only [hio] at hstep
          cases hstep
          exact .adds id rest hio
  | cancelling batch =>
      refine ⟨fun h => (nomatch h), ?_⟩
      cases batch with
      | nil =>
          simp only [hio] at hstep
          cases hstep
          exact .moves _ (by rw [hio]; rfl) rfl (fun h => nomatch h)
            (fun _ => by rw [hio]; rfl)
      | cons id rest =>
          simp only [hio] at hstep
          cases hstep
          exact .cancels id rest hio
  | cleanInflight =>
      refine ⟨fun h => (nomatch h), ?_⟩
      simp only [hio] at hstep
      cases hinflight : t.inflightHandles with
      | nil =>
          simp only [hinflight] at hstep
          cases hstep
          exact hinflight ▸ .returns hio hinflight
      | cons id rest =>
          simp only [hinflight] at hstep
          cases hstep
          exact .cleans id rest hio hinflight
  | returned =>
      simp only [hio] at hstep
      cases hstep

theorem ioAdvance_accounted {t t' : CurlMultiTransport α}
    (ht : Accounted t) (hcallback : t.ioCallback = none)
    (hstep : t.ioAdvance = some t') : Accounted t' := by
  cases (ioAdvance_advances hstep).2 with
  | moves io hbatch hbatch' _ _ =>
      exact ht.move (by simp [contexts, hbatch, hbatch'])
  | takes io hbatch hbatch' _ =>
      exact ht.move (by simp [contexts, hbatch, hbatch'])
  | adds id rest hio =>
      refine ht.move ?_
      simp only [contexts, hio, IoPc.batch, List.append_assoc, List.cons_append]
      exact List.Perm.append_left _ List.perm_middle.symm
  | cancels id rest hio =>
      refine ht.finish stoppedError hcallback ?_
      simp only [contexts, hio, IoPc.batch, List.append_assoc, List.cons_append]
      exact List.perm_middle
  | cleans id rest hio hinflight =>
      refine ht.finish stoppedError hcallback ?_
      simp only [contexts, release, hio, hinflight, IoPc.batch, List.append_assoc,
        List.nil_append]
      exact List.perm_middle
  | returns hio hinflight =>
      exact ht.move (by simp [contexts, hio, IoPc.batch])

theorem ioStep_accounted {t t' : CurlMultiTransport α}
    (ht : Accounted t) (hstep : t.ioStep = some t') : Accounted t' := by
  unfold ioStep at hstep
  split at hstep
  · rename_i hcallback
    cases hstep
    exact ht.deliver hcallback
  · rename_i hcallback
    exact ioAdvance_accounted ht hcallback hstep

theorem completeStep_accounted {t t' : CurlMultiTransport α} {id : Nat}
    {result : ResponseResult}
    (ht : Accounted t) (hstep : t.completeStep id result = some t') :
    Accounted t' := by
  unfold completeStep at hstep
  split at hstep
  · rename_i hcond
    rcases hcond with ⟨hcallback, hio, hid⟩
    cases hstep
    refine ht.finish result hcallback ?_
    have hbatch : t.io.batch = [] := by
      rcases hio with hio | hio
      · rw [hio]
        rfl
      · rw [hio]
        rfl
    have hperm := List.perm_cons_erase hid
    simp only [contexts, release, hbatch, List.append_nil]
    exact (List.Perm.append_left _ hperm).trans List.perm_middle
  · cases hstep

theorem destroyStep_accounted {t t' : CurlMultiTransport α}
    (ht : Accounted t) (hstep : t.destroyStep = some t') : Accounted t' := by
  unfold destroyStep at hstep
  split at hstep
  · cases hstep
    exact ht
  · split at hstep
    · cases hstep
      exact ht
    · cases hstep
  · split at hstep
    · cases hstep
    · rename_i container hshutdown
      cases hstep
      unfold CurlContainer.ShutdownAndWait at hshutdown
      split at hshutdown
      · cases hshutdown
      · rename_i hcomplete
        cases hshutdown
        have hle := Nat.le_of_not_lt hcomplete
        have hnone : t.contexts = [] := by
          have hzero := RequestLedger.Accounted.contexts_of_pool_complete ht hle
          simpa [ledger] using hzero
        have hsame : ([] ++ t.io.batch ++ [] : List Nat) = t.contexts := by
          rw [hnone]
          have hparts := List.append_eq_nil_iff.mp hnone
          simpa using (List.append_eq_nil_iff.mp hparts.1).2
        have hafter := RequestLedger.Accounted.shutdown ht hle
        unfold Accounted ledger contexts
        rw [show (_ : List Nat) = _ from hsame]
        exact hafter
  · cases hstep

theorem step_accounted {t t' : CurlMultiTransport α} {l : Label α}
    (ht : Accounted t) (hstep : t.step l = some t') : Accounted t' := by
  cases l with
  | send callback =>
      simp only [step] at hstep
      split at hstep
      · cases hstep
      · cases hstep
        unfold Accounted
        rw [ledger_sendAsync]
        exact RequestLedger.Accounted.enter ht (by simp [ledger])
  | call id => exact callStep_accounted ht hstep
  | grow id made =>
      simp only [step, growStep] at hstep
      split at hstep
      · rename_i hpc
        cases hstep
        exact ht.grow made hpc
      · cases hstep
  | io => exact ioStep_accounted ht hstep
  | complete id result => exact completeStep_accounted ht hstep
  | destroy => exact destroyStep_accounted ht hstep

theorem reachable_accounted {t : CurlMultiTransport α}
    (ht : (system α).Reachable t) : Accounted t := by
  refine TransitionSystem.invariant_of_step ?_ ?_ t ht
  · intro t0 ht0
    rcases ht0 with ⟨multiHandle, maxConnections, ht0⟩
    rw [ht0]
    exact accounted_init multiHandle maxConnections
  · intro s l t hs hstep
    exact step_accounted hs hstep

/-!
# The callbacks of a step
-/

/-- What a step of a call leaves alone. -/
structure CallFrame (t t' : CurlMultiTransport α) (id : Nat) : Prop where
  pc : t.pcAt id ≠ .returned
  io : t'.io = t.io
  inflightHandles : t'.inflightHandles = t.inflightHandles
  ioCallback : t'.ioCallback = t.ioCallback
  destructor : t'.destructor = t.destructor
  pendingRequests :
    t.pcAt id = .ready ∨ t'.pendingRequests = t.pendingRequests
  captured : t'.captured = t.captured
  callbacks :
    t'.callbacks = (t.callbackOf (.call id)).toList ++ t.callbacks

/-- A step that only moves the program counter of the call. -/
theorem callFrame_setCall {t : CurlMultiTransport α} {id : Nat} (pc : SendPc)
    (hpc : t.pcAt id ≠ .returned)
    (hnone : t.callbackOf (.call id) = none) :
    CallFrame t (t.setCall id pc) id where
  pc := hpc
  io := rfl
  inflightHandles := rfl
  ioCallback := rfl
  destructor := rfl
  pendingRequests := Or.inr rfl
  captured := captured_setCall t id pc
  callbacks := by
    rw [hnone]
    rfl

theorem callStep_frame {t t' : CurlMultiTransport α} {id : Nat}
    (hstep : t.callStep id = some t') : CallFrame t t' id := by
  unfold callStep at hstep
  cases hpc : t.pcAt id with
  | entered =>
      have hnone : t.callbackOf (.call id) = none := by
        simp only [callbackOf, hpc]
      simp only [hpc] at hstep
      split at hstep
      · cases hstep
        exact callFrame_setCall _ (by simp [hpc]) hnone
      · split at hstep
        · cases hstep
          exact callFrame_setCall _ (by simp [hpc]) hnone
        · cases hstep
          exact callFrame_setCall _ (by simp [hpc]) hnone
  | acquiring =>
      have hnone : t.callbackOf (.call id) = none := by
        simp only [callbackOf, hpc]
      simp only [hpc] at hstep
      split at hstep
      · cases hstep
        exact callFrame_setCall _ (by simp [hpc]) hnone
      · cases hstep
        exact callFrame_setCall _ (by simp [hpc]) hnone
  | growing =>
      simp only [hpc] at hstep
      cases hstep
  | waiting =>
      have hnone : t.callbackOf (.call id) = none := by
        simp only [callbackOf, hpc]
      simp only [hpc] at hstep
      split at hstep
      · cases hstep
      · cases hstep
        have hframe := callFrame_setCall .acquired (by simp [hpc]) hnone
        exact ⟨hframe.pc, rfl, rfl, rfl, rfl, Or.inr rfl, hframe.captured,
          hframe.callbacks⟩
  | acquired =>
      have hnone : t.callbackOf (.call id) = none := by
        simp only [callbackOf, hpc]
      simp only [hpc] at hstep
      split at hstep
      · cases hstep
        have hframe := callFrame_setCall (.failing stoppedError)
          (by simp [hpc]) hnone
        exact ⟨hframe.pc, rfl, rfl, rfl, rfl, Or.inr rfl, hframe.captured,
          hframe.callbacks⟩
      · cases hstep
        exact callFrame_setCall _ (by simp [hpc]) hnone
  | ready =>
      have hnone : t.callbackOf (.call id) = none := by
        simp only [callbackOf, hpc]
      simp only [hpc] at hstep
      cases hstep
      have hframe := callFrame_setCall .returned (by simp [hpc]) hnone
      exact ⟨hframe.pc, rfl, rfl, rfl, rfl, Or.inl hpc, hframe.captured,
        hframe.callbacks⟩
  | failing result =>
      have hcallback : t.callbackOf (.call id) = some (id, result) := by
        simp only [callbackOf, hpc]
      simp only [hpc] at hstep
      cases hstep
      exact ⟨by simp [hpc], rfl, rfl, rfl, rfl, Or.inr rfl,
        captured_setCall .., by rw [hcallback]; rfl⟩
  | returned =>
      simp only [hpc] at hstep
      cases hstep

theorem ioAdvance_frame {t t' : CurlMultiTransport α}
    (hstep : t.ioAdvance = some t') :
    t'.captured = t.captured ∧ t'.callbacks = t.callbacks ∧
      t'.destructor = t.destructor := by
  cases (ioAdvance_advances hstep).2 with
  | _ => exact ⟨rfl, rfl, rfl⟩

/-- Only a new call adds to what the callbacks have captured. -/
theorem step_frame {t t' : CurlMultiTransport α} {l : Label α}
    (hsend : forall callback, l ≠ .send callback)
    (hstep : t.step l = some t') :
    t'.captured = t.captured ∧
      t'.callbacks = (t.callbackOf l).toList ++ t.callbacks ∧
      (l ≠ .destroy -> t'.destructor = t.destructor) := by
  cases l with
  | send callback => exact absurd rfl (hsend callback)
  | call id =>
      have hframe := callStep_frame hstep
      exact ⟨hframe.captured, hframe.callbacks, fun _ => hframe.destructor⟩
  | grow id made =>
      simp only [step, growStep] at hstep
      split at hstep
      · cases hstep
        exact ⟨captured_setCall .., rfl, fun _ => rfl⟩
      · cases hstep
  | io =>
      simp only [step, ioStep] at hstep
      split at hstep
      · rename_i id result hcallback
        cases hstep
        simp only [callbackOf, hcallback]
        exact ⟨rfl, rfl, fun _ => rfl⟩
      · rename_i hcallback
        simp only [callbackOf, hcallback]
        rcases ioAdvance_frame hstep with ⟨hcaptured, hcallbacks, hdestructor⟩
        exact ⟨hcaptured, hcallbacks, fun _ => hdestructor⟩
  | complete id result =>
      simp only [step, completeStep] at hstep
      split at hstep
      · cases hstep
        exact ⟨rfl, rfl, fun _ => rfl⟩
      · cases hstep
  | destroy =>
      simp only [step, destroyStep] at hstep
      split at hstep
      · cases hstep
        exact ⟨rfl, rfl, fun h => absurd rfl h⟩
      · split at hstep
        · cases hstep
          exact ⟨rfl, rfl, fun h => absurd rfl h⟩
        · cases hstep
      · split at hstep
        · cases hstep
        · cases hstep
          exact ⟨rfl, rfl, fun h => absurd rfl h⟩
      · cases hstep

/-- A callback is for a request that has not been called back. -/
theorem callbackOf_fresh {t : CurlMultiTransport α} {l : Label α} {id : Nat}
    {result : ResponseResult}
    (ht : Accounted t)
    (hcallback : t.callbackOf l = some (id, result)) :
    id < t.calls.length ∧ id ∉ t.called := by
  rcases ht.each id with ⟨honce, hentered, _, _⟩
  simp only [RequestLedger.account, ledger, Multiset.coe_count]
    at honce hentered
  have hplace : 0 < (t.pcAt id).stage.underWay + t.calling.count id := by
    cases l with
    | call id' =>
        simp only [callbackOf] at hcallback
        split at hcallback
        · rename_i hpc
          cases hcallback
          simp only [hpc, SendPc.stage, Stage.underWay]
          omega
        · cases hcallback
    | io =>
        have hio : t.ioCallback = some (id, result) := hcallback
        simp [calling, hio]
    | send callback => cases hcallback
    | grow id' made => cases hcallback
    | complete id' result' => cases hcallback
    | destroy => cases hcallback
  have hin : 0 < (Multiset.range t.calls.length).count id := by omega
  constructor
  · exact Multiset.mem_range.mp (Multiset.count_pos.mp hin)
  · apply List.count_eq_zero.mp
    omega

/-!
# The end of the I/O thread

A request that is pushed after the last swap of the pending list stays there, so
the runs below leave that step out.  They also leave out the end of the
destructor while a thread is still in a call.
-/

def KeepsRequests (t : CurlMultiTransport α) : Label α -> Bool
  | .call id => t.pcAt id != .ready || !t.io.swapped
  | .destroy =>
      t.destructor != .joined || t.calls.all fun c => c.pc == .returned
  | _ => true

/-- How far the I/O thread and the destructor have emptied the transport. -/
structure Emptied (t : CurlMultiTransport α) : Prop where
  swapped : t.io.swapped = true -> t.pendingRequests = []
  returned : t.io = .returned -> t.inflightHandles = [] ∧ t.ioCallback = none
  joined : t.destructor = .joined ∨ t.destructor = .returned ->
    t.io = .returned
  destroyed : t.destructor = .returned -> forall c, c ∈ t.calls ->
    c.pc = .returned

theorem emptied_init (multiHandle : Bool) (maxConnections : Nat) :
    Emptied (init multiHandle maxConnections : CurlMultiTransport α) where
  swapped _ := rfl
  returned _ := ⟨rfl, rfl⟩
  joined h := by rcases h with h | h <;> cases h
  destroyed h := by cases h

theorem pcAt_returned_of_destroyed {t : CurlMultiTransport α}
    (ht : Emptied t) (hdestructor : t.destructor = .returned) (id : Nat) :
    t.pcAt id = .returned := by
  unfold pcAt
  split
  · rename_i hcall
    exact ht.destroyed hdestructor _ (List.mem_of_getElem? hcall)
  · rfl

/-- A destroyed transport calls nobody back. -/
theorem Emptied.alive_of_callback {t : CurlMultiTransport α} {l : Label α}
    {id : Nat} {result : ResponseResult}
    (ht : Emptied t)
    (hcallback : t.callbackOf l = some (id, result)) :
    t.destructor ≠ .returned := by
  intro hdestroyed
  cases l with
  | call id' =>
      simp only [callbackOf, pcAt_returned_of_destroyed ht hdestroyed id']
        at hcallback
      cases hcallback
  | io =>
      have hnone := (ht.returned (ht.joined (Or.inr hdestroyed))).2
      simp only [callbackOf, hnone] at hcallback
      cases hcallback
  | send callback => cases hcallback
  | grow id' made => cases hcallback
  | complete id' result' => cases hcallback
  | destroy => cases hcallback

/-- A call is only under way while the transport exists. -/
theorem Emptied.of_frame {t t' : CurlMultiTransport α} {id : Nat}
    (ht : Emptied t)
    (hpc : t.pcAt id ≠ .returned)
    (hio : t'.io = t.io)
    (hinflight : t'.inflightHandles = t.inflightHandles)
    (hcallback : t'.ioCallback = t.ioCallback)
    (hdestructor : t'.destructor = t.destructor)
    (hpending : t.io.swapped = true ->
      t'.pendingRequests = t.pendingRequests) : Emptied t' where
  swapped h := by
    rw [hio] at h
    rw [hpending h]
    exact ht.swapped h
  returned h := by
    rw [hio] at h
    rw [hinflight, hcallback]
    exact ht.returned h
  joined h := by
    rw [hdestructor] at h
    rw [hio]
    exact ht.joined h
  destroyed h := by
    rw [hdestructor] at h
    exact absurd (pcAt_returned_of_destroyed ht h id) hpc

theorem callStep_emptied {t t' : CurlMultiTransport α} {id : Nat}
    (hguard : KeepsRequests t (.call id) = true)
    (ht : Emptied t)
    (hstep : t.callStep id = some t') : Emptied t' := by
  have hframe := callStep_frame hstep
  refine ht.of_frame hframe.pc hframe.io hframe.inflightHandles
    hframe.ioCallback hframe.destructor ?_
  intro hswapped
  rcases hframe.pendingRequests with hready | hsame
  · simp [KeepsRequests, hready, hswapped] at hguard
  · exact hsame

/-- The destructor has not come further than its join. -/
theorem Emptied.of_running {t t' : CurlMultiTransport α}
    (ht : Emptied t)
    (hrunning : t.io ≠ .returned)
    (hdestructor : t'.destructor = t.destructor)
    (hswapped : t'.io.swapped = true -> t'.pendingRequests = [])
    (hreturned : t'.io = .returned ->
      t'.inflightHandles = [] ∧ t'.ioCallback = none) : Emptied t' where
  swapped := hswapped
  returned := hreturned
  joined h := by
    rw [hdestructor] at h
    exact absurd (ht.joined h) hrunning
  destroyed h := by
    rw [hdestructor] at h
    exact absurd (ht.joined (Or.inr h)) hrunning

theorem ioAdvance_emptied {t t' : CurlMultiTransport α}
    (ht : Emptied t)
    (hcallback : t.ioCallback = none)
    (hstep : t.ioAdvance = some t') : Emptied t' := by
  rcases ioAdvance_advances hstep with ⟨hrunning, hadvances⟩
  cases hadvances with
  | moves io _ _ hreturned hswapped =>
      exact ht.of_running hrunning rfl (fun h => ht.swapped (hswapped h))
        (fun h => absurd h hreturned)
  | takes io _ _ hreturned =>
      exact ht.of_running hrunning rfl (fun _ => rfl) (fun h => absurd h hreturned)
  | adds id rest _ =>
      exact ht.of_running hrunning rfl (fun h => nomatch h) (fun h => nomatch h)
  | cancels id rest hio =>
      have hpending := ht.swapped (by rw [hio]; rfl)
      exact ht.of_running hrunning rfl (fun _ => hpending) (fun h => nomatch h)
  | cleans id rest hio _ =>
      have hpending := ht.swapped (by rw [hio]; rfl)
      exact ht.of_running hrunning rfl (fun _ => hpending) (fun h => absurd h hrunning)
  | returns hio hinflight =>
      have hpending := ht.swapped (by rw [hio]; rfl)
      exact ht.of_running hrunning rfl (fun _ => hpending)
        (fun _ => ⟨hinflight, hcallback⟩)

theorem ioStep_emptied {t t' : CurlMultiTransport α}
    (ht : Emptied t) (hstep : t.ioStep = some t') : Emptied t' := by
  unfold ioStep at hstep
  split at hstep
  · rename_i id result hcallback
    cases hstep
    have hrunning : t.io ≠ .returned := by
      intro hio
      rw [(ht.returned hio).2] at hcallback
      cases hcallback
    exact ht.of_running hrunning rfl ht.swapped
      (fun h => absurd h hrunning)
  · rename_i hcallback
    exact ioAdvance_emptied ht hcallback hstep

theorem destroyStep_emptied {t t' : CurlMultiTransport α}
    (hguard : KeepsRequests t .destroy = true)
    (ht : Emptied t)
    (hstep : t.destroyStep = some t') : Emptied t' := by
  unfold destroyStep at hstep
  split at hstep
  · cases hstep
    exact ⟨ht.swapped, ht.returned,
      fun h => h.elim (fun h => nomatch h) (fun h => nomatch h),
      fun h => nomatch h⟩
  · split at hstep
    · rename_i hio
      cases hstep
      exact ⟨ht.swapped, ht.returned, fun _ => hio, fun h => nomatch h⟩
    · cases hstep
  · rename_i hjoined
    split at hstep
    · cases hstep
    · cases hstep
      have hio := ht.joined (Or.inl hjoined)
      refine ⟨fun _ => rfl, fun _ => ⟨rfl, (ht.returned hio).2⟩,
        fun _ => hio, ?_⟩
      intro _ c hc
      simp only [KeepsRequests, hjoined, bne_self_eq_false, Bool.false_or,
        List.all_eq_true] at hguard
      exact eq_of_beq (hguard c hc)
  · cases hstep

theorem step_emptied {t t' : CurlMultiTransport α} {l : Label α}
    (hguard : KeepsRequests t l = true)
    (ht : Emptied t)
    (hstep : t.step l = some t') : Emptied t' := by
  cases l with
  | send callback =>
      simp only [step] at hstep
      split at hstep
      · cases hstep
      · rename_i halive
        cases hstep
        exact ⟨ht.swapped, ht.returned, ht.joined, fun h => absurd h halive⟩
  | call id => exact callStep_emptied hguard ht hstep
  | grow id made =>
      simp only [step, growStep] at hstep
      split at hstep
      · rename_i hpc
        cases hstep
        have hrunning : t.pcAt id ≠ .returned := by simp [hpc]
        exact ht.of_frame hrunning rfl rfl rfl rfl (fun _ => rfl)
      · cases hstep
  | io => exact ioStep_emptied ht hstep
  | complete id result =>
      simp only [step, completeStep] at hstep
      split at hstep
      · rename_i hcond
        rcases hcond with ⟨_, hio, _⟩
        have hrunning : t.io ≠ .returned := by
          rcases hio with hio | hio <;> simp [hio]
        cases hstep
        exact ht.of_running hrunning rfl ht.swapped
          (fun h => absurd h hrunning)
      · cases hstep
  | destroy => exact destroyStep_emptied hguard ht hstep

/-!
# No request is lost
-/

/--
A request is called back at most once and its handle is released at most once,
in every state.  When the I/O thread is done, each request whose call has
returned has been called back and its handle is back in the pool; so the
destructor does not wait for the pool, and when it returns this holds of all
requests.
-/
structure NoRequestLost (t : CurlMultiTransport α) : Prop where
  atMostOnce : forall id, t.called.count id ≤ 1
  oneHandle : forall id, t.released.count id ≤ t.acquired.count id ∧
    t.acquired.count id ≤ 1
  complete : t.io = .returned -> forall id, id < t.calls.length ->
    t.pcAt id = .returned ->
    t.called.count id = 1 ∧ t.released.count id = t.acquired.count id
  unblocked : t.destructor = .joined ->
    (forall id, t.pcAt id = .returned) -> exists t', t.step .destroy = some t'
  destroyed : t.destructor = .returned -> forall id, id < t.calls.length ->
    t.called.count id = 1 ∧ t.released.count id = t.acquired.count id

theorem Accounted.atMostOnce {t : CurlMultiTransport α}
    (ht : Accounted t) (id : Nat) : t.called.count id ≤ 1 := by
  rcases ht.each id with ⟨honce, hentered, _, _⟩
  simp only [RequestLedger.account, ledger, Multiset.coe_count]
    at honce hentered
  omega

theorem Accounted.oneHandle {t : CurlMultiTransport α}
    (ht : Accounted t) (id : Nat) :
    t.released.count id ≤ t.acquired.count id ∧ t.acquired.count id ≤ 1 := by
  rcases ht.each id with ⟨_, hentered, hhandle, hacquired⟩
  simp only [RequestLedger.account, ledger, Multiset.coe_count]
    at hentered hhandle hacquired
  constructor
  · omega
  · omega

theorem Emptied.idle {t : CurlMultiTransport α}
    (ht : Emptied t) (hio : t.io = .returned) :
    t.ledger.contexts = 0 ∧ t.ledger.calling = 0 := by
  have hpending := ht.swapped (by rw [hio]; rfl)
  rcases ht.returned hio with ⟨hinflight, hcallback⟩
  constructor
  · simp [ledger, contexts, hpending, hinflight, hio, IoPc.batch]
  · simp [ledger, calling, hcallback]

theorem noRequestLost_of_emptied {t : CurlMultiTransport α}
    (haccounted : Accounted t) (hemptied : Emptied t) : NoRequestLost t := by
  have hcomplete : t.io = .returned -> forall id, id < t.calls.length ->
      t.pcAt id = .returned ->
      t.called.count id = 1 ∧ t.released.count id = t.acquired.count id := by
    intro hio id hid hpc
    rcases hemptied.idle hio with ⟨hcontexts, hcalling⟩
    have hstage : t.ledger.stage id = .left := by
      simp only [ledger, hpc, SendPc.stage]
    have hcalled := RequestLedger.Accounted.called_of_idle haccounted
      (Multiset.mem_range.mpr hid) hstage hcontexts hcalling
    have hreleased := RequestLedger.Accounted.released_of_idle haccounted
      hstage hcontexts
    constructor
    · simpa [ledger] using hcalled
    · simpa [ledger] using hreleased.symm
  refine ⟨haccounted.atMostOnce, haccounted.oneHandle, hcomplete, ?_, ?_⟩
  · intro hjoined hpcs
    have hcontexts := (hemptied.idle (hemptied.joined (Or.inl hjoined))).1
    have hpool := RequestLedger.Accounted.pool_complete haccounted (by
      intro id
      have hstage : t.ledger.stage id = .left := by
        simp only [ledger, hpcs id, SendPc.stage]
      exact RequestLedger.Accounted.released_of_idle haccounted hstage
        hcontexts)
    have hnot : ¬ t.container.resources < t.container.poolSize := by
      rw [show t.container.resources = t.container.poolSize from hpool]
      exact lt_irrefl _
    simp [step, destroyStep, hjoined, CurlContainer.ShutdownAndWait, hnot]
  · intro hdestroyed id hid
    exact hcomplete (hemptied.joined (Or.inr hdestroyed)) id hid
      (pcAt_returned_of_destroyed hemptied hdestroyed id)

/--
As long as no call pushes its request behind the back of the I/O thread, and
none outlives the transport, no request is lost.
-/
theorem noRequestLost_of_keepsRequests {t : CurlMultiTransport α}
    (ht : ((system α).guarded
      (fun t l => KeepsRequests t l = true)).Reachable t) :
    NoRequestLost t := by
  have haccounted :=
    reachable_accounted (TransitionSystem.reachable_of_guarded ht)
  refine noRequestLost_of_emptied haccounted ?_
  refine TransitionSystem.guarded_invariant_of_step ?_ ?_ t ht
  · intro t0 ht0
    rcases ht0 with ⟨multiHandle, maxConnections, ht0⟩
    rw [ht0]
    exact emptied_init multiHandle maxConnections
  · intro t l t' ht hguard hstep
    exact step_emptied hguard ht hstep

/-- The transport is destroyed while its one request is running. -/
def sendThenDestroy : List (Label Unit) :=
  [.send (), .call 0, .call 0, .grow 0 2, .call 0, .call 0, .call 0, .io, .io,
    .io, .io, .destroy, .io, .io, .io, .io, .io, .io, .io, .io, .destroy,
    .destroy]

theorem noRequestLost_sendThenDestroy :
    exists t, ((system Unit).guarded
        (fun t l => KeepsRequests t l = true)).run (init true 16)
        sendThenDestroy = some t ∧
      t.destructor = .returned ∧ t.callbacks = [(0, stoppedError)] ∧
      NoRequestLost t := by
  refine ⟨_, rfl, by decide, by decide, ?_⟩
  exact noRequestLost_of_keepsRequests
    ⟨init true 16, sendThenDestroy, ⟨true, 16, rfl⟩, rfl⟩

/-!
# A push after the last swap
-/

/-- The two looks at `stopped_` are over before the destructor sets it. -/
def pushAfterSwap : List (Label Unit) :=
  [.send (), .call 0, .call 0, .grow 0 2, .call 0, .call 0, .destroy, .io, .io,
    .io, .io, .io, .call 0, .destroy]

/-- A request that the I/O thread has left behind. -/
structure LeftBehind (t : CurlMultiTransport α) (id : Nat) : Prop where
  accounted : Accounted t
  io : t.io = .returned
  pending : id ∈ t.pendingRequests
  destructor : t.destructor ≠ .returned

theorem LeftBehind.incomplete {t : CurlMultiTransport α} {id : Nat}
    (ht : LeftBehind t id) : t.container.resources < t.container.poolSize := by
  by_contra hcomplete
  have hcontexts := RequestLedger.Accounted.contexts_of_pool_complete
    ht.accounted (Nat.le_of_not_lt hcomplete)
  have hmem : id ∈ t.ledger.contexts := by
    simp [ledger, contexts, ht.pending]
  rw [hcontexts] at hmem
  exact absurd hmem (Multiset.notMem_zero id)

theorem callStep_pending {t t' : CurlMultiTransport α} {id : Nat}
    (hstep : t.callStep id = some t') :
    forall id', id' ∈ t.pendingRequests -> id' ∈ t'.pendingRequests := by
  intro id' hid'
  rcases (callStep_frame hstep).pendingRequests with hready | hsame
  · simp only [callStep, hready] at hstep
    cases hstep
    exact List.mem_append_left _ hid'
  · rw [hsame]
    exact hid'

theorem LeftBehind.step {t t' : CurlMultiTransport α} {id : Nat}
    {l : Label α}
    (ht : LeftBehind t id)
    (hstep : t.step l = some t') : LeftBehind t' id := by
  have haccounted := step_accounted ht.accounted hstep
  cases l with
  | send callback =>
      simp only [CurlMultiTransport.step] at hstep
      split at hstep
      · cases hstep
      · cases hstep
        exact ⟨haccounted, ht.io, ht.pending, ht.destructor⟩
  | call id' =>
      have hframe := callStep_frame hstep
      refine ⟨haccounted, ?_, callStep_pending hstep id ht.pending, ?_⟩
      · rw [hframe.io]
        exact ht.io
      · rw [hframe.destructor]
        exact ht.destructor
  | grow id' made =>
      simp only [CurlMultiTransport.step, growStep] at hstep
      split at hstep
      · cases hstep
        exact ⟨haccounted, ht.io, ht.pending, ht.destructor⟩
      · cases hstep
  | io =>
      simp only [CurlMultiTransport.step, ioStep] at hstep
      split at hstep
      · cases hstep
        exact ⟨haccounted, ht.io, ht.pending, ht.destructor⟩
      · simp only [ioAdvance, ht.io] at hstep
        cases hstep
  | complete id' result =>
      simp only [CurlMultiTransport.step, completeStep, ht.io] at hstep
      simp at hstep
  | destroy =>
      simp only [CurlMultiTransport.step, destroyStep] at hstep
      split at hstep
      · cases hstep
        exact ⟨haccounted, ht.io, ht.pending, fun h => nomatch h⟩
      · rw [if_pos ht.io] at hstep
        cases hstep
        exact ⟨haccounted, ht.io, ht.pending, fun h => nomatch h⟩
      · simp only [CurlContainer.ShutdownAndWait, if_pos ht.incomplete] at hstep
        cases hstep
      · cases hstep

/-- It is never called back, and the destructor waits for its handle. -/
theorem LeftBehind.never_called {t t' : CurlMultiTransport α} {id : Nat}
    {labels : List (Label α)}
    (ht : LeftBehind t id)
    (hrun : (system α).run t labels = some t') :
    t'.called.count id = 0 ∧ t'.destructor ≠ .returned := by
  have ht' : LeftBehind t' id := TransitionSystem.run_preserves
    (T := system α) (P := fun t => LeftBehind t id)
    (fun t l t' ht hstep => ht.step hstep) ht hrun
  refine ⟨?_, ht'.destructor⟩
  rcases ht'.accounted.each id with ⟨honce, hentered, _, _⟩
  have hpos : 0 < t'.pendingRequests.count id :=
    List.count_pos_iff.mpr ht'.pending
  simp only [RequestLedger.account, ledger, contexts, Multiset.coe_count,
    List.count_append] at honce hentered
  omega

theorem not_noRequestLost_pushAfterSwap :
    ¬ (system Unit).Invariant NoRequestLost := by
  intro hinv
  have hrun : exists t, (system Unit).run (init true 16) pushAfterSwap = some t ∧
      t.io = .returned ∧ t.pcAt 0 = .returned ∧ t.calls.length = 1 ∧
      t.called.count 0 = 0 := by
    exact ⟨_, rfl, by decide, by decide, by decide, by decide⟩
  rcases hrun with ⟨t, hrun, hio, hpc, hlength, hcalled⟩
  have hlost := (hinv t (TransitionSystem.reachable_of_run
    ⟨true, 16, rfl⟩ hrun)).complete hio 0 (by omega) hpc
  omega

end CurlMultiTransport
end Curl
end Transport
end OssSdk
