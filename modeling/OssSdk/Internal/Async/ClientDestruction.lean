import OssSdk.Internal.Async.AsyncClientImpl
import OssSdk.Transport.Curl.CurlMultiTransport
import OssSdk.Utils.DefaultScheduledExecutor

/-!
# The destruction of an asynchronous client

The client owns its transport and its scheduler.  Its destructor destroys the
stack, whose transport dies first, while the handlers are still there, and then
the scheduler.  Until the end of it the I/O thread of the transport and the
worker of the scheduler go on, and both of them run handlers.
-/

namespace OssSdk
namespace Internal
namespace Async

open Foundation
open Operations
open Transport.Curl (CurlMultiTransport)

variable {σ : Type}

/-- How far the worker is with the task that it runs. -/
inductive TaskBody where
  | before
  /-- In a call of `sendAsync`, the request being the one of this number. -/
  | sending (request : Nat)
  | done
deriving DecidableEq

/-- Where `~AsyncClientImpl` is. -/
inductive ClientDestructor where
  | alive
  /-- In the destructor of the transport of the stack. -/
  | stack
  /-- The handlers are gone as well. -/
  | scheduler
  /-- In the join of the worker. -/
  | joining
  | returned
deriving DecidableEq

/--
A callback of the transport has captured the state of its operation, which is
given by its number.  `handedAfterDestruction` counts the retries that follow
the pointer to the stack when the transport is no longer there.
-/
structure ClientDestruction (σ : Type) where
  operations : Operations σ
  transport : CurlMultiTransport Nat
  scheduler : DefaultScheduledExecutor.Impl Task
  body : TaskBody
  destructor : ClientDestructor
  handedAfterDestruction : Nat

namespace ClientDestruction

def init (runtime : Runtime σ) (multiHandle : Bool) (maxConnections : Nat)
    (now : Int) : ClientDestruction σ where
  operations := Operations.init runtime
  transport := CurlMultiTransport.init multiHandle maxConnections
  scheduler := DefaultScheduledExecutor.Impl.init now
  body := .before
  destructor := .alive
  handedAfterDestruction := 0

/-- Pass on what a chain of handlers leaves behind; `schedule` takes the lock. -/
def settle (s : ClientDestruction σ) (after : Operations σ × Outgoing) :
    Option (ClientDestruction σ) :=
  match after.2 with
  | .nothing => some { s with operations := after.1 }
  | .send id =>
      some { s with
        operations := after.1
        transport := s.transport.sendAsync id }
  | .schedule delay task =>
      match s.scheduler.step (.schedule delay task) with
      | none => none
      | some scheduler =>
          some { s with operations := after.1, scheduler := scheduler }

/-!
# The steps
-/

/-- What the callback of a request has captured. -/
def operationOf (s : ClientDestruction σ) (request : Nat) : Nat :=
  s.transport.captured[request]?.getD 0

/-- A step of the I/O thread, or of a thread in a call of `sendAsync`. -/
def transportStep (c : AsyncClientImpl σ) (s : ClientDestruction σ)
    (l : CurlMultiTransport.Label Nat) (request : RequestMessage σ) :
    Option (ClientDestruction σ) :=
  match s.transport.step l with
  | none => none
  | some transport =>
      match s.transport.callbackOf l with
      | none => some { s with transport := transport }
      | some (id, result) =>
          settle { s with transport := transport }
            (onSent c s.operations (s.operationOf id) result request)

/-- The task returns before the worker goes on. -/
def bodyReturned (s : ClientDestruction σ) : Bool :=
  match s.body with
  | .before => false
  | .sending request => s.transport.pcAt request == .returned
  | .done => true

def workerStep (s : ClientDestruction σ) : Option (ClientDestruction σ) :=
  match s.scheduler.worker, s.bodyReturned with
  | .running _, false => none
  | _, _ =>
      match s.scheduler.step .advance with
      | none => none
      | some scheduler => some { s with scheduler := scheduler, body := .before }

/-- A retry has not returned before its call of `sendAsync` has. -/
def bodyAfter (s : ClientDestruction σ) : Outgoing -> TaskBody
  | .send _ => .sending s.transport.calls.length
  | _ => .done

/-- Run the task up to the end of its handlers. -/
def bodyStep (c : AsyncClientImpl σ) (s : ClientDestruction σ) :
    Option (ClientDestruction σ) :=
  match s.scheduler.worker, s.body with
  | .running (.retry id), .before =>
      if s.transport.destructor = .returned then
        some { s with
          body := .done
          handedAfterDestruction := s.handedAfterDestruction + 1 }
      else
        let after := runTask c s.operations (.retry id)
        settle { s with body := s.bodyAfter after.2 } after
  | .running (.finish id), .before =>
      settle { s with body := .done } (runTask c s.operations (.finish id))
  | _, _ => none

def destroyStep (s : ClientDestruction σ) : Option (ClientDestruction σ) :=
  match s.destructor with
  | .alive => some { s with destructor := .stack }
  | .stack =>
      if s.transport.destructor = .returned then
        some { s with destructor := .scheduler }
      else
        match s.transport.step .destroy with
        | none => none
        | some transport => some { s with transport := transport }
  | .scheduler =>
      match s.scheduler.step .requestStop with
      | none => none
      | some scheduler =>
          some { s with scheduler := scheduler, destructor := .joining }
  | .joining =>
      if s.scheduler.worker = .returned then
        some { s with destructor := .returned }
      else none
  | .returned => none

inductive Label (σ : Type) where
  | call (input : OperationInput σ) (opts : Option (OperationOptions σ))
      (innerOpts : Option (OperationInnerOptions σ))
  | transport (l : CurlMultiTransport.Label Nat) (request : RequestMessage σ)
  | worker
  | start (e : DefaultScheduledExecutor.Entry Task)
  | body
  | tick (elapsed : Nat)
  | environment (env : σ)
  | destroy

/-- The transport gets its calls from handlers, and is destroyed by its owner. -/
def ownStep : CurlMultiTransport.Label Nat -> Bool
  | .send _ => false
  | .destroy => false
  | _ => true

/-- `ExecuteAsync` is called before the destructor is. -/
def step (c : AsyncClientImpl σ) (s : ClientDestruction σ) :
    Label σ -> Option (ClientDestruction σ)
  | .call input opts innerOpts =>
      if s.destructor = .alive then
        s.settle (ExecuteAsync c s.operations input opts innerOpts)
      else none
  | .transport l request =>
      if ownStep l then s.transportStep c l request else none
  | .worker => s.workerStep
  | .start e =>
      match s.scheduler.step (.start e) with
      | none => none
      | some scheduler => some { s with scheduler := scheduler, body := .before }
  | .body => s.bodyStep c
  | .tick elapsed =>
      match s.scheduler.step (.tick elapsed) with
      | none => none
      | some scheduler => some { s with scheduler := scheduler }
  | .environment env =>
      some { s with
        operations :=
          { s.operations with
            runtime := { s.operations.runtime with env := env } } }
  | .destroy => s.destroyStep

def system (c : AsyncClientImpl σ) :
    TransitionSystem (ClientDestruction σ) (Label σ) where
  initial s := exists runtime multiHandle maxConnections now,
    s = init runtime multiHandle maxConnections now
  step := step c

/-!
# The operations that wait for the transport
-/

/-- The entries, numbered from `n` on, whose number has not been called. -/
def unanswered : List Nat -> Nat -> List Nat -> List Nat
  | [], _, _ => []
  | op :: rest, n, called =>
      if n ∈ called then unanswered rest (n + 1) called
      else op :: unanswered rest (n + 1) called

theorem unanswered_append (ops : List Nat) (op n : Nat) (called : List Nat)
    (hfresh : n + ops.length ∉ called) :
    unanswered (ops ++ [op]) n called = unanswered ops n called ++ [op] := by
  induction ops generalizing n with
  | nil =>
      have hn : n ∉ called := by simpa using hfresh
      simp [unanswered, hn]
  | cons first rest ih =>
      have htail := ih (n + 1) (by
        rw [List.length_cons] at hfresh
        rwa [Nat.add_right_comm, Nat.add_assoc])
      simp only [List.cons_append, unanswered, htail]
      split <;> rfl

theorem unanswered_before (ops : List Nat) (n id : Nat) (called : List Nat)
    (hbefore : id < n) :
    unanswered ops n (id :: called) = unanswered ops n called := by
  induction ops generalizing n with
  | nil => rfl
  | cons op rest ih =>
      have hne : n ≠ id := Nat.ne_of_gt hbefore
      simp only [unanswered, List.mem_cons, hne, false_or,
        ih (n + 1) (Nat.lt_succ_of_lt hbefore)]

/-- A callback takes one entry out. -/
theorem unanswered_call {ops : List Nat} {n id op : Nat} {called : List Nat}
    (hid : ops[id]? = some op)
    (hfresh : n + id ∉ called) :
    (unanswered ops n called).Perm
      (op :: unanswered ops n ((n + id) :: called)) := by
  induction ops generalizing n id with
  | nil => cases hid
  | cons first rest ih =>
      cases id with
      | zero =>
          have hfirst : first = op := by simpa using hid
          have hn : n ∉ called := hfresh
          have hrest := unanswered_before rest (n + 1) n called
            (Nat.lt_succ_self n)
          simp only [unanswered, Nat.add_zero, List.mem_cons_self, if_true,
            if_neg hn, hrest, hfirst]
          exact List.Perm.refl _
      | succ id =>
          have hshift : n + (id + 1) = n + 1 + id := by omega
          have hne : n ≠ n + 1 + id := by omega
          rw [hshift] at hfresh ⊢
          have htail := ih (by simpa using hid) hfresh
          simp only [unanswered, List.mem_cons, hne, false_or]
          split
          · exact htail
          · exact (htail.cons first).trans (List.Perm.swap op first _)

theorem unanswered_eq_nil {ops : List Nat} {n : Nat} {called : List Nat}
    (hall : forall id, id < ops.length -> n + id ∈ called) :
    unanswered ops n called = [] := by
  induction ops generalizing n with
  | nil => rfl
  | cons op rest ih =>
      have hfirst : n ∈ called := hall 0 (Nat.succ_pos _)
      have htail := ih (n := n + 1) (by
        intro id hid
        have hmem := hall (id + 1) (Nat.succ_lt_succ hid)
        rwa [Nat.add_right_comm, Nat.add_assoc])
      simp only [unanswered, hfirst, if_true, htail]

/-- The operations that have a request at the transport. -/
def waiting (t : CurlMultiTransport Nat) : List Nat :=
  unanswered t.captured 0 t.called

theorem waiting_sendAsync {t : CurlMultiTransport Nat} (id : Nat)
    (ht : t.Accounted) :
    (waiting (t.sendAsync id)).Perm (id :: waiting t) := by
  have hfresh : 0 + t.captured.length ∉ t.called := by
    intro hmem
    rcases ht.each t.calls.length with ⟨honce, hentered, _, _⟩
    have hpos : 0 < t.called.count t.calls.length := by
      rw [List.count_pos_iff]
      simpa [CurlMultiTransport.captured] using hmem
    have hnot : (Multiset.range t.calls.length).count t.calls.length = 0 :=
      Multiset.count_eq_zero.mpr Multiset.notMem_range_self
    simp only [Transport.RequestLedger.account, CurlMultiTransport.ledger,
      Multiset.coe_count, hnot] at honce
    omega
  have hcaptured : (t.sendAsync id).captured = t.captured ++ [id] := by
    simp [CurlMultiTransport.captured, CurlMultiTransport.sendAsync]
  unfold waiting
  rw [hcaptured, show (t.sendAsync id).called = t.called from rfl,
    unanswered_append _ _ _ _ hfresh]
  exact List.perm_append_comm

theorem waiting_quiet {t t' : CurlMultiTransport Nat}
    {l : CurlMultiTransport.Label Nat}
    (hsend : forall callback, l ≠ .send callback)
    (hquiet : t.callbackOf l = none)
    (hstep : t.step l = some t') :
    waiting t' = waiting t := by
  have hframe := CurlMultiTransport.step_frame hsend hstep
  unfold waiting CurlMultiTransport.called
  rw [hframe.1, hframe.2.1, hquiet]
  rfl

theorem waiting_callback {t t' : CurlMultiTransport Nat}
    {l : CurlMultiTransport.Label Nat} {request : Nat}
    {result : ResponseResult}
    (ht : t.Accounted)
    (hsend : forall callback, l ≠ .send callback)
    (hcallback : t.callbackOf l = some (request, result))
    (hstep : t.step l = some t') :
    (waiting t).Perm
      (t.captured[request]?.getD 0 :: waiting t') := by
  have hframe := CurlMultiTransport.step_frame hsend hstep
  have hfresh := CurlMultiTransport.callbackOf_fresh ht hcallback
  have hlength : request < t.captured.length := by
    simpa [CurlMultiTransport.captured] using hfresh.1
  have hop : t.captured[request]? = some (t.captured[request]) :=
    List.getElem?_eq_getElem hlength
  have hnew : 0 + request ∉ t.called := by simpa using hfresh.2
  have hperm := unanswered_call hop hnew
  have hcalled : t'.called = request :: t.called := by
    unfold CurlMultiTransport.called
    rw [hframe.2.1, hcallback]
    rfl
  rw [hop]
  unfold waiting
  rw [hframe.1, hcalled]
  simpa using hperm

/-!
# What the threads keep
-/

/-- The task that the worker has taken up and not yet run. -/
def bodyTask (s : ClientDestruction σ) : List Task :=
  match s.scheduler.worker, s.body with
  | .running task, .before => [task]
  | _, _ => []

def tasks (s : ClientDestruction σ) : List Task :=
  s.scheduler.queue.map DefaultScheduledExecutor.Entry.task ++ s.bodyTask

/-- The order in which the parts of the client come to their end. -/
structure Phases (s : ClientDestruction σ) : Prop where
  accounted : s.transport.Accounted
  emptied : s.transport.Emptied
  alive : s.destructor = .alive -> s.transport.destructor = .alive
  stackGone : s.destructor = .scheduler ∨ s.destructor = .joining ∨
    s.destructor = .returned -> s.transport.destructor = .returned
  stopped : s.scheduler.stop = true -> s.transport.destructor = .returned
  exited : s.scheduler.worker = .returned -> s.scheduler.stop = true
  joined : s.destructor = .returned -> s.scheduler.worker = .returned
  notHanded : s.handedAfterDestruction = 0

structure Conserved (s : ClientDestruction σ) : Prop where
  phases : Phases s
  balanced : Balanced s.operations (waiting s.transport) s.tasks none

theorem init_conserved (runtime : Runtime σ) (multiHandle : Bool)
    (maxConnections : Nat) (now : Int) :
    Conserved (init runtime multiHandle maxConnections now) where
  phases :=
    { accounted := CurlMultiTransport.accounted_init multiHandle maxConnections
      emptied := CurlMultiTransport.emptied_init multiHandle maxConnections
      alive := fun _ => rfl
      stackGone := fun h => by rcases h with h | h | h <;> cases h
      stopped := fun h => nomatch h
      exited := fun h => nomatch h
      joined := fun h => nomatch h
      notHanded := rfl }
  balanced := balanced_init runtime

/-- As long as the transport is there, what is scheduled is kept. -/
theorem settle_conserved {s s' : ClientDestruction σ}
    {after : Operations σ × Outgoing}
    (hphases : Phases s)
    (hlive : after.2 ≠ .nothing -> s.transport.destructor ≠ .returned)
    (hbalanced : Balanced after.1 (after.2.sends (waiting s.transport))
      (after.2.tasks s.tasks) none)
    (hsettle : settle s after = some s') :
    Conserved s' := by
  unfold settle at hsettle
  rcases after with ⟨operations, out⟩
  cases out with
  | nothing =>
      cases hsettle
      exact ⟨⟨hphases.accounted, hphases.emptied, hphases.alive,
        hphases.stackGone, hphases.stopped, hphases.exited, hphases.joined,
        hphases.notHanded⟩, hbalanced⟩
  | send id =>
      cases hsettle
      have halive := hlive (by simp)
      have hstep : s.transport.step (.send id) =
          some (s.transport.sendAsync id) := by
        simp only [CurlMultiTransport.step, if_neg halive]
      have haccounted :=
        CurlMultiTransport.step_accounted hphases.accounted hstep
      have hemptied := CurlMultiTransport.step_emptied rfl hphases.emptied hstep
      refine ⟨⟨haccounted, hemptied, hphases.alive, hphases.stackGone,
        hphases.stopped, hphases.exited, hphases.joined, hphases.notHanded⟩, ?_⟩
      exact hbalanced.perm (waiting_sendAsync id hphases.accounted).symm
        (List.Perm.refl _)
  | schedule delay task =>
      have halive := hlive (by simp)
      have hstop : s.scheduler.stop = false := by
        rw [Bool.eq_false_iff]
        intro hstop
        exact halive (hphases.stopped hstop)
      have hworker : s.scheduler.worker ≠ .returned := by
        intro hworker
        rw [hphases.exited hworker] at hstop
        cases hstop
      simp only [DefaultScheduledExecutor.Impl.step] at hsettle
      split at hsettle
      · cases hsettle
      · rename_i scheduler hschedule
        split at hschedule
        · cases hschedule
        · cases hschedule
          cases hsettle
          simp only [DefaultScheduledExecutor.Impl.schedule, hstop,
            Bool.false_eq_true, if_false]
          refine ⟨⟨hphases.accounted, hphases.emptied, hphases.alive,
            hphases.stackGone, (fun h => by cases h),
            fun h => absurd h hworker, hphases.joined, hphases.notHanded⟩, ?_⟩
          exact hbalanced

/-!
# While the stack is there for the retries
-/

/--
A retry runs while the transport is there, and the transport itself loses
nothing.
-/
def KeepsStack (s : ClientDestruction σ) : Label σ -> Bool
  | .transport l _ => s.transport.KeepsRequests l
  | .body =>
      match s.scheduler.worker with
      | .running (.retry _) => s.transport.destructor != .returned
      | _ => true
  | .destroy =>
      s.destructor != .stack || s.transport.KeepsRequests .destroy
  | _ => true

theorem call_conserved (c : AsyncClientImpl σ) {s s' : ClientDestruction σ}
    {input : OperationInput σ} {opts : Option (OperationOptions σ)}
    {innerOpts : Option (OperationInnerOptions σ)}
    (hs : Conserved s)
    (hstep : step c s (.call input opts innerOpts) = some s') :
    Conserved s' := by
  simp only [step] at hstep
  split at hstep
  · rename_i halive
    refine settle_conserved hs.phases ?_
      (ExecuteAsync_balanced c input opts innerOpts hs.balanced) hstep
    intro _ hdestroyed
    rw [hs.phases.alive halive] at hdestroyed
    cases hdestroyed
  · cases hstep

theorem ownStep_ne {l : CurlMultiTransport.Label Nat}
    (hown : ownStep l = true) :
    (forall callback, l ≠ .send callback) ∧ l ≠ .destroy := by
  constructor
  · intro callback hl
    rw [hl] at hown
    cases hown
  · intro hl
    rw [hl] at hown
    cases hown

theorem Phases.transport {s : ClientDestruction σ}
    {transport : CurlMultiTransport Nat}
    (hs : Phases s)
    (haccounted : transport.Accounted)
    (hemptied : transport.Emptied)
    (hdestructor : transport.destructor = s.transport.destructor) :
    Phases { s with transport := transport } where
  accounted := haccounted
  emptied := hemptied
  alive h := hdestructor.trans (hs.alive h)
  stackGone h := hdestructor.trans (hs.stackGone h)
  stopped h := hdestructor.trans (hs.stopped h)
  exited := hs.exited
  joined := hs.joined
  notHanded := hs.notHanded

theorem transport_conserved (c : AsyncClientImpl σ) {s s' : ClientDestruction σ}
    {l : CurlMultiTransport.Label Nat} {request : RequestMessage σ}
    (hguard : KeepsStack s (.transport l request) = true)
    (hs : Conserved s)
    (hstep : step c s (.transport l request) = some s') :
    Conserved s' := by
  simp only [step, transportStep] at hstep
  split at hstep
  · rename_i hown
    rcases ownStep_ne hown with ⟨hsend, hdestroy⟩
    split at hstep
    · cases hstep
    · rename_i transport htransport
      have haccounted :=
        CurlMultiTransport.step_accounted hs.phases.accounted htransport
      have hemptied :=
        CurlMultiTransport.step_emptied hguard hs.phases.emptied htransport
      have hdestructor :=
        (CurlMultiTransport.step_frame hsend htransport).2.2 hdestroy
      have hphases := hs.phases.transport haccounted hemptied hdestructor
      split at hstep
      · rename_i hquiet
        cases hstep
        refine ⟨hphases, ?_⟩
        have hwaiting := waiting_quiet hsend hquiet htransport
        have hbalanced := hs.balanced
        rw [← hwaiting] at hbalanced
        exact hbalanced
      · rename_i id result hcallback
        have hwaiting := waiting_callback hs.phases.accounted hsend hcallback
          htransport
        have hbefore := hs.balanced.perm hwaiting (List.Perm.refl _)
        have hbalanced := onSent_balanced c result request hbefore
          List.mem_cons_self
        rw [List.erase_cons_head] at hbalanced
        refine settle_conserved hphases ?_ hbalanced hstep
        intro _
        rw [show transport.destructor = _ from hdestructor]
        exact hs.phases.emptied.alive_of_callback hcallback
  · cases hstep

theorem bodyTask_of_not_running {s : ClientDestruction σ}
    (hworker : forall task, s.scheduler.worker ≠ .running task) :
    s.bodyTask = [] := by
  unfold bodyTask
  split
  · rename_i hrunning _
    exact absurd hrunning (hworker _)
  · rfl

theorem bodyTask_of_returned {s : ClientDestruction σ}
    (hreturned : s.bodyReturned = true) : s.bodyTask = [] := by
  unfold bodyTask
  split
  · rename_i hbefore
    simp [bodyReturned, hbefore] at hreturned
  · rfl

theorem workerStep_advance {s s' : ClientDestruction σ}
    (hstep : s.workerStep = some s') :
    s.bodyTask = [] ∧ exists scheduler, s.scheduler.advance = some scheduler ∧
      s' = { s with scheduler := scheduler, body := .before } := by
  unfold workerStep at hstep
  split at hstep
  · cases hstep
  · rename_i hnot
    split at hstep
    · cases hstep
    · rename_i scheduler hadvance
      cases hstep
      refine ⟨?_, scheduler, hadvance, rfl⟩
      cases hreturned : s.bodyReturned with
      | true => exact bodyTask_of_returned hreturned
      | false =>
          apply bodyTask_of_not_running
          intro task hrunning
          exact hnot task hrunning hreturned

theorem worker_conserved {s s' : ClientDestruction σ}
    (hs : Conserved s)
    (hstep : s.workerStep = some s') :
    Conserved s' := by
  rcases workerStep_advance hstep with ⟨hbody, scheduler, hadvance, hs'⟩
  rcases DefaultScheduledExecutor.advance_frame hadvance with
    ⟨hqueue, hstop, hrunning, hreturned⟩
  have hbalanced := hs.balanced
  have htasks : s'.tasks = s.tasks := by
    have hbody' : s'.bodyTask = [] := by
      apply bodyTask_of_not_running
      rw [hs']
      exact hrunning
    unfold tasks
    rw [hbody, hbody', hs']
    simp only [hqueue]
  have hnot : s.scheduler.worker ≠ .returned := by
    intro hworker
    simp only [DefaultScheduledExecutor.Impl.advance, hworker] at hadvance
    cases hadvance
  rw [← htasks] at hbalanced
  rw [hs'] at hbalanced ⊢
  exact
    { phases :=
        { accounted := hs.phases.accounted
          emptied := hs.phases.emptied
          alive := hs.phases.alive
          stackGone := hs.phases.stackGone
          stopped := fun h => hs.phases.stopped (hstop.symm.trans h)
          exited := fun h => hstop.trans (hreturned h).1
          joined := fun h => absurd (hs.phases.joined h) hnot
          notHanded := hs.phases.notHanded }
      balanced := hbalanced }

theorem start_conserved (c : AsyncClientImpl σ) {s s' : ClientDestruction σ}
    {e : DefaultScheduledExecutor.Entry Task}
    (hs : Conserved s)
    (hstep : step c s (.start e) = some s') :
    Conserved s' := by
  simp only [step] at hstep
  split at hstep
  · cases hstep
  · rename_i scheduler hstart
    rcases DefaultScheduledExecutor.start_some hstart with
      ⟨hworker, he, _, _, hscheduler⟩
    cases hstep
    have hbody : s.bodyTask = [] := by
      apply bodyTask_of_not_running
      intro task hrunning
      rw [hworker] at hrunning
      cases hrunning
    have hperm : s.tasks.Perm
        ((s.scheduler.queue.erase e).map DefaultScheduledExecutor.Entry.task ++
          [e.task]) := by
      unfold tasks
      rw [hbody, List.append_nil]
      have hcons := (List.perm_cons_erase he).map
        DefaultScheduledExecutor.Entry.task
      exact hcons.trans (List.perm_append_singleton _ _).symm
    rw [hscheduler]
    exact
      { phases :=
          { accounted := hs.phases.accounted
            emptied := hs.phases.emptied
            alive := hs.phases.alive
            stackGone := hs.phases.stackGone
            stopped := hs.phases.stopped
            exited := fun h => nomatch h
            joined := by
              intro h
              rw [hs.phases.joined h] at hworker
              cases hworker
            notHanded := hs.phases.notHanded }
        balanced := hs.balanced.perm (List.Perm.refl _) hperm }

/-- A task that runs is no longer queued. -/
theorem running_tasks {s : ClientDestruction σ} {task : Task}
    (hworker : s.scheduler.worker = .running task)
    (hbody : s.body = .before) :
    s.tasks = s.scheduler.queue.map DefaultScheduledExecutor.Entry.task ++
      [task] := by
  simp only [tasks, bodyTask, hworker, hbody]

theorem Balanced.running {s : ClientDestruction σ} {task : Task}
    (c : AsyncClientImpl σ)
    (hworker : s.scheduler.worker = .running task)
    (hbody : s.body = .before)
    (hbalanced : Balanced s.operations (waiting s.transport) s.tasks none) :
    let after := runTask c s.operations task
    Balanced after.1 (after.2.sends (waiting s.transport))
      (after.2.tasks
        (s.scheduler.queue.map DefaultScheduledExecutor.Entry.task)) none := by
  rw [running_tasks hworker hbody] at hbalanced
  have hperm := hbalanced.perm (List.Perm.refl _)
    (List.perm_append_singleton task _)
  have hafter := runTask_balanced c hperm List.mem_cons_self
  rw [List.erase_cons_head] at hafter
  exact hafter

theorem Phases.body {s : ClientDestruction σ} (body : TaskBody)
    (hs : Phases s) : Phases { s with body := body } where
  accounted := hs.accounted
  emptied := hs.emptied
  alive := hs.alive
  stackGone := hs.stackGone
  stopped := hs.stopped
  exited := hs.exited
  joined := hs.joined
  notHanded := hs.notHanded

theorem tasks_of_body {s : ClientDestruction σ} {body : TaskBody}
    (hbody : body ≠ .before) :
    tasks { s with body := body } =
      s.scheduler.queue.map DefaultScheduledExecutor.Entry.task := by
  have hnone : bodyTask { s with body := body } = [] := by
    unfold bodyTask
    split
    · rename_i hbefore
      exact absurd hbefore hbody
    · rfl
  unfold tasks
  rw [hnone, List.append_nil]

theorem body_conserved (c : AsyncClientImpl σ) {s s' : ClientDestruction σ}
    (hguard : KeepsStack s (.body : Label σ) = true)
    (hs : Conserved s)
    (hstep : s.bodyStep c = some s') :
    Conserved s' := by
  unfold bodyStep at hstep
  split at hstep
  · rename_i id hworker hbody
    have halive : s.transport.destructor ≠ .returned := by
      simpa [KeepsStack, hworker] using hguard
    rw [if_neg halive] at hstep
    have hafter := Balanced.running c hworker hbody hs.balanced
    have hbodyAfter : s.bodyAfter (runTask c s.operations (.retry id)).2 ≠
        .before := by
      unfold bodyAfter
      split <;> simp
    refine settle_conserved (hs.phases.body (s.bodyAfter _))
      (fun _ => halive) ?_ hstep
    rw [tasks_of_body hbodyAfter]
    exact hafter
  · rename_i id hworker hbody
    have hafter := Balanced.running c hworker hbody hs.balanced
    have hqueued : Task.finish id ∈ s.tasks := by
      rw [running_tasks hworker hbody]
      exact List.mem_append_right _ List.mem_cons_self
    have hquiet : (runTask c s.operations (.finish id)).2 = .nothing := by
      rcases hs.balanced.queued _ hqueued with ⟨state, hstate, hrequest⟩
      rcases runTask_finish c hstate hrequest with ⟨result, hresult⟩
      exact congrArg Prod.snd hresult
    refine settle_conserved (hs.phases.body .done)
      (fun h => absurd hquiet h) ?_ hstep
    rw [tasks_of_body (by simp)]
    exact hafter
  · cases hstep

theorem destroy_conserved {s s' : ClientDestruction σ}
    (hguard : KeepsStack s (.destroy : Label σ) = true)
    (hs : Conserved s)
    (hstep : s.destroyStep = some s') :
    Conserved s' := by
  unfold destroyStep at hstep
  cases hdestructor : s.destructor with
  | alive =>
      simp only [hdestructor] at hstep
      cases hstep
      refine ⟨⟨hs.phases.accounted, hs.phases.emptied, (fun h => by cases h),
        ?_, hs.phases.stopped, hs.phases.exited, (fun h => by cases h),
        hs.phases.notHanded⟩, hs.balanced⟩
      intro h
      rcases h with h | h | h <;> cases h
  | stack =>
      simp only [hdestructor] at hstep
      split at hstep
      · rename_i hgone
        cases hstep
        exact ⟨⟨hs.phases.accounted, hs.phases.emptied, (fun h => by cases h),
          fun _ => hgone, hs.phases.stopped, hs.phases.exited,
          (fun h => by cases h), hs.phases.notHanded⟩, hs.balanced⟩
      · rename_i hthere
        split at hstep
        · cases hstep
        · rename_i transport htransport
          cases hstep
          have hkeeps : s.transport.KeepsRequests .destroy = true := by
            simpa [KeepsStack, hdestructor] using hguard
          have haccounted :=
            CurlMultiTransport.step_accounted hs.phases.accounted htransport
          have hemptied :=
            CurlMultiTransport.step_emptied hkeeps hs.phases.emptied htransport
          have hwaiting := waiting_quiet (l := .destroy)
            (fun _ h => nomatch h) rfl htransport
          have hbalanced := hs.balanced
          rw [← hwaiting] at hbalanced
          refine ⟨⟨haccounted, hemptied, ?_, ?_, ?_, hs.phases.exited, ?_,
            hs.phases.notHanded⟩, hbalanced⟩
          · intro h
            cases h
          · intro h
            rcases h with h | h | h <;> cases h
          · intro h
            exact absurd (hs.phases.stopped h) hthere
          · intro h
            cases h
  | scheduler =>
      simp only [hdestructor, DefaultScheduledExecutor.Impl.step] at hstep
      have hgone := hs.phases.stackGone (Or.inl hdestructor)
      split at hstep
      · cases hstep
      · rename_i scheduler hstop
        split at hstop
        · cases hstop
        · cases hstop
          cases hstep
          exact ⟨⟨hs.phases.accounted, hs.phases.emptied,
            (fun h => by cases h), fun _ => hgone, fun _ => hgone,
            fun _ => rfl, (fun h => by cases h), hs.phases.notHanded⟩,
            hs.balanced⟩
  | joining =>
      simp only [hdestructor] at hstep
      have hgone := hs.phases.stackGone (Or.inr (Or.inl hdestructor))
      split at hstep
      · rename_i hworker
        cases hstep
        exact ⟨⟨hs.phases.accounted, hs.phases.emptied, (fun h => by cases h),
          fun _ => hgone, hs.phases.stopped, hs.phases.exited,
          fun _ => hworker, hs.phases.notHanded⟩, hs.balanced⟩
      · cases hstep
  | returned =>
      simp only [hdestructor] at hstep
      cases hstep

theorem step_conserved (c : AsyncClientImpl σ) {s s' : ClientDestruction σ}
    {l : Label σ}
    (hguard : KeepsStack s l = true)
    (hs : Conserved s)
    (hstep : step c s l = some s') :
    Conserved s' := by
  cases l with
  | call input opts innerOpts => exact call_conserved c hs hstep
  | transport l request => exact transport_conserved c hguard hs hstep
  | worker => exact worker_conserved hs hstep
  | start e => exact start_conserved c hs hstep
  | body => exact body_conserved c hguard hs hstep
  | tick elapsed =>
      cases hstep
      exact ⟨⟨hs.phases.accounted, hs.phases.emptied, hs.phases.alive,
        hs.phases.stackGone, hs.phases.stopped, hs.phases.exited,
        hs.phases.joined, hs.phases.notHanded⟩, hs.balanced⟩
  | environment env =>
      cases hstep
      exact ⟨⟨hs.phases.accounted, hs.phases.emptied, hs.phases.alive,
        hs.phases.stackGone, hs.phases.stopped, hs.phases.exited,
        hs.phases.joined, hs.phases.notHanded⟩,
        ⟨hs.balanced.crashed, hs.balanced.once, hs.balanced.sent,
          hs.balanced.queued⟩⟩
  | destroy => exact destroy_conserved hguard hs hstep

/-- A transport that has been destroyed has called everybody back. -/
theorem waiting_of_destroyed {t : CurlMultiTransport Nat}
    (haccounted : t.Accounted) (hemptied : t.Emptied)
    (hdestroyed : t.destructor = .returned) : waiting t = [] := by
  have hcalled := (CurlMultiTransport.noRequestLost_of_emptied haccounted
    hemptied).destroyed hdestroyed
  apply unanswered_eq_nil
  intro id hid
  rw [CurlMultiTransport.captured, List.length_map] at hid
  have hone := (hcalled id hid).1
  rw [Nat.zero_add]
  apply List.count_pos_iff.mp
  omega

/-- After the destructor an operation is called back or left in the queue. -/
theorem Conserved.places_of_returned {s : ClientDestruction σ}
    (hs : Conserved s)
    (hreturned : s.destructor = .returned)
    {id : Nat} (hid : id < s.operations.states.length) :
    s.operations.places []
      (s.scheduler.queue.map DefaultScheduledExecutor.Entry.task) id = 1 := by
  have hgone := hs.phases.stackGone (Or.inr (Or.inr hreturned))
  have hwaiting := waiting_of_destroyed hs.phases.accounted hs.phases.emptied
    hgone
  have hworker := hs.phases.joined hreturned
  have htasks : s.tasks =
      s.scheduler.queue.map DefaultScheduledExecutor.Entry.task := by
    simp only [tasks, bodyTask, hworker, List.append_nil]
  have honce := hs.balanced.once id
  rw [hwaiting, htasks] at honce
  simpa [hid] using honce

theorem reachable_conserved (c : AsyncClientImpl σ) {s : ClientDestruction σ}
    (hs : ((system c).guarded (fun s l => KeepsStack s l = true)).Reachable s) :
    Conserved s := by
  refine TransitionSystem.guarded_invariant_of_step ?_ ?_ s hs
  · intro s0 hs0
    rcases hs0 with ⟨runtime, multiHandle, maxConnections, now, hs0⟩
    rw [hs0]
    exact init_conserved runtime multiHandle maxConnections now
  · intro s l s' hs hguard hstep
    exact step_conserved c hguard hs hstep

/--
In such a run the operations that have no callback when the destructor has
returned are those with a task in the queue that the worker has left.
-/
theorem callbacks_of_returned (c : AsyncClientImpl σ)
    {s : ClientDestruction σ} {id : Nat}
    (hs : ((system c).guarded (fun s l => KeepsStack s l = true)).Reachable s)
    (hreturned : s.destructor = .returned)
    (hid : id < s.operations.states.length) :
    s.operations.callbacks id = 1 ↔
      forall e, e ∈ s.scheduler.queue -> e.task.id ≠ id := by
  have hone := (reachable_conserved c hs).places_of_returned hreturned hid
  unfold places at hone
  constructor
  · intro hcalled e he hsame
    have hmem := List.mem_map_of_mem (f := DefaultScheduledExecutor.Entry.task)
      he
    have hpos := List.count_pos_iff.mpr hmem
    cases htask : e.task with
    | retry id' =>
        rw [htask] at hpos hsame
        rw [show id' = id from hsame] at hpos
        omega
    | finish id' =>
        rw [htask] at hpos hsame
        rw [show id' = id from hsame] at hpos
        omega
  · intro hnone
    have hretry : Task.retry id ∉
        s.scheduler.queue.map DefaultScheduledExecutor.Entry.task := by
      intro hmem
      rcases List.mem_map.mp hmem with ⟨e, he, htask⟩
      exact hnone e he (by rw [htask]; rfl)
    have hfinish : Task.finish id ∉
        s.scheduler.queue.map DefaultScheduledExecutor.Entry.task := by
      intro hmem
      rcases List.mem_map.mp hmem with ⟨e, he, htask⟩
      exact hnone e he (by rw [htask]; rfl)
    rw [List.count_eq_zero.mpr hretry, List.count_eq_zero.mpr hfinish,
      List.count_nil] at hone
    exact hone

/-!
# A client whose queue is empty when the worker is stopped
-/

/-- The worker also looks at the stop flag with an empty queue. -/
def Drains (s : ClientDestruction σ) : Label σ -> Bool
  | .worker =>
      !s.scheduler.worker.endsOnStop || !s.scheduler.stop ||
        s.scheduler.queue.isEmpty
  | l => KeepsStack s l

def Drained (s : ClientDestruction σ) : Prop :=
  s.scheduler.worker = .returned -> s.scheduler.queue = []

theorem keepsStack_of_drains {s : ClientDestruction σ} {l : Label σ}
    (hguard : Drains s l = true) : KeepsStack s l = true := by
  cases l with
  | worker => rfl
  | call input opts innerOpts => rfl
  | transport l request => exact hguard
  | start e => rfl
  | body => exact hguard
  | tick elapsed => rfl
  | environment env => rfl
  | destroy => exact hguard

/-- What is handed over to a stopped scheduler does not get into its queue. -/
theorem settle_drained {s s' : ClientDestruction σ}
    {after : Operations σ × Outgoing}
    (hexited : s.scheduler.worker = .returned -> s.scheduler.stop = true)
    (hs : Drained s)
    (hsettle : settle s after = some s') :
    Drained s' := by
  unfold settle at hsettle
  split at hsettle
  · cases hsettle
    exact hs
  · cases hsettle
    exact hs
  · split at hsettle
    · cases hsettle
    · rename_i scheduler hschedule
      simp only [DefaultScheduledExecutor.Impl.step] at hschedule
      split at hschedule
      · cases hschedule
      · cases hschedule
        cases hsettle
        intro hworker
        have hsame : s.scheduler.worker = .returned := by
          unfold DefaultScheduledExecutor.Impl.schedule at hworker
          split at hworker <;> exact hworker
        simp only [DefaultScheduledExecutor.Impl.schedule, hexited hsame,
          if_true]
        exact hs hsame

theorem step_drained (c : AsyncClientImpl σ) {s s' : ClientDestruction σ}
    {l : Label σ}
    (hguard : Drains s l = true)
    (hconserved : Conserved s)
    (hs : Drained s)
    (hstep : step c s l = some s') :
    Drained s' := by
  have hexited := hconserved.phases.exited
  cases l with
  | call input opts innerOpts =>
      simp only [step] at hstep
      split at hstep
      · exact settle_drained hexited hs hstep
      · cases hstep
  | transport l request =>
      simp only [step, transportStep] at hstep
      split at hstep
      · split at hstep
        · cases hstep
        · rename_i transport htransport
          split at hstep
          · cases hstep
            exact hs
          · exact settle_drained (s := { s with transport := transport })
              hexited hs hstep
      · cases hstep
  | worker =>
      rcases workerStep_advance hstep with ⟨_, scheduler, hadvance, hs'⟩
      rcases DefaultScheduledExecutor.advance_frame hadvance with
        ⟨hqueue, _, _, hreturned⟩
      rw [hs']
      intro hworker
      rcases hreturned hworker with ⟨hset, hends⟩
      have hempty : s.scheduler.queue = [] := by
        simpa [Drains, hends, hset] using hguard
      exact hqueue.trans hempty
  | start e =>
      simp only [step] at hstep
      split at hstep
      · cases hstep
      · rename_i scheduler hstart
        rcases DefaultScheduledExecutor.start_some hstart with
          ⟨_, _, _, _, hscheduler⟩
        cases hstep
        rw [hscheduler]
        intro hworker
        cases hworker
  | body =>
      simp only [step, bodyStep] at hstep
      split at hstep
      · split at hstep
        · cases hstep
          exact hs
        · exact settle_drained (s := { s with body := s.bodyAfter _ })
            hexited hs hstep
      · exact settle_drained (s := { s with body := .done }) hexited hs hstep
      · cases hstep
  | tick elapsed =>
      cases hstep
      exact hs
  | environment env =>
      cases hstep
      exact hs
  | destroy =>
      simp only [step, destroyStep] at hstep
      split at hstep
      · cases hstep
        exact hs
      · split at hstep
        · cases hstep
          exact hs
        · split at hstep
          · cases hstep
          · cases hstep
            exact hs
      · split at hstep
        · cases hstep
        · rename_i scheduler hstop
          simp only [DefaultScheduledExecutor.Impl.step] at hstop
          split at hstop
          · cases hstop
          · cases hstop
            cases hstep
            exact hs
      · split at hstep
        · cases hstep
          exact hs
        · cases hstep
      · cases hstep

/-!
# Every operation is completed
-/

/--
No user's callback is called twice, no retry follows the pointer to a stack that
is gone, and when the destructor has returned every operation has been called
back.
-/
structure CompletesAll (s : ClientDestruction σ) : Prop where
  noNullPointer : s.operations.crashed = false
  atMostOnce : forall id, s.operations.callbacks id ≤ 1
  notHanded : s.handedAfterDestruction = 0
  complete : s.destructor = .returned ->
    forall id, id < s.operations.states.length ->
      s.operations.callbacks id = 1

theorem completesAll_of_drained {s : ClientDestruction σ}
    (hs : Conserved s) (hdrained : Drained s) : CompletesAll s where
  noNullPointer := hs.balanced.crashed
  atMostOnce id := by
    have honce := hs.balanced.once id
    unfold places at honce
    split at honce <;> split at honce <;> omega
  notHanded := hs.phases.notHanded
  complete := by
    intro hreturned id hid
    have hone := hs.places_of_returned hreturned hid
    rw [hdrained (hs.phases.joined hreturned)] at hone
    exact hone

/--
When the worker is stopped with an empty queue and the transport dies before any
retry is due, the destruction of a client completes all of its operations.
-/
theorem completesAll_of_drains (c : AsyncClientImpl σ)
    {s : ClientDestruction σ}
    (hs : ((system c).guarded (fun s l => Drains s l = true)).Reachable s) :
    CompletesAll s := by
  have hboth : Conserved s ∧ Drained s := by
    refine TransitionSystem.guarded_invariant_of_step
      (P := fun s => Conserved s ∧ Drained s) ?_ ?_ s hs
    · intro s0 hs0
      rcases hs0 with ⟨runtime, multiHandle, maxConnections, now, hs0⟩
      rw [hs0]
      exact ⟨init_conserved runtime multiHandle maxConnections now, fun _ => rfl⟩
    · intro s l s' hs hguard hstep
      exact ⟨step_conserved c (keepsStack_of_drains hguard) hs.1 hstep,
        step_drained c hguard hs.1 hs.2 hstep⟩
  exact completesAll_of_drained hboth.1 hboth.2

/-!
# One request at the transport
-/

def start : ClientDestruction Unit :=
  init ⟨0, ()⟩ true 16 0

def noRequest : RequestMessage Unit :=
  ⟨[], [], SortedMap.empty, none⟩

/-- A request is handed over, and the I/O thread adds it to the multi handle. -/
def oneInFlight : List (Label Unit) :=
  [.call (headObjectInput Unit) none none, .worker] ++
    [.call 0, .call 0, .grow 0 2, .call 0, .call 0, .call 0, .io, .io, .io,
      .io].map fun l => .transport l noRequest

def ioSteps (n : Nat) : List (Label Unit) :=
  List.replicate n (.transport .io noRequest)

/-- The answer is delivered before the client is destroyed. -/
def answeredThenDestroyed : List (Label Unit) :=
  oneInFlight ++
    [.transport (.complete 0 (.response ⟨200, [], SortedMap.empty, none⟩))
        noRequest] ++ ioSteps 1 ++
    [.worker, .worker, .worker, .start ⟨0, .finish 0⟩, .body, .worker, .worker,
      .worker, .destroy, .destroy] ++ ioSteps 6 ++
    [.destroy, .destroy, .destroy, .destroy, .worker, .worker, .destroy]

/-- The transport cancels the request, and its completion is still queued. -/
def destroyedInFlight : List (Label Unit) :=
  oneInFlight ++ [.destroy, .destroy] ++ ioSteps 8 ++
    [.destroy, .destroy, .destroy, .worker, .worker, .destroy, .worker,
      .destroy]

theorem completesAll_answeredThenDestroyed :
    exists s, ((system ⟨anonymousBase Unit⟩).guarded
        (fun s l => Drains s l = true)).run start answeredThenDestroyed =
          some s ∧
      s.destructor = .returned ∧ CompletesAll s := by
  have hrun : (((system ⟨anonymousBase Unit⟩).guarded
      (fun s l => Drains s l = true)).run start answeredThenDestroyed).map
        (fun s => s.destructor) = some .returned := by
    decide +kernel
  rcases Option.map_eq_some_iff.mp hrun with ⟨s, hs, hreturned⟩
  refine ⟨s, hs, hreturned, ?_⟩
  exact completesAll_of_drains ⟨anonymousBase Unit⟩
    ⟨start, answeredThenDestroyed, ⟨⟨0, ()⟩, true, 16, 0, rfl⟩, hs⟩

theorem not_completesAll_destroyedInFlight :
    ¬ (system ⟨anonymousBase Unit⟩).Invariant CompletesAll := by
  intro hinv
  have hrun : ((system ⟨anonymousBase Unit⟩).run start destroyedInFlight).map
      (fun s => (s.destructor, s.operations.states.length,
        s.operations.callbacks 0)) = some (.returned, 1, 0) := by
    decide +kernel
  rcases Option.map_eq_some_iff.mp hrun with ⟨s, hs, hfacts⟩
  simp only [Prod.mk.injEq] at hfacts
  rcases hfacts with ⟨hreturned, hlength, hnone⟩
  have hcompletes := hinv s (TransitionSystem.reachable_of_run
    ⟨⟨0, ()⟩, true, 16, 0, rfl⟩ hs)
  have hone := hcompletes.complete hreturned 0 (by omega)
  omega

end ClientDestruction
end Async
end Internal
end OssSdk
