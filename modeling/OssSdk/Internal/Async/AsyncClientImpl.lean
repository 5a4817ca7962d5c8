import OssSdk.Internal.Async.AsyncExecuteStack
import OssSdk.Foundation.Transition
import Mathlib.Data.List.Perm.Basic

/-!
# Operations of an asynchronous client

The operations of one client run side by side.  What each of them is waiting for
is either a callback of the transport or a task of the scheduler; the states
themselves are shared by the callbacks that will look at them, and are numbered
here in the order of the calls.
-/

namespace OssSdk
namespace Internal
namespace Async

open Foundation
open AsyncExecuteStack (AttemptOver Executed)

variable {σ : Type}

/-- The two tasks that `onOperationFinished` gives to the scheduler. -/
inductive Task where
  | retry (id : Nat)
  | finish (id : Nat)
deriving DecidableEq

def Task.id : Task -> Nat
  | .retry id => id
  | .finish id => id

/-- What a chain of handlers leaves behind for another thread to go on with. -/
inductive Outgoing where
  | nothing
  | send (id : Nat)
  | schedule (delay : Int) (task : Task)
deriving DecidableEq

def Outgoing.sends : Outgoing -> List Nat -> List Nat
  | .send id, sends => id :: sends
  | _, sends => sends

def Outgoing.tasks : Outgoing -> List Task -> List Task
  | .schedule _ task, tasks => task :: tasks
  | _, tasks => tasks

/--
A call that ended before the stack was entered has no state.  `crashed` is set
where the source would follow a null pointer.
-/
structure Operations (σ : Type) where
  runtime : Runtime σ
  states : List (Option (AsyncExecuteState σ))
  results : List (Nat × OperationResult)
  crashed : Bool

namespace Operations

def init (runtime : Runtime σ) : Operations σ where
  runtime := runtime
  states := []
  results := []
  crashed := false

def crash (o : Operations σ) : Operations σ × Outgoing :=
  ({ o with crashed := true }, .nothing)

def onOperationFinished (id : Nat) (s : AsyncExecuteState σ) : Outgoing :=
  if s.action = .Continue then .schedule s.retryDelay (.retry id)
  else .schedule 0 (.finish id)

/-- Run a chain of handlers on the state of one operation. -/
def advance (o : Operations σ) (id : Nat) (handler : Handler σ) :
    Operations σ × Outgoing :=
  match o.states[id]?.join with
  | none => o.crash
  | some s =>
      match handler s o.runtime with
      | none => o.crash
      | some step =>
          ({ o with
              runtime := step.runtime
              states := o.states.set id (some step.state) },
            match step.exit with
            | .sendAsync _ => .send id
            | .onFinished => onOperationFinished id step.state)

def ExecuteAsync (c : AsyncClientImpl σ) (o : Operations σ)
    (input : OperationInput σ) (opts : Option (OperationOptions σ))
    (innerOpts : Option (OperationInnerOptions σ)) : Operations σ × Outgoing :=
  let id := o.states.length
  match c.start o.runtime.clockOffset input opts innerOpts with
  | .error e =>
      ({ o with
          states := o.states ++ [none]
          results := o.results ++ [(id, .error e)] }, .nothing)
  | .ok s =>
      { o with states := o.states ++ [some s] }.advance id c.stack.executeAsync

/-- The transport calls back with the result, and hands the request back. -/
def onSent (c : AsyncClientImpl σ) (o : Operations σ) (id : Nat)
    (result : ResponseResult) (request : RequestMessage σ) :
    Operations σ × Outgoing :=
  o.advance id (c.stack.onSent result request)

def runTask (c : AsyncClientImpl σ) (o : Operations σ) :
    Task -> Operations σ × Outgoing
  | .retry id => o.advance id c.stack.executeAsync
  | .finish id =>
      match o.states[id]?.join.bind AsyncExecuteState.result with
      | none => o.crash
      | some result =>
          ({ o with results := o.results ++ [(id, result)] }, .nothing)

/-- How often the user's callback of an operation has been called. -/
def callbacks (o : Operations σ) (id : Nat) : Nat :=
  o.results.countP fun r => r.1 == id

/-!
# Every operation is in one place
-/

/-- Callbacks made, and events outstanding, for one operation. -/
def places (o : Operations σ) (sends : List Nat) (tasks : List Task)
    (id : Nat) : Nat :=
  o.callbacks id + sends.count id + tasks.count (.retry id) +
    tasks.count (.finish id)

/--
Every operation that has been called is in one place, but for the one whose
handlers are running, and its state is what the next event needs.
-/
structure Balanced (o : Operations σ) (sends : List Nat) (tasks : List Task)
    (held : Option Nat) : Prop where
  crashed : o.crashed = false
  once : forall id, o.places sends tasks id + (if held = some id then 1 else 0) =
    if id < o.states.length then 1 else 0
  sent : forall id, id ∈ sends ->
    exists s, o.states[id]? = some (some s) ∧ s.action = .Stop
  queued : forall task, task ∈ tasks ->
    exists s, o.states[task.id]? = some (some s) ∧ s.request.isSome = true

theorem balanced_init (runtime : Runtime σ) :
    Balanced (init runtime) [] [] none where
  crashed := rfl
  once id := rfl
  sent id hid := by cases hid
  queued task htask := by cases htask

theorem places_pos_of_sent
    {o : Operations σ}
    {sends : List Nat}
    {tasks : List Task}
    {id : Nat}
    (hid : id ∈ sends) :
    0 < o.places sends tasks id := by
  have hcount : 0 < sends.count id := List.count_pos_iff.mpr hid
  unfold places
  omega

theorem places_pos_of_queued
    {o : Operations σ}
    {sends : List Nat}
    {tasks : List Task}
    {task : Task}
    (htask : task ∈ tasks) :
    0 < o.places sends tasks task.id := by
  have hcount : 0 < tasks.count task := List.count_pos_iff.mpr htask
  unfold places
  cases task with
  | retry id =>
      simp only [Task.id]
      omega
  | finish id =>
      simp only [Task.id]
      omega

/-- Nothing is outstanding for the operation whose handlers are running. -/
theorem Balanced.places_held
    {o : Operations σ}
    {sends : List Nat}
    {tasks : List Task}
    {id : Nat}
    (hbalanced : Balanced o sends tasks (some id)) :
    o.places sends tasks id = 0 ∧ id < o.states.length := by
  have honce := hbalanced.once id
  rw [if_pos rfl] at honce
  split at honce
  · exact ⟨by omega, by assumption⟩
  · omega

theorem Balanced.perm
    {o : Operations σ}
    {sends sends' : List Nat}
    {tasks tasks' : List Task}
    {held : Option Nat}
    (hbalanced : Balanced o sends tasks held)
    (hsends : sends.Perm sends')
    (htasks : tasks.Perm tasks') :
    Balanced o sends' tasks' held where
  crashed := hbalanced.crashed
  once id := by
    have honce := hbalanced.once id
    unfold places at honce ⊢
    rw [← hsends.count_eq, ← htasks.count_eq, ← htasks.count_eq]
    exact honce
  sent id hid := hbalanced.sent id (hsends.mem_iff.mpr hid)
  queued task htask := hbalanced.queued task (htasks.mem_iff.mpr htask)

/-- Taking up a callback of the transport. -/
theorem Balanced.take_send
    {o : Operations σ}
    {sends : List Nat}
    {tasks : List Task}
    {id : Nat}
    (hbalanced : Balanced o sends tasks none)
    (hid : id ∈ sends) :
    Balanced o (sends.erase id) tasks (some id) where
  crashed := hbalanced.crashed
  once id' := by
    have honce := hbalanced.once id'
    have hpos : 0 < sends.count id := List.count_pos_iff.mpr hid
    unfold places at honce ⊢
    rw [List.count_erase]
    by_cases hsame : id = id'
    · subst hsame
      simp at honce ⊢
      omega
    · have hne : ¬ id' = id := fun h => hsame h.symm
      simpa [hsame, hne] using honce
  sent id' hid' := hbalanced.sent id' (List.mem_of_mem_erase hid')
  queued := hbalanced.queued

/-- Taking up a task of the scheduler. -/
theorem Balanced.take_task
    {o : Operations σ}
    {sends : List Nat}
    {tasks : List Task}
    {task : Task}
    (hbalanced : Balanced o sends tasks none)
    (htask : task ∈ tasks) :
    Balanced o sends (tasks.erase task) (some task.id) where
  crashed := hbalanced.crashed
  once id' := by
    have honce := hbalanced.once id'
    have hpos : 0 < tasks.count task := List.count_pos_iff.mpr htask
    unfold places at honce ⊢
    rw [List.count_erase, List.count_erase]
    cases task with
    | retry id =>
        by_cases hsame : id = id'
        · subst hsame
          simp [Task.id] at honce ⊢
          omega
        · simpa [Task.id, hsame] using honce
    | finish id =>
        by_cases hsame : id = id'
        · subst hsame
          simp [Task.id] at honce ⊢
          omega
        · simpa [Task.id, hsame] using honce
  sent := hbalanced.sent
  queued task' htask' := hbalanced.queued task' (List.mem_of_mem_erase htask')

/-!
# One chain of handlers
-/

theorem advance_eq
    {o : Operations σ}
    {id : Nat}
    {s : AsyncExecuteState σ}
    {handler : Handler σ}
    {step : Step σ}
    (hstate : o.states[id]? = some (some s))
    (hstep : handler s o.runtime = some step) :
    o.advance id handler =
      ({ o with
          runtime := step.runtime
          states := o.states.set id (some step.state) },
        match step.exit with
        | .sendAsync _ => .send id
        | .onFinished => onOperationFinished id step.state) := by
  unfold advance
  simp only [hstate, Option.join_some, hstep]

theorem states_set_other
    {states : List (Option (AsyncExecuteState σ))}
    {id id' : Nat}
    (t : AsyncExecuteState σ)
    (hother : id ≠ id') :
    (states.set id (some t))[id']? = states[id']? :=
  List.getElem?_set_ne hother

theorem Balanced.set_state
    {o : Operations σ}
    {sends : List Nat}
    {tasks : List Task}
    {id : Nat}
    (runtime : Runtime σ)
    (t : AsyncExecuteState σ)
    (hbalanced : Balanced o sends tasks (some id)) :
    Balanced
      { o with runtime := runtime, states := o.states.set id (some t) }
      sends tasks (some id) where
  crashed := hbalanced.crashed
  once id' := by
    have honce := hbalanced.once id'
    simpa [places, callbacks] using honce
  sent id' hid' := by
    have hother : id ≠ id' := by
      intro hsame
      have hpos : 0 < o.places sends tasks id' := places_pos_of_sent hid'
      rw [← hsame, hbalanced.places_held.1] at hpos
      cases hpos
    rw [states_set_other t hother]
    exact hbalanced.sent id' hid'
  queued task htask := by
    have hother : id ≠ task.id := by
      intro hsame
      have hpos : 0 < o.places sends tasks task.id :=
        places_pos_of_queued htask
      rw [← hsame, hbalanced.places_held.1] at hpos
      cases hpos
    rw [states_set_other t hother]
    exact hbalanced.queued task htask

theorem Balanced.give_send
    {o : Operations σ}
    {sends : List Nat}
    {tasks : List Task}
    {id : Nat}
    {t : AsyncExecuteState σ}
    (hbalanced : Balanced o sends tasks (some id))
    (hstate : o.states[id]? = some (some t))
    (haction : t.action = .Stop) :
    Balanced o (id :: sends) tasks none where
  crashed := hbalanced.crashed
  once id' := by
    have honce := hbalanced.once id'
    unfold places at honce ⊢
    rw [List.count_cons]
    by_cases hsame : id = id'
    · subst hsame
      simp at honce ⊢
      omega
    · simpa [hsame] using honce
  sent id' hid' := by
    rcases List.mem_cons.mp hid' with hnew | hold
    · rw [hnew]
      exact ⟨t, hstate, haction⟩
    · exact hbalanced.sent id' hold
  queued := hbalanced.queued

theorem Balanced.give_task
    {o : Operations σ}
    {sends : List Nat}
    {tasks : List Task}
    {t : AsyncExecuteState σ}
    (task : Task)
    (hbalanced : Balanced o sends tasks (some task.id))
    (hstate : o.states[task.id]? = some (some t))
    (hrequest : t.request.isSome = true) :
    Balanced o sends (task :: tasks) none where
  crashed := hbalanced.crashed
  once id' := by
    have honce := hbalanced.once id'
    unfold places at honce ⊢
    rw [List.count_cons, List.count_cons]
    cases task with
    | retry id =>
        by_cases hsame : id = id'
        · subst hsame
          simp [Task.id] at honce ⊢
          omega
        · simpa [Task.id, hsame] using honce
    | finish id =>
        by_cases hsame : id = id'
        · subst hsame
          simp [Task.id] at honce ⊢
          omega
        · simpa [Task.id, hsame] using honce
  sent := hbalanced.sent
  queued task' htask' := by
    rcases List.mem_cons.mp htask' with hnew | hold
    · rw [hnew]
      exact ⟨t, hstate, hrequest⟩
    · exact hbalanced.queued task' hold

/-- A chain that leaves the stack once puts its operation back in one place. -/
theorem Balanced.advance
    {o : Operations σ}
    {sends : List Nat}
    {tasks : List Task}
    {id : Nat}
    {s : AsyncExecuteState σ}
    {handler : Handler σ}
    {step : Step σ}
    (hbalanced : Balanced o sends tasks (some id))
    (hstate : o.states[id]? = some (some s))
    (hstep : handler s o.runtime = some step)
    (hexecuted : Executed s step) :
    let after := o.advance id handler
    Balanced after.1 (after.2.sends sends) (after.2.tasks tasks) none := by
  intro after
  have hafter := advance_eq hstate hstep
  have hlength := hbalanced.places_held.2
  have hset := hbalanced.set_state step.runtime step.state
  have hnew : (o.states.set id (some step.state))[id]? =
      some (some step.state) := List.getElem?_set_self hlength
  rw [show after = _ from hafter]
  cases hexecuted with
  | sent request haction _ _ => exact hset.give_send hnew haction
  | finished hover =>
      rename_i t w
      rcases hover.decision with ⟨haction, _⟩ | ⟨haction, _, _⟩
      · simp only [onOperationFinished, haction]
        exact hset.give_task (.finish id) hnew hover.request
      · simp only [onOperationFinished, haction]
        exact hset.give_task (.retry id) hnew hover.request

theorem onSent_balanced
    (c : AsyncClientImpl σ)
    {o : Operations σ}
    {sends : List Nat}
    {tasks : List Task}
    {id : Nat}
    (result : ResponseResult)
    (request : RequestMessage σ)
    (hbalanced : Balanced o sends tasks none)
    (hid : id ∈ sends) :
    let after := onSent c o id result request
    Balanced after.1 (after.2.sends (sends.erase id)) (after.2.tasks tasks)
      none := by
  rcases hbalanced.sent id hid with ⟨s, hstate, haction⟩
  rcases c.stack.onSent_over result request o.runtime haction with
    ⟨t, w, hstep, hover⟩
  exact (hbalanced.take_send hid).advance hstate hstep (.finished hover)

theorem runTask_finish
    (c : AsyncClientImpl σ)
    {o : Operations σ}
    {id : Nat}
    {s : AsyncExecuteState σ}
    (hstate : o.states[id]? = some (some s))
    (hrequest : s.request.isSome = true) :
    exists result, runTask c o (.finish id) =
      ({ o with results := o.results ++ [(id, result)] }, .nothing) := by
  rcases Option.isSome_iff_exists.mp hrequest with ⟨request, hsome⟩
  refine ⟨buildResult s.opName request s.context.errorContext s.response, ?_⟩
  simp only [runTask, hstate, Option.join_some, Option.bind_some,
    AsyncExecuteState.result, hsome, Option.map_some]

theorem runTask_balanced
    (c : AsyncClientImpl σ)
    {o : Operations σ}
    {sends : List Nat}
    {tasks : List Task}
    {task : Task}
    (hbalanced : Balanced o sends tasks none)
    (htask : task ∈ tasks) :
    let after := runTask c o task
    Balanced after.1 (after.2.sends sends) (after.2.tasks (tasks.erase task))
      none := by
  intro after
  rcases hbalanced.queued task htask with ⟨s, hstate, hrequest⟩
  have hheld := hbalanced.take_task htask
  cases task with
  | retry id =>
      rcases c.stack.executeAsync_executed o.runtime hrequest with
        ⟨step, hstep, hexecuted⟩
      exact hheld.advance hstate hstep hexecuted
  | finish id =>
      rcases runTask_finish c hstate hrequest with ⟨result, hresult⟩
      rw [show after = _ from hresult]
      refine ⟨hheld.crashed, ?_, hheld.sent, hheld.queued⟩
      intro id'
      have honce := hheld.once id'
      simp only [places, callbacks, Outgoing.sends, Outgoing.tasks, Task.id,
        List.countP_append, List.countP_singleton, Option.some.injEq,
        beq_iff_eq] at honce ⊢
      simp only [reduceCtorEq, if_false]
      omega

theorem states_append_old
    {states : List (Option (AsyncExecuteState σ))}
    {id : Nat}
    {old : Option (AsyncExecuteState σ)}
    (new : Option (AsyncExecuteState σ))
    (hold : states[id]? = some old) :
    (states ++ [new])[id]? = some old := by
  have hlength := (List.getElem?_eq_some_iff.mp hold).1
  rw [List.getElem?_append_left hlength]
  exact hold

theorem balanced_append
    {o : Operations σ}
    {sends : List Nat}
    {tasks : List Task}
    (state : Option (AsyncExecuteState σ))
    (hbalanced : Balanced o sends tasks none) :
    Balanced { o with states := o.states ++ [state] } sends tasks
      (some o.states.length) where
  crashed := hbalanced.crashed
  once id := by
    have honce := hbalanced.once id
    simp only [places, callbacks, Option.some.injEq, reduceCtorEq, if_false,
      List.length_append, List.length_singleton] at honce ⊢
    rw [show o.results.countP _ + sends.count id + _ + _ = _ from honce]
    split <;> split <;> split <;> omega
  sent id hid := by
    rcases hbalanced.sent id hid with ⟨s, hstate, haction⟩
    exact ⟨s, states_append_old state hstate, haction⟩
  queued task htask := by
    rcases hbalanced.queued task htask with ⟨s, hstate, hrequest⟩
    exact ⟨s, states_append_old state hstate, hrequest⟩

theorem start_request
    {c : AsyncClientImpl σ}
    {clockOffset : Int}
    {input : OperationInput σ}
    {opts : Option (OperationOptions σ)}
    {innerOpts : Option (OperationInnerOptions σ)}
    {s : AsyncExecuteState σ}
    (hstart : c.start clockOffset input opts innerOpts = .ok s) :
    s.request.isSome = true := by
  unfold AsyncClientImpl.start at hstart
  split at hstart
  · cases hstart
  · cases hstart
    rfl

theorem ExecuteAsync_balanced
    (c : AsyncClientImpl σ)
    {o : Operations σ}
    {sends : List Nat}
    {tasks : List Task}
    (input : OperationInput σ)
    (opts : Option (OperationOptions σ))
    (innerOpts : Option (OperationInnerOptions σ))
    (hbalanced : Balanced o sends tasks none) :
    let after := ExecuteAsync c o input opts innerOpts
    Balanced after.1 (after.2.sends sends) (after.2.tasks tasks) none := by
  intro after
  cases hstart : c.start o.runtime.clockOffset input opts innerOpts with
  | error e =>
      have hafter : after =
          ({ o with
              states := o.states ++ [none]
              results := o.results ++ [(o.states.length, .error e)] },
            .nothing) := by
        simp only [after, ExecuteAsync, hstart]
      have hheld := balanced_append none hbalanced
      rw [hafter]
      refine ⟨hheld.crashed, ?_, hheld.sent, hheld.queued⟩
      intro id
      have honce := hheld.once id
      simp only [places, callbacks, Outgoing.sends, Outgoing.tasks,
        List.countP_append, List.countP_singleton, Option.some.injEq,
        beq_iff_eq, reduceCtorEq, if_false] at honce ⊢
      omega
  | ok s =>
      have hnew : (o.states ++ [some s])[o.states.length]? = some (some s) :=
        List.getElem?_concat_length
      rcases c.stack.executeAsync_executed o.runtime (start_request hstart) with
        ⟨step, hstep, hexecuted⟩
      have hheld := balanced_append (some s) hbalanced
      have hafter : after =
          Operations.advance { o with states := o.states ++ [some s] }
            o.states.length c.stack.executeAsync := by
        simp only [after, ExecuteAsync, hstart]
      rw [hafter]
      exact hheld.advance hnew hstep hexecuted

/-!
# How much is left to do
-/

def attemptsLeft (o : Operations σ) (id : Nat) : Nat :=
  match o.states[id]?.join with
  | none => 0
  | some s => (s.context.retryMaxAttempts - 1 - s.retries).toNat

/-- A bound on the events that an operation still takes part in. -/
def remaining (o : Operations σ) (sends : List Nat) (tasks : List Task)
    (id : Nat) : Nat :=
  sends.count id * (2 * o.attemptsLeft id + 2) +
    tasks.count (.retry id) * (2 * o.attemptsLeft id + 3) +
    tasks.count (.finish id)

theorem attemptsLeft_eq
    {o : Operations σ}
    {id : Nat}
    {s : AsyncExecuteState σ}
    (hstate : o.states[id]? = some (some s)) :
    o.attemptsLeft id = (s.context.retryMaxAttempts - 1 - s.retries).toNat := by
  unfold attemptsLeft
  simp only [hstate, Option.join_some]

/-- What a chain leaves behind is for its own operation. -/
theorem advance_outgoing
    (o : Operations σ)
    (id : Nat)
    (handler : Handler σ) :
    (o.advance id handler).2 = .nothing ∨ (o.advance id handler).2 = .send id ∨
      exists delay task, (o.advance id handler).2 = .schedule delay task ∧
        task.id = id := by
  unfold advance
  split
  · exact Or.inl rfl
  · split
    · exact Or.inl rfl
    · split
      · exact Or.inr (Or.inl rfl)
      · right
        right
        simp only [onOperationFinished]
        split
        · exact ⟨_, _, rfl, rfl⟩
        · exact ⟨_, _, rfl, rfl⟩

theorem advance_states_other
    (o : Operations σ)
    {id id' : Nat}
    (handler : Handler σ)
    (hother : id ≠ id') :
    (o.advance id handler).1.states[id']? = o.states[id']? := by
  unfold advance
  split
  · rfl
  · split
    · rfl
    · exact states_set_other _ hother

theorem advance_length (o : Operations σ) (id : Nat) (handler : Handler σ) :
    (o.advance id handler).1.states.length = o.states.length := by
  unfold advance
  split
  · rfl
  · split
    · rfl
    · exact List.length_set

theorem runTask_length
    (c : AsyncClientImpl σ)
    (o : Operations σ)
    (task : Task) :
    (runTask c o task).1.states.length = o.states.length := by
  cases task with
  | retry id => exact advance_length o id c.stack.executeAsync
  | finish id =>
      simp only [runTask]
      split <;> rfl

theorem remaining_advance_other
    (o : Operations σ)
    {id id' : Nat}
    (sends : List Nat)
    (tasks : List Task)
    (handler : Handler σ)
    (hother : id ≠ id') :
    let after := o.advance id handler
    remaining after.1 (after.2.sends sends) (after.2.tasks tasks) id' =
      remaining o sends tasks id' := by
  intro after
  have hleft : after.1.attemptsLeft id' = o.attemptsLeft id' := by
    unfold attemptsLeft
    rw [advance_states_other o handler hother]
  unfold remaining
  rw [hleft]
  rcases advance_outgoing o id handler with h | h | ⟨delay, task, h, htask⟩
  · rw [show after.2 = _ from h]
    rfl
  · rw [show after.2 = _ from h]
    simp only [Outgoing.sends, Outgoing.tasks, List.count_cons]
    simp [hother]
  · rw [show after.2 = _ from h]
    have hne : task.id ≠ id' := htask ▸ hother
    have hretry : task ≠ .retry id' := fun heq => hne (by rw [heq]; rfl)
    have hfinish : task ≠ .finish id' := fun heq => hne (by rw [heq]; rfl)
    simp only [Outgoing.sends, Outgoing.tasks, List.count_cons]
    simp [hretry, hfinish]

theorem remaining_advance_self
    {o : Operations σ}
    {sends : List Nat}
    {tasks : List Task}
    {id : Nat}
    {s : AsyncExecuteState σ}
    {handler : Handler σ}
    {step : Step σ}
    (hbalanced : Balanced o sends tasks (some id))
    (hstate : o.states[id]? = some (some s))
    (hstep : handler s o.runtime = some step)
    (hexecuted : Executed s step) :
    let after := o.advance id handler
    remaining after.1 (after.2.sends sends) (after.2.tasks tasks) id ≤
      2 * o.attemptsLeft id +
        (match step.exit with
          | .sendAsync _ => 2
          | .onFinished => 1) := by
  intro after
  rcases hbalanced.places_held with ⟨hnone, hlength⟩
  unfold places at hnone
  have hsends : sends.count id = 0 := by omega
  have hretries : tasks.count (.retry id) = 0 := by omega
  have hfinishes : tasks.count (.finish id) = 0 := by omega
  have hnew : (o.states.set id (some step.state))[id]? =
      some (some step.state) := List.getElem?_set_self hlength
  rw [show after = _ from advance_eq hstate hstep, attemptsLeft_eq hstate]
  unfold remaining
  rw [attemptsLeft_eq hnew]
  cases hexecuted with
  | sent request haction hr hm =>
      simp only [Outgoing.sends, Outgoing.tasks, List.count_cons_self, hsends,
        hretries, hfinishes, hr, hm]
      omega
  | finished hover =>
      rename_i t w
      rcases hover.decision with ⟨haction, _⟩ | ⟨haction, hr, hmore⟩
      · simp only [onOperationFinished, haction]
        simp [Outgoing.sends, Outgoing.tasks, hsends, hretries, hfinishes]
      · simp only [onOperationFinished, haction, if_true, Outgoing.sends,
          Outgoing.tasks, List.count_cons_self, hsends, hretries,
          hover.retryMaxAttempts]
        rw [List.count_cons_of_ne (by simp), hfinishes]
        omega

end Operations
end Async
end Internal
end OssSdk
