import OssSdk.Internal.Async.AsyncClientImpl

/-!
# A client that is not being destroyed

The transport calls back once for every request it was sent, in any order and
with any result, and the scheduler runs every task it was given once, in any
order.  Between any two of these the environment may change as it likes: another
thread may cancel a token, or the credentials may be replaced.
-/

namespace OssSdk
namespace Internal
namespace Async

open Foundation
open Operations

variable {σ : Type}

structure LiveClient (σ : Type) where
  operations : Operations σ
  sends : List Nat
  tasks : List Task

inductive Event (σ : Type) where
  | call (input : OperationInput σ) (opts : Option (OperationOptions σ))
      (innerOpts : Option (OperationInnerOptions σ))
  | answer (id : Nat) (result : ResponseResult) (request : RequestMessage σ)
  | run (task : Task)
  | environment (env : σ)

/-- The events that one operation was waiting for. -/
def Event.concerns (id : Nat) : Event σ -> Bool
  | .answer id' _ _ => id' == id
  | .run task => task.id == id
  | _ => false

namespace LiveClient

def settle (sends : List Nat) (tasks : List Task)
    (after : Operations σ × Outgoing) : LiveClient σ where
  operations := after.1
  sends := after.2.sends sends
  tasks := after.2.tasks tasks

def step (c : AsyncClientImpl σ) (s : LiveClient σ) :
    Event σ -> Option (LiveClient σ)
  | .call input opts innerOpts =>
      some (settle s.sends s.tasks
        (ExecuteAsync c s.operations input opts innerOpts))
  | .answer id result request =>
      if id ∈ s.sends then
        some (settle (s.sends.erase id) s.tasks
          (onSent c s.operations id result request))
      else none
  | .run task =>
      if task ∈ s.tasks then
        some (settle s.sends (s.tasks.erase task) (runTask c s.operations task))
      else none
  | .environment env =>
      some { s with
        operations :=
          { s.operations with
            runtime := { s.operations.runtime with env := env } } }

def system (c : AsyncClientImpl σ) :
    TransitionSystem (LiveClient σ) (Event σ) where
  initial s := exists runtime, s = ⟨Operations.init runtime, [], []⟩
  step := step c

def InBalance (s : LiveClient σ) : Prop :=
  Balanced s.operations s.sends s.tasks none

def remaining (s : LiveClient σ) (id : Nat) : Nat :=
  s.operations.remaining s.sends s.tasks id

theorem step_inBalance
    (c : AsyncClientImpl σ)
    {s t : LiveClient σ}
    {e : Event σ}
    (hbalance : InBalance s)
    (hstep : step c s e = some t) :
    InBalance t := by
  cases e with
  | call input opts innerOpts =>
      cases hstep
      exact ExecuteAsync_balanced c input opts innerOpts hbalance
  | answer id result request =>
      simp only [step] at hstep
      split at hstep
      · rename_i hid
        cases hstep
        exact onSent_balanced c result request hbalance hid
      · cases hstep
  | run task =>
      simp only [step] at hstep
      split at hstep
      · rename_i htask
        cases hstep
        exact runTask_balanced c hbalance htask
      · cases hstep
  | environment env =>
      cases hstep
      exact ⟨hbalance.crashed, hbalance.once, hbalance.sent, hbalance.queued⟩

theorem reachable_inBalance
    (c : AsyncClientImpl σ)
    {s : LiveClient σ}
    (hs : (system c).Reachable s) :
    InBalance s := by
  refine TransitionSystem.invariant_of_step ?_ ?_ s hs
  · intro s0 hs0
    rcases hs0 with ⟨runtime, hs0⟩
    rw [hs0]
    exact balanced_init runtime
  · intro s l t hbalance hstep
    exact step_inBalance c hbalance hstep

/-!
# The events of one operation run out
-/

theorem call_remaining
    (c : AsyncClientImpl σ)
    {s : LiveClient σ}
    {id : Nat}
    (input : OperationInput σ)
    (opts : Option (OperationOptions σ))
    (innerOpts : Option (OperationInnerOptions σ))
    (hcalled : id < s.operations.states.length) :
    (settle s.sends s.tasks
      (ExecuteAsync c s.operations input opts innerOpts)).remaining id =
        s.remaining id := by
  have hother : s.operations.states.length ≠ id := Nat.ne_of_gt hcalled
  have hkept : forall state,
      (s.operations.states ++ [state])[id]? = s.operations.states[id]? :=
    fun state => List.getElem?_append_left hcalled
  have hleft : forall state,
      ({ s.operations with states := s.operations.states ++ [state] } :
        Operations σ).attemptsLeft id = s.operations.attemptsLeft id := by
    intro state
    simp only [attemptsLeft, hkept]
  unfold ExecuteAsync
  cases c.start s.operations.runtime.clockOffset input opts innerOpts with
  | error e =>
      simp only [settle, LiveClient.remaining, Operations.remaining,
        Outgoing.sends, Outgoing.tasks]
      simp only [attemptsLeft, hkept]
  | ok state =>
      have hadvance := remaining_advance_other
        { s.operations with states := s.operations.states ++ [some state] }
        s.sends s.tasks c.stack.executeAsync hother
      simp only [settle, LiveClient.remaining]
      rw [hadvance]
      simp only [Operations.remaining, hleft]

theorem answer_remaining
    (c : AsyncClientImpl σ)
    {s : LiveClient σ}
    {id id' : Nat}
    (result : ResponseResult)
    (request : RequestMessage σ)
    (hbalance : InBalance s)
    (hid : id ∈ s.sends) :
    (settle (s.sends.erase id) s.tasks
        (onSent c s.operations id result request)).remaining id' +
      (if id = id' then 1 else 0) ≤ s.remaining id' := by
  by_cases hsame : id = id'
  · rw [← hsame, if_pos rfl]
    rcases hbalance.sent id hid with ⟨state, hstate, haction⟩
    rcases c.stack.onSent_over result request s.operations.runtime haction with
      ⟨t, w, hstep, hover⟩
    have hself := remaining_advance_self (hbalance.take_send hid) hstate hstep
      (.finished hover)
    have hpos : 0 < s.sends.count id := List.count_pos_iff.mpr hid
    have hbefore : 2 * s.operations.attemptsLeft id + 2 ≤ s.remaining id := by
      unfold LiveClient.remaining Operations.remaining
      have hone : 2 * s.operations.attemptsLeft id + 2 ≤
          s.sends.count id * (2 * s.operations.attemptsLeft id + 2) :=
        Nat.le_mul_of_pos_left _ hpos
      omega
    exact le_trans (Nat.succ_le_succ hself) hbefore
  · rw [if_neg hsame]
    have hframe := remaining_advance_other s.operations (s.sends.erase id)
      s.tasks (c.stack.onSent result request) hsame
    have hkept : (s.sends.erase id).count id' = s.sends.count id' :=
      List.count_erase_of_ne (Ne.symm hsame)
    have hsends : s.operations.remaining (s.sends.erase id) s.tasks id' =
        s.remaining id' := by
      unfold LiveClient.remaining Operations.remaining
      rw [hkept]
    exact le_of_eq (hframe.trans hsends)

/-- What is left of an attempt that has been sent off, or of one that has ended. -/
theorem exit_left_le (exit : Exit σ) :
    (match exit with
      | .sendAsync _ => 2
      | .onFinished => 1) ≤ 2 := by
  split
  · exact Nat.le_refl 2
  · exact Nat.le_succ 1

theorem run_remaining
    (c : AsyncClientImpl σ)
    {s : LiveClient σ}
    {task : Task}
    {id : Nat}
    (hbalance : InBalance s)
    (htask : task ∈ s.tasks) :
    (settle s.sends (s.tasks.erase task)
        (runTask c s.operations task)).remaining id +
      (if task.id == id then 1 else 0) ≤ s.remaining id := by
  rcases hbalance.queued task htask with ⟨state, hstate, hrequest⟩
  have hpos : 0 < s.tasks.count task := List.count_pos_iff.mpr htask
  cases task with
  | retry id' =>
      by_cases hsame : id' = id
      · subst hsame
        rcases c.stack.executeAsync_executed s.operations.runtime hrequest with
          ⟨step, hstep, hexecuted⟩
        have hself := remaining_advance_self (hbalance.take_task htask) hstate
          hstep hexecuted
        have hbefore : 2 * s.operations.attemptsLeft id' + 3 ≤
            s.remaining id' := by
          unfold LiveClient.remaining Operations.remaining
          have hone : 2 * s.operations.attemptsLeft id' + 3 ≤
              s.tasks.count (.retry id') *
                (2 * s.operations.attemptsLeft id' + 3) :=
            Nat.le_mul_of_pos_left _ hpos
          omega
        have hafter := le_trans hself (Nat.add_le_add_left (exit_left_le step.exit) _)
        rw [if_pos (show ((Task.retry id').id == id') = true from
          beq_self_eq_true id')]
        exact le_trans (Nat.succ_le_succ hafter) hbefore
      · have hframe := remaining_advance_other s.operations s.sends
          (s.tasks.erase (.retry id')) c.stack.executeAsync hsame
        have hkept : (s.tasks.erase (.retry id')).count (.retry id) =
            s.tasks.count (.retry id) :=
          List.count_erase_of_ne (by simpa using Ne.symm hsame)
        have hkept' : (s.tasks.erase (.retry id')).count (.finish id) =
            s.tasks.count (.finish id) :=
          List.count_erase_of_ne (by simp)
        have hsends : s.operations.remaining s.sends
            (s.tasks.erase (.retry id')) id = s.remaining id := by
          unfold LiveClient.remaining Operations.remaining
          rw [hkept, hkept']
        have hnot : ¬ ((Task.retry id').id == id) = true := by
          simpa [Task.id] using hsame
        rw [if_neg hnot]
        exact le_of_eq (hframe.trans hsends)
  | finish id' =>
      rcases runTask_finish c hstate hrequest with ⟨result, hresult⟩
      have hkept : (s.tasks.erase (.finish id')).count (.retry id) =
          s.tasks.count (.retry id) :=
        List.count_erase_of_ne (by simp)
      simp only [Task.id] at hresult
      rw [hresult]
      simp only [settle, LiveClient.remaining, Operations.remaining,
        Operations.attemptsLeft, Outgoing.sends, Outgoing.tasks, hkept]
      by_cases hsame : id' = id
      · subst hsame
        rw [if_pos (show ((Task.finish id').id == id') = true from
          beq_self_eq_true id'), List.count_erase_self]
        omega
      · have hkept' : (s.tasks.erase (.finish id')).count (.finish id) =
            s.tasks.count (.finish id) :=
          List.count_erase_of_ne (by simpa using Ne.symm hsame)
        have hnot : ¬ ((Task.finish id').id == id) = true := by
          simpa [Task.id] using hsame
        rw [if_neg hnot, hkept', Nat.add_zero]

theorem step_states_length
    (c : AsyncClientImpl σ)
    {s t : LiveClient σ}
    {e : Event σ}
    (hstep : step c s e = some t) :
    s.operations.states.length ≤ t.operations.states.length := by
  cases e with
  | call input opts innerOpts =>
      cases hstep
      simp only [settle, ExecuteAsync]
      split
      · simp
      · rw [advance_length]
        simp
  | answer id result request =>
      simp only [step] at hstep
      split at hstep
      · cases hstep
        exact le_of_eq (advance_length _ _ _).symm
      · cases hstep
  | run task =>
      simp only [step] at hstep
      split at hstep
      · cases hstep
        exact le_of_eq (runTask_length c s.operations task).symm
      · cases hstep
  | environment env =>
      cases hstep
      exact le_refl _

theorem step_remaining
    (c : AsyncClientImpl σ)
    {s t : LiveClient σ}
    {e : Event σ}
    {id : Nat}
    (hbalance : InBalance s)
    (hcalled : id < s.operations.states.length)
    (hstep : step c s e = some t) :
    t.remaining id + (if e.concerns id then 1 else 0) ≤ s.remaining id := by
  cases e with
  | call input opts innerOpts =>
      cases hstep
      exact le_of_eq (call_remaining c input opts innerOpts hcalled)
  | answer id' result request =>
      simp only [step] at hstep
      split at hstep
      · rename_i hid
        cases hstep
        simpa [Event.concerns] using
          answer_remaining c result request hbalance hid
      · cases hstep
  | run task =>
      simp only [step] at hstep
      split at hstep
      · rename_i htask
        cases hstep
        simpa [Event.concerns] using run_remaining c hbalance htask
      · cases hstep
  | environment env =>
      cases hstep
      exact le_refl _

/-!
# Exactly once
-/

/--
One operation on the way to its callback.  It is called at most once and has at
most one request at the transport; as long as it has not been called an event
that leads on is outstanding and can happen; and only so many can.
-/
structure CompletesOnce (c : AsyncClientImpl σ) (s : LiveClient σ) (id : Nat) :
    Prop where
  noNullPointer : s.operations.crashed = false
  atMostOnce : s.operations.callbacks id ≤ 1
  oneSend : s.sends.count id ≤ 1
  pending : s.operations.callbacks id = 0 ->
    (id ∈ s.sends ∧ forall result request, exists t,
      step c s (.answer id result request) = some t) ∨
    (exists task t, task.id = id ∧ step c s (.run task) = some t)
  complete : id ∉ s.sends -> (forall task, task ∈ s.tasks -> task.id ≠ id) ->
    s.operations.callbacks id = 1
  bounded : forall events t, (system c).run s events = some t ->
    events.countP (Event.concerns id) ≤ 2 * s.operations.attemptsLeft id + 3

theorem places_eq_one
    {s : LiveClient σ}
    {id : Nat}
    (hbalance : InBalance s)
    (hcalled : id < s.operations.states.length) :
    s.operations.places s.sends s.tasks id = 1 := by
  have honce := hbalance.once id
  simpa [hcalled] using honce

theorem run_bounded
    (c : AsyncClientImpl σ)
    {s t : LiveClient σ}
    {id : Nat}
    {events : List (Event σ)}
    (hbalance : InBalance s)
    (hcalled : id < s.operations.states.length)
    (hrun : (system c).run s events = some t) :
    events.countP (Event.concerns id) ≤ s.remaining id := by
  have hbound := TransitionSystem.run_countP_le
    (T := system c)
    (P := fun s => InBalance s ∧ id < s.operations.states.length)
    (p := Event.concerns id)
    (fun s e t hs hstep => ⟨step_inBalance c hs.1 hstep,
      Nat.lt_of_lt_of_le hs.2 (step_states_length c hstep)⟩)
    (fun s e t hs hstep => step_remaining c hs.1 hs.2 hstep)
    ⟨hbalance, hcalled⟩ hrun
  omega

theorem remaining_le
    {s : LiveClient σ}
    {id : Nat}
    (hbalance : InBalance s)
    (hcalled : id < s.operations.states.length) :
    s.remaining id ≤ 2 * s.operations.attemptsLeft id + 3 := by
  have hone := places_eq_one hbalance hcalled
  unfold Operations.places at hone
  unfold LiveClient.remaining Operations.remaining
  have hsends : s.sends.count id ≤ 1 := by omega
  have hretries : s.tasks.count (.retry id) ≤ 1 := by omega
  rcases Nat.le_one_iff_eq_zero_or_eq_one.mp hsends with h | h
  · rcases Nat.le_one_iff_eq_zero_or_eq_one.mp hretries with h' | h'
    · rw [h, h']
      omega
    · rw [h, h']
      omega
  · have h' : s.tasks.count (.retry id) = 0 := by omega
    rw [h, h']
    omega

theorem pending_of_not_called
    (c : AsyncClientImpl σ)
    {s : LiveClient σ}
    {id : Nat}
    (hone : s.operations.places s.sends s.tasks id = 1)
    (hnone : s.operations.callbacks id = 0) :
    (id ∈ s.sends ∧ forall result request, exists t,
      step c s (.answer id result request) = some t) ∨
    (exists task t, task.id = id ∧ step c s (.run task) = some t) := by
  unfold Operations.places at hone
  by_cases hsend : id ∈ s.sends
  · left
    refine ⟨hsend, ?_⟩
    intro result request
    exact ⟨_, if_pos hsend⟩
  · right
    have hcount : s.sends.count id = 0 := List.count_eq_zero.mpr hsend
    by_cases hretry : Task.retry id ∈ s.tasks
    · exact ⟨.retry id, _, rfl, if_pos hretry⟩
    · have hcount' : s.tasks.count (.retry id) = 0 :=
        List.count_eq_zero.mpr hretry
      have hfinish : Task.finish id ∈ s.tasks :=
        List.count_pos_iff.mp (by omega)
      exact ⟨.finish id, _, rfl, if_pos hfinish⟩

theorem completesOnce_of_reachable
    (c : AsyncClientImpl σ)
    {s : LiveClient σ}
    {id : Nat}
    (hs : (system c).Reachable s)
    (hcalled : id < s.operations.states.length) :
    CompletesOnce c s id := by
  have hbalance := reachable_inBalance c hs
  have hone := places_eq_one hbalance hcalled
  have hplaces := hone
  unfold Operations.places at hplaces
  refine ⟨hbalance.crashed, by omega, by omega,
    pending_of_not_called c hone, ?_, ?_⟩
  · intro hsend htasks
    have hnosend : s.sends.count id = 0 := List.count_eq_zero.mpr hsend
    have hnoretry : s.tasks.count (.retry id) = 0 :=
      List.count_eq_zero.mpr fun h => htasks _ h rfl
    have hnofinish : s.tasks.count (.finish id) = 0 :=
      List.count_eq_zero.mpr fun h => htasks _ h rfl
    omega
  · intro events t hrun
    exact le_trans (run_bounded c hbalance hcalled hrun)
      (remaining_le hbalance hcalled)

/-- A request has been sent and not been answered. -/
theorem completesOnce_headObject :
    exists s, (system ⟨anonymousBase Unit⟩).run
        ⟨Operations.init ⟨0, ()⟩, [], []⟩
        [.call (headObjectInput Unit) none none] = some s ∧
      CompletesOnce ⟨anonymousBase Unit⟩ s 0 := by
  refine ⟨_, rfl, ?_⟩
  exact completesOnce_of_reachable ⟨anonymousBase Unit⟩
    ⟨_, [.call (headObjectInput Unit) none none], ⟨⟨0, ()⟩, rfl⟩, rfl⟩
    (by decide +kernel)

end LiveClient
end Async
end Internal
end OssSdk
