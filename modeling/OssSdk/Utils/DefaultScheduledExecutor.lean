import OssSdk.Foundation.Transition
import Mathlib.Data.List.MinMax
import Mathlib.Tactic.Tauto

/-!
# The default scheduled executor

One worker thread serves a priority queue of deadlines.  The queue and the stop
flag are guarded by one mutex, so a call from another thread can only take
effect where the worker has released the lock: while it is blocked in one of its
two waits, while a task runs, or after it has returned.

Time is a count of milliseconds of the steady clock.  Notifications need no
state of their own: a wait ends as soon as its predicate holds or its deadline
has passed, and a notification that finds the predicate false changes nothing.
-/

namespace OssSdk
namespace DefaultScheduledExecutor

open Foundation

variable {task : Type}

structure Entry (task : Type) where
  deadline : Int
  task : task
deriving DecidableEq

/-- Where the worker is in `run`. -/
inductive Worker (task : Type) where
  /-- At the head of the outer loop, holding the lock. -/
  | loopHead
  /-- Blocked in `cv.wait`; the predicate is `stop || !queue.empty()`. -/
  | waitEmpty
  /-- Blocked in `cv.wait_until` on a saved deadline; the predicate is `stop`. -/
  | waitUntil (deadline : Int)
  /-- At the condition of the inner loop, holding the lock. -/
  | drain
  /-- Running a task with the lock released. -/
  | running (task : task)
  /-- `run` has returned. -/
  | returned
deriving DecidableEq

def Worker.holdsLock : Worker task -> Bool
  | .loopHead => true
  | .drain => true
  | _ => false

structure Impl (task : Type) where
  queue : List (Entry task)
  stop : Bool
  worker : Worker task
  now : Int
deriving DecidableEq

def Impl.init (now : Int) : Impl task where
  queue := []
  stop := false
  worker := .loopHead
  now := now

/-!
# The calls of other threads
-/

/-- `schedule`: a stopped executor drops the task without a word. -/
def Impl.schedule (s : Impl task) (delay : Int) (t : task) : Impl task :=
  if s.stop then s
  else { s with queue := ⟨s.now + delay, t⟩ :: s.queue }

/-- The first block of the destructor. -/
def Impl.requestStop (s : Impl task) : Impl task :=
  { s with stop := true }

/-!
# The worker
-/

/-- `queue.top().deadline`, the least deadline of the heap. -/
def topDeadline (queue : List (Entry task)) : Option Int :=
  (queue.map Entry.deadline).min?

/-- The steps of `run` that leave the queue alone. -/
def Impl.advance (s : Impl task) : Option (Impl task) :=
  match s.worker with
  | .loopHead =>
      if s.stop then some { s with worker := .returned }
      else
        match topDeadline s.queue with
        | none => some { s with worker := .waitEmpty }
        | some deadline => some { s with worker := .waitUntil deadline }
  | .waitEmpty =>
      if s.stop || !s.queue.isEmpty then some { s with worker := .loopHead }
      else none
  | .waitUntil deadline =>
      if s.stop then some { s with worker := .returned }
      else if deadline ≤ s.now then some { s with worker := .drain }
      else none
  | .drain =>
      match topDeadline s.queue with
      | none => some { s with worker := .loopHead }
      | some deadline =>
          if deadline ≤ s.now then none
          else some { s with worker := .loopHead }
  | .running _ => some { s with worker := .drain }
  | .returned => none

/--
The body of the inner loop up to the call of the task.  Which of several entries
with the least deadline the heap has on top is left open.
-/
def Impl.start [DecidableEq task] (s : Impl task) (e : Entry task) :
    Option (Impl task) :=
  if s.worker = .drain ∧ e ∈ s.queue ∧
      topDeadline s.queue = some e.deadline ∧ e.deadline ≤ s.now then
    some { s with queue := s.queue.erase e, worker := .running e.task }
  else none

/-!
# The executor as a transition system
-/

inductive Label (task : Type) where
  | schedule (delay : Int) (t : task)
  | requestStop
  | advance
  | start (e : Entry task)
  | tick (elapsed : Nat)
deriving DecidableEq

def Impl.step [DecidableEq task] (s : Impl task) :
    Label task -> Option (Impl task)
  | .schedule delay t =>
      if s.worker.holdsLock then none else some (s.schedule delay t)
  | .requestStop =>
      if s.worker.holdsLock then none else some s.requestStop
  | .advance => s.advance
  | .start e => s.start e
  | .tick elapsed => some { s with now := s.now + elapsed }

def system (task : Type) [DecidableEq task] :
    TransitionSystem (Impl task) (Label task) where
  initial s := exists now, s = Impl.init now
  step := Impl.step

/-- The worker returns from here when it finds the stop flag set. -/
def Worker.endsOnStop : Worker task -> Bool
  | .loopHead => true
  | .waitUntil _ => true
  | _ => false

/-- The worker takes nothing from the queue on its own, not even at its end. -/
theorem advance_frame {s t : Impl task} (hstep : s.advance = some t) :
    t.queue = s.queue ∧ t.stop = s.stop ∧ (forall r, t.worker ≠ .running r) ∧
      (t.worker = .returned -> s.stop = true ∧ s.worker.endsOnStop = true) := by
  unfold Impl.advance at hstep
  cases hworker : s.worker with
  | loopHead =>
      simp only [hworker] at hstep
      split at hstep
      · rename_i hstop
        cases hstep
        exact ⟨rfl, rfl, (fun r h => nomatch h), fun _ => ⟨hstop, rfl⟩⟩
      · split at hstep
        · cases hstep
          exact ⟨rfl, rfl, (fun r h => nomatch h), fun h => nomatch h⟩
        · cases hstep
          exact ⟨rfl, rfl, (fun r h => nomatch h), fun h => nomatch h⟩
  | waitEmpty =>
      simp only [hworker] at hstep
      split at hstep
      · cases hstep
        exact ⟨rfl, rfl, (fun r h => nomatch h), fun h => nomatch h⟩
      · cases hstep
  | waitUntil deadline =>
      simp only [hworker] at hstep
      split at hstep
      · rename_i hstop
        cases hstep
        exact ⟨rfl, rfl, (fun r h => nomatch h), fun _ => ⟨hstop, rfl⟩⟩
      · split at hstep
        · cases hstep
          exact ⟨rfl, rfl, (fun r h => nomatch h), fun h => nomatch h⟩
        · cases hstep
  | drain =>
      simp only [hworker] at hstep
      split at hstep
      · cases hstep
        exact ⟨rfl, rfl, (fun r h => nomatch h), fun h => nomatch h⟩
      · split at hstep
        · cases hstep
        · cases hstep
          exact ⟨rfl, rfl, (fun r h => nomatch h), fun h => nomatch h⟩
  | running r =>
      simp only [hworker] at hstep
      cases hstep
      exact ⟨rfl, rfl, (fun r h => nomatch h), fun h => nomatch h⟩
  | returned =>
      simp only [hworker] at hstep
      cases hstep

/-!
# The deadline the worker waits for

The wait saves the deadline of the entry that was on top when it began, and only
the stop flag can end it early.
-/

theorem topDeadline_le {queue : List (Entry task)} {deadline : Int}
    (htop : topDeadline queue = some deadline) :
    forall e, e ∈ queue -> deadline ≤ e.deadline := by
  intro e he
  have hmin := (List.min?_eq_some_iff.mp htop).right
  exact hmin e.deadline (List.mem_map_of_mem he)

theorem start_some [DecidableEq task] {s t : Impl task} {e : Entry task}
    (hstart : s.start e = some t) :
    s.worker = .drain ∧ e ∈ s.queue ∧ topDeadline s.queue = some e.deadline ∧
      e.deadline ≤ s.now ∧
      t = { s with queue := s.queue.erase e, worker := .running e.task } := by
  unfold Impl.start at hstart
  split at hstart
  · rename_i hcond
    injection hstart with ht
    exact ⟨hcond.1, hcond.2.1, hcond.2.2.1, hcond.2.2.2, ht.symm⟩
  · cases hstart

def WaitsForEarliest (s : Impl task) : Prop :=
  forall deadline, s.worker = .waitUntil deadline ->
    forall e, e ∈ s.queue -> deadline ≤ e.deadline

/-- A state in which no task is held behind a later one. -/
structure Prompt [DecidableEq task] (s : Impl task) : Prop where
  waitsForEarliest : WaitsForEarliest s
  startsEarliest : forall e t, s.start e = some t ->
    e.deadline ≤ s.now ∧ forall e', e' ∈ s.queue -> e.deadline ≤ e'.deadline
  dueEndsWait : forall deadline, s.worker = .waitUntil deadline ->
    (exists e, e ∈ s.queue ∧ e.deadline ≤ s.now) ->
    exists t, s.advance = some t

theorem prompt_of_waitsForEarliest [DecidableEq task] {s : Impl task}
    (hwaits : WaitsForEarliest s) : Prompt s where
  waitsForEarliest := hwaits
  startsEarliest := by
    intro e t hstart
    rcases start_some hstart with ⟨_, _, htop, hdue, _⟩
    exact ⟨hdue, topDeadline_le htop⟩
  dueEndsWait := by
    intro deadline hworker hdue
    rcases hdue with ⟨e, he, hnow⟩
    have hpassed : deadline ≤ s.now :=
      le_trans (hwaits deadline hworker e he) hnow
    cases hstop : s.stop <;> simp [Impl.advance, hworker, hstop, hpassed]

/--
A call of `schedule` that keeps the order: while the worker is in its timed wait,
the new deadline is not before the one it waits for.
-/
def NotBeforeWait (s : Impl task) : Label task -> Bool
  | .schedule delay _ =>
      match s.worker with
      | .waitUntil deadline => s.stop || decide (deadline ≤ s.now + delay)
      | _ => true
  | _ => true

theorem advance_waitsForEarliest {s t : Impl task}
    (hstep : s.advance = some t) : WaitsForEarliest t := by
  unfold Impl.advance at hstep
  intro deadline hworker
  cases hs : s.worker with
  | loopHead =>
      rw [hs] at hstep
      cases hstop : s.stop with
      | true =>
          simp only [hstop, if_true, Option.some.injEq] at hstep
          subst hstep
          cases hworker
      | false =>
          cases htop : topDeadline s.queue with
          | none =>
              simp only [hstop, htop, Bool.false_eq_true, if_false,
                Option.some.injEq] at hstep
              subst hstep
              cases hworker
          | some d =>
              simp only [hstop, htop, Bool.false_eq_true, if_false,
                Option.some.injEq] at hstep
              subst hstep
              injection hworker with hd
              subst hd
              exact topDeadline_le htop
  | waitEmpty =>
      simp only [hs] at hstep
      split at hstep
      · injection hstep with ht
        subst ht
        cases hworker
      · cases hstep
  | waitUntil d =>
      simp only [hs] at hstep
      split at hstep
      · injection hstep with ht
        subst ht
        cases hworker
      · split at hstep
        · injection hstep with ht
          subst ht
          cases hworker
        · cases hstep
  | drain =>
      simp only [hs] at hstep
      split at hstep
      · injection hstep with ht
        subst ht
        cases hworker
      · split at hstep
        · cases hstep
        · injection hstep with ht
          subst ht
          cases hworker
  | running r =>
      simp only [hs, Option.some.injEq] at hstep
      subst hstep
      cases hworker
  | returned =>
      simp [hs] at hstep

theorem schedule_waitsForEarliest
    {s : Impl task} {delay : Int} {t : task}
    (hguard : NotBeforeWait s (.schedule delay t) = true)
    (hwaits : WaitsForEarliest s) :
    WaitsForEarliest (s.schedule delay t) := by
  unfold Impl.schedule
  cases hstop : s.stop with
  | true => simpa [hstop] using hwaits
  | false =>
      intro deadline hworker e he
      have hwait : s.worker = .waitUntil deadline := by simpa using hworker
      have hafter : deadline ≤ s.now + delay := by
        simpa [NotBeforeWait, hwait, hstop] using hguard
      rcases List.mem_cons.mp (by simpa using he) with hnew | hold
      · rw [hnew]
        exact hafter
      · exact hwaits deadline hwait e hold

/-- One step of any thread, when it keeps to the guard. -/
theorem step_waitsForEarliest [DecidableEq task]
    {s t : Impl task} {l : Label task}
    (hguard : NotBeforeWait s l = true)
    (hwaits : WaitsForEarliest s)
    (hstep : s.step l = some t) :
    WaitsForEarliest t := by
  cases l with
  | schedule delay r =>
      simp only [Impl.step] at hstep
      split at hstep
      · cases hstep
      · injection hstep with ht
        rw [← ht]
        exact schedule_waitsForEarliest hguard hwaits
  | requestStop =>
      simp only [Impl.step] at hstep
      split at hstep
      · cases hstep
      · injection hstep with ht
        rw [← ht]
        exact hwaits
  | advance => exact advance_waitsForEarliest hstep
  | start e =>
      rcases start_some hstep with ⟨_, _, _, _, ht⟩
      intro deadline hworker
      rw [ht] at hworker
      cases hworker
  | tick elapsed =>
      simp only [Impl.step, Option.some.injEq] at hstep
      rw [← hstep]
      exact hwaits

theorem init_waitsForEarliest (now : Int) :
    WaitsForEarliest (Impl.init now : Impl task) := by
  intro deadline hworker
  cases hworker

/--
As long as no call of `schedule` comes in before the deadline of a timed wait,
no task is held behind a later one.
-/
theorem prompt_of_notBeforeWait [DecidableEq task]
    {s : Impl task}
    (hs : ((system task).guarded
      (fun s l => NotBeforeWait s l = true)).Reachable s) :
    Prompt s := by
  apply prompt_of_waitsForEarliest
  refine TransitionSystem.guarded_invariant_of_step ?_ ?_ s hs
  · intro s0 hs0
    rcases hs0 with ⟨now, hnow⟩
    rw [hnow]
    exact init_waitsForEarliest now
  · intro s l t hwaits hguard hstep
    exact step_waitsForEarliest hguard hwaits hstep

/-!
# A shorter delay during a longer wait

The call that the guard excludes breaks the order at once, and the entry it adds
stays behind the wait until the old deadline has passed.
-/

theorem schedule_before_wait_breaks
    {s : Impl task} {delay : Int} {t : task}
    (hguard : NotBeforeWait s (.schedule delay t) = false) :
    ¬ WaitsForEarliest (s.schedule delay t) := by
  intro hwaits
  cases hworker : s.worker with
  | waitUntil deadline =>
      rw [NotBeforeWait, hworker] at hguard
      simp only [Bool.or_eq_false_iff, decide_eq_false_iff_not] at hguard
      rcases hguard with ⟨hstop, hearly⟩
      have hle := hwaits deadline (by simp [Impl.schedule, hstop, hworker])
        ⟨s.now + delay, t⟩ (by simp [Impl.schedule, hstop])
      exact hearly hle
  | loopHead => simp [NotBeforeWait, hworker] at hguard
  | waitEmpty => simp [NotBeforeWait, hworker] at hguard
  | drain => simp [NotBeforeWait, hworker] at hguard
  | running r => simp [NotBeforeWait, hworker] at hguard
  | returned => simp [NotBeforeWait, hworker] at hguard

/-- While the saved deadline lies ahead, only the stop flag moves the worker. -/
theorem waitUntil_blocked
    {s : Impl task} {deadline : Int}
    (hworker : s.worker = .waitUntil deadline)
    (hstop : s.stop = false)
    (hahead : s.now < deadline) :
    s.advance = none := by
  have hnot : ¬ deadline ≤ s.now := not_le.mpr hahead
  simp [Impl.advance, hworker, hstop, hnot]

/-- A backoff of one second is waited for; a completion is then posted. -/
def lateThenZero : List (Label Nat) :=
  [.advance, .schedule 1000 0, .advance, .advance, .schedule 0 1]

theorem not_prompt_lateThenZero :
    ¬ (system Nat).Invariant Prompt := by
  intro hinv
  have hrun : (system Nat).run (Impl.init 0) lateThenZero =
      some ⟨[⟨0, 1⟩, ⟨1000, 0⟩], false, .waitUntil 1000, 0⟩ := by decide
  have hprompt := hinv _
    (TransitionSystem.reachable_of_run ⟨0, rfl⟩ hrun)
  exact absurd (hprompt.waitsForEarliest 1000 rfl ⟨0, 1⟩ (by decide)) (by decide)

/-- A later backoff may be added during the wait. -/
theorem prompt_later_backoff :
    Prompt (⟨[⟨2000, 1⟩, ⟨1000, 0⟩], false, .waitUntil 1000, 0⟩ : Impl Nat) :=
  prompt_of_notBeforeWait
    ⟨Impl.init 0,
      [.advance, .schedule 1000 0, .advance, .advance, .schedule 2000 1],
      ⟨0, rfl⟩, by decide⟩

end DefaultScheduledExecutor
end OssSdk
