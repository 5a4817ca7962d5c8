import OssSdk.Foundation.Transition

/-!
# Waiting on a condition

Items lie under a lock.  Who takes one and finds none sleeps until a notification, and
looks again when woken.  Who puts one in notifies one sleeper after the lock has been
let go of.  Only numbers matter here, and a sleeper can be woken for no reason.
-/

namespace OssSdk
namespace Foundation

/-- `notices` counts the notifications that are still to be made. -/
@[ext]
structure Wakeups where
  items : Nat
  asleep : Nat
  woken : Nat
  notices : Nat
deriving DecidableEq

namespace Wakeups

inductive Move where
  | put
  | notifyOne
  | notifyAll
  | spurious
  /-- By one who has not slept. -/
  | take
  | takeWoken
  | sleep
  | sleepAgain
  /-- One who was woken does not wait any more, for there is nothing to wait for. -/
  | leave
deriving DecidableEq

def enabled (w : Wakeups) : Move -> Prop
  | .put => True
  | .notifyOne => w.notices ≠ 0
  | .notifyAll => True
  | .spurious => w.asleep ≠ 0
  | .take => w.items ≠ 0
  | .takeWoken => w.items ≠ 0 ∧ w.woken ≠ 0
  | .sleep => w.items = 0
  | .sleepAgain => w.items = 0 ∧ w.woken ≠ 0
  | .leave => w.items = 0 ∧ w.woken ≠ 0

instance (w : Wakeups) (m : Move) : Decidable (w.enabled m) := by
  cases m
  all_goals
    unfold enabled
    infer_instance

/-- A notification without a sleeper does nothing. -/
def next (w : Wakeups) : Move -> Wakeups
  | .put => ⟨w.items + 1, w.asleep, w.woken, w.notices + 1⟩
  | .notifyOne => ⟨w.items, w.asleep - 1, w.woken + min w.asleep 1, w.notices - 1⟩
  | .notifyAll => ⟨w.items, 0, w.woken + w.asleep, w.notices⟩
  | .spurious => ⟨w.items, w.asleep - 1, w.woken + 1, w.notices⟩
  | .take => ⟨w.items - 1, w.asleep, w.woken, w.notices⟩
  | .takeWoken => ⟨w.items - 1, w.asleep, w.woken - 1, w.notices⟩
  | .sleep => ⟨w.items, w.asleep + 1, w.woken, w.notices⟩
  | .sleepAgain => ⟨w.items, w.asleep + 1, w.woken - 1, w.notices⟩
  | .leave => ⟨w.items, w.asleep, w.woken - 1, w.notices⟩

def step (w : Wakeups) (m : Move) : Option Wakeups :=
  if w.enabled m then some (w.next m) else none

def system : TransitionSystem Wakeups Move where
  initial w := w = ⟨0, 0, 0, 0⟩
  step := step

/-- For every item there is one who is awake, or a notification to come. -/
def Covered (w : Wakeups) : Prop := w.asleep = 0 ∨ w.items ≤ w.woken + w.notices

theorem next_covered {w : Wakeups} {m : Move} (hw : w.Covered) (hm : w.enabled m) :
    (w.next m).Covered := by
  unfold Covered at hw ⊢
  cases m
  case notifyAll => exact Or.inl rfl
  all_goals
    simp only [enabled] at hm
    simp only [next]
    omega

theorem step_some {w w' : Wakeups} {m : Move} (hstep : w.step m = some w') :
    w.enabled m ∧ w' = w.next m := by
  unfold step at hstep
  split at hstep
  · rename_i hm
    cases hstep
    exact ⟨hm, rfl⟩
  · cases hstep

theorem run_one {w : Wakeups} {m : Move} (hm : w.enabled m) :
    system.run w [m] = some (w.next m) := by
  have hstep : system.step w m = some (w.next m) := if_pos hm
  rw [TransitionSystem.run_cons_of_step [] hstep]
  rfl

theorem covered_invariant : system.Invariant Covered := by
  apply TransitionSystem.invariant_of_step
  · intro w hw
    cases hw
    exact Or.inl rfl
  · intro w m w' hw hstep
    rcases step_some hstep with ⟨hm, hnext⟩
    rw [hnext]
    exact next_covered hw hm

/-!
# What looks like this from outside
-/

def Follows (w w' : Wakeups) : Prop := exists moves, system.run w moves = some w'

theorem Follows.quiet {w w' : Wakeups} (hsame : w' = w) : w.Follows w' := by
  refine ⟨[], ?_⟩
  rw [hsame]
  rfl

theorem Follows.one {w w' : Wakeups} {m : Move} (hm : w.enabled m) (hnext : w' = w.next m) :
    w.Follows w' := by
  refine ⟨[m], ?_⟩
  rw [hnext]
  exact run_one hm

theorem covered_of_follows {state label : Type} {T : TransitionSystem state label}
    {f : state -> Wakeups} (hinitial : forall s, T.initial s -> f s = ⟨0, 0, 0, 0⟩)
    (hstep : forall s l t, T.step s l = some t -> (f s).Follows (f t)) {s : state}
    (hs : T.Reachable s) : (f s).Covered := by
  have hreach : system.Reachable (f s) :=
    TransitionSystem.reachable_of_simulation hinitial (fun s l t _ hst => hstep s l t hst) hs
  exact covered_invariant _ hreach

/-- No wake-up is lost. -/
theorem awake_or_notice {w : Wakeups} (hw : w.Covered) (hitems : w.items ≠ 0)
    (hasleep : w.asleep ≠ 0) : w.woken ≠ 0 ∨ w.notices ≠ 0 := by
  unfold Covered at hw
  omega

end Wakeups
end Foundation
end OssSdk
