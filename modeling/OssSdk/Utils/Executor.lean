import OssSdk.Foundation.Transition
import Mathlib.Data.Multiset.AddSub

/-!
# Executors

What an executor is for: a task that it accepts is run, and run once, however the threads
take turns.
-/

namespace OssSdk
namespace Utils

open Foundation

variable {state label task : Type}

/-- Own moves are those that need no one outside, be it a caller or one who destroys. -/
structure Executor (state label task : Type) where
  system : TransitionSystem state label
  own : label -> Prop
  /-- What a call of `execute` is given. -/
  submits : label -> Option task
  accepted : state -> Multiset task
  waiting : state -> Multiset task
  running : state -> Multiset task
  finished : state -> Multiset task
  /-- The destructor has set the flag. -/
  stopped : state -> Prop
  destroyed : state -> Prop

namespace Executor

def AllRun (E : Executor state label task) (s : state) : Prop :=
  E.finished s = E.accepted s ∧ (E.stopped s -> E.destroyed s)

/-- A task that is accepted waits, is run, or has been; in the end all of them have been. -/
structure LosesNoTask (E : Executor state label task) (s : state) : Prop where
  accepts : forall l t s', E.submits l = some t -> ¬E.stopped s ->
    E.system.step s l = some s' -> E.accepted s' = t ::ₘ E.accepted s
  keeps : forall l s', E.system.step s l = some s' -> E.accepted s ≤ E.accepted s'
  once : E.accepted s = E.waiting s + E.running s + E.finished s
  destructor : E.destroyed s -> E.finished s = E.accepted s
  settles : E.system.Settles E.own E.AllRun s

end Executor
end Utils
end OssSdk
