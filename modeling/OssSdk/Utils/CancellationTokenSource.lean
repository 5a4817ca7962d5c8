import OssSdk.Foundation.AtomicMin
import OssSdk.Foundation.MachineInt
import OssSdk.Foundation.Transition

/-!
# Deadlines of cancellation

A source has one deadline, which is the end of time until a call lowers it.  A time is a
number of nanoseconds of the steady clock; the calls are given milliseconds, or a time of
the system clock.
-/

namespace OssSdk
namespace Utils

open Foundation

/-- `time_point::max()` -/
def maxTimePoint : Int := 2 ^ 63 - 1

/-- The calls; the two forms of `cancelAfter` are told apart. -/
inductive CancelCall where
  | cancel
  | cancelAfter (after : Int)
  | cancelAfterTimepoint (timepoint : Int)
deriving DecidableEq

namespace CancelCall

/-- How far away the time is that is asked for. -/
def distance (system : Int) : CancelCall -> Int
  | .cancel => 0
  | .cancelAfter after => after * 1000000
  | .cancelAfterTimepoint timepoint => timepoint - system

/-- The time that is asked for, where the two clocks show `steady` and `system`. -/
def requested (steady system : Int) (c : CancelCall) : Int := steady + c.distance system

/-- What `updateDeadline` is given. -/
def timepoint (steady system : Int) : CancelCall -> Int
  | .cancel => steady
  | .cancelAfter after => int64 (steady + int64 (after * 1000000))
  | .cancelAfterTimepoint timepoint => int64 (steady + int64 (timepoint - system))

/-- Neither the distance nor the time that is asked for is out of range. -/
def Fits (steady system : Int) (c : CancelCall) : Prop :=
  FitsInt64 (c.distance system) ∧ FitsInt64 (c.requested steady system)

instance (steady system : Int) (c : CancelCall) : Decidable (c.Fits steady system) :=
  inferInstanceAs (Decidable (_ ∧ _))

theorem timepoint_eq {steady system : Int} {c : CancelCall}
    (hfits : c.Fits steady system) :
    c.timepoint steady system = c.requested steady system := by
  have hwrapped : int64 (steady + int64 (c.distance system)) = c.requested steady system := by
    rw [int64_add_int64]
    exact (int64_eq_self_iff _).mpr hfits.2
  cases c with
  | cancel => exact (Int.add_zero steady).symm
  | cancelAfter after => exact hwrapped
  | cancelAfterTimepoint timepoint => exact hwrapped

end CancelCall

/-- `requests` has the times that have been asked for, by all calls up to now. -/
structure CancellationTokenSource where
  deadline : AtomicMin Int
  steadyNow : Int
  systemNow : Int
  requests : Multiset Int

/--
The clocks go on, a call reads them, or one of the calls under way makes its next access to
the deadline.
-/
inductive CancelEvent where
  | tick (steady system : Int)
  | call (c : CancelCall)
  | access (u : LoweringUpdate Int) (fails : Bool)
deriving DecidableEq

namespace CancellationTokenSource

def create (steady system : Int) : CancellationTokenSource :=
  ⟨AtomicMin.init maxTimePoint, steady, system, 0⟩

/-- The steady clock never goes back, and does not come to the end of time. -/
def step (s : CancellationTokenSource) : CancelEvent -> Option CancellationTokenSource
  | .tick steady system =>
      if s.steadyNow ≤ steady ∧ steady < maxTimePoint then
        some { s with steadyNow := steady, systemNow := system }
      else none
  | .call c =>
      some { s with
        deadline := s.deadline.begin (c.timepoint s.steadyNow s.systemNow)
        requests := c.requested s.steadyNow s.systemNow ::ₘ s.requests }
  | .access u fails =>
      if u ∈ s.deadline.updates then
        some { s with deadline := s.deadline.advance u fails }
      else none

def system : TransitionSystem CancellationTokenSource CancelEvent where
  initial s := exists steady system,
    FitsInt64 steady ∧ steady < maxTimePoint ∧ s = create steady system
  step := step

/-- `isCanceled` of a token of this source. -/
def isCanceled (s : CancellationTokenSource) : Bool := decide (s.deadline.value ≤ s.steadyNow)

/--
The deadline is the least time that the calls which have ended have asked for, and the others
are still at it; it is the least of all as soon as none of them is.
-/
structure OnlyTightens (s : CancellationTokenSource) : Prop where
  least : s.deadline.value = AtomicMin.lowest maxTimePoint s.deadline.applied
  calls : s.deadline.targets = s.requests
  quiet : s.deadline.updates = 0 ->
    s.deadline.value = AtomicMin.lowest maxTimePoint s.requests
  fires : s.isCanceled = true ↔
    exists requested, requested ∈ s.deadline.applied ∧ requested ≤ s.steadyNow

/-- The time that a call asks for is a time. -/
def CallFits (s : CancellationTokenSource) : CancelEvent -> Prop
  | .call c => c.Fits s.steadyNow s.systemNow
  | _ => True

instance (s : CancellationTokenSource) (e : CancelEvent) : Decidable (CallFits s e) := by
  cases e with
  | tick steady system => exact isTrue trivial
  | call c => exact inferInstanceAs (Decidable (c.Fits s.steadyNow s.systemNow))
  | access u fails => exact isTrue trivial

/-!
# What all runs keep
-/

/-- What holds whatever the calls are given. -/
structure Ordered (s : CancellationTokenSource) : Prop where
  settled : AtomicMin.Settled maxTimePoint s.deadline
  before : s.steadyNow < maxTimePoint

theorem step_ordered {s t : CancellationTokenSource} {e : CancelEvent} (hs : Ordered s)
    (hstep : s.step e = some t) : Ordered t := by
  cases e with
  | tick steady system =>
      rcases Option.ite_none_right_eq_some.mp hstep with ⟨hclock, ht⟩
      cases ht
      exact ⟨hs.settled, hclock.2⟩
  | call c =>
      cases hstep
      exact ⟨hs.settled.begin _, hs.before⟩
  | access u fails =>
      rcases Option.ite_none_right_eq_some.mp hstep with ⟨hu, ht⟩
      cases ht
      exact ⟨hs.settled.advance hu fails, hs.before⟩

theorem step_deadline_le {s t : CancellationTokenSource} {e : CancelEvent}
    (hstep : s.step e = some t) : t.deadline.value ≤ s.deadline.value := by
  cases e with
  | tick steady system =>
      rcases Option.ite_none_right_eq_some.mp hstep with ⟨_, ht⟩
      cases ht
      exact le_rfl
  | call c =>
      cases hstep
      exact le_rfl
  | access u fails =>
      rcases Option.ite_none_right_eq_some.mp hstep with ⟨_, ht⟩
      cases ht
      exact AtomicMin.advance_value_le _ u fails

/-- No deadline is moved to a later time. -/
theorem run_deadline_le {s t : CancellationTokenSource} {events : List CancelEvent}
    (hrun : system.run s events = some t) : t.deadline.value ≤ s.deadline.value := by
  refine TransitionSystem.run_preserves (T := system)
    (P := fun t => t.deadline.value ≤ s.deadline.value) ?_ le_rfl hrun
  intro s' e t' hs' hstep
  exact le_trans (step_deadline_le hstep) hs'

/-- A call that fits is counted with the time that it has asked for. -/
theorem step_targets {s t : CancellationTokenSource} {e : CancelEvent}
    (hs : s.deadline.targets = s.requests) (hfits : CallFits s e)
    (hstep : s.step e = some t) : t.deadline.targets = t.requests := by
  cases e with
  | tick steady system =>
      rcases Option.ite_none_right_eq_some.mp hstep with ⟨_, ht⟩
      cases ht
      exact hs
  | call c =>
      cases hstep
      show (s.deadline.begin (c.timepoint s.steadyNow s.systemNow)).targets =
        c.requested s.steadyNow s.systemNow ::ₘ s.requests
      rw [AtomicMin.targets_begin, CancelCall.timepoint_eq hfits, hs]
  | access u fails =>
      rcases Option.ite_none_right_eq_some.mp hstep with ⟨hu, ht⟩
      cases ht
      exact (AtomicMin.targets_advance hu fails).trans hs

theorem onlyTightens_of_ordered {s : CancellationTokenSource} (hs : Ordered s)
    (hcalls : s.deadline.targets = s.requests) : OnlyTightens s where
  least := hs.settled.value
  calls := hcalls
  quiet := by
    intro hquiet
    rw [hs.settled.value, ← hcalls, AtomicMin.targets, hquiet, Multiset.map_zero,
      Multiset.add_zero]
  fires := by
    have hbefore := not_le.mpr hs.before
    unfold isCanceled
    rw [decide_eq_true_eq, hs.settled.value, AtomicMin.lowest_le_iff]
    exact or_iff_right hbefore

/--
While the times that are asked for fit, the deadline is the least of them, and it never moves
to a later one.
-/
theorem deadline_only_tightens {s : CancellationTokenSource}
    (hs : (system.guarded CallFits).Reachable s) :
    OnlyTightens s ∧
      forall events t, (system.guarded CallFits).run s events = some t ->
        t.deadline.value ≤ s.deadline.value := by
  have hinvariant : (system.guarded CallFits).Invariant fun s =>
      Ordered s ∧ s.deadline.targets = s.requests := by
    apply TransitionSystem.guarded_invariant_of_step
    · rintro s ⟨steady, system, _, hsteady, hcreate⟩
      rw [hcreate]
      exact ⟨⟨AtomicMin.settled_init _, hsteady⟩, rfl⟩
    · intro s e t hs hfits hstep
      exact ⟨step_ordered hs.1 hstep, step_targets hs.2 hfits hstep⟩
  have hall := hinvariant s hs
  refine ⟨onlyTightens_of_ordered hall.1 hall.2, ?_⟩
  intro events t hrun
  exact run_deadline_le (TransitionSystem.run_of_guarded_run hrun)

/-- Two calls at once; the exchange of the one that has loaded first comes too late. -/
def twoCalls : List CancelEvent :=
  [.call (.cancelAfter 5), .call .cancel, .access ⟨5001000, none⟩ false,
    .access ⟨1000, none⟩ false, .access ⟨1000, some maxTimePoint⟩ false,
    .access ⟨5001000, some maxTimePoint⟩ false, .access ⟨5001000, some 1000⟩ false]

theorem deadline_only_tightens_twoCalls :
    exists s, (system.guarded CallFits).run (create 1000 0) twoCalls = some s ∧
      s.deadline.value = 1000 ∧ OnlyTightens s := by
  have hvalue : ((system.guarded CallFits).run (create 1000 0) twoCalls).map
      (fun s => s.deadline.value) = some 1000 := by decide +kernel
  rcases Option.map_eq_some_iff.mp hvalue with ⟨s, hrun, hs⟩
  have hreachable : (system.guarded CallFits).Reachable s :=
    TransitionSystem.reachable_of_run ⟨1000, 0, by decide, by decide, rfl⟩ hrun
  exact ⟨s, hrun, hs, (deadline_only_tightens hreachable).1⟩

/-- The longest duration there is asks for a time that is over already. -/
theorem not_onlyTightens_longest : ¬ system.Invariant OnlyTightens := by
  intro hinvariant
  have hafter : (system.run (create 1000000000 0) [.call (.cancelAfter (2 ^ 63 - 1)),
      .access ⟨999000000, none⟩ false, .access ⟨999000000, some maxTimePoint⟩ false]).map
      (fun s => (s.deadline.value, s.deadline.updates, s.requests)) =
        some (999000000, 0, {1000000000 + (2 ^ 63 - 1) * 1000000}) := by decide +kernel
  rcases Option.map_eq_some_iff.mp hafter with ⟨s, hrun, hs⟩
  simp only [Prod.mk.injEq] at hs
  have hleast := (hinvariant s (TransitionSystem.reachable_of_run
    ⟨1000000000, 0, by decide, by decide, rfl⟩ hrun)).quiet hs.2.1
  rw [hs.1, hs.2.2] at hleast
  exact absurd hleast (by decide +kernel)

end CancellationTokenSource
end Utils
end OssSdk
