import OssSdk.Foundation.Parties
import OssSdk.Foundation.Wakeups
import OssSdk.Utils.PooledThreadExecutor
import Mathlib.Tactic.Abel

/-!
# The pool at rest

What the workers can do by themselves ends.  When it has, no task is left behind: of a
task in the queue someone has been notified, or is about to be.
-/

namespace OssSdk
namespace Utils

open Foundation

variable {task : Type}

namespace PoolWorker

def isAsleep : PoolWorker task -> Nat
  | .asleep => 1
  | _ => 0

def isWoken : PoolWorker task -> Nat
  | .woken => 1
  | _ => 0

/-- How many steps are ahead of a worker until it sleeps or returns, if it finds no task. -/
def work : PoolWorker task -> Nat
  | .entering => 1
  | .asleep => 0
  | .woken => 1
  | .holding _ => 3
  | .running _ => 2
  | .returned => 0

end PoolWorker

namespace PooledThreadExecutor

/-!
# Waiting for a task
-/

/-- The pool as it looks to those who wait for a task. -/
def wakeups (p : PooledThreadExecutor task) : Wakeups :=
  ⟨p.tasks.length, tally p.workers PoolWorker.isAsleep, tally p.workers PoolWorker.isWoken,
    p.notices⟩

theorem wakeups_become (p : PooledThreadExecutor task) (w : PoolWorker task) :
    (p.become w).wakeups =
      ⟨p.tasks.length, w.isAsleep + tally p.workers PoolWorker.isAsleep,
        w.isWoken + tally p.workers PoolWorker.isWoken, p.notices⟩ := by
  unfold wakeups become
  rw [tally_cons, tally_cons]

theorem tally_isAsleep {workers : Multiset (PoolWorker task)} (hasleep : .asleep ∉ workers) :
    tally workers PoolWorker.isAsleep = 0 := by
  rw [tally_eq_zero_iff]
  intro w hw
  cases w with
  | asleep => exact absurd hw hasleep
  | _ => rfl

theorem wakeups_execute (p : PooledThreadExecutor task) (t : task) :
    p.wakeups.Follows (p.execute t).wakeups := by
  unfold execute
  split
  · exact Wakeups.Follows.quiet rfl
  · refine Wakeups.Follows.one (m := .put) trivial ?_
    refine Wakeups.ext ?_ rfl rfl rfl
    exact List.length_append

theorem wakeups_same_worker (p : PooledThreadExecutor task) {w w' : PoolWorker task}
    (hasleep : w'.isAsleep = w.isAsleep) (hwoken : w'.isWoken = w.isWoken) :
    (p.become w').wakeups = (p.become w).wakeups := by
  rw [wakeups_become, wakeups_become, hasleep, hwoken]

theorem wakeups_look_entering (p : PooledThreadExecutor task) :
    (p.become .entering).wakeups.Follows p.look.wakeups := by
  rcases look_cases p with ⟨_, _, hlook⟩ | ⟨htasks, _, hlook⟩ | ⟨t, rest, htasks, hlook⟩
  · rw [hlook]
    exact Wakeups.Follows.quiet (wakeups_same_worker p rfl rfl)
  · rw [hlook, wakeups_become, wakeups_become, htasks]
    refine Wakeups.Follows.one (m := .sleep) rfl ?_
    refine Wakeups.ext rfl ?_ rfl rfl
    change 1 + tally p.workers PoolWorker.isAsleep =
      0 + tally p.workers PoolWorker.isAsleep + 1
    omega
  · rw [hlook, wakeups_become, wakeups_become, htasks]
    exact Wakeups.Follows.one (m := .take) (Nat.succ_ne_zero _) rfl

theorem wakeups_look_woken (p : PooledThreadExecutor task) :
    (p.become .woken).wakeups.Follows p.look.wakeups := by
  have hone : 1 + tally p.workers PoolWorker.isWoken ≠ 0 := by omega
  have hless : 0 + tally p.workers PoolWorker.isWoken =
      1 + tally p.workers PoolWorker.isWoken - 1 := by omega
  rcases look_cases p with ⟨htasks, _, hlook⟩ | ⟨htasks, _, hlook⟩ | ⟨t, rest, htasks, hlook⟩
  · rw [hlook, wakeups_become, wakeups_become, htasks]
    refine Wakeups.Follows.one (m := .leave) ⟨rfl, hone⟩ ?_
    exact Wakeups.ext rfl rfl hless rfl
  · rw [hlook, wakeups_become, wakeups_become, htasks]
    refine Wakeups.Follows.one (m := .sleepAgain) ⟨rfl, hone⟩ ?_
    refine Wakeups.ext rfl ?_ hless rfl
    change 1 + tally p.workers PoolWorker.isAsleep =
      0 + tally p.workers PoolWorker.isAsleep + 1
    omega
  · rw [hlook, wakeups_become, wakeups_become, htasks]
    refine Wakeups.Follows.one (m := .takeWoken) ⟨Nat.succ_ne_zero _, hone⟩ ?_
    exact Wakeups.ext rfl rfl hless rfl

theorem advance_wakeups {p p' : PooledThreadExecutor task} {w : PoolWorker task}
    (hadvance : p.advance w = some p') : (p.become w).wakeups.Follows p'.wakeups := by
  cases w with
  | entering =>
      cases hadvance
      exact wakeups_look_entering p
  | asleep => cases hadvance
  | woken =>
      cases hadvance
      exact wakeups_look_woken p
  | holding t =>
      cases hadvance
      exact Wakeups.Follows.quiet (wakeups_same_worker p rfl rfl)
  | running t =>
      cases hadvance
      exact Wakeups.Follows.quiet (wakeups_same_worker p rfl rfl)
  | returned => cases hadvance

/-- One who sleeps is woken, with a notification or without. -/
theorem wakeups_rouse {p p' : PooledThreadExecutor task} (hrouses : p.Rouses p') :
    p.wakeups.asleep ≠ 0 ∧ p'.wakeups =
      ⟨p.wakeups.items, p.wakeups.asleep - 1, p.wakeups.woken + 1, p.wakeups.notices⟩ := by
  rcases hrouses with ⟨q, hq, hq'⟩
  rw [hq, hq', wakeups_become, wakeups_become]
  constructor
  · change 1 + tally q.workers PoolWorker.isAsleep ≠ 0
    omega
  · refine Wakeups.ext rfl ?_ ?_ rfl
    · change 0 + tally q.workers PoolWorker.isAsleep =
        1 + tally q.workers PoolWorker.isAsleep - 1
      omega
    · change 1 + tally q.workers PoolWorker.isWoken =
        0 + tally q.workers PoolWorker.isWoken + 1
      omega

theorem wakeups_notifyAll (p : PooledThreadExecutor task) (destructor : PoolDestructor) :
    wakeups { p with
      workers := p.workers.map PoolWorker.notified
      destructor := destructor } = p.wakeups.next .notifyAll := by
  refine Wakeups.ext rfl ?_ ?_ rfl
  · change tally (p.workers.map PoolWorker.notified) PoolWorker.isAsleep = 0
    rw [tally_map, tally_eq_zero_iff]
    intro w _
    cases w
    all_goals rfl
  · change tally (p.workers.map PoolWorker.notified) PoolWorker.isWoken =
      tally p.workers PoolWorker.isWoken + tally p.workers PoolWorker.isAsleep
    rw [tally_map, ← tally_add]
    refine congrArg (tally p.workers) (funext fun w => ?_)
    cases w
    all_goals rfl

/-!
# Work that is left
-/

def PoolDestructor.work (workers : Nat) : PoolDestructor -> Nat
  | .notCalled => 0
  | .stopping => workers + 2
  | .joining => 1
  | .returned => 0

/-- By how many own moves the pool comes to rest at the latest. -/
def work (p : PooledThreadExecutor task) : Nat :=
  3 * p.tasks.length + 2 * p.notices + tally p.workers PoolWorker.work +
    PoolDestructor.work p.workers.card p.destructor

theorem work_become (p : PooledThreadExecutor task) (w : PoolWorker task) :
    (p.become w).work = 3 * p.tasks.length + 2 * p.notices +
      (w.work + tally p.workers PoolWorker.work) +
        PoolDestructor.work (p.workers.card + 1) p.destructor := by
  unfold work become
  rw [tally_cons, Multiset.card_cons]

theorem look_work {p : PooledThreadExecutor task} {w : PoolWorker task} (hw : w.work = 1) :
    p.look.work < (p.become w).work := by
  rcases look_cases p with ⟨_, _, hlook⟩ | ⟨_, _, hlook⟩ | ⟨t, rest, htasks, hlook⟩
  · rw [hlook, work_become, work_become, hw]
    simp only [PoolWorker.work]
    omega
  · rw [hlook, work_become, work_become, hw]
    simp only [PoolWorker.work]
    omega
  · rw [hlook, work_become, work_become, hw, htasks, List.length_cons]
    simp only [PoolWorker.work]
    omega

theorem advance_work {p p' : PooledThreadExecutor task} {w : PoolWorker task}
    (hadvance : p.advance w = some p') : p'.work < (p.become w).work := by
  cases w with
  | entering =>
      cases hadvance
      exact look_work rfl
  | asleep => cases hadvance
  | woken =>
      cases hadvance
      exact look_work rfl
  | holding t =>
      cases hadvance
      rw [work_become, work_become]
      simp only [PoolWorker.work]
      omega
  | running t =>
      cases hadvance
      rw [work_become, work_become]
      simp only [PoolWorker.work]
      omega
  | returned => cases hadvance

theorem rouse_work {p p' : PooledThreadExecutor task} (hrouses : p.Rouses p') :
    p'.work = p.work + 1 := by
  rcases hrouses with ⟨q, hq, hq'⟩
  rw [hq, hq', work_become, work_become]
  simp only [PoolWorker.work]
  omega

theorem notifyAll_work {p : PooledThreadExecutor task} (hstopping : p.destructor = .stopping) :
    work { p with workers := p.workers.map PoolWorker.notified, destructor := .joining } <
      p.work := by
  have hone : tally (p.workers.map PoolWorker.notified) PoolWorker.work ≤
      tally p.workers PoolWorker.work + p.workers.card := by
    rw [tally_map, ← tally_one, ← tally_add]
    apply tally_le
    intro w _
    cases w
    all_goals
      simp only [PoolWorker.notified, PoolWorker.work]
      omega
  unfold work
  rw [hstopping]
  simp only [PoolDestructor.work]
  omega

/-!
# Coming to rest
-/

theorem finished_of_idle {poolSize : Nat} {p : PooledThreadExecutor task}
    (hp : p.Accounted poolSize) (htasks : p.tasks = [])
    (hidle : forall w, w ∈ p.workers -> w = .asleep ∨ w = .returned) :
    p.finished = p.accepted := by
  have hinHand : p.inHand = 0 := bind_eq_zero fun w hw => by
    rcases hidle w hw with heq | heq
    · rw [heq]
      rfl
    · rw [heq]
      rfl
  have hrunning : p.running = 0 := bind_eq_zero fun w hw => by
    rcases hidle w hw with heq | heq
    · rw [heq]
      rfl
    · rw [heq]
      rfl
  have htaken := hp.taken
  have hcalled := hp.called
  rw [hinHand, Multiset.zero_add] at htaken
  rw [hrunning, Multiset.zero_add] at hcalled
  rw [hp.inOrder, htasks, List.append_nil, htaken, hcalled]

theorem exists_worker {poolSize : Nat} {p : PooledThreadExecutor task}
    (hp : p.Accounted poolSize) (hsize : poolSize ≠ 0) :
    exists w, w ∈ p.workers := by
  apply Multiset.card_pos_iff_exists_mem.mp
  rw [hp.size]
  exact Nat.pos_of_ne_zero hsize

/-- A call that comes before the flag is set is accepted. -/
theorem accepted_execute (p : PooledThreadExecutor task) (t : task) (hstopped : p.stopped = false) :
    ((p.execute t).accepted : Multiset task) = t ::ₘ p.accepted := by
  unfold execute
  rw [hstopped]
  change ((p.accepted ++ [t] : List task) : Multiset task) = _
  rw [← Multiset.coe_add, Multiset.coe_singleton, Multiset.add_comm, Multiset.singleton_add]

theorem look_accepted (p : PooledThreadExecutor task) : p.look.accepted = p.accepted := by
  rcases look_cases p with ⟨_, _, hlook⟩ | ⟨_, _, hlook⟩ | ⟨_, _, _, hlook⟩
  all_goals
    rw [hlook]
    rfl

theorem advance_accepted {p p' : PooledThreadExecutor task} {w : PoolWorker task}
    (hadvance : p.advance w = some p') : p'.accepted = p.accepted := by
  cases w with
  | entering =>
      cases hadvance
      exact look_accepted p
  | asleep => cases hadvance
  | woken =>
      cases hadvance
      exact look_accepted p
  | holding t =>
      cases hadvance
      rfl
  | running t =>
      cases hadvance
      rfl
  | returned => cases hadvance

section Rest

variable [DecidableEq task] {poolSize : Nat} {p p' : PooledThreadExecutor task}

theorem step_wakeups {l : Label task} (hstep : p.step l = some p') :
    p.wakeups.Follows p'.wakeups := by
  cases l with
  | execute t =>
      rcases Option.ite_none_left_eq_some.mp hstep with ⟨_, heq⟩
      cases heq
      exact wakeups_execute p t
  | notify =>
      rcases Option.ite_none_left_eq_some.mp hstep with ⟨hnotices, heq⟩
      cases heq
      refine Wakeups.Follows.one (m := .notifyOne) hnotices ?_
      rcases notifyOne_cases { p with notices := p.notices - 1 } with ⟨hasleep, hsame⟩ | hrouses
      · have hnone : p.wakeups.asleep = 0 := tally_isAsleep hasleep
        rw [hsame]
        refine Wakeups.ext rfl ?_ ?_ rfl
        · change p.wakeups.asleep = p.wakeups.asleep - 1
          omega
        · change p.wakeups.woken = p.wakeups.woken + min p.wakeups.asleep 1
          omega
      · rcases wakeups_rouse hrouses with ⟨hsome, hnext⟩
        change p.wakeups.asleep ≠ 0 at hsome
        rw [hnext]
        refine Wakeups.ext rfl rfl ?_ rfl
        change p.wakeups.woken + 1 = p.wakeups.woken + min p.wakeups.asleep 1
        omega
  | work w =>
      rcases step_work hstep with ⟨q, hq, hadvance⟩
      rw [hq]
      exact advance_wakeups hadvance
  | wake =>
      rcases wakeups_rouse (step_wake hstep) with ⟨hsome, hnext⟩
      exact Wakeups.Follows.one (m := .spurious) hsome hnext
  | stop =>
      rcases Option.ite_none_right_eq_some.mp hstep with ⟨_, heq⟩
      cases heq
      exact Wakeups.Follows.quiet rfl
  | notifyAll =>
      rcases Option.ite_none_right_eq_some.mp hstep with ⟨_, heq⟩
      cases heq
      exact Wakeups.Follows.one (m := .notifyAll) trivial (wakeups_notifyAll p .joining)
  | join =>
      rcases Option.ite_none_right_eq_some.mp hstep with ⟨_, heq⟩
      cases heq
      exact Wakeups.Follows.quiet rfl

theorem covered_of_reachable (hp : (system task poolSize).Reachable p) : p.wakeups.Covered := by
  refine Wakeups.covered_of_follows (T := system task poolSize) ?_ ?_ hp
  · intro q hq
    rw [hq]
    have hentering : forall w, w ∈ (init task poolSize).workers -> w = .entering :=
      fun w hw => Multiset.eq_of_mem_replicate hw
    refine Wakeups.ext rfl ?_ ?_ rfl
    · change tally (init task poolSize).workers PoolWorker.isAsleep = 0
      refine tally_eq_zero_iff.mpr fun w hw => ?_
      rw [hentering w hw]
      rfl
    · change tally (init task poolSize).workers PoolWorker.isWoken = 0
      refine tally_eq_zero_iff.mpr fun w hw => ?_
      rw [hentering w hw]
      rfl
  · intro q l q' hstep
    exact step_wakeups hstep

theorem own_step_work {l : Label task} (hown : l.own) (hstep : p.step l = some p') :
    p'.work < p.work := by
  cases l with
  | execute t => exact hown.elim
  | notify =>
      rcases Option.ite_none_left_eq_some.mp hstep with ⟨hnotices, heq⟩
      cases heq
      have hless : work { p with notices := p.notices - 1 } + 2 = p.work := by
        unfold work
        simp only
        omega
      rcases notifyOne_cases { p with notices := p.notices - 1 } with ⟨_, hsame⟩ | hrouses
      · rw [hsame]
        omega
      · rw [rouse_work hrouses]
        omega
  | work w =>
      rcases step_work hstep with ⟨q, hq, hadvance⟩
      rw [hq]
      exact advance_work hadvance
  | wake => exact hown.elim
  | stop => exact hown.elim
  | notifyAll =>
      rcases Option.ite_none_right_eq_some.mp hstep with ⟨hstopping, heq⟩
      cases heq
      exact notifyAll_work hstopping
  | join =>
      rcases Option.ite_none_right_eq_some.mp hstep with ⟨⟨hjoining, _⟩, heq⟩
      cases heq
      unfold work
      rw [hjoining]
      exact Nat.lt_succ_self _

/-- A worker whose next step is not enabled. -/
theorem idle_of_rest (hrest : (system task poolSize).AtRest Label.own p) {w : PoolWorker task}
    (hw : w ∈ p.workers) : w = .asleep ∨ w = .returned := by
  have hnone : p.step (.work w) = none := hrest (.work w) trivial
  have hadvance : advance { p with workers := p.workers.erase w } w = none :=
    (if_pos hw).symm.trans hnone
  cases w with
  | asleep => exact Or.inl rfl
  | returned => exact Or.inr rfl
  | _ => cases hadvance

/-- The destructor returns when all workers have, and the last of them left no task. -/
theorem finished_of_destroyed (hp : (system task poolSize).Reachable p) (hsize : poolSize ≠ 0)
    (hdone : p.destructor = .returned) : p.finished = p.accepted := by
  have haccounted := accounted_of_reachable hp
  have hshutdown := shutdown_of_reachable hp
  have hreturned := hshutdown.joined hdone
  rcases exists_worker haccounted hsize with ⟨w, hw⟩
  rw [hreturned w hw] at hw
  exact finished_of_idle haccounted (hshutdown.drained hw).2 fun x hx => Or.inr (hreturned x hx)

/-- Nothing can be done any more: no task is left behind, and no destructor waits. -/
theorem allRun_of_rest (hp : (system task poolSize).Reachable p) (hsize : poolSize ≠ 0)
    (hrest : (system task poolSize).AtRest Label.own p) :
    (executor task poolSize).AllRun p := by
  have haccounted := accounted_of_reachable hp
  have hshutdown := shutdown_of_reachable hp
  have hidle : forall w, w ∈ p.workers -> w = .asleep ∨ w = .returned :=
    fun w hw => idle_of_rest hrest hw
  have hdestroyed : p.stopped = true -> p.destructor = .returned := by
    intro hstopped
    cases hdestructor : p.destructor with
    | notCalled => exact absurd hdestructor (hshutdown.flag.mp hstopped)
    | stopping =>
        have hnone : p.step .notifyAll = none := hrest .notifyAll trivial
        cases (if_pos hdestructor).symm.trans hnone
    | joining =>
        have hreturned : forall w, w ∈ p.workers -> w = .returned := by
          intro w hw
          rcases hidle w hw with heq | heq
          · rw [heq] at hw
            exact absurd hw (hshutdown.awake hdestructor)
          · exact heq
        have hnone : p.step .join = none := hrest .join trivial
        cases (if_pos ⟨hdestructor, hreturned⟩).symm.trans hnone
    | returned => rfl
  refine ⟨?_, hdestroyed⟩
  cases hstopped : p.stopped with
  | true => exact finished_of_destroyed hp hsize (hdestroyed hstopped)
  | false =>
      have hasleep : forall w, w ∈ p.workers -> w = .asleep := by
        intro w hw
        rcases hidle w hw with heq | heq
        · exact heq
        · rw [heq] at hw
          cases hstopped.symm.trans (hshutdown.drained hw).1
      rcases exists_worker haccounted hsize with ⟨w, hw⟩
      rw [hasleep w hw] at hw
      have hnotices : p.notices = 0 := by
        by_contra hne
        have hnone : p.step .notify = none := hrest .notify trivial
        cases (if_neg hne).symm.trans hnone
      have hwoken : p.wakeups.woken = 0 := tally_eq_zero_iff.mpr fun x hx => by
        rw [hasleep x hx]
        rfl
      have htasks : p.tasks = [] := by
        rcases covered_of_reachable hp with hnone | hcovered
        · exact absurd hnone (tally_ne_zero hw Nat.one_ne_zero)
        · apply List.eq_nil_of_length_eq_zero
          change p.tasks.length ≤ p.wakeups.woken + p.notices at hcovered
          omega
      exact finished_of_idle haccounted htasks fun x hx => Or.inl (hasleep x hx)

theorem step_execute {t : task} (hstep : p.step (.execute t) = some p') : p' = p.execute t := by
  rcases Option.ite_none_left_eq_some.mp hstep with ⟨_, heq⟩
  exact (Option.some.inj heq).symm

theorem accepted_of_submits {q q' : PooledThreadExecutor task} {l : Label task} {t : task}
    (hl : (executor task poolSize).submits l = some t) (hstopped : ¬q.stopped = true)
    (hstep : q.step l = some q') : (q'.accepted : Multiset task) = t ::ₘ q.accepted := by
  cases l with
  | execute t' =>
      cases hl
      rw [step_execute hstep]
      exact accepted_execute q t (eq_false_of_ne_true hstopped)
  | _ => cases hl

theorem notifyOne_accepted (p : PooledThreadExecutor task) :
    p.notifyOne.accepted = p.accepted := by
  unfold notifyOne
  split
  · rfl
  · rfl

/-- Only a call of `execute` adds to what is accepted. -/
theorem accepted_le {l : Label task} (hstep : p.step l = some p') :
    (p.accepted : Multiset task) ≤ p'.accepted := by
  cases l with
  | execute t =>
      rw [step_execute hstep]
      cases hstopped : p.stopped with
      | true =>
          have hsame : p.execute t = p := if_pos hstopped
          rw [hsame]
      | false =>
          rw [accepted_execute p t hstopped]
          exact Multiset.le_cons_self _ t
  | notify =>
      rcases Option.ite_none_left_eq_some.mp hstep with ⟨_, heq⟩
      cases heq
      rw [notifyOne_accepted]
  | work w =>
      rcases step_work hstep with ⟨q, hq, hadvance⟩
      rw [hq]
      exact le_of_eq (congrArg Multiset.ofList (advance_accepted hadvance).symm)
  | wake =>
      rcases step_wake hstep with ⟨q, hq, hq'⟩
      rw [hq, hq']
      exact le_refl _
  | stop =>
      rcases Option.ite_none_right_eq_some.mp hstep with ⟨_, heq⟩
      cases heq
      exact le_refl _
  | notifyAll =>
      rcases Option.ite_none_right_eq_some.mp hstep with ⟨_, heq⟩
      cases heq
      exact le_refl _
  | join =>
      rcases Option.ite_none_right_eq_some.mp hstep with ⟨_, heq⟩
      cases heq
      exact le_refl _

/-- A pool that has a worker loses no task. -/
theorem pool_losesNoTask (hsize : poolSize ≠ 0) (hp : (system task poolSize).Reachable p) :
    (executor task poolSize).LosesNoTask p where
  accepts _ _ _ hl hstopped hstep := accepted_of_submits hl hstopped hstep
  keeps _ _ hstep := accepted_le hstep
  once := by
    have haccounted := accounted_of_reachable hp
    change (p.accepted : Multiset task) = p.tasks + p.inHand + p.running + p.finished
    rw [haccounted.inOrder, ← Multiset.coe_add, haccounted.taken, haccounted.called]
    abel
  destructor hdone := finished_of_destroyed hp hsize hdone
  settles := TransitionSystem.settles_of_measure
    (fun _ _ _ hown hstep => own_step_work hown hstep)
    (fun _ hq hrest => allRun_of_rest hq hsize hrest) hp

/-- Tasks are taken off the queue in the order in which they came; one worker calls them so. -/
structure InOrder (p : PooledThreadExecutor task) : Prop where
  dequeued : p.accepted = p.dequeued ++ p.tasks
  started : (p.dequeued : Multiset task) = p.inHand + p.started
  oneWorker : p.workers.card = 1 -> p.started <+: p.accepted

theorem inOrder_of_reachable (hp : (system task poolSize).Reachable p) : p.InOrder := by
  have haccounted := accounted_of_reachable hp
  refine ⟨haccounted.inOrder, haccounted.taken, ?_⟩
  intro hone
  have hsize : poolSize = 1 := haccounted.size.symm.trans hone
  have hnonzero : poolSize ≠ 0 := by
    rw [hsize]
    exact Nat.one_ne_zero
  rcases exists_worker haccounted hnonzero with ⟨w, hw⟩
  refine ⟨w.held ++ p.tasks, ?_⟩
  rw [haccounted.inOrder, haccounted.oneByOne hsize w hw, List.append_assoc]

/-- Of two workers, one who took its task later may call it first. -/
example : ((system Nat 2).run (init Nat 2) [.execute 1, .execute 2, .work .entering,
    .work .entering, .work (.holding 2)]).map started = some [2] := by decide

/-- Without a worker, a task that is accepted is not run by anyone. -/
theorem not_losesNoTask_empty (t : task) :
    exists p, (system task 0).Reachable p ∧ ¬(executor task 0).LosesNoTask p := by
  have hstep : (system task 0).run (init task 0) [.execute t, .notify] =
      some ⟨[t], false, 0, 0, .notCalled, [t], [], [], 0⟩ := rfl
  refine ⟨_, ⟨init task 0, _, rfl, hstep⟩, ?_⟩
  intro hloses
  rcases hloses.settles with ⟨_, hbound⟩
  rcases hbound [] _ (fun l hl => (List.not_mem_nil hl).elim) rfl with ⟨_, hrest⟩
  have hnever : (system task 0).AtRest Label.own
      ⟨[t], false, 0, 0, .notCalled, [t], [], [], 0⟩ := by
    intro l hown
    cases l with
    | execute _ => exact hown.elim
    | wake => exact hown.elim
    | stop => exact hown.elim
    | _ => rfl
  have hfinished : (0 : Multiset task) = ([t] : List task) := (hrest hnever).1
  cases congrArg Multiset.card hfinished

end Rest

end PooledThreadExecutor
end Utils
end OssSdk
