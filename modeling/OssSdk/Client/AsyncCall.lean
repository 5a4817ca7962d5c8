import OssSdk.Utils.DefaultExecutor
import OssSdk.Utils.PoolAtRest

/-!
# Calls that return a future

The futures that a client hands out get their values from tasks that are given to an
executor, and each of the two executors runs every task that it accepts.  A pool without
workers accepts tasks as well.
-/

namespace OssSdk
namespace Client

open Utils

variable {state label task : Type}

/-- Where the value of a future comes from. -/
inductive Future (task : Type) where
  /-- From a promise that had its value when the future was made. -/
  | promised
  | packaged (t : task)

def Future.Ready (finished : Multiset task) : Future task -> Prop
  | .promised => True
  | .packaged t => t ∈ finished

/-- What is given to the executor, if there is one, and the future that is returned. -/
def asyncCall (hasExecutor : Bool) (t : task) : Option task × Future task :=
  if hasExecutor then (some t, .packaged t) else (none, .promised)

/-- The future of a call that is made now is ready at once, or gets ready by own moves. -/
def Answers (E : Executor state label task) (s : state) : Prop :=
  forall hasExecutor t,
    ((asyncCall hasExecutor t).1 = none ∧ (asyncCall hasExecutor t).2.Ready (E.finished s)) ∨
      forall l s', E.submits l = (asyncCall hasExecutor t).1 -> E.system.step s l = some s' ->
        E.system.Settles E.own (fun r => (asyncCall hasExecutor t).2.Ready (E.finished r)) s'

/-- Who makes a call keeps the executor, so its flag is not set. -/
theorem answers_of_losesNoTask {E : Executor state label task}
    (hE : forall s, E.system.Reachable s -> E.LosesNoTask s) {s : state}
    (hs : E.system.Reachable s) (hstopped : ¬E.stopped s) : Answers E s := by
  intro hasExecutor t
  cases hasExecutor with
  | false => exact Or.inl ⟨rfl, trivial⟩
  | true =>
      refine Or.inr ?_
      intro l s' hl hstep
      have hs' : E.system.Reachable s' :=
        hs.run (Foundation.TransitionSystem.run_cons_of_step [] hstep)
      have hmem : t ∈ E.accepted s' := by
        rw [(hE s hs).accepts l t s' hl hstopped hstep]
        exact Multiset.mem_cons_self t _
      rcases (hE s' hs').settles with ⟨bound, hbound⟩
      refine ⟨bound, ?_⟩
      intro labels r hown hrun
      rcases hbound labels r hown hrun with ⟨hlength, hall⟩
      refine ⟨hlength, ?_⟩
      intro hrest
      -- what was accepted stays so, and all of it has been run
      have hkept : E.system.Reachable r ∧ t ∈ E.accepted r := by
        refine Foundation.TransitionSystem.run_preserves (T := E.system)
          (P := fun r => E.system.Reachable r ∧ t ∈ E.accepted r) ?_ ⟨hs', hmem⟩ hrun
        rintro a l b ⟨ha, hta⟩ hab
        exact ⟨ha.run (Foundation.TransitionSystem.run_cons_of_step [] hab),
          Multiset.mem_of_le ((hE a ha).keeps l b hab) hta⟩
      change t ∈ E.finished r
      rw [(hall hrest).1]
      exact hkept.2

/-- Both executors run what they accept, if the pool is not empty. -/
theorem executors_loseNoTask_iff {id task : Type} [DecidableEq id] [DecidableEq task]
    [Inhabited task] (poolSize : Nat) :
    ((forall p, (PooledThreadExecutor.system task poolSize).Reachable p ->
        (PooledThreadExecutor.executor task poolSize).LosesNoTask p ∧ p.InOrder ∧
          (p.stopped = false -> Answers (PooledThreadExecutor.executor task poolSize) p)) ∧
      forall d, (DefaultExecutor.system id task).Reachable d ->
        (DefaultExecutor.executor id task).LosesNoTask d ∧
          (d.stopped = false -> Answers (DefaultExecutor.executor id task) d)) ↔
      poolSize ≠ 0 := by
  constructor
  · rintro ⟨hpool, _⟩ hempty
    rw [hempty] at hpool
    rcases PooledThreadExecutor.not_losesNoTask_empty (default : task) with ⟨p, hp, hloses⟩
    exact hloses (hpool p hp).1
  · intro hsize
    constructor
    · intro p hp
      refine ⟨PooledThreadExecutor.pool_losesNoTask hsize hp,
        PooledThreadExecutor.inOrder_of_reachable hp, ?_⟩
      intro hstopped
      exact answers_of_losesNoTask (E := PooledThreadExecutor.executor task poolSize)
        (fun q hq => PooledThreadExecutor.pool_losesNoTask hsize hq) hp
        (ne_true_of_eq_false hstopped)
    · intro d hd
      refine ⟨DefaultExecutor.default_losesNoTask hd, ?_⟩
      intro hstopped
      exact answers_of_losesNoTask (E := DefaultExecutor.executor id task)
        (fun e he => DefaultExecutor.default_losesNoTask he) hd
        (ne_true_of_eq_false hstopped)

/-- The destructor of a pool without workers returns, and the task has not been run. -/
theorem not_losesNoTask_noWorkers :
    ¬forall poolSize p, (PooledThreadExecutor.system Nat poolSize).Reachable p ->
      (PooledThreadExecutor.executor Nat poolSize).LosesNoTask p := by
  intro hall
  have hreachable : (PooledThreadExecutor.system Nat 0).Reachable
      ⟨[7], true, 0, 0, .returned, [7], [], [], 0⟩ :=
    ⟨PooledThreadExecutor.init Nat 0, [.execute 7, .notify, .stop, .notifyAll, .join], rfl,
      by decide +kernel⟩
  have hfinished : (0 : Multiset Nat) = ([7] : List Nat) :=
    (hall 0 _ hreachable).destructor rfl
  cases congrArg Multiset.card hfinished

end Client
end OssSdk
