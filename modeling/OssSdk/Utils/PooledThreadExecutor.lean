import OssSdk.Utils.Executor
import Mathlib.Data.Multiset.Bind
import Mathlib.Data.Multiset.Replicate
import Mathlib.Tactic.Abel

/-!
# The executor with a pool of threads

Any number of threads call `execute`, and so may the tasks.  A step is what a thread does
between two points where another can be seen to have moved: a critical section, a
notification, a call of a task.  Workers at the same point are alike.

A task is a function that can be called, and that returns.
-/

namespace OssSdk
namespace Utils

open Foundation

variable {task : Type}

/-!
# Workers
-/

/-- Where a thread is in `workerLoop`. -/
inductive PoolWorker (task : Type) where
  /-- At the head of the loop, before it has the lock. -/
  | entering
  /-- Blocked in `cv_.wait`. -/
  | asleep
  /-- Woken in it, before it has the lock again. -/
  | woken
  /-- With a task that is off the queue and not called yet. -/
  | holding (t : task)
  | running (t : task)
  | returned
deriving DecidableEq

namespace PoolWorker

def held : PoolWorker task -> List task
  | .holding t => [t]
  | _ => []

def called : PoolWorker task -> List task
  | .running t => [t]
  | _ => []

def notified : PoolWorker task -> PoolWorker task
  | .asleep => .woken
  | w => w

end PoolWorker

/-- Where the destructor is. -/
inductive PoolDestructor where
  | notCalled
  /-- The flag is set, and no one has been notified of it. -/
  | stopping
  | joining
  | returned
deriving DecidableEq

/-!
# The pool
-/

/--
`notices` counts the calls of `execute` that have a task in the queue and have not
notified anyone.  The last four are what has happened to tasks so far.
-/
structure PooledThreadExecutor (task : Type) where
  tasks : List task
  stopped : Bool
  workers : Multiset (PoolWorker task)
  notices : Nat
  destructor : PoolDestructor
  accepted : List task
  dequeued : List task
  started : List task
  finished : Multiset task
deriving DecidableEq

namespace PooledThreadExecutor

def init (task : Type) (poolSize : Nat) : PooledThreadExecutor task :=
  ⟨[], false, Multiset.replicate poolSize .entering, 0, .notCalled, [], [], [], 0⟩

def become (p : PooledThreadExecutor task) (w : PoolWorker task) : PooledThreadExecutor task :=
  { p with workers := w ::ₘ p.workers }

def inHand (p : PooledThreadExecutor task) : Multiset task :=
  p.workers.bind fun w => w.held

def running (p : PooledThreadExecutor task) : Multiset task :=
  p.workers.bind fun w => w.called

/-- Up to the end of the critical section; after the flag is set, nothing is done. -/
def execute (p : PooledThreadExecutor task) (t : task) : PooledThreadExecutor task :=
  if p.stopped then p
  else { p with
    tasks := p.tasks ++ [t]
    notices := p.notices + 1
    accepted := p.accepted ++ [t] }

/-- A worker has the lock: the predicate of `cv_.wait`, and what follows the wait. -/
def look (p : PooledThreadExecutor task) : PooledThreadExecutor task :=
  match p.tasks with
  | [] => p.become (if p.stopped then .returned else .asleep)
  | t :: rest =>
      { p with tasks := rest, dequeued := p.dequeued ++ [t] }.become (.holding t)

/-- The next step of a worker, who has been taken out of the workers. -/
def advance (p : PooledThreadExecutor task) :
    PoolWorker task -> Option (PooledThreadExecutor task)
  | .entering => some p.look
  | .asleep => none
  | .woken => some p.look
  | .holding t => some ({ p with started := p.started ++ [t] }.become (.running t))
  | .running t => some ({ p with finished := t ::ₘ p.finished }.become .entering)
  | .returned => none

theorem look_cases (p : PooledThreadExecutor task) :
    (p.tasks = [] ∧ p.stopped = true ∧ p.look = p.become .returned) ∨
      (p.tasks = [] ∧ p.stopped = false ∧ p.look = p.become .asleep) ∨
        exists t rest, p.tasks = t :: rest ∧
          p.look = become { p with tasks := rest, dequeued := p.dequeued ++ [t] } (.holding t) := by
  unfold look
  split
  · rename_i htasks
    cases hstopped : p.stopped with
    | true => exact Or.inl ⟨htasks, rfl, rfl⟩
    | false => exact Or.inr (Or.inl ⟨htasks, rfl, rfl⟩)
  · rename_i t rest htasks
    exact Or.inr (Or.inr ⟨t, rest, htasks, rfl⟩)

/-- One who sleeps has been woken. -/
def Rouses (p p' : PooledThreadExecutor task) : Prop :=
  exists q : PooledThreadExecutor task, p = q.become .asleep ∧ p' = q.become .woken

section Steps

variable [DecidableEq task]

def notifyOne (p : PooledThreadExecutor task) : PooledThreadExecutor task :=
  if .asleep ∈ p.workers then { p with workers := .woken ::ₘ p.workers.erase .asleep } else p

/-- `wake` is one for no reason; `stop`, `notifyAll` and `join` are the destructor's. -/
inductive Label (task : Type) where
  | execute (t : task)
  | notify
  | work (w : PoolWorker task)
  | wake
  | stop
  | notifyAll
  | join
deriving DecidableEq

def Label.own : Label task -> Prop
  | .execute _ => False
  | .wake => False
  | .stop => False
  | _ => True

/-- Who notifies after the destructor has returned wakes no one. -/
def step (p : PooledThreadExecutor task) : Label task -> Option (PooledThreadExecutor task)
  | .execute t => if p.destructor = .returned then none else some (p.execute t)
  | .notify =>
      if p.notices = 0 then none else some { p with notices := p.notices - 1 }.notifyOne
  | .work w => if w ∈ p.workers then { p with workers := p.workers.erase w }.advance w else none
  | .wake =>
      if .asleep ∈ p.workers then
        some { p with workers := .woken ::ₘ p.workers.erase .asleep }
      else none
  | .stop =>
      if p.destructor = .notCalled then some { p with stopped := true, destructor := .stopping }
      else none
  | .notifyAll =>
      if p.destructor = .stopping then
        some { p with workers := p.workers.map PoolWorker.notified, destructor := .joining }
      else none
  | .join =>
      if p.destructor = .joining ∧ forall w, w ∈ p.workers -> w = .returned then
        some { p with destructor := .returned }
      else none

variable (task) in
def system (poolSize : Nat) : TransitionSystem (PooledThreadExecutor task) (Label task) where
  initial p := p = init task poolSize
  step := step

variable (task) in
def executor (poolSize : Nat) : Executor (PooledThreadExecutor task) (Label task) task where
  system := system task poolSize
  own := Label.own
  submits
    | .execute t => some t
    | _ => none
  accepted p := p.accepted
  waiting p := p.tasks + p.inHand
  running := running
  finished := finished
  stopped p := p.stopped = true
  destroyed p := p.destructor = .returned

/-!
# What a step does
-/

theorem become_erase {p : PooledThreadExecutor task} {w : PoolWorker task}
    (hw : w ∈ p.workers) : become { p with workers := p.workers.erase w } w = p := by
  unfold become
  simp only [Multiset.cons_erase hw]

theorem step_work {p p' : PooledThreadExecutor task} {w : PoolWorker task}
    (hstep : p.step (.work w) = some p') :
    exists q : PooledThreadExecutor task, p = q.become w ∧ q.advance w = some p' := by
  rcases Option.ite_none_right_eq_some.mp hstep with ⟨hw, hadvance⟩
  exact ⟨_, (become_erase hw).symm, hadvance⟩

theorem step_wake {p p' : PooledThreadExecutor task} (hstep : p.step .wake = some p') :
    p.Rouses p' := by
  rcases Option.ite_none_right_eq_some.mp hstep with ⟨hasleep, hwoken⟩
  exact ⟨{ p with workers := p.workers.erase .asleep }, (become_erase hasleep).symm,
    (Option.some.inj hwoken).symm⟩

theorem notifyOne_cases (p : PooledThreadExecutor task) :
    (.asleep ∉ p.workers ∧ p.notifyOne = p) ∨ p.Rouses p.notifyOne := by
  unfold notifyOne
  split
  · rename_i hasleep
    exact Or.inr ⟨{ p with workers := p.workers.erase .asleep }, (become_erase hasleep).symm, rfl⟩
  · rename_i hasleep
    exact Or.inl ⟨hasleep, rfl⟩

end Steps

/-!
# Every task is accounted for
-/

theorem inHand_become (p : PooledThreadExecutor task) (w : PoolWorker task) :
    (p.become w).inHand = w.held + p.inHand := by
  unfold inHand become
  simp only [Multiset.cons_bind]

theorem running_become (p : PooledThreadExecutor task) (w : PoolWorker task) :
    (p.become w).running = w.called + p.running := by
  unfold running become
  simp only [Multiset.cons_bind]

structure Accounted (poolSize : Nat) (p : PooledThreadExecutor task) : Prop where
  size : p.workers.card = poolSize
  inOrder : p.accepted = p.dequeued ++ p.tasks
  taken : (p.dequeued : Multiset task) = p.inHand + p.started
  called : (p.started : Multiset task) = p.running + p.finished
  oneByOne : poolSize = 1 -> forall w, w ∈ p.workers -> p.dequeued = p.started ++ w.held

/-- A worker alone in the pool has no others beside it. -/
theorem accounted_become_iff (poolSize : Nat) (p : PooledThreadExecutor task)
    (w : PoolWorker task) :
    (p.become w).Accounted poolSize ↔
      p.workers.card + 1 = poolSize ∧ p.accepted = p.dequeued ++ p.tasks ∧
        (p.dequeued : Multiset task) = w.held + p.inHand + p.started ∧
        (p.started : Multiset task) = w.called + p.running + p.finished ∧
        (poolSize = 1 -> p.dequeued = p.started ++ w.held) := by
  constructor
  · rintro ⟨hsize, hinOrder, htaken, hcalled, honeByOne⟩
    rw [inHand_become] at htaken
    rw [running_become] at hcalled
    refine ⟨?_, hinOrder, htaken, hcalled, ?_⟩
    · rw [← hsize]
      exact (Multiset.card_cons w p.workers).symm
    · intro hone
      exact honeByOne hone w (Multiset.mem_cons_self w p.workers)
  · rintro ⟨hsize, hinOrder, htaken, hcalled, honeByOne⟩
    constructor
    · rw [← hsize]
      exact Multiset.card_cons w p.workers
    · exact hinOrder
    · rw [inHand_become]
      exact htaken
    · rw [running_become]
      exact hcalled
    · intro hone x hx
      have hcard : p.workers.card = 0 := by omega
      have hx' : x ∈ w ::ₘ p.workers := hx
      rw [Multiset.card_eq_zero.mp hcard] at hx'
      rw [Multiset.mem_singleton.mp hx']
      exact honeByOne hone

theorem Accounted.same_tasks {poolSize : Nat} {p : PooledThreadExecutor task}
    {w w' : PoolWorker task} (hp : (p.become w).Accounted poolSize) (hheld : w'.held = w.held)
    (hcalled : w'.called = w.called) : (p.become w').Accounted poolSize := by
  rw [accounted_become_iff] at hp ⊢
  rw [hheld, hcalled]
  exact hp

theorem Accounted.look {poolSize : Nat} {p : PooledThreadExecutor task} {w : PoolWorker task}
    (hp : (p.become w).Accounted poolSize) (hheld : w.held = []) (hcalled : w.called = []) :
    p.look.Accounted poolSize := by
  rcases look_cases p with ⟨_, _, hlook⟩ | ⟨_, _, hlook⟩ | ⟨t, rest, htasks, hlook⟩
  · rw [hlook]
    exact hp.same_tasks hheld.symm hcalled.symm
  · rw [hlook]
    exact hp.same_tasks hheld.symm hcalled.symm
  · rw [hlook]
    rw [accounted_become_iff] at hp ⊢
    rw [hheld, hcalled, htasks] at hp
    rcases hp with ⟨hsize, hinOrder, htaken, hstarted, honeByOne⟩
    refine ⟨hsize, ?_, ?_, hstarted, ?_⟩
    · rw [List.append_assoc]
      exact hinOrder
    · change ((p.dequeued ++ [t] : List task) : Multiset task) = ([t] : List task) +
        p.inHand + p.started
      rw [← Multiset.coe_add, htaken, Multiset.coe_nil]
      abel
    · intro hone
      change p.dequeued ++ [t] = p.started ++ [t]
      rw [honeByOne hone, List.append_nil]

theorem Accounted.call {poolSize : Nat} {p : PooledThreadExecutor task} {t : task}
    (hp : (p.become (.holding t)).Accounted poolSize) :
    (become { p with started := p.started ++ [t] } (.running t)).Accounted poolSize := by
  rw [accounted_become_iff] at hp ⊢
  rcases hp with ⟨hsize, hinOrder, htaken, hstarted, honeByOne⟩
  refine ⟨hsize, hinOrder, ?_, ?_, ?_⟩
  · change (p.dequeued : Multiset task) = ([] : List task) + p.inHand +
      ((p.started ++ [t] : List task) : Multiset task)
    rw [htaken, ← Multiset.coe_add, Multiset.coe_nil, PoolWorker.held]
    abel
  · change (p.started : Multiset task) = ([] : List task) + p.running + p.finished at hstarted
    change ((p.started ++ [t] : List task) : Multiset task) = ([t] : List task) +
      p.running + p.finished
    rw [← Multiset.coe_add, hstarted, Multiset.coe_nil]
    abel
  · intro hone
    change p.dequeued = (p.started ++ [t]) ++ []
    rw [List.append_nil]
    exact honeByOne hone

theorem Accounted.finish {poolSize : Nat} {p : PooledThreadExecutor task} {t : task}
    (hp : (p.become (.running t)).Accounted poolSize) :
    (become { p with finished := t ::ₘ p.finished } .entering).Accounted poolSize := by
  rw [accounted_become_iff] at hp ⊢
  rcases hp with ⟨hsize, hinOrder, htaken, hstarted, honeByOne⟩
  refine ⟨hsize, hinOrder, htaken, ?_, honeByOne⟩
  change (p.started : Multiset task) = ([] : List task) + p.running + (t ::ₘ p.finished)
  rw [hstarted, PoolWorker.called, Multiset.coe_nil, Multiset.coe_singleton,
    ← Multiset.singleton_add]
  abel

theorem advance_accounted {poolSize : Nat} {p p' : PooledThreadExecutor task}
    {w : PoolWorker task} (hp : (p.become w).Accounted poolSize)
    (hadvance : p.advance w = some p') : p'.Accounted poolSize := by
  cases w with
  | entering =>
      cases hadvance
      exact hp.look rfl rfl
  | asleep => cases hadvance
  | woken =>
      cases hadvance
      exact hp.look rfl rfl
  | holding t =>
      cases hadvance
      exact hp.call
  | running t =>
      cases hadvance
      exact hp.finish
  | returned => cases hadvance

theorem Accounted.execute {poolSize : Nat} {p : PooledThreadExecutor task}
    (hp : p.Accounted poolSize) (t : task) : (p.execute t).Accounted poolSize := by
  unfold PooledThreadExecutor.execute
  split
  · exact hp
  · refine ⟨hp.size, ?_, hp.taken, hp.called, hp.oneByOne⟩
    change p.accepted ++ [t] = p.dequeued ++ (p.tasks ++ [t])
    rw [hp.inOrder, List.append_assoc]

theorem Accounted.rouse {poolSize : Nat} {p p' : PooledThreadExecutor task}
    (hp : p.Accounted poolSize) (hrouses : p.Rouses p') : p'.Accounted poolSize := by
  rcases hrouses with ⟨q, hq, hq'⟩
  rw [hq] at hp
  rw [hq']
  exact hp.same_tasks rfl rfl

theorem notified_held (w : PoolWorker task) : w.notified.held = w.held := by
  cases w
  all_goals rfl

theorem notified_called (w : PoolWorker task) : w.notified.called = w.called := by
  cases w
  all_goals rfl

theorem Accounted.notifyAll {poolSize : Nat} {p : PooledThreadExecutor task}
    (hp : p.Accounted poolSize) (destructor : PoolDestructor) :
    Accounted poolSize { p with
      workers := p.workers.map PoolWorker.notified
      destructor := destructor } := by
  refine ⟨?_, hp.inOrder, ?_, ?_, ?_⟩
  · rw [Multiset.card_map]
    exact hp.size
  · unfold inHand
    rw [Multiset.bind_map]
    simp only [notified_held]
    exact hp.taken
  · unfold running
    rw [Multiset.bind_map]
    simp only [notified_called]
    exact hp.called
  · intro hone w hw
    rcases Multiset.mem_map.mp hw with ⟨x, hx, heq⟩
    rw [← heq, notified_held]
    exact hp.oneByOne hone x hx

theorem bind_eq_zero {workers : Multiset (PoolWorker task)} {f : PoolWorker task -> List task}
    (hf : forall w, w ∈ workers -> f w = []) :
    (workers.bind fun w => (f w : Multiset task)) = 0 := by
  rw [Multiset.bind_congr fun w hw => congrArg Multiset.ofList (hf w hw)]
  exact Multiset.bind_zero workers

theorem init_accounted (poolSize : Nat) : (init task poolSize).Accounted poolSize := by
  have hentering : forall w, w ∈ (init task poolSize).workers -> w = .entering :=
    fun w hw => Multiset.eq_of_mem_replicate hw
  refine ⟨Multiset.card_replicate _ _, rfl, ?_, ?_, ?_⟩
  · have hnone : (init task poolSize).inHand = 0 := bind_eq_zero fun w hw => by
      rw [hentering w hw]
      rfl
    rw [hnone]
    rfl
  · have hnone : (init task poolSize).running = 0 := bind_eq_zero fun w hw => by
      rw [hentering w hw]
      rfl
    rw [hnone]
    rfl
  · intro _ w hw
    rw [hentering w hw]
    rfl

/-!
# The destructor
-/

/-- No worker returns as long as there is a task, and none sleeps who has been told to stop. -/
structure Shutdown (p : PooledThreadExecutor task) : Prop where
  flag : p.stopped = true ↔ p.destructor ≠ .notCalled
  drained : .returned ∈ p.workers -> p.stopped = true ∧ p.tasks = []
  awake : p.destructor = .joining -> .asleep ∉ p.workers
  joined : p.destructor = .returned -> forall w, w ∈ p.workers -> w = .returned

theorem mem_become_of_ne {p : PooledThreadExecutor task} {w x : PoolWorker task}
    (hx : x ∈ (p.become w).workers) (hne : w ≠ x) : x ∈ p.workers := by
  rcases Multiset.mem_cons.mp hx with heq | hmem
  · exact absurd heq.symm hne
  · exact hmem

theorem Shutdown.goes_on {p p' : PooledThreadExecutor task} {w w' : PoolWorker task}
    (hp : (p.become w).Shutdown) (hw : w ≠ .returned) (hreturned : w' ≠ .returned)
    (hasleep : w' ≠ .asleep) (hworkers : p'.workers = p.workers)
    (hstopped : p'.stopped = p.stopped) (hdestructor : p'.destructor = p.destructor)
    (htasks : p.tasks = [] -> p'.tasks = []) : (p'.become w').Shutdown := by
  constructor
  · change p'.stopped = true ↔ p'.destructor ≠ .notCalled
    rw [hstopped, hdestructor]
    exact hp.flag
  · intro hmem
    have hmem' : .returned ∈ p'.workers := mem_become_of_ne hmem hreturned
    rw [hworkers] at hmem'
    rcases hp.drained (Multiset.mem_cons_of_mem hmem') with ⟨hstop, hempty⟩
    exact ⟨hstopped.trans hstop, htasks hempty⟩
  · intro hjoining hmem
    have hmem' : .asleep ∈ p'.workers := mem_become_of_ne hmem hasleep
    rw [hworkers] at hmem'
    exact hp.awake (hdestructor.symm.trans hjoining) (Multiset.mem_cons_of_mem hmem')
  · intro hdone
    exact absurd (hp.joined (hdestructor.symm.trans hdone) w (Multiset.mem_cons_self w _)) hw

theorem Shutdown.look {p : PooledThreadExecutor task} {w : PoolWorker task}
    (hp : (p.become w).Shutdown) (hw : w ≠ .returned) : p.look.Shutdown := by
  rcases look_cases p with
    ⟨htasks, hstopped, hlook⟩ | ⟨_, hstopped, hlook⟩ | ⟨t, rest, htasks, hlook⟩
  · rw [hlook]
    constructor
    · exact hp.flag
    · intro _
      exact ⟨hstopped, htasks⟩
    · intro hjoining hmem
      exact hp.awake hjoining (Multiset.mem_cons_of_mem (mem_become_of_ne hmem nofun))
    · intro hdone
      exact absurd (hp.joined hdone w (Multiset.mem_cons_self w _)) hw
  · have hrunning : p.destructor = .notCalled := by
      by_contra hcalled
      cases hstopped.symm.trans (hp.flag.mpr hcalled)
    rw [hlook]
    constructor
    · exact hp.flag
    · intro hmem
      exact hp.drained (Multiset.mem_cons_of_mem (mem_become_of_ne hmem nofun))
    · intro hjoining
      cases hrunning.symm.trans hjoining
    · intro hdone
      cases hrunning.symm.trans hdone
  · rw [hlook]
    refine hp.goes_on hw nofun nofun rfl rfl rfl ?_
    intro hempty
    cases htasks.symm.trans hempty

theorem advance_shutdown {p p' : PooledThreadExecutor task} {w : PoolWorker task}
    (hp : (p.become w).Shutdown) (hadvance : p.advance w = some p') : p'.Shutdown := by
  cases w with
  | entering =>
      cases hadvance
      exact hp.look nofun
  | asleep => cases hadvance
  | woken =>
      cases hadvance
      exact hp.look nofun
  | holding t =>
      cases hadvance
      exact hp.goes_on nofun nofun nofun
        rfl rfl rfl fun htasks => htasks
  | running t =>
      cases hadvance
      exact hp.goes_on nofun nofun nofun
        rfl rfl rfl fun htasks => htasks
  | returned => cases hadvance

theorem Shutdown.rouse {p p' : PooledThreadExecutor task} (hp : p.Shutdown)
    (hrouses : p.Rouses p') : p'.Shutdown := by
  rcases hrouses with ⟨q, hq, hq'⟩
  rw [hq] at hp
  rw [hq']
  exact hp.goes_on nofun nofun nofun
    rfl rfl rfl fun htasks => htasks

theorem Shutdown.execute {p : PooledThreadExecutor task} (hp : p.Shutdown) (t : task) :
    (p.execute t).Shutdown := by
  unfold PooledThreadExecutor.execute
  split
  · exact hp
  · rename_i hstopped
    refine ⟨hp.flag, ?_, hp.awake, hp.joined⟩
    intro hmem
    exact absurd (hp.drained hmem).1 hstopped

theorem Shutdown.stop {p : PooledThreadExecutor task} (hp : p.Shutdown) :
    Shutdown { p with stopped := true, destructor := .stopping } := by
  refine ⟨⟨fun _ => nofun, fun _ => rfl⟩, ?_, ?_, ?_⟩
  · intro hmem
    exact ⟨rfl, (hp.drained hmem).2⟩
  · intro hjoining
    cases hjoining
  · intro hdone
    cases hdone

theorem Shutdown.notifyAll {p : PooledThreadExecutor task} (hp : p.Shutdown)
    (hstopping : p.destructor = .stopping) :
    Shutdown { p with workers := p.workers.map PoolWorker.notified, destructor := .joining } := by
  have hstopped : p.stopped = true := by
    rw [hp.flag, hstopping]
    exact nofun
  refine ⟨⟨fun _ => nofun, fun _ => hstopped⟩, ?_, ?_, ?_⟩
  · intro hmem
    rcases Multiset.mem_map.mp hmem with ⟨w, hw, heq⟩
    cases w with
    | returned => exact hp.drained hw
    | _ => cases heq
  · intro _ hmem
    rcases Multiset.mem_map.mp hmem with ⟨w, _, heq⟩
    cases w
    all_goals cases heq
  · intro hdone
    cases hdone

theorem Shutdown.join {p : PooledThreadExecutor task} (hp : p.Shutdown)
    (hjoining : p.destructor = .joining) (hworkers : forall w, w ∈ p.workers -> w = .returned) :
    Shutdown { p with destructor := .returned } := by
  have hstopped : p.stopped = true := by
    rw [hp.flag, hjoining]
    exact nofun
  refine ⟨⟨fun _ => nofun, fun _ => hstopped⟩, hp.drained, ?_, ?_⟩
  · intro hagain
    cases hagain
  · intro _
    exact hworkers

theorem init_shutdown (poolSize : Nat) : (init task poolSize).Shutdown := by
  have hentering : forall w, w ∈ (init task poolSize).workers -> w = .entering :=
    fun w hw => Multiset.eq_of_mem_replicate hw
  refine ⟨⟨fun hstopped => ?_, fun hcalled => absurd rfl hcalled⟩, ?_, ?_, ?_⟩
  · cases hstopped
  · intro hmem
    cases hentering _ hmem
  · intro hjoining
    cases hjoining
  · intro hdone
    cases hdone

/-!
# Steps and runs
-/

section Runs

variable [DecidableEq task] {poolSize : Nat} {p p' : PooledThreadExecutor task}

theorem step_accounted {l : Label task} (hp : p.Accounted poolSize)
    (hstep : p.step l = some p') : p'.Accounted poolSize := by
  cases l with
  | execute t =>
      rcases Option.ite_none_left_eq_some.mp hstep with ⟨_, heq⟩
      cases heq
      exact hp.execute t
  | notify =>
      rcases Option.ite_none_left_eq_some.mp hstep with ⟨_, heq⟩
      cases heq
      have hp' : Accounted poolSize { p with notices := p.notices - 1 } :=
        ⟨hp.size, hp.inOrder, hp.taken, hp.called, hp.oneByOne⟩
      rcases notifyOne_cases { p with notices := p.notices - 1 } with ⟨_, hsame⟩ | hrouses
      · rw [hsame]
        exact hp'
      · exact hp'.rouse hrouses
  | work w =>
      rcases step_work hstep with ⟨q, hq, hadvance⟩
      rw [hq] at hp
      exact advance_accounted hp hadvance
  | wake => exact hp.rouse (step_wake hstep)
  | stop =>
      rcases Option.ite_none_right_eq_some.mp hstep with ⟨_, heq⟩
      cases heq
      exact ⟨hp.size, hp.inOrder, hp.taken, hp.called, hp.oneByOne⟩
  | notifyAll =>
      rcases Option.ite_none_right_eq_some.mp hstep with ⟨_, heq⟩
      cases heq
      exact hp.notifyAll .joining
  | join =>
      rcases Option.ite_none_right_eq_some.mp hstep with ⟨_, heq⟩
      cases heq
      exact ⟨hp.size, hp.inOrder, hp.taken, hp.called, hp.oneByOne⟩

theorem step_shutdown {l : Label task} (hp : p.Shutdown) (hstep : p.step l = some p') :
    p'.Shutdown := by
  cases l with
  | execute t =>
      rcases Option.ite_none_left_eq_some.mp hstep with ⟨_, heq⟩
      cases heq
      exact hp.execute t
  | notify =>
      rcases Option.ite_none_left_eq_some.mp hstep with ⟨_, heq⟩
      cases heq
      have hp' : Shutdown { p with notices := p.notices - 1 } :=
        ⟨hp.flag, hp.drained, hp.awake, hp.joined⟩
      rcases notifyOne_cases { p with notices := p.notices - 1 } with ⟨_, hsame⟩ | hrouses
      · rw [hsame]
        exact hp'
      · exact hp'.rouse hrouses
  | work w =>
      rcases step_work hstep with ⟨q, hq, hadvance⟩
      rw [hq] at hp
      exact advance_shutdown hp hadvance
  | wake => exact hp.rouse (step_wake hstep)
  | stop =>
      rcases Option.ite_none_right_eq_some.mp hstep with ⟨_, heq⟩
      cases heq
      exact hp.stop
  | notifyAll =>
      rcases Option.ite_none_right_eq_some.mp hstep with ⟨hstopping, heq⟩
      cases heq
      exact hp.notifyAll hstopping
  | join =>
      rcases Option.ite_none_right_eq_some.mp hstep with ⟨⟨hjoining, hworkers⟩, heq⟩
      cases heq
      exact hp.join hjoining hworkers

theorem accounted_of_reachable (hp : (system task poolSize).Reachable p) :
    p.Accounted poolSize := by
  refine TransitionSystem.invariant_of_step (T := system task poolSize) ?_ ?_ p hp
  · intro q hq
    rw [hq]
    exact init_accounted poolSize
  · intro q l q' hq hstep
    exact step_accounted hq hstep

theorem shutdown_of_reachable (hp : (system task poolSize).Reachable p) : p.Shutdown := by
  refine TransitionSystem.invariant_of_step (T := system task poolSize) ?_ ?_ p hp
  · intro q hq
    rw [hq]
    exact init_shutdown poolSize
  · intro q l q' hq hstep
    exact step_shutdown hq hstep

end Runs

end PooledThreadExecutor
end Utils
end OssSdk
