import OssSdk.Foundation.Parties
import OssSdk.Utils.Executor
import Mathlib.Data.Multiset.Bind
import Mathlib.Tactic.Abel

/-!
# The executor with a thread for each task

A thread takes itself out of the map when its task is done; the destructor takes out those
that are left and joins them.  A critical section is one step, and so is the call of a
task.  A thread that cannot be made is an exception for who calls `execute`, and then no
task is accepted.
-/

namespace OssSdk
namespace Utils

open Foundation

variable {id task : Type}

/-- Where a thread is that has not ended. -/
inductive ThreadStage (task : Type) where
  /-- Before the task is called. -/
  | starting (t : task)
  | calling (t : task)
  /-- In `detach`, before it has the lock. -/
  | detaching
deriving DecidableEq

namespace ThreadStage

def waiting : ThreadStage task -> Multiset task
  | .starting t => {t}
  | _ => 0

def called : ThreadStage task -> Multiset task
  | .calling t => {t}
  | _ => 0

def work : ThreadStage task -> Nat
  | .starting _ => 3
  | .calling _ => 2
  | .detaching => 1

end ThreadStage

/-- Where the destructor is; `left` are the threads that it has yet to join. -/
inductive ThreadDestructor (id : Type) where
  | notCalled
  | joining (left : List id)
  | returned
deriving DecidableEq

def ThreadDestructor.work : ThreadDestructor id -> Nat
  | .joining left => left.length + 1
  | _ => 0

/-- `threads` are the keys of the map; the last two are what has happened to tasks so far. -/
structure DefaultExecutor (id task : Type) where
  threads : Multiset id
  stopped : Bool
  live : Multiset (id × ThreadStage task)
  destructor : ThreadDestructor id
  accepted : Multiset task
  finished : Multiset task

namespace DefaultExecutor

def init : DefaultExecutor id task := ⟨0, false, 0, .notCalled, 0, 0⟩

def waiting (d : DefaultExecutor id task) : Multiset task :=
  d.live.bind fun thread => thread.2.waiting

def running (d : DefaultExecutor id task) : Multiset task :=
  d.live.bind fun thread => thread.2.called

/-- No thread that can be joined, and none that has not ended, has this id. -/
def Fresh (d : DefaultExecutor id task) (self : id) : Prop :=
  self ∉ d.threads ∧ forall thread, thread ∈ d.live -> thread.1 ≠ self

def execute (d : DefaultExecutor id task) (t : task) (self : id) : DefaultExecutor id task :=
  if d.stopped then d
  else { d with
    threads := self ::ₘ d.threads
    live := (self, .starting t) ::ₘ d.live
    accepted := t ::ₘ d.accepted }

def become (d : DefaultExecutor id task) (self : id) (stage : ThreadStage task) :
    DefaultExecutor id task :=
  { d with live := (self, stage) ::ₘ d.live }

inductive Label (id task : Type) where
  | execute (t : task) (self : id)
  | thread (self : id) (stage : ThreadStage task)
  /-- The destructor takes the threads out of the map, in the order of the map. -/
  | stop (order : List id)
  | join

def Label.own : Label id task -> Prop
  | .execute _ _ => False
  | .stop _ => False
  | _ => True

section Steps

variable [DecidableEq id]

instance (d : DefaultExecutor id task) (self : id) : Decidable (d.Fresh self) := by
  unfold Fresh
  infer_instance

def detach (d : DefaultExecutor id task) (self : id) : DefaultExecutor id task :=
  if self ∈ d.threads then { d with threads := d.threads.erase self } else d

/-- The next step of a thread, which has been taken out of those that have not ended. -/
def advance (d : DefaultExecutor id task) (self : id) :
    ThreadStage task -> DefaultExecutor id task
  | .starting t => d.become self (.calling t)
  | .calling t => { d with finished := t ::ₘ d.finished }.become self .detaching
  | .detaching => d.detach self

/-- A join waits for the thread to end. -/
def join (d : DefaultExecutor id task) : Option (DefaultExecutor id task) :=
  match d.destructor with
  | .joining [] => some { d with destructor := .returned }
  | .joining (self :: left) =>
      if forall thread, thread ∈ d.live -> thread.1 ≠ self then
        some { d with destructor := .joining left }
      else none
  | _ => none

theorem join_cases {d d' : DefaultExecutor id task} (hjoin : d.join = some d') :
    (d.destructor = .joining [] ∧ d' = { d with destructor := .returned }) ∨
      exists self left, d.destructor = .joining (self :: left) ∧
        (forall thread, thread ∈ d.live -> thread.1 ≠ self) ∧
        d' = { d with destructor := .joining left } := by
  unfold join at hjoin
  split at hjoin
  · rename_i hdestructor
    exact Or.inl ⟨hdestructor, (Option.some.inj hjoin).symm⟩
  · rename_i self left hdestructor
    rcases Option.ite_none_right_eq_some.mp hjoin with ⟨hended, heq⟩
    exact Or.inr ⟨self, left, hdestructor, hended, (Option.some.inj heq).symm⟩
  · cases hjoin

theorem detach_fields (d : DefaultExecutor id task) (self : id) :
    d.detach self = { d with threads := d.threads.erase self } := by
  unfold detach
  split
  · rfl
  · rename_i hnone
    rw [Multiset.erase_of_notMem hnone]

variable [DecidableEq task]

def step (d : DefaultExecutor id task) : Label id task -> Option (DefaultExecutor id task)
  | .execute t self =>
      if d.destructor ≠ .returned ∧ d.Fresh self then some (d.execute t self) else none
  | .thread self stage =>
      if (self, stage) ∈ d.live then
        some ({ d with live := d.live.erase (self, stage) }.advance self stage)
      else none
  | .stop order =>
      if d.destructor = .notCalled ∧ order = d.threads then
        some { d with threads := 0, stopped := true, destructor := .joining order }
      else none
  | .join => d.join

variable (id task) in
def system : TransitionSystem (DefaultExecutor id task) (Label id task) where
  initial d := d = init
  step := step

variable (id task) in
def executor : Executor (DefaultExecutor id task) (Label id task) task where
  system := system id task
  own := Label.own
  submits
    | .execute t _ => some t
    | _ => none
  accepted := accepted
  waiting := waiting
  running := running
  finished := finished
  stopped d := d.stopped = true
  destroyed d := d.destructor = .returned

theorem become_erase {d : DefaultExecutor id task} {self : id} {stage : ThreadStage task}
    (hlive : (self, stage) ∈ d.live) :
    become { d with live := d.live.erase (self, stage) } self stage = d := by
  unfold become
  simp only [Multiset.cons_erase hlive]

theorem step_thread {d d' : DefaultExecutor id task} {self : id} {stage : ThreadStage task}
    (hstep : d.step (.thread self stage) = some d') :
    exists e : DefaultExecutor id task, d = e.become self stage ∧ d' = e.advance self stage := by
  rcases Option.ite_none_right_eq_some.mp hstep with ⟨hlive, heq⟩
  exact ⟨_, (become_erase hlive).symm, (Option.some.inj heq).symm⟩

end Steps

/-!
# Every task is accounted for
-/

/-- A thread that has not ended is in the map, or the destructor has yet to join it. -/
structure Accounted (d : DefaultExecutor id task) : Prop where
  tasks : d.accepted = d.waiting + d.running + d.finished
  flag : d.stopped = true ↔ d.destructor ≠ .notCalled
  mapped : d.destructor = .notCalled -> d.threads = d.live.map Prod.fst
  joined : forall left, d.destructor = .joining left ->
    forall thread, thread ∈ d.live -> thread.1 ∈ left
  ended : d.destructor = .returned -> d.live = 0

theorem waiting_become (d : DefaultExecutor id task) (self : id) (stage : ThreadStage task) :
    (d.become self stage).waiting = stage.waiting + d.waiting := by
  unfold waiting become
  simp only [Multiset.cons_bind]

theorem running_become (d : DefaultExecutor id task) (self : id) (stage : ThreadStage task) :
    (d.become self stage).running = stage.called + d.running := by
  unfold running become
  simp only [Multiset.cons_bind]

theorem Accounted.execute {d : DefaultExecutor id task} (hd : d.Accounted) (t : task)
    (self : id) : (d.execute t self).Accounted := by
  unfold DefaultExecutor.execute
  split
  · exact hd
  · rename_i hstopped
    have hrunning : d.destructor = .notCalled := by
      by_contra hcalled
      exact hstopped (hd.flag.mpr hcalled)
    refine ⟨?_, hd.flag, ?_, ?_, ?_⟩
    · have hwaiting := waiting_become d self (.starting t)
      have hcalled := running_become d self (.starting t)
      change t ::ₘ d.accepted = (d.become self (.starting t)).waiting +
        (d.become self (.starting t)).running + d.finished
      rw [hwaiting, hcalled, hd.tasks, ← Multiset.singleton_add]
      simp only [ThreadStage.waiting, ThreadStage.called]
      abel
    · intro _
      change self ::ₘ d.threads = ((self, .starting t) ::ₘ d.live).map Prod.fst
      rw [Multiset.map_cons, hd.mapped hrunning]
    · intro left hjoining
      cases hrunning.symm.trans hjoining
    · intro hdone
      cases hrunning.symm.trans hdone

/-- A thread that goes on keeps its place. -/
theorem Accounted.goes_on {d d' : DefaultExecutor id task} {self : id}
    {stage stage' : ThreadStage task} (hd : (d.become self stage).Accounted)
    (hlive : d'.live = d.live) (hthreads : d'.threads = d.threads)
    (hstopped : d'.stopped = d.stopped) (hdestructor : d'.destructor = d.destructor)
    (htasks : d'.accepted = (d'.become self stage').waiting + (d'.become self stage').running +
      d'.finished) : (d'.become self stage').Accounted := by
  refine ⟨htasks, ?_, ?_, ?_, ?_⟩
  · change d'.stopped = true ↔ d'.destructor ≠ .notCalled
    rw [hstopped, hdestructor]
    exact hd.flag
  · intro hrunning
    change d'.threads = ((self, stage') ::ₘ d'.live).map Prod.fst
    have hmapped := hd.mapped (hdestructor.symm.trans hrunning)
    rw [hthreads, hlive, Multiset.map_cons]
    exact hmapped.trans (Multiset.map_cons Prod.fst (self, stage) d.live)
  · intro left hjoining thread hthread
    have hleft := hd.joined left (hdestructor.symm.trans hjoining)
    rcases Multiset.mem_cons.mp hthread with heq | hmem
    · rw [heq]
      exact hleft (self, stage) (Multiset.mem_cons_self _ _)
    · rw [hlive] at hmem
      exact hleft thread (Multiset.mem_cons_of_mem hmem)
  · intro hdone
    have hnone := hd.ended (hdestructor.symm.trans hdone)
    exact absurd hnone (Multiset.cons_ne_zero)

section Runs

variable [DecidableEq id] {d d' : DefaultExecutor id task}

theorem Accounted.detach {self : id} (hd : (d.become self .detaching).Accounted) :
    (d.detach self).Accounted := by
  rw [detach_fields]
  refine ⟨?_, hd.flag, ?_, ?_, ?_⟩
  · have htasks := hd.tasks
    rw [waiting_become, running_become] at htasks
    simp only [ThreadStage.waiting, ThreadStage.called, Multiset.zero_add] at htasks
    exact htasks
  · intro hrunning
    have hmapped := hd.mapped hrunning
    change d.threads = ((self, .detaching) ::ₘ d.live).map Prod.fst at hmapped
    change d.threads.erase self = d.live.map Prod.fst
    rw [hmapped, Multiset.map_cons, Multiset.erase_cons_head]
  · intro left hjoining thread hthread
    exact hd.joined left hjoining thread (Multiset.mem_cons_of_mem hthread)
  · intro hdone
    exact absurd (hd.ended hdone) (Multiset.cons_ne_zero)

theorem advance_accounted {self : id} {stage : ThreadStage task}
    (hd : (d.become self stage).Accounted) : (d.advance self stage).Accounted := by
  have htasks := hd.tasks
  rw [waiting_become, running_become] at htasks
  change d.accepted = stage.waiting + d.waiting + (stage.called + d.running) + d.finished
    at htasks
  cases stage with
  | starting t =>
      refine hd.goes_on rfl rfl rfl rfl ?_
      rw [waiting_become, running_become, htasks]
      simp only [ThreadStage.waiting, ThreadStage.called]
      abel
  | calling t =>
      refine hd.goes_on rfl rfl rfl rfl ?_
      rw [waiting_become, running_become]
      change d.accepted = 0 + d.waiting + (0 + d.running) + (t ::ₘ d.finished)
      rw [htasks, ← Multiset.singleton_add]
      simp only [ThreadStage.waiting, ThreadStage.called]
      abel
  | detaching => exact hd.detach

theorem join_accounted (hd : d.Accounted) (hjoin : d.join = some d') : d'.Accounted := by
  rcases join_cases hjoin with ⟨hjoining, hd'⟩ | ⟨self, left, hjoining, hended, hd'⟩
  · have hstopped : d.stopped = true := by
      rw [hd.flag, hjoining]
      exact nofun
    rw [hd']
    refine ⟨hd.tasks, ⟨fun _ => nofun, fun _ => hstopped⟩, nofun, nofun, ?_⟩
    intro _
    exact Multiset.eq_zero_of_forall_notMem fun thread hthread =>
      List.not_mem_nil (hd.joined [] hjoining thread hthread)
  · have hstopped : d.stopped = true := by
      rw [hd.flag, hjoining]
      exact nofun
    rw [hd']
    refine ⟨hd.tasks, ⟨fun _ => nofun, fun _ => hstopped⟩, nofun, ?_, nofun⟩
    intro left' hleft' thread hthread
    cases hleft'
    rcases List.mem_cons.mp (hd.joined _ hjoining thread hthread) with heq | hmem
    · exact absurd heq (hended thread hthread)
    · exact hmem

variable [DecidableEq task]

theorem step_accounted {l : Label id task} (hd : d.Accounted) (hstep : d.step l = some d') :
    d'.Accounted := by
  cases l with
  | execute t self =>
      rcases Option.ite_none_right_eq_some.mp hstep with ⟨_, heq⟩
      cases heq
      exact hd.execute t self
  | thread self stage =>
      rcases step_thread hstep with ⟨e, he, heq⟩
      rw [he] at hd
      rw [heq]
      exact advance_accounted hd
  | stop order =>
      rcases Option.ite_none_right_eq_some.mp hstep with ⟨⟨hrunning, horder⟩, heq⟩
      cases heq
      refine ⟨hd.tasks, ⟨fun _ => nofun, fun _ => rfl⟩, nofun, ?_, nofun⟩
      intro left hleft thread hthread
      cases hleft
      have hmem : thread.1 ∈ (order : Multiset id) := by
        rw [horder, hd.mapped hrunning]
        exact Multiset.mem_map_of_mem Prod.fst hthread
      exact Multiset.mem_coe.mp hmem
  | join => exact join_accounted hd hstep

theorem accounted_of_reachable (hd : (system id task).Reachable d) : d.Accounted := by
  refine TransitionSystem.invariant_of_step (T := system id task) ?_ ?_ d hd
  · intro e he
    rw [he]
    exact ⟨rfl, ⟨nofun, fun hcalled => absurd rfl hcalled⟩, fun _ => rfl, nofun, nofun⟩
  · intro e l e' he hstep
    exact step_accounted he hstep

end Runs

/-!
# Coming to rest
-/

/-- By how many own moves the executor comes to rest at the latest. -/
def work (d : DefaultExecutor id task) : Nat :=
  tally d.live (fun thread => thread.2.work) + d.destructor.work

theorem work_become (d : DefaultExecutor id task) (self : id) (stage : ThreadStage task) :
    (d.become self stage).work =
      stage.work + tally d.live (fun thread => thread.2.work) + d.destructor.work := by
  unfold work become
  rw [tally_cons]

theorem finished_of_ended {d : DefaultExecutor id task} (hd : d.Accounted)
    (hlive : d.live = 0) : d.finished = d.accepted := by
  rw [hd.tasks]
  unfold waiting running
  rw [hlive, Multiset.zero_bind, Multiset.zero_bind, Multiset.zero_add, Multiset.zero_add]

section Rest

variable [DecidableEq id] {d d' : DefaultExecutor id task}

theorem advance_work (d : DefaultExecutor id task) (self : id) (stage : ThreadStage task) :
    (d.advance self stage).work < (d.become self stage).work := by
  rw [work_become]
  cases stage with
  | starting t =>
      change (d.become self (.calling t)).work < _
      rw [work_become]
      simp only [ThreadStage.work]
      omega
  | calling t =>
      change (become { d with finished := t ::ₘ d.finished } self .detaching).work < _
      rw [work_become]
      simp only [ThreadStage.work]
      omega
  | detaching =>
      change (d.detach self).work < _
      rw [detach_fields]
      unfold work
      simp only [ThreadStage.work]
      omega

theorem advance_accepted (d : DefaultExecutor id task) (self : id) (stage : ThreadStage task) :
    (d.advance self stage).accepted = d.accepted := by
  cases stage with
  | starting t => rfl
  | calling t => rfl
  | detaching =>
      change (d.detach self).accepted = d.accepted
      rw [detach_fields]

variable [DecidableEq task]

theorem own_step_work {l : Label id task} (hown : l.own) (hstep : d.step l = some d') :
    d'.work < d.work := by
  cases l with
  | execute t self => exact hown.elim
  | thread self stage =>
      rcases step_thread hstep with ⟨e, he, heq⟩
      rw [he, heq]
      exact advance_work e self stage
  | stop order => exact hown.elim
  | join =>
      rcases join_cases hstep with ⟨hjoining, heq⟩ | ⟨self, left, hjoining, _, heq⟩
      · rw [heq]
        unfold work
        rw [hjoining]
        exact Nat.lt_succ_self _
      · rw [heq]
        unfold work
        rw [hjoining]
        exact Nat.lt_succ_self _

/-- A thread that has not ended has a next step. -/
theorem live_of_rest (hrest : (system id task).AtRest Label.own d) : d.live = 0 := by
  apply Multiset.eq_zero_of_forall_notMem
  intro thread hthread
  have hnone : d.step (.thread thread.1 thread.2) = none :=
    hrest (.thread thread.1 thread.2) trivial
  cases (if_pos hthread).symm.trans hnone

theorem allRun_of_rest (hd : (system id task).Reachable d)
    (hrest : (system id task).AtRest Label.own d) : (executor id task).AllRun d := by
  have haccounted := accounted_of_reachable hd
  have hlive := live_of_rest hrest
  have hnone : d.join = none := hrest .join trivial
  refine ⟨finished_of_ended haccounted hlive, ?_⟩
  intro hstopped
  change d.destructor = .returned
  unfold join at hnone
  split at hnone
  · cases hnone
  · rename_i self left hjoining
    have hended : forall thread, thread ∈ d.live -> thread.1 ≠ self := by
      intro thread hthread
      rw [hlive] at hthread
      exact absurd hthread (Multiset.notMem_zero thread)
    cases (if_pos hended).symm.trans hnone
  · rename_i hnil hcons
    cases hdestructor : d.destructor with
    | notCalled => exact absurd hdestructor (haccounted.flag.mp hstopped)
    | joining left =>
        cases left with
        | nil => exact absurd hdestructor hnil
        | cons self left => exact absurd hdestructor (hcons self left)
    | returned => rfl

theorem accepted_of_submits {e e' : DefaultExecutor id task} {l : Label id task} {t : task}
    (hl : (executor id task).submits l = some t) (hstopped : ¬e.stopped = true)
    (hstep : e.step l = some e') : e'.accepted = t ::ₘ e.accepted := by
  cases l with
  | execute t' self =>
      cases hl
      rcases Option.ite_none_right_eq_some.mp hstep with ⟨_, heq⟩
      have htaken : e.execute t self = { e with
          threads := self ::ₘ e.threads
          live := (self, .starting t) ::ₘ e.live
          accepted := t ::ₘ e.accepted } := if_neg hstopped
      rw [← Option.some.inj heq, htaken]
  | _ => cases hl

/-- Only a call of `execute` adds to what is accepted. -/
theorem accepted_le {l : Label id task} (hstep : d.step l = some d') :
    d.accepted ≤ d'.accepted := by
  cases l with
  | execute t self =>
      rcases Option.ite_none_right_eq_some.mp hstep with ⟨_, heq⟩
      rw [← Option.some.inj heq]
      unfold execute
      split
      · exact le_refl _
      · exact Multiset.le_cons_self _ t
  | thread self stage =>
      rcases step_thread hstep with ⟨e, he, heq⟩
      rw [he, heq, advance_accepted]
      exact le_refl _
  | stop order =>
      rcases Option.ite_none_right_eq_some.mp hstep with ⟨_, heq⟩
      cases heq
      exact le_refl _
  | join =>
      rcases join_cases hstep with ⟨_, heq⟩ | ⟨_, _, _, _, heq⟩
      · rw [heq]
      · rw [heq]

theorem default_losesNoTask (hd : (system id task).Reachable d) :
    (executor id task).LosesNoTask d where
  accepts _ _ _ hl hstopped hstep := accepted_of_submits hl hstopped hstep
  keeps _ _ hstep := accepted_le hstep
  once := (accounted_of_reachable hd).tasks
  destructor hdone := finished_of_ended (accounted_of_reachable hd)
    ((accounted_of_reachable hd).ended hdone)
  settles := TransitionSystem.settles_of_measure
    (fun _ _ _ hown hstep => own_step_work hown hstep)
    (fun _ he hrest => allRun_of_rest he hrest) hd

end Rest

end DefaultExecutor
end Utils
end OssSdk
