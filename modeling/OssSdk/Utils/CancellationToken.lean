import OssSdk.Foundation.Parties
import OssSdk.Utils.CancellationTokenSource

/-!
# Waiting for a cancellation

Any number of threads are in `waitFor`, with tokens of one source, and any number of them in
`cancel` and `cancelAfter`.  Who waits sleeps on the condition variable of the source, and
looks at the deadline while it holds the mutex.  `cancel` lowers the deadline without the
mutex, and takes it for the notification only.
-/

namespace OssSdk
namespace Utils

open Foundation

/-- A call of `waitFor`; `started` is what the steady clock showed then. -/
structure TokenWait where
  timeout : Int
  started : Int
deriving DecidableEq

/-- `now + timeout` -/
def TokenWait.timeoutAt (w : TokenWait) (now : Int) : Int :=
  int64 (now + int64 (w.timeout * 1000000))

/-- The calls of `isCanceled` that `waitFor` makes. -/
inductive TokenLook where
  | first
  /-- The predicate, before a sleep that ends at the wake time. -/
  | predicate (wakeTime : Int)
  /-- The predicate, after a sleep whose time was up. -/
  | late
  | last
deriving DecidableEq

/-- Where a call is.  A look has loaded the deadline when `loaded` has something. -/
inductive SourceCall where
  /-- In `updateDeadline`; `wakes` says whether the call is one of `cancel`. -/
  | updating (wakes : Bool) (u : LoweringUpdate Int)
  | locking
  | notifying
  | releasing
  | entering (w : TokenWait)
  | looking (w : TokenWait) (look : TokenLook) (loaded : Option Int)
  /-- About to read the clock. -/
  | reading (w : TokenWait)
  | choosing (w : TokenWait) (now : Int)
  /-- Holding the mutex, the predicate having been false. -/
  | falling (w : TokenWait) (wakeTime : Int)
  | asleep (w : TokenWait) (wakeTime : Int)
  /-- Woken, without the mutex. -/
  | woken (w : TokenWait) (wakeTime : Int)
  | returning (w : TokenWait) (canceled : Bool)
deriving DecidableEq

namespace SourceCall

/-- How many mutexes the call holds. -/
def holds : SourceCall -> Nat
  | .notifying | .releasing | .looking _ _ _ | .reading _ | .choosing _ _ | .falling _ _
  | .returning _ _ => 1
  | _ => 0

def update : SourceCall -> Option (LoweringUpdate Int)
  | .updating _ u => some u
  | _ => none

/-- A notification. -/
def wake : SourceCall -> SourceCall
  | .asleep w wakeTime => .woken w wakeTime
  | c => c

/-- In `waitFor`. -/
def Waits : SourceCall -> Prop
  | .updating _ _ | .locking | .notifying | .releasing => False
  | _ => True

end SourceCall

/-- Where `waitFor` is after a look. -/
def TokenLook.next (w : TokenWait) (canceled : Bool) : TokenLook -> SourceCall
  | .first => if canceled then .returning w true else .reading w
  | .predicate wakeTime =>
      if canceled then .looking w .last none else .falling w wakeTime
  | .late => .looking w .last none
  | .last => .returning w canceled

/-- What `waitFor` has returned, and how things were then. -/
structure WaitAnswer where
  wait : TokenWait
  canceled : Bool
  destroyed : Bool
  deadline : Int
  ended : Int
deriving DecidableEq

/--
`owners` is how many pointers to the source there are outside of the calls, each of which
has one.  `notified` is how many calls of `cancel` have notified.
-/
structure SharedSource where
  source : CancellationTokenSource
  calls : Multiset SourceCall
  locked : Bool
  owners : Nat
  notified : Nat
  answers : List WaitAnswer

inductive SourceEvent where
  | tick (steady system : Int)
  | copies
  | drops
  | changes (c : CancelCall)
  | waits (timeout : Int)
  /-- The choice is a failure of an exchange, or that the time of a sleep is up. -/
  | acts (c : SourceCall) (choice : Bool)
deriving DecidableEq

namespace SharedSource

def create (steady system : Int) : SharedSource :=
  ⟨.create steady system, 0, false, 1, 0, []⟩

def become (s : SharedSource) (c : SourceCall) : SharedSource :=
  { s with calls := c ::ₘ s.calls }

def lock (s : SharedSource) (c : SourceCall) : Option SharedSource :=
  if s.locked then none else some ({ s with locked := true }.become c)

/-- There is a pointer to the source. -/
def isAlive (s : SharedSource) : Bool := decide (s.owners ≠ 0 ∨ s.calls.card ≠ 0)

def answer (s : SharedSource) (w : TokenWait) (canceled destroyed : Bool) : SharedSource :=
  { s with answers :=
      ⟨w, canceled, destroyed, s.source.deadline.value, s.source.steadyNow⟩ :: s.answers }

/-- The next step of a call, which has been taken out of the calls. -/
def advance (s : SharedSource) (choice : Bool) : SourceCall -> Option SharedSource
  | .updating wakes u =>
      (s.source.step (.access u choice)).map fun source =>
        match s.source.deadline.goesOn u choice with
        | some v => { s with source := source }.become (.updating wakes v)
        | none =>
            if wakes then { s with source := source }.become .locking
            else { s with source := source }
  | .locking => s.lock .notifying
  | .notifying =>
      some ({ s with
        calls := s.calls.map SourceCall.wake
        notified := s.notified + 1 }.become .releasing)
  | .releasing => some { s with locked := false }
  | .entering w => s.lock (.looking w .first none)
  | .looking w look none => some (s.become (.looking w look (some s.source.deadline.value)))
  | .looking w look (some deadline) =>
      some (s.become (look.next w (decide (deadline ≤ s.source.steadyNow))))
  | .reading w => some (s.become (.choosing w s.source.steadyNow))
  | .choosing w now =>
      let wakeTime := min (w.timeoutAt now) s.source.deadline.value
      some (s.become (.looking w (if now < wakeTime then .predicate wakeTime else .last) none))
  | .falling w wakeTime => some ({ s with locked := false }.become (.asleep w wakeTime))
  -- the time is up, or there is no reason
  | .asleep w wakeTime => some (s.become (.woken w wakeTime))
  | .woken w wakeTime =>
      if choice then
        if s.source.steadyNow < wakeTime then none else s.lock (.looking w .late none)
      else s.lock (.looking w (.predicate wakeTime) none)
  | .returning w canceled => some ({ s with locked := false }.answer w canceled false)

def step (s : SharedSource) : SourceEvent -> Option SharedSource
  | .tick steady system =>
      (s.source.step (.tick steady system)).map fun source => { s with source := source }
  | .copies => if s.owners = 0 then none else some { s with owners := s.owners + 1 }
  | .drops => if s.owners = 0 then none else some { s with owners := s.owners - 1 }
  | .changes c =>
      if s.owners = 0 then none
      else
        (s.source.step (.call c)).map fun source =>
          { s with source := source }.become (.updating (decide (c = CancelCall.cancel))
            ⟨c.timepoint s.source.steadyNow s.source.systemNow, none⟩)
  | .waits timeout =>
      let w : TokenWait := ⟨timeout, s.source.steadyNow⟩
      some (if s.isAlive then s.become (.entering w) else s.answer w true true)
  | .acts c choice =>
      if c ∈ s.calls then { s with calls := s.calls.erase c }.advance choice c else none

def system : TransitionSystem SharedSource SourceEvent where
  initial s := exists steady system,
    FitsInt64 steady ∧ steady < maxTimePoint ∧ s = create steady system
  step := step

end SharedSource

/-!
# What is known at each point of a call
-/

namespace TokenWait

/-- The time of the wait is up. -/
def Over (w : TokenWait) (clock : Int) : Prop :=
  exists now, w.started ≤ now ∧ now ≤ clock ∧ w.timeoutAt now ≤ clock

/-- A sleep is not cut short but for the deadline. -/
def Bounded (w : TokenWait) (deadline clock wakeTime : Int) : Prop :=
  exists now, w.started ≤ now ∧ now ≤ clock ∧ (w.timeoutAt now ≤ wakeTime ∨ deadline ≤ wakeTime)

variable {w : TokenWait} {deadline deadline' clock clock' wakeTime : Int}

theorem Over.mono (hover : w.Over clock) (hclock : clock ≤ clock') : w.Over clock' := by
  rcases hover with ⟨now, hstarted, hnow, htime⟩
  exact ⟨now, hstarted, le_trans hnow hclock, le_trans htime hclock⟩

theorem Bounded.mono (hbounded : w.Bounded deadline clock wakeTime)
    (hdeadline : deadline' ≤ deadline) (hclock : clock ≤ clock') :
    w.Bounded deadline' clock' wakeTime := by
  rcases hbounded with ⟨now, hstarted, hnow, htime⟩
  exact ⟨now, hstarted, le_trans hnow hclock, htime.imp_right (le_trans hdeadline)⟩

theorem Bounded.ended (hbounded : w.Bounded deadline clock wakeTime)
    (hwake : wakeTime ≤ clock) : w.Over clock ∨ deadline ≤ clock := by
  rcases hbounded with ⟨now, hstarted, hnow, htime | htime⟩
  · exact Or.inl ⟨now, hstarted, hnow, le_trans htime hwake⟩
  · exact Or.inr (le_trans htime hwake)

end TokenWait

/-- `seen` is the deadline that the look compares, loaded or not. -/
def TokenLook.Knows (w : TokenWait) (deadline clock seen : Int) : TokenLook -> Prop
  | .first => True
  | .predicate wakeTime => w.Bounded deadline clock wakeTime
  | .late | .last => w.Over clock ∨ seen ≤ clock

namespace SourceCall

def Knows (deadline clock : Int) : SourceCall -> Prop
  | .updating wakes u => wakes = true -> u.target ≤ clock
  | .locking | .notifying | .releasing => deadline ≤ clock
  | .entering w | .reading w => w.started ≤ clock
  | .looking w look loaded =>
      w.started ≤ clock ∧ deadline ≤ loaded.getD deadline ∧
        look.Knows w deadline clock (loaded.getD deadline)
  | .choosing w now => w.started ≤ now ∧ now ≤ clock
  | .falling w wakeTime | .asleep w wakeTime | .woken w wakeTime =>
      w.Bounded deadline clock wakeTime
  | .returning w canceled => w.started ≤ clock ∧ if canceled then deadline ≤ clock else w.Over clock

/-- Behind a notification of `cancel` every look finds that the deadline is over. -/
def Heard (clock : Int) : SourceCall -> Prop
  | .looking _ _ loaded => forall deadline, loaded = some deadline -> deadline ≤ clock
  | .reading _ | .choosing _ _ | .falling _ _ | .asleep _ _ => False
  | .returning _ canceled => canceled = true
  | _ => True

variable {deadline deadline' clock clock' : Int}

/-- The deadline gets less and the clock goes on. -/
theorem Knows.mono {c : SourceCall} (hc : c.Knows deadline clock)
    (hdeadline : deadline' ≤ deadline) (hclock : clock ≤ clock') :
    c.Knows deadline' clock' := by
  cases c with
  | updating wakes u => exact fun hwakes => le_trans (hc hwakes) hclock
  | locking | notifying | releasing => exact le_trans hdeadline (le_trans hc hclock)
  | entering w | reading w => exact le_trans hc hclock
  | choosing w now => exact ⟨hc.1, le_trans hc.2 hclock⟩
  | falling w wakeTime | asleep w wakeTime | woken w wakeTime =>
      exact TokenWait.Bounded.mono hc hdeadline hclock
  | returning w canceled =>
      refine ⟨le_trans hc.1 hclock, ?_⟩
      cases canceled with
      | true => exact le_trans hdeadline (le_trans hc.2 hclock)
      | false => exact TokenWait.Over.mono hc.2 hclock
  | looking w look loaded =>
      rcases hc with ⟨hstarted, hloaded, hlook⟩
      have hseen : loaded.getD deadline' ≤ loaded.getD deadline := by
        cases loaded with
        | none => exact hdeadline
        | some d => exact le_rfl
      refine ⟨le_trans hstarted hclock, ?_, ?_⟩
      · cases loaded with
        | none => exact le_rfl
        | some d => exact le_trans hdeadline hloaded
      · cases look with
        | first => trivial
        | predicate wakeTime => exact TokenWait.Bounded.mono hlook hdeadline hclock
        | late | «last» =>
            exact hlook.imp (fun hover => TokenWait.Over.mono hover hclock)
              fun hle => le_trans hseen (le_trans hle hclock)

theorem looking_heard (w : TokenWait) (look : TokenLook) :
    (looking w look none).Heard clock := by
  intro d hd
  cases hd

theorem Heard.mono {c : SourceCall} (hc : c.Heard clock) (hclock : clock ≤ clock') :
    c.Heard clock' := by
  cases c with
  | looking w look loaded => exact fun d hd => le_trans (hc d hd) hclock
  | _ => exact hc

theorem wake_knows {c : SourceCall} (hc : c.Knows deadline clock) :
    c.wake.Knows deadline clock := by
  cases c with
  | asleep w wakeTime => exact hc
  | _ => exact hc

/-- Who does not hold the mutex has not looked yet. -/
theorem wake_heard {c : SourceCall} (hfree : c.holds = 0) : c.wake.Heard clock := by
  cases c with
  | looking | reading | choosing | falling | returning => cases hfree
  | _ => trivial

theorem wake_holds (c : SourceCall) : c.wake.holds = c.holds := by
  cases c <;> rfl

/-- What a look finds. -/
theorem next_knows {w : TokenWait} {look : TokenLook} {seen : Int}
    (hc : (looking w look (some seen)).Knows deadline clock) :
    (look.next w (decide (seen ≤ clock))).Knows deadline clock := by
  rcases hc with ⟨hstarted, hloaded, hlook⟩
  change deadline ≤ seen at hloaded
  have hlate : (w.Over clock ∨ seen ≤ clock) -> w.Over clock ∨ deadline ≤ clock :=
    Or.imp_right (le_trans hloaded)
  by_cases hover : seen ≤ clock
  · have hcanceled := le_trans hloaded hover
    rw [decide_eq_true hover]
    cases look with
    | first | «last» => exact ⟨hstarted, hcanceled⟩
    | predicate wakeTime => exact ⟨hstarted, le_rfl, Or.inr hcanceled⟩
    | late => exact ⟨hstarted, le_rfl, Or.inr hcanceled⟩
  · rw [decide_eq_false hover]
    cases look with
    | first => exact hstarted
    | predicate wakeTime => exact hlook
    | late => exact ⟨hstarted, le_rfl, hlate hlook⟩
    | «last» => exact ⟨hstarted, hlook.resolve_right hover⟩

theorem next_heard {w : TokenWait} {look : TokenLook} {seen : Int} (hseen : seen ≤ clock) :
    (look.next w (decide (seen ≤ clock))).Heard clock := by
  rw [decide_eq_true hseen]
  cases look with
  | first | «last» => exact rfl
  | predicate | late => exact looking_heard w .last

end SourceCall

/-- The wait does not reach out of the range of the clock. -/
def TokenWait.Fits (w : TokenWait) (clock : Int) : Prop :=
  FitsInt64 (w.started + w.timeout * 1000000) ∧ FitsInt64 (clock + w.timeout * 1000000)

theorem TokenWait.Over.elapsed {w : TokenWait} {clock : Int} (hover : w.Over clock)
    (hfits : w.Fits clock) : w.started + w.timeout * 1000000 ≤ clock := by
  rcases hover with ⟨now, hstarted, hnow, htime⟩
  have hrange : FitsInt64 (now + w.timeout * 1000000) := by
    have hfirst := hfits.1
    have hlast := hfits.2
    unfold FitsInt64 at hfirst hlast ⊢
    omega
  have htimeout : w.timeoutAt now = now + w.timeout * 1000000 := by
    unfold TokenWait.timeoutAt
    rw [int64_add_int64]
    exact (int64_eq_self_iff _).mpr hrange
  rw [htimeout] at htime
  omega

/--
An answer is right: the deadline is over where there is still a source, or else the time is
up.  The deadline and the clock are those of the return.
-/
def WaitAnswer.Right (a : WaitAnswer) : Prop :=
  if a.canceled then a.destroyed = true ∨ a.deadline ≤ a.ended
  else a.destroyed = false ∧
    (a.wait.Fits a.ended -> a.wait.started + a.wait.timeout * 1000000 ≤ a.ended)

namespace SharedSource

/-- What holds in all runs. -/
structure Sound (s : SharedSource) : Prop where
  ordered : s.source.Ordered
  mutex : tally s.calls SourceCall.holds = if s.locked then 1 else 0
  knows : forall c, c ∈ s.calls -> c.Knows s.source.deadline.value s.source.steadyNow
  canceled : s.notified ≠ 0 -> s.source.deadline.value ≤ s.source.steadyNow
  heard : s.notified ≠ 0 -> forall c, c ∈ s.calls -> c.Heard s.source.steadyNow
  answers : forall a, a ∈ s.answers -> a.Right

variable {s t : SharedSource} {c : SourceCall}

theorem tally_become (s : SharedSource) (c : SourceCall) (f : SourceCall -> Nat) :
    tally (s.become c).calls f = f c + tally s.calls f :=
  tally_cons c s.calls f

/-- A call is taken out. -/
theorem Sound.out (hs : (s.become c).Sound) {locked : Bool}
    (hmutex : tally s.calls SourceCall.holds = if locked then 1 else 0) :
    Sound { s with locked := locked } where
  ordered := hs.ordered
  mutex := hmutex
  knows c' hc' := hs.knows c' (Multiset.mem_cons_of_mem hc')
  canceled := hs.canceled
  heard hnotified c' hc' := hs.heard hnotified c' (Multiset.mem_cons_of_mem hc')
  answers := hs.answers

/-- A call comes in. -/
theorem Sound.into (hs : s.Sound) {locked : Bool}
    (hmutex : c.holds + tally s.calls SourceCall.holds = if locked then 1 else 0)
    (hknows : c.Knows s.source.deadline.value s.source.steadyNow)
    (hheard : s.notified ≠ 0 -> s.source.deadline.value ≤ s.source.steadyNow ->
      c.Heard s.source.steadyNow) :
    Sound ({ s with locked := locked }.become c) where
  ordered := hs.ordered
  mutex := by
    rw [tally_become]
    exact hmutex
  knows c' hc' := by
    rcases Multiset.mem_cons.mp hc' with hself | hother
    · rw [hself]
      exact hknows
    · exact hs.knows c' hother
  canceled := hs.canceled
  heard hnotified c' hc' := by
    rcases Multiset.mem_cons.mp hc' with hself | hother
    · rw [hself]
      exact hheard hnotified (hs.canceled hnotified)
    · exact hs.heard hnotified c' hother
  answers := hs.answers

theorem Sound.mutex_become (hs : (s.become c).Sound) :
    c.holds + tally s.calls SourceCall.holds = if s.locked then 1 else 0 := by
  rw [← tally_become]
  exact hs.mutex

/-- Nobody holds the mutex but the call that does. -/
theorem Sound.alone (hs : (s.become c).Sound) (hholds : c.holds = 1) :
    s.locked = true ∧ tally s.calls SourceCall.holds = 0 := by
  have hmutex := hs.mutex_become
  rw [hholds] at hmutex
  cases hlocked : s.locked with
  | true =>
      rw [hlocked, if_pos rfl] at hmutex
      exact ⟨rfl, by omega⟩
  | false =>
      rw [hlocked, if_neg Bool.false_ne_true] at hmutex
      omega

/-- The mutex is let go of. -/
theorem Sound.release (hs : (s.become c).Sound) (hholds : c.holds = 1) :
    Sound { s with locked := false } :=
  hs.out (hs.alone hholds).2

/-- A call is at another point, and holds the mutex as before. -/
theorem Sound.goes (hs : (s.become c).Sound) {c' : SourceCall} (hholds : c'.holds = c.holds)
    (hknows : c'.Knows s.source.deadline.value s.source.steadyNow)
    (hheard : s.notified ≠ 0 -> s.source.deadline.value ≤ s.source.steadyNow ->
      c'.Heard s.source.steadyNow) :
    (s.become c').Sound := by
  have hmutex := hs.mutex_become
  have hless : exists locked : Bool,
      tally s.calls SourceCall.holds = if locked then 1 else 0 := by
    cases hothers : tally s.calls SourceCall.holds with
    | zero => exact ⟨false, rfl⟩
    | succ n =>
        refine ⟨true, ?_⟩
        rw [hothers] at hmutex
        split at hmutex
        · show n + 1 = 1
          omega
        · omega
  rcases hless with ⟨locked, hlocked⟩
  rw [← hholds] at hmutex
  exact (hs.out hlocked).into hmutex hknows hheard

theorem Sound.lock (hs : (s.become c).Sound) (hfree : c.holds = 0) {c' : SourceCall}
    (hholds : c'.holds = 1) (hlock : s.lock c' = some t)
    (hknows : c'.Knows s.source.deadline.value s.source.steadyNow)
    (hheard : c'.Heard s.source.steadyNow) : t.Sound := by
  unfold SharedSource.lock at hlock
  cases hlocked : s.locked with
  | true =>
      rw [hlocked, if_pos rfl] at hlock
      cases hlock
  | false =>
      rw [hlocked, if_neg Bool.false_ne_true] at hlock
      cases hlock
      have hmutex := hs.mutex_become
      rw [hfree, Nat.zero_add] at hmutex
      refine (hs.out hmutex).into ?_ hknows fun _ _ => hheard
      show c'.holds + tally s.calls SourceCall.holds = 1
      rw [hholds, hmutex, hlocked]
      rfl

/-- The deadline gets less, or the clock goes on. -/
theorem Sound.source (hs : s.Sound) {source : CancellationTokenSource}
    (hordered : source.Ordered) (hdeadline : source.deadline.value ≤ s.source.deadline.value)
    (hclock : s.source.steadyNow ≤ source.steadyNow) : Sound { s with source := source } where
  ordered := hordered
  mutex := hs.mutex
  knows c hc := (hs.knows c hc).mono hdeadline hclock
  canceled hnotified := le_trans hdeadline (le_trans (hs.canceled hnotified) hclock)
  heard hnotified c hc := (hs.heard hnotified c hc).mono hclock
  answers := hs.answers

/-- `notify_all`, by a call that holds the mutex and has found the deadline over. -/
theorem Sound.notify (hs : (s.become .notifying).Sound) :
    Sound ({ s with
      calls := s.calls.map SourceCall.wake
      notified := s.notified + 1 }.become .releasing) := by
  have hover : s.source.deadline.value ≤ s.source.steadyNow :=
    hs.knows _ (Multiset.mem_cons_self _ _)
  rcases hs.alone rfl with ⟨hlocked, hothers⟩
  have hwoken : tally (s.calls.map SourceCall.wake) SourceCall.holds = 0 := by
    rw [tally_map, ← hothers]
    exact congrArg (tally s.calls) (funext SourceCall.wake_holds)
  refine ⟨hs.ordered, ?_, ?_, fun _ => hover, ?_, hs.answers⟩
  · rw [tally_become]
    show 1 + tally (s.calls.map SourceCall.wake) SourceCall.holds = if s.locked then 1 else 0
    rw [hwoken, hlocked]
    rfl
  · intro c hc
    rcases Multiset.mem_cons.mp hc with hself | hother
    · rw [hself]
      exact hover
    · rcases Multiset.mem_map.mp hother with ⟨c', hc', hwake⟩
      rw [← hwake]
      exact SourceCall.wake_knows (hs.knows c' (Multiset.mem_cons_of_mem hc'))
  · intro _ c hc
    rcases Multiset.mem_cons.mp hc with hself | hother
    · rw [hself]
      trivial
    · rcases Multiset.mem_map.mp hother with ⟨c', hc', hwake⟩
      rw [← hwake]
      exact SourceCall.wake_heard (tally_eq_zero_iff.mp hothers c' hc')

theorem Sound.answer (hs : s.Sound) {w : TokenWait} {canceled destroyed : Bool}
    (hright : (⟨w, canceled, destroyed, s.source.deadline.value, s.source.steadyNow⟩ :
      WaitAnswer).Right) : (s.answer w canceled destroyed).Sound where
  ordered := hs.ordered
  mutex := hs.mutex
  knows := hs.knows
  canceled := hs.canceled
  heard := hs.heard
  answers := by
    intro a ha
    rcases List.mem_cons.mp ha with hself | hother
    · rw [hself]
      exact hright
    · exact hs.answers a hother

/-!
# A step
-/

theorem Sound.updates {wakes choice : Bool} {u : LoweringUpdate Int}
    (hs : (s.become (.updating wakes u)).Sound)
    (hadvance : s.advance choice (.updating wakes u) = some t) : t.Sound := by
  rcases Option.map_eq_some_iff.mp hadvance with ⟨source, hstep, ht⟩
  have hordered := CancellationTokenSource.step_ordered hs.ordered hstep
  have hdeadline := CancellationTokenSource.step_deadline_le hstep
  rcases Option.ite_none_right_eq_some.mp hstep with ⟨hu, hsource⟩
  have hclock : source.steadyNow = s.source.steadyNow := by
    rw [← Option.some.inj hsource]
  have hknows : wakes = true -> u.target ≤ s.source.steadyNow :=
    hs.knows _ (Multiset.mem_cons_self _ _)
  have hmutex := hs.mutex_become
  change 0 + tally s.calls SourceCall.holds = _ at hmutex
  have hafter := (hs.out ((Nat.zero_add _).symm.trans hmutex)).source hordered hdeadline
    (Int.le_of_eq hclock.symm)
  cases hon : s.source.deadline.goesOn u choice with
  | some v =>
      rw [hon] at ht
      rw [← ht]
      refine hafter.into hmutex ?_ fun _ _ => trivial
      intro hwakes
      rw [(AtomicMin.advance_of_goesOn hon).2]
      show u.target ≤ source.steadyNow
      rw [hclock]
      exact hknows hwakes
  | none =>
      rw [hon] at ht
      cases wakes with
      | false =>
          rw [← ht]
          exact hafter
      | true =>
          rw [← ht]
          refine hafter.into hmutex ?_ fun _ _ => trivial
          show source.deadline.value ≤ source.steadyNow
          rw [hclock, ← Option.some.inj hsource]
          exact le_trans (hs.ordered.settled.value_le_of_ends hu hon) (hknows rfl)

theorem advance_sound {choice : Bool} (hs : (s.become c).Sound)
    (hadvance : s.advance choice c = some t) : t.Sound := by
  have hc := hs.knows c (Multiset.mem_cons_self _ _)
  have hheard := fun hnotified => hs.heard hnotified c (Multiset.mem_cons_self _ _)
  cases c with
  | updating wakes u => exact hs.updates hadvance
  | locking => exact hs.lock rfl rfl hadvance hc trivial
  | notifying =>
      cases hadvance
      exact hs.notify
  | releasing =>
      cases hadvance
      exact hs.release rfl
  | entering w =>
      exact hs.lock rfl rfl hadvance ⟨hc, le_rfl, trivial⟩ (SourceCall.looking_heard w _)
  | looking w look loaded =>
      cases loaded with
      | none =>
          cases hadvance
          refine hs.goes rfl ⟨hc.1, le_rfl, hc.2.2⟩ fun _ hover => ?_
          intro d hd
          cases hd
          exact hover
      | some seen =>
          cases hadvance
          refine hs.goes ?_ (SourceCall.next_knows hc) fun hnotified _ => ?_
          · cases look <;> cases decide (seen ≤ s.source.steadyNow) <;> rfl
          · exact SourceCall.next_heard (hheard hnotified seen rfl)
  | reading w =>
      cases hadvance
      exact hs.goes rfl ⟨hc, le_rfl⟩ fun hnotified _ => hheard hnotified
  | choosing w now =>
      cases hadvance
      refine hs.goes rfl ⟨le_trans hc.1 hc.2, le_rfl, ?_⟩
        fun _ _ => SourceCall.looking_heard w _
      split
      · refine ⟨now, hc.1, hc.2, ?_⟩
        rcases min_choice (w.timeoutAt now) s.source.deadline.value with hmin | hmin
        · exact Or.inl (le_of_eq hmin.symm)
        · exact Or.inr (le_of_eq hmin.symm)
      · rename_i hlate
        rcases min_le_iff.mp (not_lt.mp hlate) with htime | hdeadline
        · exact Or.inl ⟨now, hc.1, hc.2, le_trans htime hc.2⟩
        · exact Or.inr (le_trans hdeadline hc.2)
  | falling w wakeTime =>
      cases hadvance
      have hothers := (hs.alone rfl).2
      exact (hs.release rfl).into ((Nat.zero_add _).trans hothers) hc
        fun hnotified _ => hheard hnotified
  | asleep w wakeTime =>
      cases hadvance
      exact hs.goes rfl hc fun _ _ => trivial
  | woken w wakeTime =>
      have hstarted : w.started ≤ s.source.steadyNow := by
        rcases hc with ⟨now, hstarted, hnow, _⟩
        exact le_trans hstarted hnow
      cases choice with
      | false =>
          exact hs.lock rfl rfl hadvance ⟨hstarted, le_rfl, hc⟩
            (SourceCall.looking_heard w _)
      | true =>
          simp only [advance, if_pos] at hadvance
          split at hadvance
          · cases hadvance
          · rename_i hover
            exact hs.lock rfl rfl hadvance
              ⟨hstarted, le_rfl, TokenWait.Bounded.ended hc (not_lt.mp hover)⟩
              (SourceCall.looking_heard w _)
  | returning w canceled =>
      cases hadvance
      refine (hs.release rfl).answer ?_
      cases canceled with
      | true => exact Or.inr hc.2
      | false => exact ⟨rfl, TokenWait.Over.elapsed hc.2⟩

theorem become_erase (hc : c ∈ s.calls) :
    become { s with calls := s.calls.erase c } c = s := by
  unfold become
  simp only [Multiset.cons_erase hc]

theorem step_acts {choice : Bool} (hstep : s.step (.acts c choice) = some t) :
    exists r : SharedSource, s = r.become c ∧ r.advance choice c = some t := by
  rcases Option.ite_none_right_eq_some.mp hstep with ⟨hc, hadvance⟩
  exact ⟨_, (become_erase hc).symm, hadvance⟩

theorem step_sound {e : SourceEvent} (hs : s.Sound) (hstep : s.step e = some t) : t.Sound := by
  cases e with
  | tick steady system =>
      rcases Option.map_eq_some_iff.mp hstep with ⟨source, htick, ht⟩
      rw [← ht]
      refine hs.source (CancellationTokenSource.step_ordered hs.ordered htick)
        (CancellationTokenSource.step_deadline_le htick) ?_
      rcases Option.ite_none_right_eq_some.mp htick with ⟨hclock, hsource⟩
      rw [← Option.some.inj hsource]
      exact hclock.1
  | copies =>
      rcases Option.ite_none_left_eq_some.mp hstep with ⟨_, ht⟩
      cases ht
      exact ⟨hs.ordered, hs.mutex, hs.knows, hs.canceled, hs.heard, hs.answers⟩
  | drops =>
      rcases Option.ite_none_left_eq_some.mp hstep with ⟨_, ht⟩
      cases ht
      exact ⟨hs.ordered, hs.mutex, hs.knows, hs.canceled, hs.heard, hs.answers⟩
  | changes call =>
      rcases Option.ite_none_left_eq_some.mp hstep with ⟨_, hmap⟩
      rcases Option.map_eq_some_iff.mp hmap with ⟨source, hcall, ht⟩
      rw [← ht]
      have hordered := CancellationTokenSource.step_ordered hs.ordered hcall
      have hdeadline := CancellationTokenSource.step_deadline_le hcall
      cases hcall
      refine (hs.source hordered hdeadline le_rfl).into ?_ ?_ fun _ _ => trivial
      · exact (Nat.zero_add _).trans hs.mutex
      · intro hcancel
        rw [of_decide_eq_true hcancel]
        exact le_rfl
  | waits timeout =>
      cases hstep
      split
      · exact hs.into ((Nat.zero_add _).trans hs.mutex) le_rfl fun _ _ => trivial
      · exact hs.answer (Or.inl rfl)
  | acts c choice =>
      rcases step_acts hstep with ⟨r, hr, hadvance⟩
      rw [hr] at hs
      exact advance_sound hs hadvance

theorem sound_invariant : system.Invariant Sound := by
  apply TransitionSystem.invariant_of_step
  · rintro s ⟨steady, system, _, hsteady, hcreate⟩
    rw [hcreate]
    exact ⟨⟨AtomicMin.settled_init _, hsteady⟩, rfl, fun c hc => absurd hc (Multiset.notMem_zero c),
      fun hnotified => absurd rfl hnotified, fun hnotified => absurd rfl hnotified,
      fun a ha => absurd ha List.not_mem_nil⟩
  · intro s e t hs hstep
    exact step_sound hs hstep

/-!
# The source by itself
-/

theorem lock_some {c' : SourceCall} (hlock : s.lock c' = some t) :
    t = { s with locked := true }.become c' :=
  (Option.some.inj (Option.ite_none_left_eq_some.mp hlock).2).symm

/-- The deadline and the clocks are as before, or take a step of the source. -/
theorem advance_source {choice : Bool} (hadvance : s.advance choice c = some t) :
    t.source = s.source ∨ exists e, s.source.step e = some t.source := by
  have hlock {c' : SourceCall} (hlocks : s.lock c' = some t) : t.source = s.source := by
    rw [lock_some hlocks]
    rfl
  cases c with
  | updating wakes u =>
      rcases Option.map_eq_some_iff.mp hadvance with ⟨source, hstep, ht⟩
      have hsource : source = t.source := by
        rw [← ht]
        split
        · rfl
        · split <;> rfl
      rw [hsource] at hstep
      exact Or.inr ⟨_, hstep⟩
  | locking | entering w => exact Or.inl (hlock hadvance)
  | looking w look loaded =>
      cases loaded <;> (cases hadvance; exact Or.inl rfl)
  | woken w wakeTime =>
      cases choice with
      | false => exact Or.inl (hlock hadvance)
      | true => exact Or.inl (hlock (Option.ite_none_left_eq_some.mp hadvance).2)
  | _ =>
      cases hadvance
      exact Or.inl rfl

theorem step_source {e : SourceEvent} (hstep : s.step e = some t) :
    t.source = s.source ∨ exists e', s.source.step e' = some t.source := by
  cases e with
  | tick steady system =>
      rcases Option.map_eq_some_iff.mp hstep with ⟨source, htick, ht⟩
      rw [← ht]
      exact Or.inr ⟨_, htick⟩
  | copies | drops =>
      rcases Option.ite_none_left_eq_some.mp hstep with ⟨_, ht⟩
      cases ht
      exact Or.inl rfl
  | changes call =>
      rcases Option.ite_none_left_eq_some.mp hstep with ⟨_, hmap⟩
      rcases Option.map_eq_some_iff.mp hmap with ⟨source, hcall, ht⟩
      rw [← ht]
      exact Or.inr ⟨_, hcall⟩
  | waits timeout =>
      cases hstep
      split <;> exact Or.inl rfl
  | acts c choice =>
      rcases step_acts hstep with ⟨r, hr, hadvance⟩
      have hsource := advance_source hadvance
      rw [hr]
      exact hsource

/-- The threads that wait do nothing to a source but what a source does by itself. -/
theorem source_reachable (hs : system.Reachable s) :
    CancellationTokenSource.system.Reachable s.source := by
  apply TransitionSystem.reachable_of_simulation _ _ hs
  · rintro s0 ⟨steady, system, hsteady, hbefore, hcreate⟩
    rw [hcreate]
    exact ⟨steady, system, hsteady, hbefore, rfl⟩
  · intro s1 e s2 _ hstep
    rcases step_source hstep with hsame | ⟨e', hsource⟩
    · rw [hsame]
      exact ⟨[], rfl⟩
    · refine ⟨[e'], ?_⟩
      rw [TransitionSystem.run_cons_of_step [] hsource]
      rfl

end SharedSource
end Utils
end OssSdk
