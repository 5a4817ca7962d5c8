import OssSdk.Foundation.Transition
import OssSdk.Internal.Sync.ClientImpl
import Mathlib.Logic.Function.Basic

/-!
# Disabling the requests of a client

`disableRequest` stores a flag and notifies a condition variable, and does not take the
mutex that its waiters hold.  A wait between two attempts is one on this variable or one
on the token of the operation.  Any number of threads run operations, and any number of
them call `disableRequest` and `enableRequest`.
-/

namespace OssSdk
namespace Internal
namespace Sync

open Foundation

/-!
# The three waits
-/

inductive WaitKind where
  | none
  | client
  | token
deriving DecidableEq

/-- The wait that `waitForRetry` chooses; `token` says whether it can be canceled. -/
def waitKind (delay : Int) (token : Option Bool) : WaitKind :=
  if delay = 0 then .none
  else
    match token with
    | none => .client
    | some canBeCanceled =>
        if delay < kNotifyThreshold ∨ canBeCanceled = false then .client else .token

theorem waitForRetry_kind {σ : Type} (disableState : DisableState σ) (delay : Int)
    (token : Option (CancellationToken σ)) (env : σ) :
    waitForRetry disableState delay token env =
      match waitKind delay (token.map (·.canBeCanceled)) with
      | .none => (false, env)
      | .client =>
          let (stopped, env) := disableState.clientWaitFor delay env
          (stopped || token.any (·.isCanceled env), env)
      | .token => (token.map (·.waitFor delay env)).getD (false, env) := by
  unfold waitForRetry waitKind
  split
  · rfl
  · cases token with
    | none => simp only [Option.map_none, Option.any_none, Bool.or_false]
    | some t =>
        simp only [Option.map_some]
        split
        · rfl
        · rfl

namespace DisableRequest

/-!
# A thread
-/

/-- Where a thread is; from `testing` to `leaving` it is in `clientWaitFor`. -/
inductive Pc where
  | idle
  /-- About to make an attempt. -/
  | ready
  /-- The transport has the attempt. -/
  | sent
  | failed
  /-- At the lock of the mutex. -/
  | locking
  /-- Holding the mutex, before the predicate. -/
  | testing
  /-- Holding the mutex, the predicate having been false. -/
  | falling
  | asleep
  /-- Woken, without the mutex. -/
  | woken
  /-- Holding the mutex, at the load of the flag behind the wait. -/
  | leaving
  /-- In `CancellationToken::waitFor`. -/
  | onToken
  | over (canceled : Bool)
deriving DecidableEq

def Pc.holds : Pc -> Bool
  | .testing | .falling | .leaving => true
  | _ => false

def Pc.waiting : Pc -> Bool
  | .locking | .testing | .falling | .asleep | .woken | .leaving | .onToken => true
  | _ => false

def Pc.blocked : Pc -> Bool
  | .asleep | .onToken => true
  | _ => false

structure Thread where
  token : Option Bool
  tokenCanceled : Bool
  pc : Pc
deriving DecidableEq

def Thread.canceled (t : Thread) : Bool := t.token == some true && t.tokenCanceled

inductive Act where
  | begins (token : Option Bool)
  | attempts
  /-- The attempt ends before the transport. -/
  | stops
  | answers (ok : Bool)
  /-- The retryer makes no other attempt. -/
  | givesUp (canceled : Bool)
  | waits (delay : Int)
  | locks
  | tests
  | sleeps
  /-- The time is up, or the thread wakes for no reason. -/
  | stirs
  /-- The mutex is taken again; `late` is a wait whose time is up. -/
  | relocks (late : Bool)
  | leaves
  | tokenReturns
deriving DecidableEq

/-- Where a step takes a thread; `free` says that nobody holds the mutex. -/
def Thread.next (flag free : Bool) (t : Thread) : Pc -> Act -> Option Pc
  | .idle, .begins _ => some (if flag then .over true else .ready)
  | .ready, .attempts => some .sent
  | .ready, .stops => some .failed
  | .sent, .answers ok => some (if ok then .over false else .failed)
  | .failed, .givesUp canceled => some (.over canceled)
  | .failed, .waits delay =>
      match waitKind delay t.token with
      | .none => some .ready
      | .client => some .locking
      | .token => some .onToken
  | .locking, .locks => if free then some .testing else none
  | .testing, .tests => some (if flag then .leaving else .falling)
  | .falling, .sleeps => some .asleep
  | .asleep, .stirs => some .woken
  | .woken, .relocks late =>
      if free then some (if late then .leaving else .testing) else none
  | .leaving, .leaves => some (if flag || t.canceled then .over true else .ready)
  | .onToken, .tokenReturns => some (if t.canceled then .over true else .ready)
  | _, _ => none

/-- An operation brings its token along. -/
def Thread.act (flag free : Bool) (t : Thread) (a : Act) : Option Thread :=
  (t.next flag free t.pc a).map fun pc =>
    match a with
    | .begins token => ⟨token, false, pc⟩
    | _ => { t with pc := pc }

/-- A notification. -/
def Thread.wake (t : Thread) : Thread :=
  if t.pc = .asleep then { t with pc := .woken } else t

/-!
# The client
-/

/-- `notifying` is how many calls of `disableRequest` have stored and not yet notified. -/
structure Requests where
  flag : Bool
  mu : Option Nat
  notifying : Nat
  threads : Nat -> Thread

inductive Event where
  | act (id : Nat) (a : Act)
  | tokenCancels (id : Nat)
  | stores
  | notifies
  | enables
deriving DecidableEq

namespace Requests

def set (s : Requests) (id : Nat) (t : Thread) : Requests :=
  { s with threads := Function.update s.threads id t }

/-- The mutex after a step of the thread `id`. -/
def muAfter (s : Requests) (id : Nat) (t : Thread) : Option Nat :=
  if t.pc.holds then some id
  else if (s.threads id).pc.holds then none
  else s.mu

def step (s : Requests) : Event -> Option Requests
  | .act id a =>
      ((s.threads id).act s.flag s.mu.isNone a).map fun t =>
        { s.set id t with mu := s.muAfter id t }
  | .tokenCancels id => some (s.set id { s.threads id with tokenCanceled := true })
  | .stores => some { s with flag := true, notifying := s.notifying + 1 }
  | .notifies =>
      if 0 < s.notifying then
        some
          { s with
            notifying := s.notifying - 1
            threads := fun id => (s.threads id).wake }
      else none
  | .enables => some { s with flag := false }

def init : Requests := ⟨false, none, 0, fun _ => ⟨none, false, .idle⟩⟩

def system : TransitionSystem Requests Event where
  initial s := s = init
  step := step

end Requests

/-!
# What a thread does while requests are disabled
-/

/-- How many steps the wait of a thread may still take, when the flag is set. -/
def Pc.rank : Pc -> Nat
  | .falling => 5
  | .asleep => 4
  | .locking | .woken => 3
  | .testing => 2
  | .leaving => 1
  | _ => 0

theorem act_pc {flag free : Bool} {t t' : Thread} {a : Act}
    (hact : t.act flag free a = some t') : t.next flag free t.pc a = some t'.pc := by
  rcases Option.map_eq_some_iff.mp hact with ⟨pc, hnext, ht⟩
  rw [hnext, ← ht]
  cases a <;> rfl

/-- A wait goes on to its end, and its end is a cancellation. -/
theorem next_disabled {free : Bool} {t : Thread} {pc pc' : Pc} {a : Act}
    (hwaiting : pc.waiting = true) (htoken : pc ≠ .onToken)
    (hnext : t.next true free pc a = some pc') :
    (pc'.waiting = true ∧ pc'.rank < pc.rank) ∨ pc' = .over true := by
  cases pc with
  | idle | ready | sent | failed | «over» => cases hwaiting
  | onToken => exact absurd rfl htoken
  | locking =>
      cases a <;> simp only [Thread.next] at hnext <;> try cases hnext
      split at hnext <;> cases hnext
      exact Or.inl ⟨rfl, by decide⟩
  | testing =>
      cases a <;> cases hnext
      exact Or.inl ⟨rfl, by decide⟩
  | falling =>
      cases a <;> cases hnext
      exact Or.inl ⟨rfl, by decide⟩
  | asleep =>
      cases a <;> cases hnext
      exact Or.inl ⟨rfl, by decide⟩
  | woken =>
      cases a <;> simp only [Thread.next] at hnext <;> try cases hnext
      rename_i late
      split at hnext <;> cases hnext
      cases late
      · exact Or.inl ⟨rfl, by decide⟩
      · exact Or.inl ⟨rfl, by decide⟩
  | leaving =>
      cases a <;> cases hnext
      exact Or.inr rfl

theorem next_undisturbed {free : Bool} {t : Thread} {pc pc' : Pc} {a : Act}
    (htoken : pc ≠ .onToken)
    (hmeets : forall delay, a = .waits delay -> waitKind delay t.token = .client)
    (hnext : t.next true free pc a = some pc') :
    pc' ≠ .onToken ∧ pc' ≠ .falling ∧ (pc' = .asleep -> pc = .falling) := by
  cases pc with
  | onToken => exact absurd rfl htoken
  | idle | «over» => cases a <;> cases hnext <;> decide
  | ready | testing | falling | asleep =>
      cases a <;> cases hnext <;> exact ⟨by decide, by decide, fun h => by cases h <;> rfl⟩
  | leaving =>
      cases a <;> cases hnext
      rw [Bool.true_or, if_pos rfl]
      decide
  | sent =>
      cases a <;> cases hnext
      rename_i ok
      cases ok <;> decide
  | failed =>
      cases a <;> simp only [Thread.next] at hnext <;> try cases hnext
      · exact ⟨by simp, by simp, fun h => (nomatch h)⟩
      · rename_i delay
        rw [hmeets delay rfl] at hnext
        cases hnext
        decide
  | locking =>
      cases a <;> simp only [Thread.next] at hnext <;> try cases hnext
      split at hnext <;> cases hnext
      decide
  | woken =>
      cases a <;> simp only [Thread.next] at hnext <;> try cases hnext
      rename_i late
      split at hnext <;> cases hnext
      cases late <;> decide

/-!
# The condition on a thread
-/

namespace Requests

/--
While requests are disabled the thread neither waits on its token nor goes on without a
wait, and no notification falls between its look at the flag and its sleep.
-/
def Meets (id : Nat) (s : Requests) : Event -> Prop
  | .act id' (.waits delay) =>
      id' = id -> s.flag = true -> waitKind delay (s.threads id).token = .client
  | .stores => (s.threads id).pc ≠ .onToken
  | .notifies => s.flag = true -> s.notifying = 1 -> (s.threads id).pc ≠ .falling
  | _ => True

instance (id : Nat) (s : Requests) (e : Event) : Decidable (Meets id s e) := by
  unfold Meets
  split <;> infer_instance

/-- A call of `disableRequest` that is over has left the thread awake. -/
structure Undisturbed (id : Nat) (s : Requests) : Prop where
  offToken : s.flag = true -> (s.threads id).pc ≠ .onToken
  awake : s.flag = true -> s.notifying = 0 ->
    (s.threads id).pc ≠ .falling ∧ (s.threads id).pc ≠ .asleep

/-- The mutex is held by a thread that can go on. -/
def Held (s : Requests) : Prop :=
  forall h, s.mu = some h -> (s.threads h).pc.holds = true

theorem wake_pc (t : Thread) :
    t.wake.pc = if t.pc = .asleep then .woken else t.pc := by
  unfold Thread.wake
  split
  · rfl
  · rfl

/-- The step of a thread leaves the others as they are. -/
theorem act_step {s s' : Requests} {id : Nat} {a : Act}
    (hstep : s.step (.act id a) = some s') :
    exists t, (s.threads id).act s.flag s.mu.isNone a = some t ∧
      s' = { s.set id t with mu := s.muAfter id t } := by
  rcases Option.map_eq_some_iff.mp hstep with ⟨t, hact, hs'⟩
  exact ⟨t, hact, hs'.symm⟩

theorem set_self (s : Requests) (id : Nat) (t : Thread) :
    (s.set id t).threads id = t := by
  unfold set
  exact Function.update_self _ _ _

theorem set_other {s : Requests} {id id' : Nat} {t : Thread} (hother : id' ≠ id) :
    (s.set id t).threads id' = s.threads id' := by
  unfold set
  exact Function.update_of_ne hother _ _

theorem step_undisturbed {id : Nat} {s s' : Requests} {e : Event}
    (hs : Undisturbed id s) (hmeets : Meets id s e) (hstep : s.step e = some s') :
    Undisturbed id s' := by
  cases e with
  | act id' a =>
      rcases act_step hstep with ⟨t, hact, rfl⟩
      by_cases hself : id' = id
      · rw [hself] at hact ⊢
        have hnext := act_pc hact
        have hwaits : s.flag = true -> forall delay, a = .waits delay ->
            waitKind delay (s.threads id).token = .client := by
          intro hflag delay ha
          rw [ha] at hmeets
          exact hmeets hself hflag
        have hpc : forall hflag : s.flag = true, t.pc ≠ .onToken ∧ t.pc ≠ .falling ∧
            (t.pc = .asleep -> (s.threads id).pc = .falling) := by
          intro hflag
          rw [hflag] at hnext
          exact next_undisturbed (hs.offToken hflag) (hwaits hflag) hnext
        refine ⟨fun hflag => ?_, fun hflag hnotified => ?_⟩
        · rw [set_self]
          exact (hpc hflag).1
        · rw [set_self]
          exact ⟨(hpc hflag).2.1,
            fun h => (hs.awake hflag hnotified).1 ((hpc hflag).2.2 h)⟩
      · have hthread : (s.set id' t).threads id = s.threads id := set_other (Ne.symm hself)
        refine ⟨fun hflag => ?_, fun hflag hnotified => ?_⟩
        · rw [hthread]
          exact hs.offToken hflag
        · rw [hthread]
          exact hs.awake hflag hnotified
  | tokenCancels id' =>
      cases hstep
      have hpc : ((s.set id' { s.threads id' with tokenCanceled := true }).threads id).pc =
          (s.threads id).pc := by
        by_cases hself : id' = id
        · rw [hself, set_self]
        · rw [set_other (Ne.symm hself)]
      refine ⟨fun hflag => ?_, fun hflag hnotified => ?_⟩
      · rw [hpc]
        exact hs.offToken hflag
      · rw [hpc]
        exact hs.awake hflag hnotified
  | stores =>
      cases hstep
      exact ⟨fun _ => hmeets, fun _ h => absurd h (Nat.succ_ne_zero _)⟩
  | notifies =>
      simp only [step] at hstep
      split at hstep
      · rename_i hpositive
        cases hstep
        refine ⟨fun hflag => ?_, fun hflag hnotified => ?_⟩
        · simp only [wake_pc]
          split
          · decide
          · exact hs.offToken hflag
        · have hlast : s.notifying = 1 := by
            have hzero : s.notifying - 1 = 0 := hnotified
            omega
          simp only [wake_pc]
          split
          · decide
          · rename_i hasleep
            exact ⟨hmeets hflag hlast, hasleep⟩
      · cases hstep
  | enables =>
      cases hstep
      exact ⟨fun h => (nomatch h), fun h => (nomatch h)⟩

/-- A thread that is in the mutex stays there, unless it makes a step. -/
theorem step_held {s s' : Requests} {e : Event} (hs : Held s)
    (hstep : s.step e = some s') : Held s' := by
  cases e with
  | act id a =>
      rcases act_step hstep with ⟨t, _, rfl⟩
      intro h hmu
      have hmu' : s.muAfter id t = some h := hmu
      unfold muAfter at hmu'
      split at hmu'
      · rename_i hholds
        cases hmu'
        rw [set_self]
        exact hholds
      · split at hmu'
        · cases hmu'
        · rename_i hfree
          have hother : h ≠ id := by
            intro hself
            rw [hself] at hmu'
            exact hfree (hs id hmu')
          rw [set_other hother]
          exact hs h hmu'
  | tokenCancels id =>
      cases hstep
      intro h hmu
      have hholds := hs h hmu
      by_cases hself : h = id
      · rw [hself, set_self]
        rw [hself] at hholds
        exact hholds
      · rw [set_other hself]
        exact hholds
  | stores =>
      cases hstep
      exact hs
  | notifies =>
      simp only [step] at hstep
      split at hstep
      · cases hstep
        intro h hmu
        have hholds := hs h hmu
        simp only [wake_pc]
        split
        · rename_i hasleep
          rw [hasleep] at hholds
          cases hholds
        · exact hholds
      · cases hstep
  | enables =>
      cases hstep
      exact hs

/-- While the flag is set, a wait goes on, or ends as a cancellation. -/
theorem step_disabled {id : Nat} {s s' : Requests} {e : Event}
    (hs : Undisturbed id s) (hflag : s.flag = true)
    (hwaits : (s.threads id).pc.waiting = true ∨ (s.threads id).pc = .over true)
    (henables : e ≠ .enables) (hstep : s.step e = some s') :
    s'.flag = true ∧
      ((s'.threads id).pc.waiting = true ∨ (s'.threads id).pc = .over true) := by
  cases e with
  | act id' a =>
      rcases act_step hstep with ⟨t, hact, rfl⟩
      refine ⟨hflag, ?_⟩
      by_cases hself : id' = id
      · rw [hself] at hact ⊢
        have hnext := act_pc hact
        rw [hflag] at hnext
        rw [set_self]
        rcases hwaits with hwaiting | hover
        · rcases next_disabled hwaiting (hs.offToken hflag) hnext with h | h
          · exact Or.inl h.1
          · exact Or.inr h
        · rw [hover] at hnext
          cases a <;> cases hnext
      · rw [set_other (Ne.symm hself)]
        exact hwaits
  | tokenCancels id' =>
      cases hstep
      refine ⟨hflag, ?_⟩
      by_cases hself : id = id'
      · rw [← hself, set_self]
        exact hwaits
      · rw [set_other hself]
        exact hwaits
  | stores =>
      cases hstep
      exact ⟨rfl, hwaits⟩
  | notifies =>
      simp only [step] at hstep
      split at hstep
      · cases hstep
        refine ⟨hflag, ?_⟩
        simp only [wake_pc]
        split
        · exact Or.inl rfl
        · exact hwaits
      · cases hstep
  | enables => exact absurd rfl henables

/-- A thread that holds the mutex is not held up. -/
theorem holds_acts (flag free : Bool) {t : Thread} (hholds : t.pc.holds = true) :
    exists a t', t.act flag free a = some t' := by
  cases hpc : t.pc with
  | testing => exact ⟨.tests, _, by rw [Thread.act, hpc]; rfl⟩
  | falling => exact ⟨.sleeps, _, by rw [Thread.act, hpc]; rfl⟩
  | leaving => exact ⟨.leaves, _, by rw [Thread.act, hpc]; rfl⟩
  | idle | ready | sent | failed | locking | asleep | woken | onToken | «over» =>
      rw [hpc] at hholds
      cases hholds

/-- A thread that waits and does not sleep is held up by the mutex only. -/
theorem waiting_acts (flag : Bool) {t : Thread} (hwaiting : t.pc.waiting = true)
    (hblocked : t.pc.blocked = false) :
    exists a t', t.act flag true a = some t' := by
  cases hpc : t.pc with
  | locking => exact ⟨.locks, _, by rw [Thread.act, hpc]; rfl⟩
  | woken => exact ⟨.relocks true, _, by rw [Thread.act, hpc]; rfl⟩
  | testing | falling | leaving => exact holds_acts flag true (by rw [hpc]; rfl)
  | asleep | onToken =>
      rw [hpc] at hblocked
      cases hblocked
  | idle | ready | sent | failed | «over» =>
      rw [hpc] at hwaiting
      cases hwaiting

/-!
# The effect of `disableRequest`
-/

/-- What disabling the requests means for one thread. -/
structure TakesEffect (id : Nat) (s : Requests) : Prop where
  /-- Once every call has notified, the thread is not blocked in a wait. -/
  awake : s.flag = true -> s.notifying = 0 -> (s.threads id).pc.blocked = false
  /-- A wait ends as canceled, and before that there is no other attempt. -/
  canceled : s.flag = true -> (s.threads id).pc.waiting = true ->
    forall events t, (system.guarded (Meets id)).run s events = some t ->
      .enables ∉ events ->
        (t.threads id).pc.waiting = true ∨ (t.threads id).pc = .over true
  /-- Each of its steps brings it nearer to the end. -/
  nearer : s.flag = true -> (s.threads id).pc.waiting = true ->
    forall a t, s.step (.act id a) = some t ->
      (t.threads id).pc.rank < (s.threads id).pc.rank ∨ (t.threads id).pc = .over true
  /-- It can go on, or is behind a thread in the mutex that can. -/
  goesOn : s.flag = true -> s.notifying = 0 -> (s.threads id).pc.waiting = true ->
    exists h a t, (h = id ∨ s.mu = some h) ∧ s.step (.act h a) = some t

theorem takesEffect_of {id : Nat} {s : Requests} (hs : Undisturbed id s)
    (hheld : Held s) : TakesEffect id s where
  awake hflag hnotified := by
    have htoken := hs.offToken hflag
    have hasleep := (hs.awake hflag hnotified).2
    cases hpc : (s.threads id).pc with
    | asleep => exact absurd hpc hasleep
    | onToken => exact absurd hpc htoken
    | idle | ready | sent | failed | locking | testing | falling | woken | leaving
    | «over» => rfl
  canceled hflag hwaiting := by
    intro events t hrun henables
    suffices hends : t.flag = true ∧
        ((t.threads id).pc.waiting = true ∨ (t.threads id).pc = .over true) from hends.2
    have hwaits : (s.threads id).pc.waiting = true ∨ (s.threads id).pc = .over true :=
      Or.inl hwaiting
    clear hwaiting hheld
    induction events generalizing s with
    | nil =>
        cases hrun
        exact ⟨hflag, hwaits⟩
    | cons e rest ih =>
        rcases TransitionSystem.run_cons_some hrun with ⟨s', hstep, hrest⟩
        rcases TransitionSystem.guarded_step_some hstep with ⟨hmeets, hstep⟩
        rw [List.mem_cons, not_or] at henables
        rcases step_disabled hs hflag hwaits (fun h => henables.1 h.symm) hstep with
          ⟨hflag', hwaits'⟩
        exact ih (step_undisturbed hs hmeets hstep) hflag' hrest henables.2 hwaits'
  nearer hflag hwaiting := by
    intro a t hstep
    rcases act_step hstep with ⟨t', hact, rfl⟩
    have hnext := act_pc hact
    rw [hflag] at hnext
    rw [set_self]
    rcases next_disabled hwaiting (hs.offToken hflag) hnext with h | h
    · exact Or.inl h.2
    · exact Or.inr h
  goesOn hflag hnotified hwaiting := by
    cases hmu : s.mu with
    | some h =>
        rcases holds_acts s.flag false (hheld h hmu) with ⟨a, t, hact⟩
        exact ⟨h, a, _, Or.inr rfl, by rw [step, hmu, Option.isNone_some, hact]; rfl⟩
    | none =>
        have hblocked : (s.threads id).pc.blocked = false := by
          cases hpc : (s.threads id).pc with
          | asleep => exact absurd hpc (hs.awake hflag hnotified).2
          | onToken => exact absurd hpc (hs.offToken hflag)
          | idle | ready | sent | failed | locking | testing | falling | woken
          | leaving | «over» => rfl
        rcases waiting_acts s.flag hwaiting hblocked with ⟨a, t, hact⟩
        exact ⟨id, a, _, Or.inl rfl, by rw [step, hmu, Option.isNone_none, hact]; rfl⟩

/-- In every run that meets the condition, whatever the other threads do. -/
theorem disableRequest_takesEffect (id : Nat) :
    (system.guarded (Meets id)).Invariant (TakesEffect id) := by
  have hboth : (system.guarded (Meets id)).Invariant
      fun s => Undisturbed id s ∧ Held s := by
    apply TransitionSystem.guarded_invariant_of_step
    · intro s hs
      cases hs
      exact ⟨⟨fun h => (nomatch h), fun h => (nomatch h)⟩, fun h hmu => (nomatch hmu)⟩
    · intro s e t hs hmeets hstep
      exact ⟨step_undisturbed hs.1 hmeets hstep, step_held hs.2 hstep⟩
  intro s hs
  rcases hboth s hs with ⟨hundisturbed, hheld⟩
  exact takesEffect_of hundisturbed hheld

/-- The flag is set, and everybody notified, after the look at it and before the sleep. -/
def lostWakeUp : List Event :=
  [.act 0 (.begins none), .act 0 .attempts, .act 0 (.answers false), .act 0 (.waits 100),
    .act 0 .locks, .act 0 .tests, .stores, .notifies, .act 0 .sleeps]

/-- A wait of half a second, with a token that is not canceled. -/
def tokenWait : List Event :=
  [.act 0 (.begins (some true)), .act 0 .attempts, .act 0 (.answers false),
    .act 0 (.waits 500), .stores, .notifies]

/-- One thread sleeps on, and another wait ends with the next attempt. -/
theorem not_takesEffect_lostWakeUp :
    (exists s, system.run init lostWakeUp = some s ∧ s.flag = true ∧ s.notifying = 0 ∧
      (s.threads 0).pc.blocked = true) ∧
    (exists s t, system.run init tokenWait = some s ∧ s.flag = true ∧ s.notifying = 0 ∧
      (s.threads 0).pc.blocked = true ∧
      system.run s [.act 0 .tokenReturns, .act 0 .attempts] = some t ∧
      t.flag = true ∧ (t.threads 0).pc = .sent) :=
  ⟨⟨_, rfl, rfl, rfl, rfl⟩, ⟨_, _, rfl, rfl, rfl, rfl, rfl, rfl, rfl⟩⟩

end Requests

end DisableRequest
end Sync
end Internal
end OssSdk
