import OssSdk.Foundation.Parties
import OssSdk.Foundation.Wakeups
import Mathlib.Data.Multiset.Bind
import Mathlib.Data.Multiset.AddSub
import Mathlib.Tactic.Abel

/-!
# The pool of curl handles

Any number of threads acquire and release handles.  A step is what a call does between
two points where another call can be seen to have moved: a critical section of the queue,
a call of `curl_easy_init`, a notification.  Calls at the same point are alike, so they
are kept as a multiset.
-/

namespace OssSdk
namespace Transport
namespace Curl

open Foundation

variable {handle : Type}

/-!
# Calls
-/

/-- Where a call of `Acquire` or `Release` is. -/
inductive PoolCall (handle : Type) where
  /-- `Acquire`, before the look into the queue. -/
  | acquire
  /-- `growPool`, before it has the lock of the container. -/
  | lock
  /-- At the head of its loop; `added` is `actuallyAdded`. -/
  | grow (left added : Nat)
  /-- With a new handle that is not in the queue yet. -/
  | push (h : handle) (left added : Nat)
  /-- The handle is in the queue, and no one has been notified of it. -/
  | pushed (left added : Nat)
  /-- After the loop. -/
  | grown (added : Nat)
  /-- `ResourceManager::Acquire`, before it has the lock of the queue. -/
  | take
  /-- Blocked in `m_semaphore.wait`. -/
  | asleep
  /-- Woken in it, before it has the lock again. -/
  | woken
  /-- `Release`, before a new handle is made if that is forced. -/
  | release (h : handle) (force : Bool)
  /-- With the handle that takes the place of `h`, which is cleaned up next. -/
  | replace (h newhandle : handle)
  /-- `ResourceManager::Release`, before it has the lock of the queue. -/
  | put (h : handle)
  /-- The same, after the lock has been let go of. -/
  | notify
deriving DecidableEq

namespace PoolCall

/-- The handles that a call has and no one else knows of. -/
def handles : PoolCall handle -> Multiset handle
  | .push h _ _ => {h}
  | .release h _ => {h}
  | .replace h newhandle => {h, newhandle}
  | .put h => {h}
  | _ => 0

/-- A handle that was handed out and is not back in the queue. -/
def handedOut : PoolCall handle -> Nat
  | .release _ _ => 1
  | .replace _ _ => 1
  | .put _ => 1
  | _ => 0

/-- The call is in `growPool` and has the lock of the container. -/
def growing : PoolCall handle -> Nat
  | .grow _ _ => 1
  | .push _ _ _ => 1
  | .pushed _ _ => 1
  | .grown _ => 1
  | _ => 0

/-- The handles in the queue that `poolSize_` does not count yet. -/
def uncounted : PoolCall handle -> Nat
  | .grow _ added => added
  | .push _ _ added => added
  | .pushed _ added => added + 1
  | .grown added => added
  | _ => 0

/-- By how much `poolSize_` can still grow. -/
def growth : PoolCall handle -> Nat
  | .grow left added => left + added
  | .push _ left added => left + 1 + added
  | .pushed left added => left + 1 + added
  | .grown added => added
  | _ => 0

def isAsleep : PoolCall handle -> Nat
  | .asleep => 1
  | _ => 0

def isWoken : PoolCall handle -> Nat
  | .woken => 1
  | _ => 0

/-- A call of `Acquire` that is blocked, on a lock or in the wait. -/
def isBlocked : PoolCall handle -> Nat
  | .lock => 1
  | .asleep => 1
  | .woken => 1
  | _ => 0

/-- A call of `notify_one` is to come. -/
def notices : PoolCall handle -> Nat
  | .pushed _ _ => 1
  | .notify => 1
  | _ => 0

end PoolCall

/-!
# The pool
-/

/-- `resources` has the last handle first, `held` those that callers have. -/
structure HandlePool (handle : Type) where
  resources : List handle
  poolSize : Nat
  maxPoolSize : Nat
  containerLock : Bool
  held : Multiset handle
  calls : Multiset (PoolCall handle)
deriving DecidableEq

namespace HandlePool

def init (handle : Type) (maxSize : Nat) : HandlePool handle := ⟨[], 0, maxSize, false, 0, 0⟩

/-- The handles that have been made and not been cleaned up. -/
def live (p : HandlePool handle) : Multiset handle :=
  p.resources + p.held + p.calls.bind PoolCall.handles

/-- A number for each call, summed up. -/
def tally (p : HandlePool handle) (f : PoolCall handle -> Nat) : Nat := (p.calls.map f).sum

/-- The number of handles that are with callers, or on their way back. -/
def handedOut (p : HandlePool handle) : Nat := p.held.card + p.tally PoolCall.handedOut

def become (p : HandlePool handle) (call : PoolCall handle) : HandlePool handle :=
  { p with calls := call ::ₘ p.calls }

/-- `unsigned` arithmetic; only `growPool` reads and writes `poolSize_`. -/
def amountToAdd (p : HandlePool handle) : Nat :=
  min ((if 0 < p.poolSize then p.poolSize else 1) * 2 % 2 ^ 32) (p.maxPoolSize - p.poolSize)

/-- `growPool` up to its loop. -/
def growPool (p : HandlePool handle) : Option (HandlePool handle) :=
  if p.containerLock then none
  else if p.poolSize < p.maxPoolSize then
    some ({ p with containerLock := true }.become (.grow p.amountToAdd 0))
  else some (p.become .take)

/-- The loop of `ResourceManager::Acquire`, from one wait to the next. -/
def takeOne (p : HandlePool handle) : HandlePool handle :=
  match p.resources with
  | [] => p.become .asleep
  | h :: rest => { p with resources := rest, held := h ::ₘ p.held }

variable [DecidableEq handle]

/-- All who are blocked in the wait are alike. -/
def notifyOne (p : HandlePool handle) : HandlePool handle :=
  if .asleep ∈ p.calls then { p with calls := .woken ::ₘ p.calls.erase .asleep } else p

/--
The next step of a call, which has been taken out of the calls; `made` is what
`curl_easy_init` returns, if the step calls it.
-/
def advance (p : HandlePool handle) (made : Option handle) :
    PoolCall handle -> Option (HandlePool handle)
  | .acquire => some (p.become (if p.resources.isEmpty then .lock else .take))
  | .lock => p.growPool
  | .grow 0 added => some (p.become (.grown added))
  | .grow (left + 1) added =>
      match made with
      | some h => some (p.become (.push h left added))
      | none => some (p.become (.grown added))
  | .push h left added =>
      some ({ p with resources := h :: p.resources }.become (.pushed left added))
  | .pushed left added => some (p.notifyOne.become (.grow left (added + 1)))
  | .grown added =>
      some ({ p with poolSize := p.poolSize + added, containerLock := false }.become .take)
  | .take => some p.takeOne
  | .asleep => none
  | .woken => some p.takeOne
  | .release h false => some (p.become (.put h))
  | .release h true =>
      match made with
      | some newhandle => some (p.become (.replace h newhandle))
      | none => some (p.become (.put h))
  | .replace _ newhandle => some (p.become (.put newhandle))
  | .put h => some ({ p with resources := h :: p.resources }.become .notify)
  | .notify => some p.notifyOne

/-- `wake` is one for no reason.  `Release` of a null pointer is no step. -/
inductive Label (handle : Type) where
  | acquire
  | release (h : handle) (force : Bool)
  | move (call : PoolCall handle) (made : Option handle)
  | wake
deriving DecidableEq

/-- A handle is released by one who has it, and a new one is no handle that is there. -/
def step (p : HandlePool handle) : Label handle -> Option (HandlePool handle)
  | .acquire => some (p.become .acquire)
  | .release h force =>
      if h ∈ p.held then some ({ p with held := p.held.erase h }.become (.release h force))
      else none
  | .move call made =>
      if call ∈ p.calls ∧ forall h, h ∈ made -> h ∉ p.live then
        { p with calls := p.calls.erase call }.advance made call
      else none
  | .wake =>
      if .asleep ∈ p.calls then some { p with calls := .woken ::ₘ p.calls.erase .asleep }
      else none

variable (handle) in
def system (maxSize : Nat) : TransitionSystem (HandlePool handle) (Label handle) where
  initial p := p = init handle maxSize
  step := step

/-!
# Sums over the calls
-/

omit [DecidableEq handle] in
theorem tally_become (p : HandlePool handle) (call : PoolCall handle)
    (f : PoolCall handle -> Nat) : (p.become call).tally f = f call + p.tally f :=
  tally_cons call p.calls f

omit [DecidableEq handle] in
theorem live_become (p : HandlePool handle) (call : PoolCall handle) :
    (p.become call).live = call.handles + p.live := by
  unfold live become
  simp only [Multiset.cons_bind]
  abel

/-- A call that is there can be taken out. -/
theorem become_erase {p : HandlePool handle} {call : PoolCall handle} (hcall : call ∈ p.calls) :
    HandlePool.become { p with calls := p.calls.erase call } call = p := by
  unfold become
  simp only [Multiset.cons_erase hcall]

theorem notifyOne_cases (p : HandlePool handle) :
    (.asleep ∉ p.calls ∧ p.notifyOne = p) ∨ exists q : HandlePool handle,
      p = q.become .asleep ∧ p.notifyOne = q.become .woken := by
  unfold notifyOne
  split
  · rename_i hasleep
    exact Or.inr ⟨{ p with calls := p.calls.erase .asleep }, (become_erase hasleep).symm, rfl⟩
  · rename_i hasleep
    exact Or.inl ⟨hasleep, rfl⟩

omit [DecidableEq handle] in
theorem growPool_cases {p t : HandlePool handle} (hgrow : p.growPool = some t) :
    p.containerLock = false ∧
      ((p.poolSize < p.maxPoolSize ∧
          t = HandlePool.become { p with containerLock := true } (.grow p.amountToAdd 0)) ∨
        t = p.become .take) := by
  unfold growPool at hgrow
  split at hgrow
  · cases hgrow
  · rename_i hlock
    refine ⟨eq_false_of_ne_true hlock, ?_⟩
    split at hgrow
    · rename_i hsize
      exact Or.inl ⟨hsize, (Option.some.inj hgrow).symm⟩
    · exact Or.inr (Option.some.inj hgrow).symm

omit [DecidableEq handle] in
theorem takeOne_cases (p : HandlePool handle) :
    (p.resources = [] ∧ p.takeOne = p.become .asleep) ∨
      exists h rest, p.resources = h :: rest ∧
        p.takeOne = { p with resources := rest, held := h ::ₘ p.held } := by
  unfold takeOne
  cases hresources : p.resources with
  | nil => exact Or.inl ⟨rfl, rfl⟩
  | cons h rest => exact Or.inr ⟨h, rest, rfl, rfl⟩

omit [DecidableEq handle] in
/-- Sums of nothing: a call that is not growing does not count. -/
theorem tally_eq_zero {p : HandlePool handle} {f : PoolCall handle -> Nat}
    (hf : forall call, call.growing = 0 -> f call = 0)
    (hgrowing : p.tally PoolCall.growing = 0) : p.tally f = 0 :=
  tally_eq_zero_iff.mpr fun call hcall => hf call (tally_eq_zero_iff.mp hgrowing call hcall)

/-!
# Conservation
-/

structure Sound (p : HandlePool handle) : Prop where
  distinct : p.live.Nodup
  lock : p.tally PoolCall.growing = p.containerLock.toNat
  conserved : p.resources.length + p.handedOut = p.poolSize + p.tally PoolCall.uncounted
  bounded : p.poolSize + p.tally PoolCall.growth ≤ p.maxPoolSize

omit [DecidableEq handle] in
theorem sound_become_iff (p : HandlePool handle) (call : PoolCall handle) :
    (p.become call).Sound ↔
      (call.handles + p.live).Nodup ∧
        call.growing + p.tally PoolCall.growing = p.containerLock.toNat ∧
        p.resources.length + (p.held.card + (call.handedOut + p.tally PoolCall.handedOut)) =
          p.poolSize + (call.uncounted + p.tally PoolCall.uncounted) ∧
        p.poolSize + (call.growth + p.tally PoolCall.growth) ≤ p.maxPoolSize := by
  constructor
  · rintro ⟨hdistinct, hlock, hconserved, hbounded⟩
    unfold handedOut at hconserved
    rw [live_become] at hdistinct
    rw [tally_become] at hlock hbounded
    rw [tally_become, tally_become] at hconserved
    exact ⟨hdistinct, hlock, hconserved, hbounded⟩
  · rintro ⟨hdistinct, hlock, hconserved, hbounded⟩
    constructor
    · rw [live_become]
      exact hdistinct
    · rw [tally_become]
      exact hlock
    · unfold handedOut
      rw [tally_become, tally_become]
      exact hconserved
    · rw [tally_become]
      exact hbounded

omit [DecidableEq handle] in
/-- A call that moves on, and changes neither the handles nor the numbers. -/
theorem Sound.same_call {p : HandlePool handle} {call call' : PoolCall handle}
    (hp : (p.become call).Sound) (hhandles : call'.handles = call.handles)
    (hgrowing : call'.growing = call.growing) (hhanded : call'.handedOut = call.handedOut)
    (huncounted : call'.uncounted = call.uncounted) (hgrowth : call'.growth ≤ call.growth) :
    (p.become call').Sound := by
  rw [sound_become_iff] at hp ⊢
  rcases hp with ⟨hdistinct, hlock, hconserved, hbounded⟩
  rw [hhandles, hgrowing, hhanded, huncounted]
  exact ⟨hdistinct, hlock, hconserved, by omega⟩

theorem Sound.notifyOne {p : HandlePool handle} (hp : p.Sound) : p.notifyOne.Sound := by
  rcases notifyOne_cases p with ⟨_, hsame⟩ | ⟨q, hq, hwoken⟩
  · rw [hsame]
    exact hp
  · rw [hwoken]
    rw [hq] at hp
    exact hp.same_call rfl rfl rfl rfl (Nat.le_refl _)

omit [DecidableEq handle] in
theorem become_comm (p : HandlePool handle) (call call' : PoolCall handle) :
    (p.become call).become call' = (p.become call').become call := by
  unfold become
  simp only [Multiset.cons_swap call]

theorem Sound.notifyOne_become {p : HandlePool handle} {call : PoolCall handle}
    (hp : (p.become call).Sound) : (p.notifyOne.become call).Sound := by
  rcases notifyOne_cases p with ⟨_, hsame⟩ | ⟨q, hq, hwoken⟩
  · rw [hsame]
    exact hp
  · rw [hwoken, become_comm]
    rw [hq, become_comm] at hp
    exact hp.same_call rfl rfl rfl rfl (Nat.le_refl _)

omit [DecidableEq handle] in
/-- A call that is over, and had nothing. -/
theorem Sound.without_call {p : HandlePool handle} {call : PoolCall handle}
    (hp : (p.become call).Sound) (hhandles : call.handles = 0) (hgrowing : call.growing = 0)
    (hhanded : call.handedOut = 0) (huncounted : call.uncounted = 0)
    (hgrowth : call.growth = 0) : p.Sound := by
  rw [sound_become_iff, hhandles, hgrowing, hhanded, huncounted, hgrowth] at hp
  simp only [zero_add] at hp
  exact ⟨hp.1, hp.2.1, hp.2.2.1, hp.2.2.2⟩

omit [DecidableEq handle] in
theorem Sound.with_call {p : HandlePool handle} {call : PoolCall handle}
    (hp : p.Sound) (hhandles : call.handles = 0) (hgrowing : call.growing = 0)
    (hhanded : call.handedOut = 0) (huncounted : call.uncounted = 0)
    (hgrowth : call.growth = 0) : (p.become call).Sound := by
  rw [sound_become_iff, hhandles, hgrowing, hhanded, huncounted, hgrowth]
  simp only [zero_add]
  exact ⟨hp.distinct, hp.lock, hp.conserved, hp.bounded⟩

omit [DecidableEq handle] in
theorem amountToAdd_le (p : HandlePool handle) : p.amountToAdd ≤ p.maxPoolSize - p.poolSize :=
  Nat.min_le_right _ _

omit [DecidableEq handle] in
theorem Sound.lock_container {p : HandlePool handle} (hp : p.Sound)
    (hlock : p.containerLock = false) (hsize : p.poolSize < p.maxPoolSize) :
    (HandlePool.become { p with containerLock := true } (.grow p.amountToAdd 0)).Sound := by
  have hgrowing : p.tally PoolCall.growing = 0 := by
    rw [hp.lock, hlock]
    rfl
  have hgrowth : p.tally PoolCall.growth = 0 := tally_eq_zero (fun call hcall => by
    cases call
    all_goals first | rfl | cases hcall) hgrowing
  have hconserved := hp.conserved
  have hamount := p.amountToAdd_le
  rw [sound_become_iff]
  refine ⟨?_, ?_, ?_, ?_⟩
  · change (0 + p.live).Nodup
    rw [zero_add]
    exact hp.distinct
  · change 1 + p.tally PoolCall.growing = 1
    rw [hgrowing]
  · change p.resources.length + (p.held.card + (0 + p.tally PoolCall.handedOut)) =
      p.poolSize + (0 + p.tally PoolCall.uncounted)
    unfold handedOut at hconserved
    omega
  · change p.poolSize + (p.amountToAdd + 0 + p.tally PoolCall.growth) ≤ p.maxPoolSize
    omega

omit [DecidableEq handle] in
theorem live_cons (p : HandlePool handle) (h : handle) :
    live { p with resources := h :: p.resources } = {h} + p.live := by
  unfold live
  rw [← Multiset.cons_coe, ← Multiset.singleton_add]
  abel

omit [DecidableEq handle] in
/-- The handle at the end of the queue is handed out. -/
theorem Sound.handOut {p : HandlePool handle} (hp : p.Sound) {h : handle}
    {rest : List handle} (hresources : p.resources = h :: rest) :
    Sound { p with resources := rest, held := h ::ₘ p.held } := by
  rcases hp with ⟨hdistinct, hlock, hconserved, hbounded⟩
  refine ⟨?_, hlock, ?_, hbounded⟩
  · have hsame : live { p with resources := rest, held := h ::ₘ p.held } = p.live := by
      change ↑rest + (h ::ₘ p.held) + p.calls.bind PoolCall.handles =
        ↑p.resources + p.held + p.calls.bind PoolCall.handles
      rw [hresources, ← Multiset.cons_coe, ← Multiset.singleton_add, ← Multiset.singleton_add]
      abel
    rw [hsame]
    exact hdistinct
  · unfold handedOut at hconserved ⊢
    rw [hresources, List.length_cons] at hconserved
    change rest.length + ((h ::ₘ p.held).card + p.tally PoolCall.handedOut) =
      p.poolSize + p.tally PoolCall.uncounted
    rw [Multiset.card_cons]
    omega

omit [DecidableEq handle] in
theorem Sound.takeOne {p : HandlePool handle} (hp : p.Sound) : p.takeOne.Sound := by
  rcases takeOne_cases p with ⟨_, hsleep⟩ | ⟨h, rest, hresources, htake⟩
  · rw [hsleep]
    exact hp.with_call rfl rfl rfl rfl rfl
  · rw [htake]
    exact hp.handOut hresources

omit [DecidableEq handle] in
/-- A new handle is in no one else's hands. -/
theorem Sound.new_handle {p : HandlePool handle} {call call' : PoolCall handle}
    (hp : (p.become call).Sound) {h : handle} (hnew : h ∉ (p.become call).live)
    (hhandles : call'.handles = {h} + call.handles)
    (hgrowing : call'.growing = call.growing) (hhanded : call'.handedOut = call.handedOut)
    (huncounted : call'.uncounted = call.uncounted) (hgrowth : call'.growth ≤ call.growth) :
    (p.become call').Sound := by
  rw [live_become] at hnew
  rw [sound_become_iff] at hp ⊢
  rcases hp with ⟨hdistinct, hlock, hconserved, hbounded⟩
  rw [hhandles, hgrowing, hhanded, huncounted, add_assoc, Multiset.singleton_add,
    Multiset.nodup_cons]
  exact ⟨⟨hnew, hdistinct⟩, hlock, hconserved, by omega⟩

omit [DecidableEq handle] in
/-- A handle goes into the queue. -/
theorem Sound.push {p : HandlePool handle} {h : handle} {left added : Nat}
    (hp : (p.become (.push h left added)).Sound) :
    (HandlePool.become { p with resources := h :: p.resources } (.pushed left added)).Sound := by
  rw [sound_become_iff] at hp ⊢
  rcases hp with ⟨hdistinct, hlock, hconserved, hbounded⟩
  refine ⟨?_, hlock, ?_, hbounded⟩
  · change (0 + live { p with resources := h :: p.resources }).Nodup
    rw [zero_add, live_cons]
    exact hdistinct
  · change p.resources.length + 1 + (p.held.card + (0 + p.tally PoolCall.handedOut)) =
      p.poolSize + (added + 1 + p.tally PoolCall.uncounted)
    change p.resources.length + (p.held.card + (0 + p.tally PoolCall.handedOut)) =
      p.poolSize + (added + p.tally PoolCall.uncounted) at hconserved
    omega

omit [DecidableEq handle] in
theorem Sound.put {p : HandlePool handle} {h : handle} (hp : (p.become (.put h)).Sound) :
    (HandlePool.become { p with resources := h :: p.resources } .notify).Sound := by
  rw [sound_become_iff] at hp ⊢
  rcases hp with ⟨hdistinct, hlock, hconserved, hbounded⟩
  refine ⟨?_, hlock, ?_, hbounded⟩
  · change (0 + live { p with resources := h :: p.resources }).Nodup
    rw [zero_add, live_cons]
    exact hdistinct
  · change p.resources.length + 1 + (p.held.card + (0 + p.tally PoolCall.handedOut)) =
      p.poolSize + (0 + p.tally PoolCall.uncounted)
    change p.resources.length + (p.held.card + (1 + p.tally PoolCall.handedOut)) =
      p.poolSize + (0 + p.tally PoolCall.uncounted) at hconserved
    omega

omit [DecidableEq handle] in
/-- `poolSize_` counts what has been added, and the lock is let go of. -/
theorem Sound.count {p : HandlePool handle} {added : Nat}
    (hp : (p.become (.grown added)).Sound) :
    (HandlePool.become { p with poolSize := p.poolSize + added, containerLock := false }
      .take).Sound := by
  rw [sound_become_iff] at hp ⊢
  rcases hp with ⟨hdistinct, hlock, hconserved, hbounded⟩
  refine ⟨hdistinct, ?_, ?_, ?_⟩
  · change 0 + p.tally PoolCall.growing = 0
    change 1 + p.tally PoolCall.growing = p.containerLock.toNat at hlock
    have hone := p.containerLock.toNat_le
    omega
  · change p.resources.length + (p.held.card + (0 + p.tally PoolCall.handedOut)) =
      p.poolSize + added + (0 + p.tally PoolCall.uncounted)
    change p.resources.length + (p.held.card + (0 + p.tally PoolCall.handedOut)) =
      p.poolSize + (added + p.tally PoolCall.uncounted) at hconserved
    omega
  · change p.poolSize + added + (0 + p.tally PoolCall.growth) ≤ p.maxPoolSize
    change p.poolSize + (added + p.tally PoolCall.growth) ≤ p.maxPoolSize at hbounded
    omega

omit [DecidableEq handle] in
/-- The old handle is cleaned up. -/
theorem Sound.replace {p : HandlePool handle} {h newhandle : handle}
    (hp : (p.become (.replace h newhandle)).Sound) : (p.become (.put newhandle)).Sound := by
  rw [sound_become_iff] at hp ⊢
  rcases hp with ⟨hdistinct, hlock, hconserved, hbounded⟩
  refine ⟨?_, hlock, hconserved, hbounded⟩
  refine Multiset.nodup_of_le ?_ hdistinct
  exact add_le_add_left (Multiset.le_cons_self _ _) _

theorem advance_sound {p t : HandlePool handle} {call : PoolCall handle}
    {made : Option handle} (hp : (p.become call).Sound)
    (hmade : forall h, h ∈ made -> h ∉ (p.become call).live)
    (hstep : p.advance made call = some t) : t.Sound := by
  cases call with
  | acquire =>
      cases hstep
      split
      · exact hp.same_call rfl rfl rfl rfl (Nat.le_refl _)
      · exact hp.same_call rfl rfl rfl rfl (Nat.le_refl _)
  | lock =>
      have hidle : p.Sound := hp.without_call rfl rfl rfl rfl rfl
      rcases growPool_cases hstep with ⟨hlock, ⟨hsize, ht⟩ | ht⟩
      · rw [ht]
        exact hidle.lock_container hlock hsize
      · rw [ht]
        exact hidle.with_call rfl rfl rfl rfl rfl
  | grow left added =>
      cases left with
      | zero =>
          cases hstep
          exact hp.same_call rfl rfl rfl rfl (Nat.le_add_left _ _)
      | succ left =>
          cases made with
          | none =>
              cases hstep
              exact hp.same_call rfl rfl rfl rfl (Nat.le_add_left _ _)
          | some h =>
              cases hstep
              exact hp.new_handle (hmade h rfl) rfl rfl rfl rfl (Nat.le_refl _)
  | push h left added =>
      cases hstep
      exact hp.push
  | pushed left added =>
      cases hstep
      apply Sound.notifyOne_become
      refine hp.same_call rfl rfl rfl rfl ?_
      change left + (added + 1) ≤ left + 1 + added
      omega
  | grown added =>
      cases hstep
      exact hp.count
  | take =>
      cases hstep
      exact (hp.without_call rfl rfl rfl rfl rfl).takeOne
  | asleep => cases hstep
  | woken =>
      cases hstep
      exact (hp.without_call rfl rfl rfl rfl rfl).takeOne
  | release h force =>
      cases force with
      | false =>
          cases hstep
          exact hp.same_call rfl rfl rfl rfl (Nat.le_refl _)
      | true =>
          cases made with
          | none =>
              cases hstep
              exact hp.same_call rfl rfl rfl rfl (Nat.le_refl _)
          | some newhandle =>
              cases hstep
              refine hp.new_handle (hmade newhandle rfl) ?_ rfl rfl rfl (Nat.le_refl _)
              change (h ::ₘ {newhandle} : Multiset handle) = {newhandle} + {h}
              rw [← Multiset.singleton_add]
              exact add_comm _ _
  | replace h newhandle =>
      cases hstep
      exact hp.replace
  | put h =>
      cases hstep
      exact hp.put
  | notify =>
      cases hstep
      exact (hp.without_call rfl rfl rfl rfl rfl).notifyOne

/-!
# Steps
-/

theorem step_release {p t : HandlePool handle} {h : handle} {force : Bool}
    (hstep : p.step (.release h force) = some t) :
    h ∈ p.held ∧
      t = HandlePool.become { p with held := p.held.erase h } (.release h force) := by
  rcases Option.ite_none_right_eq_some.mp hstep with ⟨hheld, heq⟩
  exact ⟨hheld, (Option.some.inj heq).symm⟩

/-- A call moves as if the others were not there. -/
theorem step_move {p t : HandlePool handle} {call : PoolCall handle} {made : Option handle}
    (hstep : p.step (.move call made) = some t) :
    exists q : HandlePool handle, p = q.become call ∧ (forall h, h ∈ made -> h ∉ p.live) ∧
      q.advance made call = some t := by
  rcases Option.ite_none_right_eq_some.mp hstep with ⟨⟨hcall, hmade⟩, hadvance⟩
  exact ⟨{ p with calls := p.calls.erase call }, (become_erase hcall).symm, hmade, hadvance⟩

theorem step_wake {p t : HandlePool handle} (hstep : p.step .wake = some t) :
    exists q : HandlePool handle, p = q.become .asleep ∧ t = q.become .woken := by
  rcases Option.ite_none_right_eq_some.mp hstep with ⟨hasleep, heq⟩
  exact ⟨{ p with calls := p.calls.erase .asleep }, (become_erase hasleep).symm,
    (Option.some.inj heq).symm⟩

theorem Sound.take_back {p : HandlePool handle} (hp : p.Sound) {h : handle} (hheld : h ∈ p.held)
    (force : Bool) :
    (HandlePool.become { p with held := p.held.erase h } (.release h force)).Sound := by
  rcases hp with ⟨hdistinct, hlock, hconserved, hbounded⟩
  have hcons := Multiset.cons_erase hheld
  rw [sound_become_iff]
  refine ⟨?_, ?_, ?_, ?_⟩
  · have hsame : {h} + live { p with held := p.held.erase h } = p.live := by
      change {h} + (↑p.resources + p.held.erase h + p.calls.bind PoolCall.handles) =
        ↑p.resources + p.held + p.calls.bind PoolCall.handles
      rw [← hcons, Multiset.erase_cons_head, ← Multiset.singleton_add]
      abel
    change ({h} + live { p with held := p.held.erase h }).Nodup
    rw [hsame]
    exact hdistinct
  · change 0 + p.tally PoolCall.growing = p.containerLock.toNat
    omega
  · have hcard := congrArg Multiset.card hcons
    rw [Multiset.card_cons] at hcard
    unfold handedOut at hconserved
    change p.resources.length +
        ((p.held.erase h).card + (1 + p.tally PoolCall.handedOut)) =
      p.poolSize + (0 + p.tally PoolCall.uncounted)
    omega
  · change p.poolSize + (0 + p.tally PoolCall.growth) ≤ p.maxPoolSize
    omega

theorem step_sound {p t : HandlePool handle} {l : Label handle} (hp : p.Sound)
    (hstep : p.step l = some t) : t.Sound := by
  cases l with
  | acquire =>
      cases hstep
      exact hp.with_call rfl rfl rfl rfl rfl
  | release h force =>
      rcases step_release hstep with ⟨hheld, ht⟩
      rw [ht]
      exact hp.take_back hheld force
  | move call made =>
      rcases step_move hstep with ⟨q, hq, hmade, hadvance⟩
      rw [hq] at hp hmade
      exact advance_sound hp hmade hadvance
  | wake =>
      rcases step_wake hstep with ⟨q, hq, ht⟩
      rw [hq] at hp
      rw [ht]
      exact hp.same_call rfl rfl rfl rfl (Nat.le_refl _)

theorem sound_of_reachable {maxSize : Nat} {p : HandlePool handle}
    (hp : (system handle maxSize).Reachable p) : p.Sound := by
  refine TransitionSystem.invariant_of_step (T := system handle maxSize) ?_ ?_ p hp
  · intro p hp
    cases hp
    exact ⟨Multiset.nodup_zero, rfl, rfl, Nat.zero_le _⟩
  · intro p l t hp hstep
    exact step_sound hp hstep

/-!
# Waiting for a handle
-/

/-- The pool as it looks to those who wait for a handle. -/
def wakeups (p : HandlePool handle) : Wakeups :=
  ⟨p.resources.length, p.tally PoolCall.isAsleep, p.tally PoolCall.isWoken,
    p.tally PoolCall.notices⟩

omit [DecidableEq handle] in
theorem wakeups_become (p : HandlePool handle) (call : PoolCall handle) :
    (p.become call).wakeups =
      ⟨p.resources.length, call.isAsleep + p.tally PoolCall.isAsleep,
        call.isWoken + p.tally PoolCall.isWoken,
        call.notices + p.tally PoolCall.notices⟩ := by
  unfold wakeups
  rw [tally_become, tally_become, tally_become]
  rfl

omit [DecidableEq handle] in
/-- A call that does something else. -/
theorem wakeups_same_call (p : HandlePool handle) {call call' : PoolCall handle}
    (hasleep : call'.isAsleep = call.isAsleep) (hwoken : call'.isWoken = call.isWoken)
    (hnotices : call'.notices = call.notices) :
    (p.become call').wakeups = (p.become call).wakeups := by
  rw [wakeups_become, wakeups_become, hasleep, hwoken, hnotices]

omit [DecidableEq handle] in
theorem tally_isAsleep_eq_zero {p : HandlePool handle} (hasleep : .asleep ∉ p.calls) :
    p.tally PoolCall.isAsleep = 0 := by
  apply tally_eq_zero_iff.mpr
  intro call hcall
  cases call with
  | asleep => exact absurd hcall hasleep
  | _ => rfl

/-- A sleeper is woken, if there is one. -/
theorem wakeups_notifyOne (p : HandlePool handle) :
    p.notifyOne.wakeups =
      ⟨p.resources.length, p.tally PoolCall.isAsleep - 1,
        p.tally PoolCall.isWoken + min (p.tally PoolCall.isAsleep) 1,
        p.tally PoolCall.notices⟩ := by
  rcases notifyOne_cases p with ⟨hasleep, hsame⟩ | ⟨q, hq, hwoken⟩
  · rw [hsame, tally_isAsleep_eq_zero hasleep]
    unfold wakeups
    rw [tally_isAsleep_eq_zero hasleep]
    rfl
  · rw [hwoken, wakeups_become, hq, tally_become, tally_become, tally_become]
    refine Wakeups.ext rfl ?_ ?_ rfl
    · change 0 + q.tally PoolCall.isAsleep = 1 + q.tally PoolCall.isAsleep - 1
      omega
    · change 1 + q.tally PoolCall.isWoken =
        0 + q.tally PoolCall.isWoken + min (1 + q.tally PoolCall.isAsleep) 1
      omega

omit [DecidableEq handle] in
/-- A handle that is put in: a notification of it is to come. -/
theorem wakeups_put (p : HandlePool handle) (h : handle) {call call' : PoolCall handle}
    (hasleep : call.isAsleep = 0) (hwoken : call.isWoken = 0) (hnotices : call.notices = 0)
    (hasleep' : call'.isAsleep = 0) (hwoken' : call'.isWoken = 0)
    (hnotices' : call'.notices = 1) :
    (p.become call).wakeups.Follows
      (HandlePool.become { p with resources := h :: p.resources } call').wakeups := by
  refine Wakeups.Follows.one (m := .put) trivial ?_
  rw [wakeups_become, wakeups_become, hasleep, hwoken, hnotices, hasleep', hwoken', hnotices']
  refine Wakeups.ext rfl rfl rfl ?_
  change 1 + p.tally PoolCall.notices = 0 + p.tally PoolCall.notices + 1
  omega

/-- A notification is made, and the call does something else then. -/
theorem wakeups_notified {p t : HandlePool handle} {call : PoolCall handle}
    (hasleep : call.isAsleep = 0) (hwoken : call.isWoken = 0) (hnotices : call.notices = 1)
    (ht : t.wakeups = p.notifyOne.wakeups) :
    (p.become call).wakeups.Follows t.wakeups := by
  have hbefore := wakeups_become p call
  rw [hasleep, hwoken, hnotices] at hbefore
  refine Wakeups.Follows.one (m := .notifyOne) ?_ ?_
  · rw [hbefore]
    change 1 + p.tally PoolCall.notices ≠ 0
    omega
  · rw [ht, hbefore, wakeups_notifyOne]
    refine Wakeups.ext rfl ?_ ?_ ?_
    · change p.tally PoolCall.isAsleep - 1 = 0 + p.tally PoolCall.isAsleep - 1
      omega
    · change p.tally PoolCall.isWoken + min (p.tally PoolCall.isAsleep) 1 =
        0 + p.tally PoolCall.isWoken + min (0 + p.tally PoolCall.isAsleep) 1
      omega
    · change p.tally PoolCall.notices = 1 + p.tally PoolCall.notices - 1
      omega

omit [DecidableEq handle] in
theorem wakeups_take (p : HandlePool handle) :
    (p.become .take).wakeups.Follows p.takeOne.wakeups := by
  rcases takeOne_cases p with ⟨hresources, hsleep⟩ | ⟨h, rest, hresources, htake⟩
  · rw [hsleep]
    refine Wakeups.Follows.one (m := .sleep) ?_ ?_
    · rw [wakeups_become, hresources]
      rfl
    · rw [wakeups_become, wakeups_become]
      refine Wakeups.ext rfl ?_ rfl rfl
      change 1 + p.tally PoolCall.isAsleep = 0 + p.tally PoolCall.isAsleep + 1
      omega
  · rw [htake]
    refine Wakeups.Follows.one (m := .take) ?_ ?_
    · rw [wakeups_become, hresources]
      exact Nat.succ_ne_zero _
    · rw [wakeups_become, hresources]
      refine Wakeups.ext rfl ?_ ?_ ?_
      · exact (zero_add _).symm
      · exact (zero_add _).symm
      · exact (zero_add _).symm

omit [DecidableEq handle] in
theorem wakeups_takeWoken (p : HandlePool handle) :
    (p.become .woken).wakeups.Follows p.takeOne.wakeups := by
  have hone : 1 + p.tally PoolCall.isWoken ≠ 0 := by omega
  rcases takeOne_cases p with ⟨hresources, hsleep⟩ | ⟨h, rest, hresources, htake⟩
  · rw [hsleep]
    refine Wakeups.Follows.one (m := .sleepAgain) ?_ ?_
    · rw [wakeups_become, hresources]
      exact ⟨rfl, hone⟩
    · rw [wakeups_become, wakeups_become]
      refine Wakeups.ext rfl ?_ ?_ rfl
      · change 1 + p.tally PoolCall.isAsleep = 0 + p.tally PoolCall.isAsleep + 1
        omega
      · change 0 + p.tally PoolCall.isWoken = 1 + p.tally PoolCall.isWoken - 1
        omega
  · rw [htake]
    refine Wakeups.Follows.one (m := .takeWoken) ?_ ?_
    · rw [wakeups_become, hresources]
      exact ⟨Nat.succ_ne_zero _, hone⟩
    · rw [wakeups_become, hresources]
      refine Wakeups.ext rfl ?_ ?_ ?_
      · exact (zero_add _).symm
      · change p.tally PoolCall.isWoken = 1 + p.tally PoolCall.isWoken - 1
        omega
      · exact (zero_add _).symm

theorem advance_wakeups {p t : HandlePool handle} {call : PoolCall handle}
    {made : Option handle} (hstep : p.advance made call = some t) :
    (p.become call).wakeups.Follows t.wakeups := by
  cases call with
  | acquire =>
      cases hstep
      split
      · exact Wakeups.Follows.quiet (wakeups_same_call p rfl rfl rfl)
      · exact Wakeups.Follows.quiet (wakeups_same_call p rfl rfl rfl)
  | lock =>
      rcases growPool_cases hstep with ⟨_, ⟨_, ht⟩ | ht⟩
      · rw [ht]
        exact Wakeups.Follows.quiet (wakeups_same_call p rfl rfl rfl)
      · rw [ht]
        exact Wakeups.Follows.quiet (wakeups_same_call p rfl rfl rfl)
  | grow left added =>
      cases left with
      | zero =>
          cases hstep
          exact Wakeups.Follows.quiet (wakeups_same_call p rfl rfl rfl)
      | succ left =>
          cases made with
          | none =>
              cases hstep
              exact Wakeups.Follows.quiet (wakeups_same_call p rfl rfl rfl)
          | some h =>
              cases hstep
              exact Wakeups.Follows.quiet (wakeups_same_call p rfl rfl rfl)
  | push h left added =>
      cases hstep
      exact wakeups_put p h rfl rfl rfl rfl rfl rfl
  | pushed left added =>
      cases hstep
      refine wakeups_notified rfl rfl rfl ?_
      rw [wakeups_become]
      refine Wakeups.ext rfl ?_ ?_ ?_
      · exact zero_add _
      · exact zero_add _
      · exact zero_add _
  | grown added =>
      cases hstep
      exact Wakeups.Follows.quiet (wakeups_same_call p rfl rfl rfl)
  | take =>
      cases hstep
      exact wakeups_take p
  | asleep => cases hstep
  | woken =>
      cases hstep
      exact wakeups_takeWoken p
  | release h force =>
      cases force with
      | false =>
          cases hstep
          exact Wakeups.Follows.quiet (wakeups_same_call p rfl rfl rfl)
      | true =>
          cases made with
          | none =>
              cases hstep
              exact Wakeups.Follows.quiet (wakeups_same_call p rfl rfl rfl)
          | some newhandle =>
              cases hstep
              exact Wakeups.Follows.quiet (wakeups_same_call p rfl rfl rfl)
  | replace h newhandle =>
      cases hstep
      exact Wakeups.Follows.quiet (wakeups_same_call p rfl rfl rfl)
  | put h =>
      cases hstep
      exact wakeups_put p h rfl rfl rfl rfl rfl rfl
  | notify =>
      cases hstep
      exact wakeups_notified rfl rfl rfl rfl

theorem step_wakeups {p t : HandlePool handle} {l : Label handle} (hstep : p.step l = some t) :
    p.wakeups.Follows t.wakeups := by
  cases l with
  | acquire =>
      cases hstep
      refine Wakeups.Follows.quiet ?_
      rw [wakeups_become]
      refine Wakeups.ext rfl ?_ ?_ ?_
      · exact zero_add _
      · exact zero_add _
      · exact zero_add _
  | release h force =>
      rcases step_release hstep with ⟨_, ht⟩
      rw [ht]
      refine Wakeups.Follows.quiet ?_
      rw [wakeups_become]
      refine Wakeups.ext rfl ?_ ?_ ?_
      · exact zero_add _
      · exact zero_add _
      · exact zero_add _
  | move call made =>
      rcases step_move hstep with ⟨q, hq, _, hadvance⟩
      rw [hq]
      exact advance_wakeups hadvance
  | wake =>
      rcases step_wake hstep with ⟨q, hq, ht⟩
      rw [hq, ht]
      refine Wakeups.Follows.one (m := .spurious) ?_ ?_
      · rw [wakeups_become]
        change 1 + q.tally PoolCall.isAsleep ≠ 0
        omega
      · rw [wakeups_become, wakeups_become]
        refine Wakeups.ext rfl ?_ ?_ rfl
        · change 0 + q.tally PoolCall.isAsleep = 1 + q.tally PoolCall.isAsleep - 1
          omega
        · change 1 + q.tally PoolCall.isWoken = 0 + q.tally PoolCall.isWoken + 1
          omega

/-- No wake-up is lost in the pool. -/
theorem covered_of_reachable {maxSize : Nat} {p : HandlePool handle}
    (hp : (system handle maxSize).Reachable p) : p.wakeups.Covered := by
  refine Wakeups.covered_of_follows (T := system handle maxSize) ?_ ?_ hp
  · intro p hp
    cases hp
    rfl
  · intro p l t hstep
    exact step_wakeups hstep

/-!
# Progress
-/

/-- Calls that are there move on: no thread calls anything new, and none is woken. -/
def Moves (p t : HandlePool handle) : Prop :=
  exists moves : List (PoolCall handle × Option handle), forall maxSize,
    (system handle maxSize).run p (moves.map fun m => .move m.1 m.2) = some t

theorem Moves.refl (p : HandlePool handle) : Moves p p := ⟨[], fun _ => rfl⟩

theorem Moves.trans {p q t : HandlePool handle} (hpq : Moves p q) (hqt : Moves q t) :
    Moves p t := by
  rcases hpq with ⟨moves, hmoves⟩
  rcases hqt with ⟨more, hmore⟩
  refine ⟨moves ++ more, fun maxSize => ?_⟩
  rw [List.map_append, TransitionSystem.run_append, hmoves maxSize]
  exact hmore maxSize

/-- No handle is made. -/
theorem Moves.one {p t : HandlePool handle} {call : PoolCall handle}
    (hadvance : p.advance none call = some t) : Moves (p.become call) t := by
  refine ⟨[(call, none)], fun maxSize => ?_⟩
  have hstep : (p.become call).step (.move call none) = some t := by
    have htaken : { p.become call with calls := (p.become call).calls.erase call } = p := by
      unfold become
      simp only [Multiset.erase_cons_head]
    refine Option.ite_none_right_eq_some.mpr ⟨⟨Multiset.mem_cons_self _ _, ?_⟩, ?_⟩
    · intro h hh
      cases hh
    · rw [htaken]
      exact hadvance
  exact TransitionSystem.run_cons_of_step (T := system handle maxSize) [] hstep

/-- One call that was blocked gets a handle. -/
def CanProceed (p : HandlePool handle) : Prop :=
  exists t, Moves p t ∧ t.held.card = p.held.card + 1 ∧
    t.tally PoolCall.isBlocked + 1 = p.tally PoolCall.isBlocked

theorem CanProceed.of_moves {p q : HandlePool handle} (hmoves : Moves p q)
    (hheld : q.held = p.held) (hblocked : q.tally PoolCall.isBlocked = p.tally PoolCall.isBlocked)
    (hq : q.CanProceed) : p.CanProceed := by
  rcases hq with ⟨t, ht, hcard, htally⟩
  refine ⟨t, hmoves.trans ht, ?_, ?_⟩
  · rw [hcard, hheld]
  · rw [htally, hblocked]

omit [DecidableEq handle] in
theorem exists_become {p : HandlePool handle} {call : PoolCall handle} (hcall : call ∈ p.calls) :
    exists q : HandlePool handle, p = q.become call ∧ q.resources = p.resources ∧
      q.containerLock = p.containerLock ∧ q.calls ≤ p.calls := by
  rcases Multiset.exists_cons_of_mem hcall with ⟨rest, hrest⟩
  refine ⟨{ p with calls := rest }, ?_, rfl, rfl, ?_⟩
  · unfold become
    simp only [← hrest]
  · rw [hrest]
    exact Multiset.le_cons_self _ _

theorem canProceed_woken {p : HandlePool handle} (hresources : p.resources ≠ []) :
    (p.become .woken).CanProceed := by
  refine ⟨p.takeOne, Moves.one rfl, ?_, ?_⟩
  · rcases takeOne_cases p with ⟨hempty, _⟩ | ⟨h, rest, _, htake⟩
    · exact absurd hempty hresources
    · rw [htake]
      exact Multiset.card_cons _ _
  · rcases takeOne_cases p with ⟨hempty, _⟩ | ⟨h, rest, _, htake⟩
    · exact absurd hempty hresources
    · rw [htake, tally_become, add_comm]
      rfl

/-- A notification that is to come wakes one who sleeps. -/
theorem canProceed_notice {p : HandlePool handle} {call : PoolCall handle}
    (hnotices : call.notices ≠ 0) (hresources : p.resources ≠ []) (hasleep : .asleep ∈ p.calls) :
    (p.become call).CanProceed := by
  rcases notifyOne_cases p with ⟨hnone, _⟩ | ⟨q, hq, hwoken⟩
  · exact absurd hasleep hnone
  · have hmore : q.resources ≠ [] := by
      rw [hq] at hresources
      exact hresources
    cases call with
    | pushed left added =>
        have hmoves : Moves (p.become (.pushed left added))
            ((q.become (.grow left (added + 1))).become .woken) := by
          rw [become_comm, ← hwoken]
          exact Moves.one rfl
        refine CanProceed.of_moves hmoves ?_ ?_ (canProceed_woken hmore)
        · rw [hq]
          rfl
        · rw [hq]
          simp only [tally_become]
          change 1 + (0 + q.tally PoolCall.isBlocked) = 0 + (1 + q.tally PoolCall.isBlocked)
          omega
    | notify =>
        have hmoves : Moves (p.become .notify) (q.become .woken) := by
          rw [← hwoken]
          exact Moves.one rfl
        refine CanProceed.of_moves hmoves ?_ ?_ (canProceed_woken hmore)
        · rw [hq]
          rfl
        · rw [hq]
          simp only [tally_become]
          change 1 + q.tally PoolCall.isBlocked = 0 + (1 + q.tally PoolCall.isBlocked)
          omega
    | _ => exact absurd rfl hnotices

/-- No more handles are made, and `growPool` is over. -/
theorem moves_grow (p : HandlePool handle) (left added : Nat) :
    Moves (p.become (.grow left added))
      (HandlePool.become { p with poolSize := p.poolSize + added, containerLock := false }
        .take) := by
  have hloop : Moves (p.become (.grow left added)) (p.become (.grown added)) := by
    cases left with
    | zero => exact Moves.one rfl
    | succ left => exact Moves.one rfl
  exact hloop.trans (Moves.one rfl)

/-- A call that waits for a free lock gets it, and a handle. -/
theorem canProceed_unlocked {p : HandlePool handle} (hlock : p.containerLock = false)
    (hresources : p.resources ≠ []) : (p.become .lock).CanProceed := by
  have htake : exists n, Moves (p.become .lock)
      (HandlePool.become { p with poolSize := n, containerLock := false } .take) := by
    have hunlocked : p = { p with containerLock := false } := by
      rw [← hlock]
    by_cases hsize : p.poolSize < p.maxPoolSize
    · refine ⟨p.poolSize + 0, Moves.trans (Moves.one ?_)
        (moves_grow { p with containerLock := true } p.amountToAdd 0)⟩
      change p.growPool = _
      unfold growPool
      rw [hlock, if_neg Bool.false_ne_true, if_pos hsize]
    · refine ⟨p.poolSize, Moves.one ?_⟩
      change p.growPool = _
      unfold growPool
      rw [hlock, if_neg Bool.false_ne_true, if_neg hsize, ← hlock]
  rcases htake with ⟨n, hmoves⟩
  rcases takeOne_cases { p with poolSize := n, containerLock := false } with
    ⟨hempty, _⟩ | ⟨h, rest, _, htaken⟩
  · exact absurd hempty hresources
  · refine ⟨_, hmoves.trans (Moves.one (congrArg some htaken)), ?_, ?_⟩
    · exact Multiset.card_cons _ _
    · rw [tally_become, add_comm]
      rfl

/-- The call that has the lock of the container lets go of it. -/
theorem moves_growing {p : HandlePool handle} {call : PoolCall handle}
    (hgrowing : call.growing ≠ 0) (hasleep : .asleep ∉ p.calls) (hresources : p.resources ≠ []) :
    exists resources poolSize, resources ≠ [] ∧ Moves (p.become call)
      (HandlePool.become
        { p with resources := resources, poolSize := poolSize, containerLock := false }
          .take) := by
  have hpushed : forall (q : HandlePool handle) left added, .asleep ∉ q.calls ->
      Moves (q.become (.pushed left added)) (q.become (.grow left (added + 1))) := by
    intro q left added hq
    rcases notifyOne_cases q with ⟨_, hsame⟩ | ⟨q', hq', _⟩
    · refine Moves.one ?_
      change some (q.notifyOne.become _) = _
      rw [hsame]
    · exfalso
      apply hq
      rw [hq']
      exact Multiset.mem_cons_self _ _
  cases call with
  | grow left added => exact ⟨p.resources, _, hresources, moves_grow p left added⟩
  | push h left added =>
      refine ⟨h :: p.resources, p.poolSize + (added + 1), List.cons_ne_nil _ _, ?_⟩
      have hmoves : Moves (p.become (.push h left added))
          (HandlePool.become { p with resources := h :: p.resources } (.pushed left added)) :=
        Moves.one rfl
      exact (hmoves.trans (hpushed _ left added hasleep)).trans (moves_grow _ left (added + 1))
  | pushed left added =>
      exact ⟨p.resources, _, hresources,
        (hpushed p left added hasleep).trans (moves_grow p left (added + 1))⟩
  | grown added => exact ⟨p.resources, _, hresources, Moves.one rfl⟩
  | _ => exact absurd rfl hgrowing

theorem canProceed_lock {p : HandlePool handle} (hp : p.Sound) (hresources : p.resources ≠ [])
    (hasleep : .asleep ∉ p.calls) (hlocked : .lock ∈ p.calls) : p.CanProceed := by
  cases hlock : p.containerLock with
  | false =>
      rcases exists_become hlocked with ⟨q, hq, hsame, hfree, _⟩
      rw [hq]
      exact canProceed_unlocked (hfree.trans hlock) (hsame ▸ hresources)
  | true =>
      have hgrowing : p.tally PoolCall.growing ≠ 0 := by
        rw [hp.lock, hlock]
        exact Nat.one_ne_zero
      rcases exists_of_tally hgrowing with ⟨call, hmem, hgrow⟩
      rcases exists_become hmem with ⟨q, hq, hsame, _, hcalls⟩
      have hstill : .lock ∈ q.calls := by
        rw [hq] at hlocked
        rcases Multiset.mem_cons.mp hlocked with heq | hin
        · rw [← heq] at hgrow
          exact absurd rfl hgrow
        · exact hin
      have hawake : .asleep ∉ q.calls := fun hmem => hasleep (Multiset.mem_of_le hcalls hmem)
      rcases moves_growing hgrow hawake (hsame ▸ hresources) with
        ⟨resources, poolSize, hmore, hmoves⟩
      rw [← hq] at hmoves
      have hblocked : call.isBlocked = 0 := by
        cases call
        all_goals first | rfl | exact absurd rfl hgrow
      have hlocked' : .lock ∈ (HandlePool.become { q with
          resources := resources
          poolSize := poolSize
          containerLock := false } .take).calls := Multiset.mem_cons_of_mem hstill
      rcases exists_become hlocked' with ⟨r, hr, hsame', hfree, _⟩
      refine CanProceed.of_moves hmoves ?_ ?_ ?_
      · rw [hq]
        rfl
      · rw [hq, tally_become, tally_become, hblocked]
        rfl
      · rw [hr]
        exact canProceed_unlocked hfree (by rw [hsame']; exact hmore)

/-- A handle is free and a call is blocked: one that is blocked can proceed. -/
theorem canProceed_of_blocked {maxSize : Nat} {p : HandlePool handle}
    (hp : (system handle maxSize).Reachable p) (hresources : p.resources ≠ [])
    (hblocked : p.tally PoolCall.isBlocked ≠ 0) : p.CanProceed := by
  by_cases hwoken : .woken ∈ p.calls
  · rcases exists_become hwoken with ⟨q, hq, hsame, _, _⟩
    rw [hq]
    exact canProceed_woken (hsame ▸ hresources)
  · by_cases hasleep : .asleep ∈ p.calls
    · have hitems : p.wakeups.items ≠ 0 := fun hzero =>
        hresources (List.eq_nil_of_length_eq_zero hzero)
      have hsleepers : p.wakeups.asleep ≠ 0 := tally_ne_zero hasleep Nat.one_ne_zero
      rcases Wakeups.awake_or_notice (covered_of_reachable hp) hitems hsleepers with
        hawake | hnotice
      · rcases exists_of_tally hawake with ⟨call, hcall, hcounts⟩
        cases call with
        | woken => exact absurd hcall hwoken
        | _ => exact absurd rfl hcounts
      · rcases exists_of_tally hnotice with ⟨call, hcall, hcounts⟩
        rcases exists_become hcall with ⟨q, hq, hsame, _, _⟩
        have hstill : .asleep ∈ q.calls := by
          rw [hq] at hasleep
          rcases Multiset.mem_cons.mp hasleep with heq | hin
          · rw [← heq] at hcounts
            exact absurd rfl hcounts
          · exact hin
        rw [hq]
        exact canProceed_notice hcounts (hsame ▸ hresources) hstill
    · rcases exists_of_tally hblocked with ⟨call, hcall, hcounts⟩
      cases call with
      | lock => exact canProceed_lock (sound_of_reachable hp) hresources hasleep hcall
      | asleep => exact absurd hcall hasleep
      | woken => exact absurd hcall hwoken
      | _ => exact absurd rfl hcounts

/-!
# What holds in every interleaving
-/

/--
When no call grows the pool, every handle is counted once; no handle is in two hands;
there are as many awake or about to be woken as handles are free, unless no one sleeps;
and as long as a handle is free, one who is blocked can proceed.
-/
theorem handles_conserved (maxSize : Nat) (p : HandlePool handle)
    (hp : (system handle maxSize).Reachable p) :
    ((forall call, call ∈ p.calls -> call.growing = 0) ->
      p.resources.length + p.handedOut = p.poolSize) ∧
    p.poolSize ≤ p.maxPoolSize ∧
    p.live.Nodup ∧
    (.asleep ∈ p.calls ->
      p.resources.length ≤ p.tally PoolCall.isWoken + p.tally PoolCall.notices) ∧
    (p.resources ≠ [] -> (exists call, call ∈ p.calls ∧ call.isBlocked = 1) -> p.CanProceed) := by
  have hsound := sound_of_reachable hp
  refine ⟨?_, ?_, hsound.distinct, ?_, ?_⟩
  · intro hidle
    have hgrowing : p.tally PoolCall.growing = 0 := by
      by_contra hne
      rcases exists_of_tally hne with ⟨call, hcall, hgrows⟩
      exact hgrows (hidle call hcall)
    have huncounted : p.tally PoolCall.uncounted = 0 := tally_eq_zero (fun call hcall => by
      cases call
      all_goals first | rfl | cases hcall) hgrowing
    have hconserved := hsound.conserved
    rw [huncounted] at hconserved
    exact hconserved
  · exact Nat.le_trans (Nat.le_add_right _ _) hsound.bounded
  · intro hasleep
    rcases covered_of_reachable hp with hnone | hcovered
    · exact absurd hnone (tally_ne_zero hasleep Nat.one_ne_zero)
    · exact hcovered
  · rintro hresources ⟨call, hcall, hcounts⟩
    refine canProceed_of_blocked hp hresources (tally_ne_zero hcall ?_)
    rw [hcounts]
    exact Nat.one_ne_zero

/-- The second handle could not be made; who waits for it is about to be notified. -/
theorem handles_conserved_before_notice :
    [(0 : Nat)].length + 0 = 1 ∧
      HandlePool.CanProceed (⟨[0], 1, 2, false, 0, {.notify, .asleep}⟩ : HandlePool Nat) := by
  have hreachable : (system Nat 2).Reachable ⟨[0], 1, 2, false, 0, {.notify, .asleep}⟩ :=
    ⟨init Nat 2, [.acquire, .move .acquire none, .move .lock none, .move (.grow 2 0) (some 0),
      .move (.push 0 1 0) none, .move (.pushed 1 0) none, .move (.grow 1 1) none,
      .move (.grown 1) none, .move .take none, .acquire, .move .acquire none, .move .lock none,
      .move (.grow 1 0) none, .move (.grown 0) none, .move .take none, .release 0 false,
      .move (.release 0 false) none, .move (.put 0) none], rfl, by decide +kernel⟩
  rcases handles_conserved 2 _ hreachable with ⟨hconserved, _, _, _, hproceeds⟩
  refine ⟨hconserved (by decide), hproceeds (by decide) ⟨.asleep, by decide, rfl⟩⟩

end HandlePool
end Curl
end Transport
end OssSdk
