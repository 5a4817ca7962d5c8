import Mathlib.Algebra.Order.Group.Multiset
import Mathlib.Data.Multiset.Count
import Mathlib.Logic.Function.Basic

/-!
# A ledger of requests and pooled handles

Requests are handed over one after another and are numbered in that order.  Each
of them takes a handle from a pool, or none, and ends with a callback.  The
ledger says where every request is and what became of the handles; its entries
move requests and handles without losing or doubling any.
-/

namespace OssSdk
namespace Transport

/-- How far the thread that brought a request is with it. -/
inductive Stage where
  | mayAcquire
  | holding
  | failing
  | left
deriving DecidableEq

namespace Stage

/-- The request is still with the thread that brought it. -/
def underWay : Stage -> Nat
  | .left => 0
  | _ => 1

def holds : Stage -> Nat
  | .holding => 1
  | _ => 0

def acquires : Stage -> Nat
  | .mayAcquire => 1
  | _ => 0

theorem eq_left_of_underWay {stage : Stage} (h : stage.underWay = 0) :
    stage = .left := by
  cases stage with
  | left => rfl
  | mayAcquire => cases h
  | holding => cases h
  | failing => cases h

end Stage

/--
`contexts` are the requests that wait or run, each with a handle; `calling` are
those that are over and about to be called back.
-/
@[ext]
structure RequestLedger where
  entered : Multiset Nat
  stage : Nat -> Stage
  contexts : Multiset Nat
  calling : Multiset Nat
  called : Multiset Nat
  acquired : Multiset Nat
  released : Multiset Nat
  resources : Nat
  poolSize : Nat

/-- What the ledger says about one request. -/
structure RequestAccount where
  entered : Nat
  stage : Stage
  contexts : Nat
  calling : Nat
  called : Nat
  acquired : Nat
  released : Nat

/-- The request is in one place, and its handle has one owner. -/
structure RequestAccount.Balanced (a : RequestAccount) : Prop where
  once : a.stage.underWay + a.contexts + a.calling + a.called = a.entered
  enteredOnce : a.entered ≤ 1
  handle : a.acquired = a.released + a.stage.holds + a.contexts
  acquiredOnce : a.acquired + a.stage.acquires ≤ a.entered

namespace RequestLedger

def account (l : RequestLedger) (id : Nat) : RequestAccount where
  entered := l.entered.count id
  stage := l.stage id
  contexts := l.contexts.count id
  calling := l.calling.count id
  called := l.called.count id
  acquired := l.acquired.count id
  released := l.released.count id

structure Accounted (l : RequestLedger) : Prop where
  each : forall id, (l.account id).Balanced
  pool : l.resources + l.acquired.card = l.poolSize + l.released.card

/-- An entry about one request leaves the accounts of the others alone. -/
theorem Accounted.entry {l l' : RequestLedger} (id : Nat)
    (h : Accounted l)
    (hother : forall id', id' ≠ id -> l'.account id' = l.account id')
    (hself : (l'.account id).Balanced)
    (hpool : l'.resources + l'.acquired.card = l'.poolSize + l'.released.card) :
    Accounted l' where
  each id' := by
    by_cases hsame : id' = id
    · rw [hsame]
      exact hself
    · rw [hother id' hsame]
      exact h.each id'
  pool := hpool

/-!
# Entries
-/

def setStage (l : RequestLedger) (id : Nat) (stage : Stage) : RequestLedger :=
  { l with stage := Function.update l.stage id stage }

theorem setStage_self {l : RequestLedger} {id : Nat} {stage : Stage}
    (hstage : l.stage id = stage) : l.setStage id stage = l := by
  unfold setStage
  rw [← hstage, Function.update_eq_self]

/-- A new request. -/
def enter (l : RequestLedger) (id : Nat) : RequestLedger :=
  { l.setStage id .mayAcquire with entered := id ::ₘ l.entered }

def grow (l : RequestLedger) (added : Nat) : RequestLedger :=
  { l with
    resources := l.resources + added
    poolSize := l.poolSize + added }

def acquire (l : RequestLedger) (id : Nat) : RequestLedger :=
  { l.setStage id .holding with
    acquired := id ::ₘ l.acquired
    resources := l.resources - 1 }

def release (l : RequestLedger) (id : Nat) : RequestLedger :=
  { l with
    released := id ::ₘ l.released
    resources := l.resources + 1 }

/-- The request and its handle become a context. -/
def push (l : RequestLedger) (id : Nat) : RequestLedger :=
  { l.setStage id .left with contexts := id ::ₘ l.contexts }

/-- The request is over, and its handle goes back to the pool. -/
def finish (l : RequestLedger) (id : Nat) : RequestLedger :=
  { l.release id with
    contexts := l.contexts.erase id
    calling := id ::ₘ l.calling }

/-- The request is called back from the call that brought it. -/
def fail (l : RequestLedger) (id : Nat) : RequestLedger :=
  { l.setStage id .left with called := id ::ₘ l.called }

/-- The request is called back after it was over. -/
def deliver (l : RequestLedger) (id : Nat) : RequestLedger :=
  { l with
    calling := l.calling.erase id
    called := id ::ₘ l.called }

/-!
# Every entry keeps the account
-/

section Entries

variable {l : RequestLedger} {id : Nat}

theorem accounted_empty (poolSize : Nat) :
    Accounted ⟨0, fun _ => .left, 0, 0, 0, 0, 0, poolSize, poolSize⟩ where
  each _ := ⟨rfl, Nat.zero_le 1, rfl, le_refl 0⟩
  pool := rfl

theorem Accounted.enter (h : Accounted l) (hnew : id ∉ l.entered) :
    Accounted (l.enter id) := by
  have hzero : l.entered.count id = 0 := Multiset.count_eq_zero.mpr hnew
  refine h.entry id ?_ ?_ h.pool
  · intro id' hother
    simp [account, RequestLedger.enter, setStage, hother]
  · rcases h.each id with ⟨honce, _, hhandle, hacquired⟩
    simp only [account, hzero] at honce hhandle hacquired
    have hzero' : (l.stage id).underWay = 0 := by omega
    have hleft := Stage.eq_left_of_underWay hzero'
    simp only [hleft, Stage.underWay, Stage.holds, Stage.acquires]
      at honce hhandle hacquired
    constructor
    · simp [account, RequestLedger.enter, setStage, Stage.underWay, hzero]
      omega
    · simp [account, RequestLedger.enter, hzero]
    · simpa [account, RequestLedger.enter, setStage, Stage.holds] using hhandle
    · simpa [account, RequestLedger.enter, setStage, Stage.acquires, hzero]
        using hacquired

theorem Accounted.grow (added : Nat) (h : Accounted l) :
    Accounted (l.grow added) where
  each := h.each
  pool := by
    have hpool := h.pool
    simp only [RequestLedger.grow]
    omega

/-- A request is given up before it took a handle. -/
theorem Accounted.giveUp (h : Accounted l)
    (hstage : l.stage id = .mayAcquire) :
    Accounted (l.setStage id .failing) := by
  refine h.entry id ?_ ?_ h.pool
  · intro id' hother
    simp [account, setStage, hother]
  · rcases h.each id with ⟨honce, hentered, hhandle, hacquired⟩
    simp only [account, hstage, Stage.underWay, Stage.holds, Stage.acquires]
      at honce hhandle hacquired
    constructor
    · simpa [account, setStage, Stage.underWay] using honce
    · simpa [account, setStage] using hentered
    · simpa [account, setStage, Stage.holds] using hhandle
    · simpa [account, setStage, Stage.acquires] using
        Nat.le_of_succ_le hacquired

theorem Accounted.acquire (h : Accounted l)
    (hstage : l.stage id = .mayAcquire)
    (hresources : 0 < l.resources) :
    Accounted (l.acquire id) := by
  refine h.entry id ?_ ?_ ?_
  · intro id' hother
    simp [account, RequestLedger.acquire, setStage, hother]
  · rcases h.each id with ⟨honce, hentered, hhandle, hacquired⟩
    simp only [account, hstage, Stage.underWay, Stage.holds, Stage.acquires]
      at honce hhandle hacquired
    constructor
    · simpa [account, RequestLedger.acquire, setStage, Stage.underWay]
        using honce
    · simpa [account, RequestLedger.acquire, setStage] using hentered
    · simp [account, RequestLedger.acquire, setStage, Stage.holds]
      omega
    · simpa [account, RequestLedger.acquire, setStage, Stage.acquires]
        using hacquired
  · have hpool := h.pool
    simp only [RequestLedger.acquire, setStage, Multiset.card_cons]
    omega

/-- The transport was stopped while the handle was being acquired. -/
theorem Accounted.giveBack (h : Accounted l)
    (hstage : l.stage id = .holding) :
    Accounted ((l.release id).setStage id .failing) := by
  refine h.entry id ?_ ?_ ?_
  · intro id' hother
    simp [account, release, setStage, hother]
  · rcases h.each id with ⟨honce, hentered, hhandle, hacquired⟩
    simp only [account, hstage, Stage.underWay, Stage.holds, Stage.acquires]
      at honce hhandle hacquired
    constructor
    · simpa [account, release, setStage, Stage.underWay] using honce
    · simpa [account, release, setStage] using hentered
    · simpa [account, release, setStage, Stage.holds] using hhandle
    · simpa [account, release, setStage, Stage.acquires] using hacquired
  · have hpool := h.pool
    simp only [release, setStage, Multiset.card_cons]
    omega

theorem Accounted.push (h : Accounted l)
    (hstage : l.stage id = .holding) :
    Accounted (l.push id) := by
  refine h.entry id ?_ ?_ h.pool
  · intro id' hother
    simp [account, RequestLedger.push, setStage, hother]
  · rcases h.each id with ⟨honce, hentered, hhandle, hacquired⟩
    simp only [account, hstage, Stage.underWay, Stage.holds, Stage.acquires]
      at honce hhandle hacquired
    constructor
    · simp [account, RequestLedger.push, setStage, Stage.underWay]
      omega
    · simpa [account, RequestLedger.push, setStage] using hentered
    · simp [account, RequestLedger.push, setStage, Stage.holds]
      omega
    · simpa [account, RequestLedger.push, setStage, Stage.acquires]
        using hacquired

theorem Accounted.fail (h : Accounted l)
    (hstage : l.stage id = .failing) :
    Accounted (l.fail id) := by
  refine h.entry id ?_ ?_ h.pool
  · intro id' hother
    simp [account, RequestLedger.fail, setStage, hother]
  · rcases h.each id with ⟨honce, hentered, hhandle, hacquired⟩
    simp only [account, hstage, Stage.underWay, Stage.holds, Stage.acquires]
      at honce hhandle hacquired
    constructor
    · simp [account, RequestLedger.fail, setStage, Stage.underWay]
      omega
    · simpa [account, RequestLedger.fail, setStage] using hentered
    · simpa [account, RequestLedger.fail, setStage, Stage.holds] using hhandle
    · simpa [account, RequestLedger.fail, setStage, Stage.acquires]
        using hacquired

theorem Accounted.finish (h : Accounted l) (hid : id ∈ l.contexts) :
    Accounted (l.finish id) := by
  have hpos : 0 < l.contexts.count id := Multiset.count_pos.mpr hid
  refine h.entry id ?_ ?_ ?_
  · intro id' hother
    simp [account, RequestLedger.finish, release, hother]
  · rcases h.each id with ⟨honce, hentered, hhandle, hacquired⟩
    simp only [account] at honce hhandle hacquired
    constructor
    · simp [account, RequestLedger.finish, release]
      omega
    · simpa [account, RequestLedger.finish, release] using hentered
    · simp [account, RequestLedger.finish, release]
      omega
    · simpa [account, RequestLedger.finish, release] using hacquired
  · have hpool := h.pool
    simp only [RequestLedger.finish, release, Multiset.card_cons]
    omega

theorem Accounted.deliver (h : Accounted l) (hid : id ∈ l.calling) :
    Accounted (l.deliver id) := by
  have hpos : 0 < l.calling.count id := Multiset.count_pos.mpr hid
  refine h.entry id ?_ ?_ h.pool
  · intro id' hother
    simp [account, RequestLedger.deliver, hother]
  · rcases h.each id with ⟨honce, hentered, hhandle, hacquired⟩
    simp only [account] at honce hhandle hacquired
    constructor
    · simp [account, RequestLedger.deliver]
      omega
    · simpa [account, RequestLedger.deliver] using hentered
    · simpa [account, RequestLedger.deliver] using hhandle
    · simpa [account, RequestLedger.deliver] using hacquired

end Entries

/-!
# Nothing left
-/

theorem Accounted.called_of_idle {l : RequestLedger} {id : Nat}
    (h : Accounted l)
    (hid : id ∈ l.entered)
    (hstage : l.stage id = .left)
    (hcontexts : l.contexts = 0)
    (hcalling : l.calling = 0) :
    l.called.count id = 1 := by
  have hpos : 0 < l.entered.count id := Multiset.count_pos.mpr hid
  rcases h.each id with ⟨honce, hentered, _, _⟩
  simp only [account, hstage, hcontexts, hcalling, Stage.underWay,
    Multiset.count_zero] at honce hentered
  omega

theorem Accounted.released_of_idle {l : RequestLedger} {id : Nat}
    (h : Accounted l)
    (hstage : l.stage id = .left)
    (hcontexts : l.contexts = 0) :
    l.acquired.count id = l.released.count id := by
  have hhandle := (h.each id).handle
  simpa [account, hstage, hcontexts, Stage.holds] using hhandle

/-- With every handle returned the pool is complete. -/
theorem Accounted.pool_complete {l : RequestLedger}
    (h : Accounted l)
    (hreturned : forall id, l.acquired.count id = l.released.count id) :
    l.resources = l.poolSize := by
  have hsame : l.acquired = l.released := Multiset.ext.mpr hreturned
  have hpool := h.pool
  rw [hsame] at hpool
  exact Nat.add_right_cancel hpool

theorem Accounted.released_of_pool_complete {l : RequestLedger}
    (h : Accounted l)
    (hcomplete : l.poolSize ≤ l.resources) :
    l.released = l.acquired := by
  have hle : l.released ≤ l.acquired := by
    rw [Multiset.le_iff_count]
    intro id
    have hhandle := (h.each id).handle
    simp only [account] at hhandle
    omega
  have hcard : l.acquired.card ≤ l.released.card := by
    have hpool := h.pool
    omega
  exact Multiset.eq_of_le_of_card_le hle hcard

/-- While the pool is complete no context owns a handle. -/
theorem Accounted.contexts_of_pool_complete {l : RequestLedger}
    (h : Accounted l)
    (hcomplete : l.poolSize ≤ l.resources) :
    l.contexts = 0 := by
  have hsame := h.released_of_pool_complete hcomplete
  rw [Multiset.eq_zero_iff_forall_notMem]
  intro id
  apply Multiset.count_eq_zero.mp
  have hhandle := (h.each id).handle
  simp only [account, hsame] at hhandle
  omega

/-- The pool is given up when it is complete. -/
theorem Accounted.shutdown {l : RequestLedger}
    (h : Accounted l)
    (hcomplete : l.poolSize ≤ l.resources) :
    Accounted { l with resources := 0, poolSize := 0 } where
  each := h.each
  pool := by
    have hsame := h.released_of_pool_complete hcomplete
    simp only [hsame]

end RequestLedger
end Transport
end OssSdk
