import Mathlib.Data.Multiset.AddSub
import Mathlib.Data.Multiset.Fold
import Mathlib.Order.MinMax

/-!
# A value that updates lower

Any number of updates go on at once.  Each of them loads the value, and puts its target in
the place of what it has loaded as long as the target is less.  The exchange is atomic; it
fails when the value is not the loaded one any more, and may fail without a reason.  An
update that fails has loaded the value again.
-/

namespace OssSdk
namespace Foundation

variable {α : Type}

/-- `loaded` is empty before the first load. -/
structure LoweringUpdate (α : Type) where
  target : α
  loaded : Option α
deriving DecidableEq

/-- `applied` has the targets of the updates that have ended. -/
structure AtomicMin (α : Type) where
  value : α
  updates : Multiset (LoweringUpdate α)
  applied : Multiset α

namespace AtomicMin

def init (start : α) : AtomicMin α := ⟨start, 0, 0⟩

/-- A new update, which has loaded nothing. -/
def begin (s : AtomicMin α) (target : α) : AtomicMin α :=
  { s with updates := ⟨target, none⟩ ::ₘ s.updates }

/-- The targets of all updates, of those that have ended and of the others. -/
def targets (s : AtomicMin α) : Multiset α :=
  s.applied + s.updates.map LoweringUpdate.target

theorem targets_begin (s : AtomicMin α) (target : α) :
    (s.begin target).targets = target ::ₘ s.targets := by
  unfold targets begin
  rw [Multiset.map_cons, Multiset.add_cons]

variable [LinearOrder α]

/-- The update goes on with another loaded value. -/
def reload (s : AtomicMin α) (u : LoweringUpdate α) : AtomicMin α :=
  { s with updates := ⟨u.target, some s.value⟩ ::ₘ s.updates.erase u }

/-- The update has ended. -/
def finish (s : AtomicMin α) (u : LoweringUpdate α) (value : α) : AtomicMin α :=
  { value := value
    updates := s.updates.erase u
    applied := u.target ::ₘ s.applied }

/-- What an update does next; `fails` says whether an exchange fails without a reason. -/
def advance (s : AtomicMin α) (u : LoweringUpdate α) (fails : Bool) : AtomicMin α :=
  match u.loaded with
  | none => s.reload u
  | some current =>
      if u.target < current then
        if s.value = current ∧ fails = false then s.finish u u.target
        else s.reload u
      else s.finish u s.value

/-- The least of the targets that have been applied, and of where it started from. -/
def lowest (start : α) (applied : Multiset α) : α := applied.fold min start

/--
The value is the least target of the updates that have ended, and no update that is under
way has loaded less.
-/
structure Settled (start : α) (s : AtomicMin α) : Prop where
  value : s.value = lowest start s.applied
  loaded : forall u, u ∈ s.updates -> forall current, u.loaded = some current ->
    s.value ≤ current

theorem lowest_cons (start : α) (target : α) (applied : Multiset α) :
    lowest start (target ::ₘ applied) = min target (lowest start applied) := by
  unfold lowest
  rw [Multiset.fold_cons_left]

theorem lowest_le_iff (start : α) (applied : Multiset α) (limit : α) :
    lowest start applied ≤ limit ↔
      start ≤ limit ∨ exists target, target ∈ applied ∧ target ≤ limit := by
  induction applied using Multiset.induction with
  | empty =>
      unfold lowest
      simp
  | cons target applied ih =>
      rw [lowest_cons, min_le_iff, ih]
      constructor
      · rintro (htarget | hstart | ⟨t, ht, hle⟩)
        · exact Or.inr ⟨target, Multiset.mem_cons_self _ _, htarget⟩
        · exact Or.inl hstart
        · exact Or.inr ⟨t, Multiset.mem_cons_of_mem ht, hle⟩
      · rintro (hstart | ⟨t, ht, hle⟩)
        · exact Or.inr (Or.inl hstart)
        · rcases Multiset.mem_cons.mp ht with heq | hmem
          · exact Or.inl (heq ▸ hle)
          · exact Or.inr (Or.inr ⟨t, hmem, hle⟩)

/-!
# What a step does
-/

theorem settled_init (start : α) : Settled start (init start) where
  value := rfl
  loaded := fun _ hu => absurd hu (Multiset.notMem_zero _)

theorem Settled.begin {start : α} {s : AtomicMin α} (hs : Settled start s) (target : α) :
    Settled start (s.begin target) where
  value := hs.value
  loaded := by
    intro u hu current hcurrent
    rcases Multiset.mem_cons.mp hu with heq | hmem
    · rw [heq] at hcurrent
      cases hcurrent
    · exact hs.loaded u hmem current hcurrent

theorem Settled.reload {start : α} {s : AtomicMin α} (hs : Settled start s)
    (u : LoweringUpdate α) : Settled start (s.reload u) where
  value := hs.value
  loaded := by
    intro v hv current hcurrent
    rcases Multiset.mem_cons.mp hv with heq | hmem
    · rw [heq] at hcurrent
      exact le_of_eq (Option.some.inj hcurrent)
    · exact hs.loaded v (Multiset.mem_of_mem_erase hmem) current hcurrent

/-- An update ends with the lesser of the value and its target. -/
theorem Settled.finish {start : α} {s : AtomicMin α} (hs : Settled start s)
    {u : LoweringUpdate α} {value : α} (hvalue : value = min u.target s.value) :
    Settled start (s.finish u value) where
  value := by
    show value = lowest start (u.target ::ₘ s.applied)
    rw [lowest_cons, ← hs.value]
    exact hvalue
  loaded := by
    intro v hv current hcurrent
    have hbefore := hs.loaded v (Multiset.mem_of_mem_erase hv) current hcurrent
    show value ≤ current
    rw [hvalue]
    exact le_trans (min_le_right _ _) hbefore

theorem Settled.advance {start : α} {s : AtomicMin α} (hs : Settled start s)
    {u : LoweringUpdate α} (hu : u ∈ s.updates) (fails : Bool) :
    Settled start (s.advance u fails) := by
  unfold AtomicMin.advance
  cases hloaded : u.loaded with
  | none => exact hs.reload u
  | some current =>
      have hcurrent := hs.loaded u hu current hloaded
      simp only
      split
      · rename_i hless
        split
        · rename_i hsame
          apply hs.finish
          rw [hsame.1]
          exact (min_eq_left (le_of_lt hless)).symm
        · exact hs.reload u
      · rename_i hnot
        apply hs.finish
        exact (min_eq_right (le_trans hcurrent (not_lt.mp hnot))).symm

/-- The value only gets less, whatever an update has loaded. -/
theorem advance_value_le (s : AtomicMin α) (u : LoweringUpdate α) (fails : Bool) :
    (s.advance u fails).value ≤ s.value := by
  unfold advance
  split
  · exact le_rfl
  · split
    · rename_i current _ hless
      split
      · rename_i hsame
        rw [hsame.1]
        exact le_of_lt hless
      · exact le_rfl
    · exact le_rfl

/-- An update that goes on stays one, and one that ends is not forgotten. -/
theorem targets_advance {s : AtomicMin α} {u : LoweringUpdate α} (hu : u ∈ s.updates)
    (fails : Bool) : (s.advance u fails).targets = s.targets := by
  have hsplit : s.updates.map LoweringUpdate.target =
      u.target ::ₘ (s.updates.erase u).map LoweringUpdate.target := by
    rw [← Multiset.map_cons LoweringUpdate.target u, Multiset.cons_erase hu]
  have hreload : (s.reload u).targets = s.targets := by
    unfold targets reload
    rw [hsplit, Multiset.map_cons]
  have hfinish : forall value, (s.finish u value).targets = s.targets := by
    intro value
    unfold targets finish
    rw [hsplit, Multiset.add_cons, Multiset.cons_add]
  unfold advance
  split
  · exact hreload
  · split
    · split
      · exact hfinish _
      · exact hreload
    · exact hfinish _

/-!
# One update

Who makes an update sees whether it has ended, and what it goes on with if it has not.
-/

def goesOn (s : AtomicMin α) (u : LoweringUpdate α) (fails : Bool) :
    Option (LoweringUpdate α) :=
  match u.loaded with
  | none => some ⟨u.target, some s.value⟩
  | some current =>
      if u.target < current then
        if s.value = current ∧ fails = false then none else some ⟨u.target, some s.value⟩
      else none

theorem advance_of_goesOn {s : AtomicMin α} {u v : LoweringUpdate α} {fails : Bool}
    (hon : s.goesOn u fails = some v) :
    s.advance u fails = s.reload u ∧ v = ⟨u.target, some s.value⟩ := by
  unfold goesOn at hon
  unfold advance
  split at hon
  · exact ⟨rfl, (Option.some.inj hon).symm⟩
  · split at hon
    · rename_i hless
      rw [if_pos hless]
      split at hon
      · cases hon
      · rename_i hfails
        rw [if_neg hfails]
        exact ⟨rfl, (Option.some.inj hon).symm⟩
    · cases hon

theorem advance_of_ends {s : AtomicMin α} {u : LoweringUpdate α} {fails : Bool}
    (hends : s.goesOn u fails = none) :
    exists value, s.advance u fails = s.finish u value := by
  unfold goesOn at hends
  unfold advance
  split at hends
  · cases hends
  · split at hends
    · rename_i hless
      rw [if_pos hless]
      split at hends
      · rename_i hsame
        exact ⟨u.target, if_pos hsame⟩
      · cases hends
    · rename_i hnot
      exact ⟨s.value, if_neg hnot⟩

/-- The value is no more than the target when the update ends. -/
theorem Settled.value_le_of_ends {start : α} {s : AtomicMin α} (hs : Settled start s)
    {u : LoweringUpdate α} (hu : u ∈ s.updates) {fails : Bool}
    (hends : s.goesOn u fails = none) : (s.advance u fails).value ≤ u.target := by
  rcases advance_of_ends hends with ⟨value, hfinish⟩
  have happlied := (hs.advance hu fails).value
  rw [hfinish] at happlied ⊢
  rw [happlied]
  exact (lowest_le_iff start _ _).mpr
    (Or.inr ⟨u.target, Multiset.mem_cons_self _ _, le_rfl⟩)

end AtomicMin

end Foundation
end OssSdk
