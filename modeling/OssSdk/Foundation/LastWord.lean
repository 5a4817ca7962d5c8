import Mathlib.Logic.Basic

/-!
# The last word on a field

A field that some of the events of a history set is as the last of them has left it.
-/

namespace OssSdk
namespace Foundation

variable {α β γ : Type}

/-- What the last event that sets the field says, or else what it was before. -/
def lastWord (sets : α -> Bool) (value : α -> γ) (events : List α) (before : γ) : γ :=
  (((events.filter sets).getLast?).map value).getD before

variable {sets : α -> Bool} {value : α -> γ}

theorem lastWord_cons (a : α) (events : List α) (before : γ) :
    lastWord sets value (a :: events) before =
      lastWord sets value events (if sets a then value a else before) := by
  unfold lastWord
  cases hsets : sets a with
  | false =>
      rw [List.filter_cons_of_neg (by rw [hsets]; exact Bool.false_ne_true)]
      rfl
  | true =>
      rw [List.filter_cons_of_pos hsets, List.getLast?_cons]
      cases (events.filter sets).getLast? with
      | none => rfl
      | some last => rfl

/-- A step that sets the field for these events, and leaves it for all others. -/
theorem field_foldl {step : β -> α -> β} {field : β -> γ}
    (hstep : forall b a, field (step b a) = if sets a then value a else field b)
    (events : List α) (b : β) :
    field (events.foldl step b) = lastWord sets value events (field b) := by
  induction events generalizing b with
  | nil => rfl
  | cons a rest ih =>
      rw [List.foldl_cons, ih, hstep, lastWord_cons]

/-- The events leave a field as it was where the last one that sets it repeats it. -/
theorem lastWord_eq_iff (events : List α) (before : γ) :
    lastWord sets value events before = before ↔
      forall a, (events.filter sets).getLast? = some a -> value a = before := by
  unfold lastWord
  cases hlast : (events.filter sets).getLast? with
  | none => exact ⟨fun _ a ha => (nomatch ha), fun _ => rfl⟩
  | some last =>
      constructor
      · intro hsame a ha
        cases ha
        exact hsame
      · exact fun h => h last rfl

theorem lastWord_unset {events : List α} (hunset : forall a, a ∈ events -> sets a = false)
    (before : γ) : lastWord sets value events before = before := by
  have hnone : events.filter sets = [] := by
    apply List.filter_eq_nil_iff.mpr
    intro a ha
    rw [hunset a ha]
    exact Bool.false_ne_true
  unfold lastWord
  rw [hnone]
  rfl

end Foundation
end OssSdk
