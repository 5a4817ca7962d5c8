import Mathlib.Data.Int.Order.Basic
import Mathlib.Algebra.Order.Group.Int

/-!
# Integers of 64 bits

What does not fit in is taken modulo 2^64, as two's complement does it.
-/

namespace OssSdk
namespace Foundation

def FitsInt64 (x : Int) : Prop := -(2 ^ 63) ≤ x ∧ x < 2 ^ 63

instance (x : Int) : Decidable (FitsInt64 x) :=
  inferInstanceAs (Decidable (_ ∧ _))

def int64 (x : Int) : Int := (x + 2 ^ 63) % 2 ^ 64 - 2 ^ 63

theorem fitsInt64_int64 (x : Int) : FitsInt64 (int64 x) := by
  unfold int64
  constructor
  · omega
  · omega

theorem int64_eq_self_iff (x : Int) : int64 x = x ↔ FitsInt64 x := by
  constructor
  · intro hsame
    rw [← hsame]
    exact fitsInt64_int64 x
  · rintro ⟨hlow, hhigh⟩
    unfold int64
    omega

/-- An operand may be wrapped before it is added. -/
theorem int64_add_int64 (x y : Int) : int64 (x + int64 y) = int64 (x + y) := by
  unfold int64
  omega

end Foundation
end OssSdk
