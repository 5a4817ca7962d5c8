import Mathlib.Algebra.BigOperators.Group.Multiset.Basic
import Mathlib.Data.Multiset.MapFold
import Mathlib.Algebra.Order.BigOperators.Group.Multiset
import Mathlib.Algebra.Order.Group.Nat

/-!
# Parties that are alike

Parties at the same point of what they do are told apart by nothing, so all who are there
are a multiset of points.  A number for each of them is summed up.
-/

namespace OssSdk
namespace Foundation

variable {party : Type}

def tally (parties : Multiset party) (f : party -> Nat) : Nat := (parties.map f).sum

@[simp] theorem tally_zero (f : party -> Nat) : tally 0 f = 0 := rfl

theorem tally_cons (a : party) (parties : Multiset party) (f : party -> Nat) :
    tally (a ::ₘ parties) f = f a + tally parties f := by
  unfold tally
  rw [Multiset.map_cons, Multiset.sum_cons]

theorem tally_eq_zero_iff {parties : Multiset party} {f : party -> Nat} :
    tally parties f = 0 ↔ forall a, a ∈ parties -> f a = 0 := by
  unfold tally
  rw [Multiset.sum_eq_zero_iff]
  constructor
  · intro hzero a ha
    exact hzero _ (Multiset.mem_map_of_mem f ha)
  · intro hzero n hn
    rcases Multiset.mem_map.mp hn with ⟨a, ha, heq⟩
    rw [← heq]
    exact hzero a ha

/-- A sum that is not nothing has a party in it that counts. -/
theorem exists_of_tally {parties : Multiset party} {f : party -> Nat}
    (hf : tally parties f ≠ 0) : exists a, a ∈ parties ∧ f a ≠ 0 := by
  by_contra hnone
  apply hf
  rw [tally_eq_zero_iff]
  intro a ha
  by_contra hne
  exact hnone ⟨a, ha, hne⟩

theorem tally_ne_zero {parties : Multiset party} {f : party -> Nat} {a : party}
    (ha : a ∈ parties) (hf : f a ≠ 0) : tally parties f ≠ 0 :=
  fun hzero => hf (tally_eq_zero_iff.mp hzero a ha)

/-- All parties go on at once. -/
theorem tally_map (parties : Multiset party) (next : party -> party) (f : party -> Nat) :
    tally (parties.map next) f = tally parties fun a => f (next a) := by
  unfold tally
  rw [Multiset.map_map]
  rfl

theorem tally_add (parties : Multiset party) (f g : party -> Nat) :
    tally parties (fun a => f a + g a) = tally parties f + tally parties g :=
  Multiset.sum_map_add

theorem tally_le {parties : Multiset party} {f g : party -> Nat}
    (hle : forall a, a ∈ parties -> f a ≤ g a) : tally parties f ≤ tally parties g :=
  Multiset.sum_map_le_sum_map f g hle

theorem tally_one (parties : Multiset party) : tally parties (fun _ => 1) = parties.card := by
  unfold tally
  rw [Multiset.map_const', Multiset.sum_replicate]
  exact Nat.mul_one _

end Foundation
end OssSdk
