import OssSdk.Foundation.Bytes
import Mathlib.Data.List.TakeWhile

/-!
# Texts that are cut at a byte

What comes before the first occurrence of a byte, and what comes after it.
-/

namespace OssSdk
namespace Foundation

def before (d : UInt8) (s : ByteString) : ByteString := s.takeWhile (· != d)

/-- Nothing comes after a byte that is not there. -/
def after (d : UInt8) (s : ByteString) : ByteString := (s.dropWhile (· != d)).drop 1

variable {d : UInt8} {u : ByteString}

theorem forall_bne (hu : d ∉ u) : forall c, c ∈ u -> (c != d) = true := by
  intro c hc
  have hne : c ≠ d := fun heq => hu (heq ▸ hc)
  simpa using hne

theorem before_append_left (hu : d ∉ u) (s : ByteString) :
    before d (u ++ s) = u ++ before d s :=
  List.takeWhile_append_of_pos (forall_bne hu)

theorem dropWhile_append_left (hu : d ∉ u) (s : ByteString) :
    (u ++ s).dropWhile (· != d) = s.dropWhile (· != d) :=
  List.dropWhile_append_of_pos (forall_bne hu)

theorem after_append_left (hu : d ∉ u) (s : ByteString) :
    after d (u ++ s) = after d s := by
  unfold after
  rw [dropWhile_append_left hu]

theorem before_cons (d : UInt8) (s : ByteString) : before d (d :: s) = [] :=
  List.takeWhile_cons_of_neg (by simp)

theorem dropWhile_cons (d : UInt8) (s : ByteString) :
    (d :: s).dropWhile (· != d) = d :: s :=
  List.dropWhile_cons_of_neg (by simp)

theorem after_cons (d : UInt8) (s : ByteString) : after d (d :: s) = s := by
  unfold after
  rw [dropWhile_cons]
  rfl

theorem before_append (hu : d ∉ u) (s : ByteString) : before d (u ++ d :: s) = u := by
  rw [before_append_left hu, before_cons, List.append_nil]

theorem after_append (hu : d ∉ u) (s : ByteString) : after d (u ++ d :: s) = s := by
  rw [after_append_left hu, after_cons]

/-- A text is cut at its first such byte in one way. -/
theorem cut_inj {v s t : ByteString} (hu : d ∉ u) (hv : d ∉ v)
    (hsame : u ++ d :: s = v ++ d :: t) : u = v ∧ s = t := by
  constructor
  · rw [← before_append hu s, hsame, before_append hv t]
  · rw [← after_append hu s, hsame, after_append hv t]

theorem before_eq_self (hu : d ∉ u) : before d u = u :=
  List.takeWhile_eq_self_iff.mpr (forall_bne hu)

theorem after_eq_nil (hu : d ∉ u) : after d u = [] := by
  unfold after
  rw [List.dropWhile_eq_nil_iff.mpr (forall_bne hu)]
  rfl

/-- A text with the byte is put together again from what is before and after it. -/
theorem before_cons_after {s : ByteString} (hd : d ∈ s) :
    before d s ++ d :: after d s = s := by
  induction s with
  | nil => cases hd
  | cons c s' ih =>
      by_cases hc : c = d
      · rw [hc, before_cons, after_cons, List.nil_append]
      · have hd' : d ∈ s' := by
          rcases List.mem_cons.mp hd with heq | hmem
          · exact absurd heq.symm hc
          · exact hmem
        have hone : d ∉ [c] := fun hmem => hc (List.mem_singleton.mp hmem).symm
        rw [← List.singleton_append, before_append_left hone, after_append_left hone,
          List.append_assoc, ih hd']

/-- What follows a text with the byte comes after the byte as well. -/
theorem before_after_append {s : ByteString} (hd : d ∈ s) (t : ByteString) :
    before d (s ++ t) = before d s ∧ after d (s ++ t) = after d s ++ t := by
  have hnot : d ∉ before d s := by
    intro hmem
    have hne := List.all_eq_true.mp List.all_takeWhile d hmem
    simp at hne
  have hsplit : s ++ t = before d s ++ d :: (after d s ++ t) := by
    rw [← List.cons_append, ← List.append_assoc, before_cons_after hd]
  rw [hsplit]
  exact ⟨before_append hnot _, after_append hnot _⟩

theorem not_mem_before (d : UInt8) (s : ByteString) : d ∉ before d s := by
  intro hmem
  have hall := List.all_takeWhile (p := fun c : UInt8 => c != d) (l := s)
  rw [List.all_eq_true] at hall
  have hne := hall d hmem
  simp at hne

theorem mem_of_mem_before {c : UInt8} {s : ByteString} (hc : c ∈ before d s) : c ∈ s :=
  (List.takeWhile_prefix _).subset hc

theorem mem_of_mem_after {c : UInt8} {s : ByteString} (hc : c ∈ after d s) : c ∈ s :=
  (List.dropWhile_suffix _).subset (List.drop_subset 1 _ hc)

end Foundation
end OssSdk
