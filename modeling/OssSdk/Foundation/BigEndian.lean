import OssSdk.Foundation.Bytes
import Mathlib.Data.List.Induction
import Mathlib.Tactic.Ring

/-!
# Big-endian numbers

Numbers as byte strings of a fixed length, the byte that counts most in front.
What does not fit in wraps around.
-/

namespace OssSdk
namespace Foundation
namespace BigEndian

def value (p : ByteString) : Nat :=
  p.foldl (fun v b => v * 256 + b.toNat) 0

def encode : Nat -> Nat -> ByteString
  | 0, _ => []
  | n + 1, v => encode n (v / 256) ++ [UInt8.ofNat v]

@[simp] theorem length_encode (n v : Nat) : (encode n v).length = n := by
  induction n generalizing v with
  | zero => rfl
  | succ n ih => rw [encode, List.length_append, ih, List.length_singleton]

theorem value_nil : value [] = 0 := rfl

theorem value_push (p : ByteString) (b : UInt8) :
    value (p ++ [b]) = value p * 256 + b.toNat := by
  unfold value
  rw [List.foldl_append]
  rfl

theorem value_append (p q : ByteString) :
    value (p ++ q) = value p * 256 ^ q.length + value q := by
  induction q using List.reverseRecOn with
  | nil => simp [value_nil]
  | append_singleton q b ih =>
      rw [← List.append_assoc, value_push, ih, value_push, List.length_append,
        List.length_singleton, pow_succ]
      ring

theorem value_lt (p : ByteString) : value p < 256 ^ p.length := by
  induction p using List.reverseRecOn with
  | nil => exact Nat.one_pos
  | append_singleton p b ih =>
      have hb := b.toNat_lt
      rw [value_push, List.length_append, List.length_singleton, pow_succ]
      omega

theorem value_encode (n v : Nat) : value (encode n v) = v % 256 ^ n := by
  induction n generalizing v with
  | zero => rw [pow_zero, Nat.mod_one]; rfl
  | succ n ih =>
      have hbyte : (UInt8.ofNat v).toNat = v % 256 := rfl
      rw [encode, value_push, ih, hbyte, pow_succ, Nat.mul_comm (256 ^ n),
        Nat.mod_mul, Nat.mul_comm, Nat.add_comm]

theorem value_encode_of_lt {n v : Nat} (hv : v < 256 ^ n) :
    value (encode n v) = v := by
  rw [value_encode, Nat.mod_eq_of_lt hv]

/-- Byte strings of one length are told apart by their values. -/
theorem value_injective {p q : ByteString}
    (hlength : p.length = q.length)
    (hvalue : value p = value q) : p = q := by
  induction p using List.reverseRecOn generalizing q with
  | nil => exact (List.length_eq_zero_iff.mp hlength.symm).symm
  | append_singleton p b ih =>
      rcases List.eq_nil_or_concat q with hnil | ⟨q, c, hconcat⟩
      · rw [hnil, List.length_append] at hlength
        cases hlength
      · rw [List.concat_eq_append] at hconcat
        rw [hconcat] at hlength hvalue ⊢
        rw [List.length_append, List.length_append] at hlength
        rw [value_push, value_push] at hvalue
        have hb := b.toNat_lt
        have hc := c.toNat_lt
        have hlast : b.toNat = c.toNat := by omega
        rw [ih (Nat.add_right_cancel hlength) (by omega),
          UInt8.toNat_inj.mp hlast]

end BigEndian
end Foundation
end OssSdk
