import OssSdk.Foundation.Bytes
import Mathlib.Data.Nat.Digits.Lemmas

/-!
# Decimal notation

Numbers are written without leading zeros and read back by Horner's rule.
-/

namespace OssSdk
namespace Foundation

def isDigit (c : UInt8) : Bool := decide (48 ≤ c.toNat ∧ c.toNat ≤ 57)

def digitByte (d : Nat) : UInt8 := UInt8.ofNat (48 + d)

def digitValue (c : UInt8) : Nat := c.toNat - 48

def toDecimal (n : Nat) : ByteString :=
  if n = 0 then [digitByte 0] else ((Nat.digits 10 n).map digitByte).reverse

def toDecimalInt : Int -> ByteString
  | .ofNat n => toDecimal n
  | .negSucc n => 45 :: toDecimal (n + 1)

def ofDecimal (ds : ByteString) : Nat :=
  ds.foldl (fun n c => 10 * n + digitValue c) 0

theorem digitByte_toNat {d : Nat} (hd : d < 10) :
    (digitByte d).toNat = 48 + d := by
  have hsmall : 48 + d < 256 := by omega
  simp [digitByte, Nat.mod_eq_of_lt hsmall]

theorem isDigit_digitByte {d : Nat} (hd : d < 10) :
    isDigit (digitByte d) = true := by
  unfold isDigit
  rw [digitByte_toNat hd]
  exact decide_eq_true (by omega)

theorem digitValue_digitByte {d : Nat} (hd : d < 10) :
    digitValue (digitByte d) = d := by
  unfold digitValue
  rw [digitByte_toNat hd]
  omega

theorem ofDecimal_concat (ds : ByteString) (c : UInt8) :
    ofDecimal (ds ++ [c]) = 10 * ofDecimal ds + digitValue c := by
  simp [ofDecimal]

theorem ofDecimal_reverse_map
    {ds : List Nat} (hds : forall d, d ∈ ds -> d < 10) :
    ofDecimal (ds.map digitByte).reverse = Nat.ofDigits 10 ds := by
  induction ds with
  | nil => rfl
  | cons d rest ih =>
      have hrest : forall d', d' ∈ rest -> d' < 10 := by
        intro d' hd'
        exact hds d' (List.mem_cons_of_mem _ hd')
      have hd : d < 10 := hds d List.mem_cons_self
      rw [List.map_cons, List.reverse_cons, ofDecimal_concat, ih hrest,
        digitValue_digitByte hd, Nat.ofDigits_cons]
      omega

theorem ofDecimal_toDecimal (n : Nat) : ofDecimal (toDecimal n) = n := by
  unfold toDecimal
  split
  · rename_i hzero
    rw [hzero]
    rfl
  · rw [ofDecimal_reverse_map, Nat.ofDigits_digits]
    intro d hd
    exact Nat.digits_lt_base (by omega) hd

theorem toDecimal_injective {m n : Nat} (hmn : toDecimal m = toDecimal n) :
    m = n := by
  rw [← ofDecimal_toDecimal m, hmn, ofDecimal_toDecimal]

theorem isDigit_of_mem_toDecimal {n : Nat} {c : UInt8}
    (hc : c ∈ toDecimal n) : isDigit c = true := by
  unfold toDecimal at hc
  split at hc
  · rw [List.mem_singleton] at hc
    rw [hc]
    exact isDigit_digitByte (by omega)
  · rw [List.mem_reverse, List.mem_map] at hc
    rcases hc with ⟨d, hd, hdc⟩
    rw [← hdc]
    exact isDigit_digitByte (Nat.digits_lt_base (by omega) hd)

theorem toDecimal_ne_nil (n : Nat) : toDecimal n ≠ [] := by
  unfold toDecimal
  split
  · simp
  · rename_i hzero
    simpa [Nat.digits_eq_nil_iff_eq_zero] using hzero

/-!
# Reading a number at the front of a text
-/

def isSpace (c : UInt8) : Bool := c == 32 || decide (9 ≤ c.toNat ∧ c.toNat ≤ 13)

/-- `std::strtoll` with base 10: what does not fit in is taken for the nearest number. -/
def strtoll (s : ByteString) : Int :=
  match s.dropWhile isSpace with
  | 45 :: ds => max (-(2 ^ 63)) (-(ofDecimal (ds.takeWhile isDigit) : Int))
  | 43 :: ds => min (2 ^ 63 - 1) (ofDecimal (ds.takeWhile isDigit) : Int)
  | ds => min (2 ^ 63 - 1) (ofDecimal (ds.takeWhile isDigit) : Int)

theorem isSpace_of_isDigit {c : UInt8} (hdigit : isDigit c = true) :
    isSpace c = false := by
  unfold isDigit at hdigit
  unfold isSpace
  rw [decide_eq_true_eq] at hdigit
  rw [Bool.or_eq_false_iff, decide_eq_false_iff_not, beq_eq_false_iff_ne]
  constructor
  · intro hspace
    rw [hspace] at hdigit
    exact absurd hdigit (by decide)
  · omega

theorem takeWhile_toDecimal (n : Nat) {rest : ByteString}
    (hrest : forall c, rest.head? = some c -> isDigit c = false) :
    (toDecimal n ++ rest).takeWhile isDigit = toDecimal n := by
  rw [List.takeWhile_append_of_pos fun c hc => isDigit_of_mem_toDecimal hc]
  cases rest with
  | nil => exact List.append_nil _
  | cons c rest =>
      rw [List.takeWhile_cons, hrest c rfl]
      exact List.append_nil _

theorem strtoll_toDecimal {n : Nat} {rest : ByteString}
    (hn : n < 2 ^ 63)
    (hrest : forall c, rest.head? = some c -> isDigit c = false) :
    strtoll (toDecimal n ++ rest) = n := by
  have htake := takeWhile_toDecimal n hrest
  rcases List.exists_cons_of_ne_nil (toDecimal_ne_nil n) with ⟨c, ds, hcons⟩
  have hdigit : isDigit c = true := by
    refine @isDigit_of_mem_toDecimal n c ?_
    rw [hcons]
    exact List.mem_cons_self
  have hspaces : (toDecimal n ++ rest).dropWhile isSpace = c :: (ds ++ rest) := by
    rw [hcons, List.cons_append, List.dropWhile_cons, isSpace_of_isDigit hdigit]
    rfl
  have hvalue : min (2 ^ 63 - 1) (n : Int) = n := min_eq_right (by omega)
  rw [hcons, List.cons_append] at htake
  unfold strtoll
  rw [hspaces]
  split
  · rename_i hminus
    cases hminus
    cases hdigit
  · rename_i hplus
    cases hplus
    cases hdigit
  · rw [htake, ← hcons, ofDecimal_toDecimal]
    exact hvalue

theorem strtoll_toDecimalInt {x : Int} {rest : ByteString}
    (hlow : -(2 ^ 63) ≤ x)
    (hhigh : x < 2 ^ 63)
    (hrest : forall c, rest.head? = some c -> isDigit c = false) :
    strtoll (toDecimalInt x ++ rest) = x := by
  cases x with
  | ofNat n => exact strtoll_toDecimal (Int.ofNat_lt.mp hhigh) hrest
  | negSucc n =>
      have hvalue : max (-(2 ^ 63)) (-((n + 1 : Nat) : Int)) = Int.negSucc n :=
        max_eq_right hlow
      have hspaces : (toDecimalInt (Int.negSucc n) ++ rest).dropWhile isSpace =
          45 :: (toDecimal (n + 1) ++ rest) := rfl
      unfold strtoll
      rw [hspaces]
      simp only
      rw [takeWhile_toDecimal (n + 1) hrest, ofDecimal_toDecimal]
      exact hvalue

end Foundation
end OssSdk
