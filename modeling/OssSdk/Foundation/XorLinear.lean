import Mathlib.Algebra.Group.Nat.Defs
import Mathlib.Logic.Function.Iterate
import Mathlib.Data.List.GetD

/-!
# Linear maps on words

The sum of two words is their exclusive or.  A map that keeps sums is known from what it
makes of the words with a single bit, and may be stored as the list of these.
-/

namespace OssSdk
namespace Foundation

variable {w : Nat}

def XorLinear (f : BitVec w -> BitVec w) : Prop :=
  forall x y, f (x ^^^ y) = f x ^^^ f y

namespace XorLinear

variable {f g : BitVec w -> BitVec w}

theorem map_zero (hf : XorLinear f) : f 0#w = 0#w := by
  have hsum := hf 0#w 0#w
  rw [BitVec.xor_self, BitVec.xor_self] at hsum
  exact hsum

theorem comp (hf : XorLinear f) (hg : XorLinear g) : XorLinear (f ∘ g) := by
  intro x y
  show f (g (x ^^^ y)) = f (g x) ^^^ f (g y)
  rw [hg, hf]

theorem iterate (hf : XorLinear f) (n : Nat) : XorLinear f^[n] := by
  induction n with
  | zero =>
      intro x y
      rfl
  | succ n ih =>
      rw [Function.iterate_succ]
      exact ih.comp hf

end XorLinear

/-! # The lower bits of a word -/

def lowBits (k : Nat) (x : BitVec w) : BitVec w := BitVec.ofNat w (x.toNat % 2 ^ k)

theorem getLsbD_lowBits (k : Nat) (x : BitVec w) (i : Nat) :
    (lowBits k x).getLsbD i = (decide (i < k) && x.getLsbD i) := by
  rw [lowBits, BitVec.getLsbD_ofNat, Nat.testBit_mod_two_pow, BitVec.testBit_toNat]
  by_cases hi : i < w
  · simp [hi]
  · simp [BitVec.getLsbD_of_ge x i (Nat.not_lt.mp hi)]

theorem split_lowBits (k : Nat) (x : BitVec w) :
    x = lowBits k x ^^^ (x >>> k) <<< k := by
  apply BitVec.eq_of_getLsbD_eq
  intro i hi
  rw [BitVec.getLsbD_xor, getLsbD_lowBits, BitVec.getLsbD_shiftLeft,
    BitVec.getLsbD_ushiftRight]
  by_cases hk : i < k
  · simp [hk]
  · have hsum : k + (i - k) = i := by omega
    simp [hk, hi, hsum]

theorem lowBits_ofNat {k n : Nat} (hn : n < 2 ^ k) : lowBits k (BitVec.ofNat w n) =
    BitVec.ofNat w n := by
  apply BitVec.eq_of_toNat_eq
  rw [lowBits, BitVec.toNat_ofNat, BitVec.toNat_ofNat]
  have hsmall : n % 2 ^ w < 2 ^ k := Nat.lt_of_le_of_lt (Nat.mod_le _ _) hn
  rw [Nat.mod_eq_of_lt hsmall, Nat.mod_mod]

def bitWord (bit : Bool) : BitVec w := if bit then 1#w else 0#w

theorem getLsbD_bitWord_shiftLeft (bit : Bool) (k : Nat) {i : Nat} (hi : i < w) :
    (bitWord (w := w) bit <<< k).getLsbD i = (bit && decide (i = k)) := by
  cases bit with
  | false => simp [bitWord]
  | true =>
      rw [bitWord, if_pos rfl, BitVec.getLsbD_shiftLeft, BitVec.getLsbD_one, Bool.true_and,
        Bool.eq_iff_iff]
      simp only [Bool.and_eq_true, Bool.not_eq_true', decide_eq_true_eq,
        decide_eq_false_iff_not]
      omega

theorem lowBits_zero (x : BitVec w) : lowBits 0 x = 0#w := by
  rw [lowBits, Nat.pow_zero, Nat.mod_one]

theorem lowBits_succ (k : Nat) (x : BitVec w) :
    lowBits (k + 1) x = lowBits k x ^^^ bitWord (x.getLsbD k) <<< k := by
  apply BitVec.eq_of_getLsbD_eq
  intro i hi
  rw [BitVec.getLsbD_xor, getLsbD_bitWord_shiftLeft _ k hi, getLsbD_lowBits,
    getLsbD_lowBits]
  rcases Nat.lt_trichotomy i k with hlt | hsame | hgt
  · simp [hlt, Nat.lt_succ_of_lt hlt, Nat.ne_of_lt hlt]
  · simp [hsame]
  · simp [Nat.ne_of_gt hgt, show ¬ i < k by omega, show ¬ i < k + 1 by omega]

/-! # Shift registers -/

/-- One step of a register: the bit that falls out puts the polynomial in. -/
def shiftStep (poly x : BitVec w) : BitVec w :=
  if x.getLsbD 0 then poly ^^^ (x >>> 1) else x >>> 1

theorem shiftStep_eq (poly x : BitVec w) :
    shiftStep poly x = (if x.getLsbD 0 then poly else 0#w) ^^^ (x >>> 1) := by
  rw [shiftStep]
  split
  · rfl
  · exact BitVec.zero_xor.symm

theorem shiftStep_xorLinear (poly : BitVec w) : XorLinear (shiftStep poly) := by
  intro x y
  rw [shiftStep_eq, shiftStep_eq, shiftStep_eq, BitVec.getLsbD_xor,
    BitVec.ushiftRight_xor_distrib]
  have hbits : forall p q : Bool, (if (p ^^ q) = true then poly else 0#w) =
      (if p = true then poly else 0#w) ^^^ (if q = true then poly else 0#w) := by
    intro p q
    cases p with
    | false => cases q <;> simp
    | true => cases q <;> simp
  rw [hbits, BitVec.xor_assoc, BitVec.xor_assoc]
  congr 1
  rw [← BitVec.xor_assoc, ← BitVec.xor_assoc,
    BitVec.xor_comm (if y.getLsbD 0 = true then poly else 0#w)]

/-- Bits that are not at the lower end are shifted only. -/
theorem shiftStep_shiftLeft (poly : BitVec w) {k : Nat} {x : BitVec w}
    (hx : x.toNat < 2 ^ (w - (k + 1))) (hk : k + 1 ≤ w) :
    shiftStep poly (x <<< (k + 1)) = x <<< k := by
  rw [shiftStep, if_neg (by simp)]
  apply BitVec.eq_of_getLsbD_eq
  intro i hi
  rw [BitVec.getLsbD_ushiftRight, BitVec.getLsbD_shiftLeft, BitVec.getLsbD_shiftLeft]
  by_cases hlow : i < k
  · simp [hlow, show 1 + i < k + 1 by omega]
  · have hsub : 1 + i - (k + 1) = i - k := by omega
    rw [hsub]
    by_cases hin : 1 + i < w
    · simp [hi, hin, hlow, show ¬ 1 + i < k + 1 by omega]
    · have hzero : x.getLsbD (i - k) = false := by
        rw [← BitVec.testBit_toNat]
        apply Nat.testBit_lt_two_pow
        refine Nat.lt_of_lt_of_le hx (Nat.pow_le_pow_right (by decide) ?_)
        omega
      simp [hzero]

theorem shiftStep_iterate_shiftLeft (poly : BitVec w) {k : Nat} {x : BitVec w}
    (hx : x.toNat < 2 ^ (w - k)) (hk : k ≤ w) :
    (shiftStep poly)^[k] (x <<< k) = x := by
  induction k with
  | zero =>
      exact BitVec.shiftLeft_zero x
  | succ k ih =>
      rw [Function.iterate_succ_apply, shiftStep_shiftLeft poly hx hk]
      refine ih (Nat.lt_of_lt_of_le hx (Nat.pow_le_pow_right (by decide) ?_)) ?_
      · omega
      · omega

/-- The lower bits of a register go through it, and the others come down. -/
theorem shiftStep_iterate_eq (poly : BitVec w) {k : Nat} (hk : k ≤ w) (x : BitVec w) :
    (shiftStep poly)^[k] x = (shiftStep poly)^[k] (lowBits k x) ^^^ (x >>> k) := by
  have hhigh : (x >>> k).toNat < 2 ^ (w - k) := by
    rw [BitVec.toNat_ushiftRight, Nat.shiftRight_eq_div_pow, Nat.div_lt_iff_lt_mul
      (Nat.two_pow_pos k), ← Nat.pow_add, Nat.sub_add_cancel hk]
    exact x.isLt
  calc
    (shiftStep poly)^[k] x =
        (shiftStep poly)^[k] (lowBits k x ^^^ (x >>> k) <<< k) :=
      congrArg _ (split_lowBits k x)
    _ = (shiftStep poly)^[k] (lowBits k x) ^^^ (x >>> k) := by
      rw [(shiftStep_xorLinear poly).iterate k, shiftStep_iterate_shiftLeft poly hhigh hk]

/-- A register takes a bit in. -/
def feedBit (poly x : BitVec w) (bit : Bool) : BitVec w :=
  shiftStep poly (x ^^^ bitWord bit)

/-- The lower bits of a word are fed in one by one, or all of them at once. -/
theorem feedBits_eq (poly x y : BitVec w) {k : Nat} (hk : k ≤ w) :
    ((List.range k).map y.getLsbD).foldl (feedBit poly) x =
      (shiftStep poly)^[k] (x ^^^ lowBits k y) := by
  induction k with
  | zero =>
      rw [lowBits_zero, BitVec.xor_zero]
      rfl
  | succ k ih =>
      have hsmall : (bitWord (w := w) (y.getLsbD k)).toNat < 2 ^ (w - k) := by
        have hone : 1 < 2 ^ (w - k) := Nat.one_lt_two_pow (by omega)
        unfold bitWord
        split
        · exact Nat.lt_of_le_of_lt (Nat.mod_le 1 _) hone
        · exact Nat.two_pow_pos _
      have hdown := shiftStep_iterate_shiftLeft poly hsmall (Nat.le_of_succ_le hk)
      rw [List.range_succ, List.map_append, List.foldl_append, ih (Nat.le_of_succ_le hk),
        lowBits_succ, ← BitVec.xor_assoc, Function.iterate_succ_apply',
        (shiftStep_xorLinear poly).iterate k (x ^^^ lowBits k y), hdown]
      rfl

/-! # Matrices -/

/-- The sum of the rows that the bits of a word select. -/
def timesRows : List (BitVec w) -> BitVec w -> BitVec w
  | [], _ => 0#w
  | row :: rows, x => (if x.getLsbD 0 then row else 0#w) ^^^ timesRows rows (x >>> 1)

theorem timesRows_cons (row : BitVec w) (rows : List (BitVec w)) (x : BitVec w) :
    timesRows (row :: rows) x =
      (if x.getLsbD 0 then row else 0#w) ^^^ timesRows rows (x >>> 1) := rfl

/-- The rows are what the map makes of the single bits, from the bit `k` on. -/
def RowsOf (f : BitVec w -> BitVec w) (k : Nat) (rows : List (BitVec w)) : Prop :=
  k + rows.length = w ∧ forall i, i < rows.length -> rows.getD i 0#w = f (1#w <<< (k + i))

theorem RowsOf.tail {f : BitVec w -> BitVec w} {k : Nat} {row : BitVec w}
    {rows : List (BitVec w)} (hrows : RowsOf f k (row :: rows)) : RowsOf f (k + 1) rows := by
  constructor
  · have hlength := hrows.1
    rw [List.length_cons] at hlength
    omega
  · intro i hi
    have hrow := hrows.2 (i + 1) (Nat.succ_lt_succ hi)
    rw [List.getD_cons_succ] at hrow
    rw [hrow, show k + (i + 1) = k + 1 + i by omega]

/-- The lowest bit of a word, and the others, where the word is to stand at the bit `k`. -/
theorem shiftLeft_split (k : Nat) (x : BitVec w) :
    x <<< k = bitWord (x.getLsbD 0) <<< k ^^^ (x >>> 1) <<< (k + 1) := by
  apply BitVec.eq_of_getLsbD_eq
  intro i hi
  rw [BitVec.getLsbD_xor, getLsbD_bitWord_shiftLeft _ k hi, BitVec.getLsbD_shiftLeft,
    BitVec.getLsbD_shiftLeft, BitVec.getLsbD_ushiftRight]
  rcases Nat.lt_trichotomy i k with hlow | hsame | hhigh
  · simp [hi, hlow, Nat.ne_of_lt hlow, show i < k + 1 by omega]
  · simp [hsame]
    omega
  · simp [hi, Nat.ne_of_gt hhigh, show ¬ i < k by omega, show ¬ i < k + 1 by omega,
      show 1 + (i - (k + 1)) = i - k by omega]

theorem timesRows_of_rowsOf {f : BitVec w -> BitVec w} (hf : XorLinear f) {k : Nat}
    {rows : List (BitVec w)} (hrows : RowsOf f k rows) (x : BitVec w) :
    timesRows rows x = f (x <<< k) := by
  induction rows generalizing k x with
  | nil =>
      have hk : k = w := hrows.1
      rw [hk, BitVec.shiftLeft_eq_zero (Nat.le_refl w), hf.map_zero]
      rfl
  | cons row rows ih =>
      have hrow : row = f (1#w <<< k) := hrows.2 0 (Nat.succ_pos _)
      rw [timesRows_cons, ih hrows.tail, shiftLeft_split k x, hf, hrow]
      congr 1
      cases x.getLsbD 0 with
      | false => exact (hf.map_zero ▸ congrArg f (BitVec.zero_shiftLeft k)).symm
      | true => rfl

/-- A matrix is all of the rows of a map. -/
def MatrixOf (f : BitVec w -> BitVec w) (rows : List (BitVec w)) : Prop := RowsOf f 0 rows

theorem MatrixOf.times {f : BitVec w -> BitVec w} (hf : XorLinear f)
    {rows : List (BitVec w)} (hrows : MatrixOf f rows) (x : BitVec w) :
    timesRows rows x = f x := by
  rw [timesRows_of_rowsOf hf hrows, BitVec.shiftLeft_zero]

theorem MatrixOf.square {f : BitVec w -> BitVec w} (hf : XorLinear f)
    {rows : List (BitVec w)} (hrows : MatrixOf f rows) :
    MatrixOf (f ∘ f) (rows.map (timesRows rows)) := by
  constructor
  · rw [List.length_map]
    exact hrows.1
  · intro i hi
    rw [List.length_map] at hi
    have hrow := hrows.2 i hi
    rw [List.getD_eq_getElem _ _ hi] at hrow
    rw [List.getD_eq_getElem _ _ (by rwa [List.length_map]), List.getElem_map, hrow,
      hrows.times hf]
    rfl

end Foundation
end OssSdk
