import OssSdk.Utils.CRC64Words

/-!
# Combining two checksums

What zeros do to a checksum is a linear map.  It is kept as a matrix, which is squared from
one bit of a length to the next.
-/

namespace OssSdk
namespace Utils

open Foundation

def GF2_DIM : Nat := 64

/-- The sum of the rows that the bits of `vec` select, until no bit is left. -/
def gf2_matrix_times : List (BitVec 64) -> BitVec 64 -> BitVec 64 -> BitVec 64
  | [], _, sum => sum
  | row :: mat, vec, sum =>
      if vec = 0#64 then sum
      else gf2_matrix_times mat (vec >>> 1) (if vec.getLsbD 0 then sum ^^^ row else sum)

def gf2_matrix_square (mat : List (BitVec 64)) : List (BitVec 64) :=
  mat.map fun row => gf2_matrix_times mat row 0#64

/-- The operator for one zero bit. -/
def zeroBitMatrix : List (BitVec 64) :=
  POLY :: (List.range (GF2_DIM - 1)).map fun n => 1#64 <<< n

/--
The loop, which squares the matrix for each bit of the length; the two arrays take turns at
being the matrix that is squared.
-/
def applyZeros (mat : List (BitVec 64)) (crc1 : BitVec 64) (len2 : Nat) : BitVec 64 :=
  let mat := gf2_matrix_square mat
  let crc1 := if len2 % 2 = 1 then gf2_matrix_times mat crc1 0#64 else crc1
  if len2 / 2 = 0 then crc1 else applyZeros mat crc1 (len2 / 2)
termination_by len2
decreasing_by omega

def CombineCRC64 (crc1 crc2 : BitVec 64) (len2 : Nat) : BitVec 64 :=
  if len2 = 0 then crc1
  else applyZeros (gf2_matrix_square (gf2_matrix_square zeroBitMatrix)) crc1 len2 ^^^ crc2

/-! # Matrices -/

theorem gf2_matrix_times_eq (mat : List (BitVec 64)) (vec sum : BitVec 64) :
    gf2_matrix_times mat vec sum = sum ^^^ timesRows mat vec := by
  induction mat generalizing vec sum with
  | nil => exact BitVec.xor_zero.symm
  | cons row mat ih =>
      rw [gf2_matrix_times]
      split
      · next hzero =>
          have hnone : forall rows : List (BitVec 64), timesRows rows 0#64 = 0#64 := by
            intro rows
            induction rows with
            | nil => rfl
            | cons row rows ihrows =>
                rw [timesRows_cons, BitVec.zero_ushiftRight, ihrows]
                simp
          rw [hzero, hnone, BitVec.xor_zero]
      · rw [ih, timesRows_cons, ← BitVec.xor_assoc]
        split
        · rfl
        · rw [BitVec.xor_zero]

theorem matrixOf_square {f : BitVec 64 -> BitVec 64} (hf : XorLinear f)
    {mat : List (BitVec 64)} (hmat : MatrixOf f mat) :
    MatrixOf (f ∘ f) (gf2_matrix_square mat) := by
  have hsame : gf2_matrix_square mat = mat.map (timesRows mat) := by
    apply List.map_congr_left
    intro row _
    rw [gf2_matrix_times_eq, BitVec.zero_xor]
  rw [hsame]
  exact hmat.square hf

theorem zeroBitMatrix_matrixOf : MatrixOf (shiftStep POLY) zeroBitMatrix := by
  constructor
  · rfl
  · decide +kernel

/-! # The loop applies the zeros -/

theorem applyZeros_eq {f : BitVec 64 -> BitVec 64} (hf : XorLinear f)
    {mat : List (BitVec 64)} (hmat : MatrixOf f mat) (crc1 : BitVec 64) (len2 : Nat) :
    applyZeros mat crc1 len2 = (f ∘ f)^[len2] crc1 := by
  induction len2 using Nat.strongRecOn generalizing mat f crc1 with
  | ind len2 ih =>
      have hsquare := matrixOf_square hf hmat
      have hlinear : XorLinear (f ∘ f) := hf.comp hf
      have hstep : (if len2 % 2 = 1 then gf2_matrix_times (gf2_matrix_square mat) crc1 0#64
          else crc1) = (f ∘ f)^[len2 % 2] crc1 := by
        split
        · next hodd =>
            rw [hodd, gf2_matrix_times_eq, BitVec.zero_xor, hsquare.times hlinear]
            rfl
        · next heven =>
            rw [Nat.mod_two_ne_one.mp heven]
            rfl
      have hlength : 2 * (len2 / 2) + len2 % 2 = len2 := Nat.div_add_mod len2 2
      rw [applyZeros, hstep]
      split
      · next hlast =>
          rw [hlast] at hlength
          rw [← hlength]
          simp
      · next hmore =>
          have htwice : (f ∘ f) ∘ (f ∘ f) = (f ∘ f)^[2] := rfl
          have hless : len2 / 2 < len2 := by omega
          rw [ih (len2 / 2) hless hlinear hsquare, htwice, ← Function.iterate_mul,
            ← Function.iterate_add_apply, hlength]

/-- Each zero byte is eight zero bits. -/
theorem applyZeros_zeroBits (crc1 : BitVec 64) (len2 : Nat) :
    applyZeros (gf2_matrix_square (gf2_matrix_square zeroBitMatrix)) crc1 len2 =
      zeroByte^[len2] crc1 := by
  have hbit : XorLinear (shiftStep POLY) := shiftStep_xorLinear POLY
  have htwo : XorLinear (shiftStep POLY ∘ shiftStep POLY) := hbit.comp hbit
  have hfour := matrixOf_square htwo (matrixOf_square hbit zeroBitMatrix_matrixOf)
  exact applyZeros_eq (htwo.comp htwo) hfour crc1 len2

/-! # Two checksums -/

/-- What is on the register goes through the bytes as through zeros. -/
theorem foldl_littleStep_xor (x y : BitVec 64) (bs : ByteString) :
    bs.foldl littleStep (x ^^^ y) = zeroByte^[bs.length] x ^^^ bs.foldl littleStep y := by
  induction bs generalizing x y with
  | nil => rfl
  | cons b rest ih =>
      rw [List.foldl_cons, List.foldl_cons, List.length_cons, Function.iterate_succ_apply,
        ← ih, littleStep_eq, littleStep_eq, BitVec.xor_assoc, zeroByte_xorLinear]

theorem CalcCRC64_eq_littleStep (crc : BitVec 64) (buf : ByteString) :
    CalcCRC64 crc buf = ~~~ buf.foldl littleStep (~~~ crc) := by
  rw [CalcCRC64_eq_serial, crc64Serial, foldl_feedBit]

/-- The checksum of two blocks is made from that of each, whatever is in them. -/
theorem CombineCRC64_eq (crc : BitVec 64) (as bs : ByteString) :
    CombineCRC64 (CalcCRC64 crc as) (CalcCRC64 0#64 bs) bs.length =
      CalcCRC64 crc (as ++ bs) := by
  rw [CombineCRC64]
  split
  · next hnone =>
      rw [List.length_eq_zero_iff.mp hnone, List.append_nil]
  · have hcrc : forall x : BitVec 64, x = ~~~ x ^^^ ~~~ 0#64 := by
      intro x
      rw [← BitVec.not_xor_left, BitVec.xor_comm, ← BitVec.not_xor_left, BitVec.zero_xor,
        BitVec.not_not]
    have hthrough := foldl_littleStep_xor
      (~~~ as.foldl littleStep (~~~ crc)) (~~~ 0#64) bs
    rw [← hcrc] at hthrough
    rw [applyZeros_zeroBits, CalcCRC64_eq_littleStep crc (as ++ bs), List.foldl_append,
      hthrough, CalcCRC64_eq_littleStep crc as, CalcCRC64_eq_littleStep 0#64,
      BitVec.not_xor_right]

end Utils
end OssSdk
