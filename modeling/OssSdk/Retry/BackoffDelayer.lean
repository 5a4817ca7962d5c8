import Mathlib.Data.Rat.Floor
import OssSdk.Foundation.MachineInt

/-!
# Delays between attempts

Delays are numbers of milliseconds, of 64 bits.  The random value by its maximum, which the
code has as a `double`, is a rational here.
-/

namespace OssSdk
namespace Retry

open Foundation

def RETRIES_ATTEMPTED_CEILING : Nat := 31

/-- What a cast to an integer makes of a fraction. -/
def truncate (q : Rat) : Int := if 0 ≤ q then ⌊q⌋ else ⌈q⌉

/-- What both delayers with a jitter are made from. -/
structure JitterBackoff where
  baseDelay : Int
  maxBackoff : Int
deriving DecidableEq

namespace JitterBackoff

/-- The delay before it is cut off, in the integers. -/
def shifted (b : JitterBackoff) (attempt : Nat) : Int :=
  b.baseDelay * 2 ^ min attempt RETRIES_ATTEMPTED_CEILING

/-- The product is taken before the minimum, with the width of a delay. -/
def ceil (b : JitterBackoff) (attempt : Nat) : Int :=
  min (int64 (b.shifted attempt)) b.maxBackoff

end JitterBackoff

def EqualJitterBackoff.backoffDelay
    (b : JitterBackoff) (attempt : Nat) (factor : Rat) : Int :=
  let half := (b.ceil attempt).tdiv 2
  half + truncate (half * factor)

def FixedDelayBackoff.backoffDelay (delay : Int) (_ : Nat) : Int := delay

def FullJitterBackoff.backoffDelay
    (b : JitterBackoff) (attempt : Nat) (factor : Rat) : Int :=
  truncate (b.ceil attempt * factor)

/-! # A part of a delay -/

theorem truncate_part {n : Int} {factor : Rat}
    (hn : 0 ≤ n) (hlow : 0 ≤ factor) (hhigh : factor ≤ 1) :
    0 ≤ truncate (n * factor) ∧ truncate (n * factor) ≤ n := by
  have hn' : (0 : Rat) ≤ n := Int.cast_nonneg hn
  have hpart : 0 ≤ n * factor := mul_nonneg hn' hlow
  have hwhole : n * factor ≤ n := mul_le_of_le_one_right hn' hhigh
  rw [truncate, if_pos hpart]
  constructor
  · exact Int.floor_nonneg.mpr hpart
  · have hfloor : ((⌊n * factor⌋ : Int) : Rat) ≤ n := le_trans (Int.floor_le _) hwhole
    exact Int.cast_le.mp hfloor

namespace JitterBackoff

variable {b : JitterBackoff} {attempt : Nat} {factor : Rat}

theorem equal_mem (hceil : 0 ≤ b.ceil attempt) (hlow : 0 ≤ factor) (hhigh : factor ≤ 1) :
    0 ≤ EqualJitterBackoff.backoffDelay b attempt factor ∧
      EqualJitterBackoff.backoffDelay b attempt factor ≤ b.maxBackoff := by
  have hcut : b.ceil attempt ≤ b.maxBackoff := min_le_right _ _
  have hdiv : (b.ceil attempt).tdiv 2 = b.ceil attempt / 2 :=
    Int.tdiv_eq_ediv_of_nonneg hceil
  have hhalf : 0 ≤ b.ceil attempt / 2 := by omega
  obtain ⟨hpartLow, hpartHigh⟩ := truncate_part hhalf hlow hhigh
  simp only [EqualJitterBackoff.backoffDelay, hdiv]
  constructor
  · exact add_nonneg hhalf hpartLow
  · omega

theorem full_mem (hceil : 0 ≤ b.ceil attempt) (hlow : 0 ≤ factor) (hhigh : factor ≤ 1) :
    0 ≤ FullJitterBackoff.backoffDelay b attempt factor ∧
      FullJitterBackoff.backoffDelay b attempt factor ≤ b.maxBackoff := by
  obtain ⟨hpartLow, hpartHigh⟩ := truncate_part hceil hlow hhigh
  exact ⟨hpartLow, le_trans hpartHigh (min_le_right _ _)⟩

/-! # The bound of an attempt -/

/-- What an attempt is promised, whatever the random value. -/
structure Bounded (b : JitterBackoff) (attempt : Nat) (factor : Rat) : Prop where
  fits : FitsInt64 (b.shifted attempt)
  ceil_eq : b.ceil attempt = min (b.baseDelay * 2 ^ attempt) b.maxBackoff
  equal : 0 ≤ EqualJitterBackoff.backoffDelay b attempt factor ∧
    EqualJitterBackoff.backoffDelay b attempt factor ≤ b.maxBackoff
  full : 0 ≤ FullJitterBackoff.backoffDelay b attempt factor ∧
    FullJitterBackoff.backoffDelay b attempt factor ≤ b.maxBackoff

theorem shifted_nonneg (hbase : 0 ≤ b.baseDelay) : 0 ≤ b.shifted attempt :=
  mul_nonneg hbase (by positivity)

theorem fits_iff (hbase : 0 ≤ b.baseDelay) :
    FitsInt64 (b.shifted attempt) ↔ b.shifted attempt < 2 ^ 63 := by
  have hpos : 0 ≤ b.shifted attempt := shifted_nonneg hbase
  constructor
  · exact And.right
  · intro hsmall
    exact ⟨by omega, hsmall⟩

/-- The exponent is cut off at 31, which shows only where the maximum is not reached by then. -/
theorem min_shifted_iff (hbase : 0 ≤ b.baseDelay) :
    min (b.shifted attempt) b.maxBackoff =
        min (b.baseDelay * 2 ^ attempt) b.maxBackoff ↔
      attempt ≤ 31 ∨ b.baseDelay = 0 ∨ b.maxBackoff ≤ b.baseDelay * 2 ^ 31 := by
  by_cases hsmall : attempt ≤ 31
  · have hsame : b.shifted attempt = b.baseDelay * 2 ^ attempt := by
      rw [shifted, RETRIES_ATTEMPTED_CEILING, Nat.min_eq_left hsmall]
    rw [hsame]
    exact ⟨fun _ => Or.inl hsmall, fun _ => rfl⟩
  · have hlarge : 31 < attempt := Nat.lt_of_not_le hsmall
    have hcut : b.shifted attempt = b.baseDelay * 2 ^ 31 := by
      rw [shifted, RETRIES_ATTEMPTED_CEILING, Nat.min_eq_right hlarge.le]
    have hstep : 2 * (b.baseDelay * 2 ^ 31) ≤ b.baseDelay * 2 ^ attempt := by
      have hpow : (2 : Int) ^ 32 ≤ 2 ^ attempt := pow_le_pow_right₀ (by decide) hlarge
      have hmul := mul_le_mul_of_nonneg_left hpow hbase
      omega
    rw [hcut]
    constructor
    · intro hsame
      right
      omega
    · rintro (hle | hzero | hmax)
      · exact absurd hle hsmall
      · rw [hzero]
        simp
      · have hfar : b.maxBackoff ≤ b.baseDelay * 2 ^ attempt := by omega
        rw [min_eq_right hmax, min_eq_right hfar]

theorem ceil_of_fits (hfits : FitsInt64 (b.shifted attempt)) :
    b.ceil attempt = min (b.shifted attempt) b.maxBackoff := by
  rw [ceil, (int64_eq_self_iff _).mpr hfits]

theorem backoffBounded_iff (hbase : 0 ≤ b.baseDelay) (hmax : 0 ≤ b.maxBackoff)
    (hlow : 0 ≤ factor) (hhigh : factor ≤ 1) :
    Bounded b attempt factor ↔
      b.baseDelay * 2 ^ min attempt 31 < 2 ^ 63 ∧
        (attempt ≤ 31 ∨ b.baseDelay = 0 ∨ b.maxBackoff ≤ b.baseDelay * 2 ^ 31) := by
  rw [← min_shifted_iff hbase]
  constructor
  · intro hbounded
    constructor
    · exact (fits_iff hbase).mp hbounded.fits
    · rw [← ceil_of_fits hbounded.fits]
      exact hbounded.ceil_eq
  · rintro ⟨hsmall, hsame⟩
    have hfits : FitsInt64 (b.shifted attempt) := (fits_iff hbase).mpr hsmall
    have hceil : 0 ≤ b.ceil attempt := by
      rw [ceil_of_fits hfits]
      exact le_min (shifted_nonneg hbase) hmax
    constructor
    · exact hfits
    · rw [ceil_of_fits hfits]
      exact hsame
    · exact equal_mem hceil hlow hhigh
    · exact full_mem hceil hlow hhigh

theorem backoffBounded_iff_defaults :
    Bounded ⟨200, 20000⟩ 7 (1 / 2) ↔
      (200 : Int) * 2 ^ min 7 31 < 2 ^ 63 ∧
        (7 ≤ 31 ∨ (200 : Int) = 0 ∨ (20000 : Int) ≤ 200 * 2 ^ 31) :=
  backoffBounded_iff (b := ⟨200, 20000⟩) (by decide) (by decide) (by norm_num) (by norm_num)

theorem not_backoffBounded_longBase :
    ¬ forall (b : JitterBackoff) (attempt : Nat) (factor : Rat),
      0 ≤ b.baseDelay -> b.baseDelay < 2 ^ 63 -> 0 ≤ b.maxBackoff ->
        b.maxBackoff < 2 ^ 63 -> 0 ≤ factor -> factor ≤ 1 -> Bounded b attempt factor := by
  intro hbounded
  have hfull := (hbounded ⟨5000000000, 1000000000000⟩ 31 1 (by decide) (by decide)
    (by decide) (by decide) (by norm_num) (by norm_num)).full
  have hdelay : FullJitterBackoff.backoffDelay ⟨5000000000, 1000000000000⟩ 31 1 =
      -7709325833709551616 := by decide +kernel
  rw [hdelay] at hfull
  exact absurd hfull.1 (by decide)

end JitterBackoff
end Retry
end OssSdk
