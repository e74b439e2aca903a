import Mathlib.Data.Nat.Log
import Mathlib.Tactic.Ring

/-!
# The run's random streams

xoshiro256** seeded through SplitMix64.  Every choice of a run is drawn from
streams of this generator, so a run is a function of its seed.
-/

namespace Derp

/-- The generator's four words. -/
structure Rng where
  s0 : UInt64 := 0
  s1 : UInt64 := 0
  s2 : UInt64 := 0
  s3 : UInt64 := 0
  deriving DecidableEq, Inhabited

namespace Rng

/-- Rotate a word left. -/
def rotateLeft (word count : UInt64) : UInt64 :=
  (word <<< count) ||| (word >>> (64 - count))

/-- The value SplitMix64 makes of one step of its counter. -/
def splitMix (x : UInt64) : UInt64 :=
  let z := (x ^^^ (x >>> 30)) * 0xBF58476D1CE4E5B9
  let z := (z ^^^ (z >>> 27)) * 0x94D049BB133111EB
  z ^^^ (z >>> 31)

/-- The generator of a seed. -/
def seedFromU64 (seed : UInt64) : Rng :=
  let step : UInt64 := 0x9E3779B97F4A7C15
  { s0 := splitMix (seed + step)
    s1 := splitMix (seed + step + step)
    s2 := splitMix (seed + step + step + step)
    s3 := splitMix (seed + step + step + step + step) }

/-- The next output, and the generator after it. -/
def nextU64 (rng : Rng) : UInt64 × Rng :=
  let result := rotateLeft (rng.s1 * 5) 7 * 9
  let t := rng.s1 <<< 17
  let s2 := rng.s2 ^^^ rng.s0
  let s3 := rng.s3 ^^^ rng.s1
  let s1 := rng.s1 ^^^ s2
  let s0 := rng.s0 ^^^ s3
  (result, { s0 := s0, s1 := s1, s2 := s2 ^^^ t, s3 := rotateLeft s3 45 })

/-- A value below a bound: one output, scaled by the bound. -/
def below (rng : Rng) (n : Nat) : Nat × Rng :=
  let (x, rng) := rng.nextU64
  (x.toNat * n / 2 ^ 64, rng)

/-- A value between two bounds, both included. -/
def rangeInclusive (rng : Rng) (lo hi : Nat) : Nat × Rng :=
  let (offset, rng) := rng.below (hi - lo + 1)
  (lo + offset, rng)

/-- A 64-bit shift to the left: the count is taken modulo the width and the
high bits are lost. -/
def shiftLeft (value count : Nat) : Nat :=
  value * 2 ^ (count % 64) % 2 ^ 64

/-- A value between two bounds whose octaves above the lower one are about
equally likely. -/
def logUniform (rng : Rng) (lo hi : Nat) : Nat × Rng :=
  let octaves := Nat.log 2 (hi / lo)
  let (k, rng) := rng.below (octaves + 1)
  let start := shiftLeft lo k
  let last := min hi (shiftLeft lo (k + 1) - 1)
  let (offset, rng) := rng.below (last - start + 1)
  (start + offset, rng)

/-- A draw below a positive bound is below it. -/
theorem below_lt
    (rng : Rng)
    {n : Nat}
    (positive : 0 < n) : (rng.below n).1 < n := by
  have small := rng.nextU64.1.toNat_lt
  simp only [below]
  rw [Nat.div_lt_iff_lt_mul (Nat.two_pow_pos 64), Nat.mul_comm n]
  exact Nat.mul_lt_mul_of_pos_right small positive

/-- A draw from a range lies in it. -/
theorem rangeInclusive_mem
    (rng : Rng)
    {lo hi : Nat}
    (ordered : lo ≤ hi) :
    lo ≤ (rng.rangeInclusive lo hi).1 ∧ (rng.rangeInclusive lo hi).1 ≤ hi := by
  have := rng.below_lt (n := hi - lo + 1) (by omega)
  simp only [rangeInclusive]
  omega

/-- A shift that loses no bits multiplies by a power of two. -/
theorem shiftLeft_eq
    {value count : Nat}
    (inside : count < 64)
    (fits : value * 2 ^ count < 2 ^ 64) :
    shiftLeft value count = value * 2 ^ count := by
  unfold shiftLeft
  rw [Nat.mod_eq_of_lt inside, Nat.mod_eq_of_lt fits]

/-- A draw over octaves lies between its bounds. -/
theorem logUniform_mem
    (rng : Rng)
    {lo hi : Nat}
    (positive : 0 < lo)
    (ordered : lo ≤ hi)
    (small : hi < 2 ^ 62) :
    lo ≤ (rng.logUniform lo hi).1 ∧ (rng.logUniform lo hi).1 ≤ hi := by
  unfold logUniform
  dsimp only
  have drawn := rng.below_lt (n := Nat.log 2 (hi / lo) + 1) (by omega)
  generalize rng.below (Nat.log 2 (hi / lo) + 1) = octave at drawn ⊢
  obtain ⟨k, rng⟩ := octave
  dsimp only at drawn ⊢
  have ratio : 2 ^ k ≤ hi / lo :=
    (Nat.pow_le_pow_right (by decide) (Nat.le_of_lt_succ drawn)).trans
      (Nat.pow_log_le_self 2 (Nat.div_pos ordered positive).ne')
  -- The octave begins between the bounds, so its end fits a word.
  have begins : lo * 2 ^ k ≤ hi := by
    rw [Nat.mul_comm]
    exact (Nat.le_div_iff_mul_le positive).1 ratio
  have grows : lo ≤ lo * 2 ^ k := Nat.le_mul_of_pos_right lo (Nat.two_pow_pos k)
  have double : lo * 2 ^ (k + 1) = 2 * (lo * 2 ^ k) := by ring
  have inside : k < 62 := by
    have below : 2 ^ k < 2 ^ 62 :=
      ((Nat.le_mul_of_pos_left _ positive).trans begins).trans_lt small
    exact (Nat.pow_lt_pow_iff_right (by decide)).1 below
  rw [shiftLeft_eq (by omega) (by omega), shiftLeft_eq (by omega) (by omega),
    double]
  have offset := rng.below_lt
    (n := min hi (2 * (lo * 2 ^ k) - 1) - lo * 2 ^ k + 1) (by omega)
  omega

end Rng

end Derp
