import Derp.Rng
import Derp.Settings.Values

/-!
# Draws in range

A draw scales raw outputs of the generator to a range.  No draw leaves its range, and the
arithmetic of a draw neither overflows nor loses a bit for ranges that a run file or a
command line can give.  A draw by octaves takes two outputs, the octave from the first and
the place in it from the second, and every value of the range comes of two of them.
-/

namespace Derp

namespace Rng

variable {rng : Rng} {n lo hi : Nat}

/-! ## Checked arithmetic -/

/-- A sum that a word of so many bits holds. -/
def checkedAdd (bits a b : Nat) : Option Nat := if a + b < 2 ^ bits then some (a + b) else none

/-- A difference that is not negative. -/
def checkedSub (a b : Nat) : Option Nat := if b ≤ a then some (a - b) else none

/-- A shift to the left that loses no bit. -/
def checkedShl (value count : Nat) : Option Nat :=
  if count < 64 ∧ value * 2 ^ count < 2 ^ 64 then some (value * 2 ^ count) else none

/-- A value that fewer bits hold. -/
def narrow (bits value : Nat) : Option Nat := if value < 2 ^ bits then some value else none

/-- The greatest power of two in a number, which has to be positive. -/
def checkedLog2 (value : Nat) : Option Nat := if value = 0 then none else some (Nat.log 2 value)

/-- A quotient, whose divisor has to be positive. -/
def checkedDiv (a b : Nat) : Option Nat := if b = 0 then none else some (a / b)

/-- A draw between two bounds of 32 bits with every step checked. -/
def checkedRange (rng : Rng) (lo hi : Nat) : Option (Nat × Rng) := do
  let width ← checkedSub hi lo
  let n ← checkedAdd 64 width 1
  let drawn := rng.below n
  let offset ← narrow 32 drawn.1
  let value ← checkedAdd 32 lo offset
  some (value, drawn.2)

/-- A draw by octaves with every step checked. -/
def checkedLog (rng : Rng) (lo hi : Nat) : Option (Nat × Rng) := do
  let ratio ← checkedDiv hi lo
  let octaves ← checkedLog2 ratio
  let n ← checkedAdd 64 octaves 1
  let octave := rng.below n
  let start ← checkedShl lo octave.1
  let next ← checkedAdd 64 octave.1 1
  let past ← checkedShl lo next
  let last ← checkedSub past 1
  let width ← checkedSub (min hi last) start
  let n ← checkedAdd 64 width 1
  let place := octave.2.below n
  let value ← checkedAdd 64 start place.1
  some (value, place.2)

/-! ## Octaves -/

/-- An octave of a range, from the lower bound on. -/
structure Octave (lo hi k : Nat) : Prop where
  begins : lo * 2 ^ k ≤ hi
  /-- The octave behind it fits a word -/
  doubles : lo * 2 ^ (k + 1) = 2 * (lo * 2 ^ k)
  inside : k + 1 < 64

theorem octave_of_le (positive : 0 < lo) (ordered : lo ≤ hi) (small : hi < 2 ^ 62) {k : Nat}
    (below : k ≤ Nat.log 2 (hi / lo)) : Octave lo hi k := by
  have ratio : 2 ^ k ≤ hi / lo :=
    (Nat.pow_le_pow_right (by decide) below).trans
      (Nat.pow_log_le_self 2 (Nat.div_pos ordered positive).ne')
  have begins : lo * 2 ^ k ≤ hi := by
    rw [Nat.mul_comm]
    exact (Nat.le_div_iff_mul_le positive).1 ratio
  have bits : 2 ^ k < 2 ^ 62 :=
    ((Nat.le_mul_of_pos_left _ positive).trans begins).trans_lt small
  have short : k < 62 := (Nat.pow_lt_pow_iff_right (by decide)).1 bits
  exact ⟨begins, by ring, by omega⟩

/-- Every value of the range is in one of its octaves. -/
theorem exists_octave (positive : 0 < lo) {v : Nat} (above : lo ≤ v) (inside : v ≤ hi) :
    ∃ k ≤ Nat.log 2 (hi / lo), lo * 2 ^ k ≤ v ∧ v < lo * 2 ^ (k + 1) := by
  refine ⟨Nat.log 2 (v / lo), Nat.log_mono_right (Nat.div_le_div_right inside), ?_, ?_⟩
  · rw [Nat.mul_comm]
    exact (Nat.le_div_iff_mul_le positive).1
      (Nat.pow_log_le_self 2 (Nat.div_pos above positive).ne')
  · have past := Nat.lt_pow_succ_log_self (b := 2) (by decide) (v / lo)
    rw [Nat.mul_comm]
    exact (Nat.div_lt_iff_lt_mul positive).1 past

/-! ## Raw outputs -/

/-- What a raw output comes to below a bound. -/
def scaled (n : Nat) (x : UInt64) : Nat := x.toNat * n / 2 ^ 64

theorem below_eq (rng : Rng) (n : Nat) : rng.below n = (scaled n rng.nextU64.1, rng.nextU64.2) :=
  rfl

/-- Every value below a bound comes of a raw output. -/
theorem exists_scaled {j : Nat} (below : j < n) (small : n < 2 ^ 64) : ∃ x, scaled n x = j := by
  have positive : 0 < n := by omega
  -- The least output that is scaled to the value or beyond
  have low := Nat.div_mul_le_self (j * 2 ^ 64 + (n - 1)) n
  have high := Nat.lt_div_mul_add positive (a := j * 2 ^ 64 + (n - 1))
  generalize (j * 2 ^ 64 + (n - 1)) / n = x at low high
  have fits : x < 2 ^ 64 := by
    have whole : x * n < 2 ^ 64 * n := by omega
    exact Nat.lt_of_mul_lt_mul_right whole
  refine ⟨UInt64.ofNatLT x fits, ?_⟩
  unfold scaled
  rw [UInt64.toNat_ofNatLT]
  exact Nat.div_eq_of_lt_le (by omega) (by omega)

/-- What two raw outputs come to between two bounds. -/
def logOf (lo hi : Nat) (first second : UInt64) : Nat :=
  let start := shiftLeft lo (scaled (Nat.log 2 (hi / lo) + 1) first)
  let last := min hi (shiftLeft lo (scaled (Nat.log 2 (hi / lo) + 1) first + 1) - 1)
  start + scaled (last - start + 1) second

theorem logUniform_eq (rng : Rng) (lo hi : Nat) :
    rng.logUniform lo hi =
      (logOf lo hi rng.nextU64.1 rng.nextU64.2.nextU64.1, rng.nextU64.2.nextU64.2) := rfl

/-- Rotating by 57 and by 7 bits is rotating all the way. -/
theorem rotateLeft_rotateLeft (x : UInt64) : rotateLeft (rotateLeft x 57) 7 = x := by
  apply UInt64.toBitVec_inj.mp
  change (x.toBitVec <<< 57 ||| x.toBitVec >>> 7) <<< 7 |||
    (x.toBitVec <<< 57 ||| x.toBitVec >>> 7) >>> 57 = x.toBitVec
  apply BitVec.eq_of_getLsbD_eq
  intro i inside
  have past : x.toBitVec.getLsbD (7 + (57 + i)) = false := BitVec.getLsbD_of_ge _ _ (by omega)
  simp only [BitVec.getLsbD_or, BitVec.getLsbD_shiftLeft, BitVec.getLsbD_ushiftRight, past]
  by_cases low : i < 7
  · have fits : 57 + i < 64 := by omega
    simp [low, fits, inside]
  · have short : i - 7 < 57 := by omega
    have whole : ¬ 57 + i < 64 := by omega
    have back : 7 + (i - 7) = i := by omega
    simp [low, short, whole, back, inside]

/-- Every word is the output of some word of the state. -/
theorem exists_output (x : UInt64) : ∃ word, rotateLeft (word * 5) 7 * 9 = x := by
  have fifth : (0xCCCCCCCCCCCCCCCD : UInt64) * 5 = 1 := by decide
  have ninth : (0x8E38E38E38E38E39 : UInt64) * 9 = 1 := by decide
  refine ⟨rotateLeft (x * 0x8E38E38E38E38E39) 57 * 0xCCCCCCCCCCCCCCCD, ?_⟩
  rw [UInt64.mul_assoc, fifth, UInt64.mul_one, rotateLeft_rotateLeft, UInt64.mul_assoc, ninth,
    UInt64.mul_one]

/-- Any two words are the next two outputs of some generator. -/
theorem exists_outputs (first second : UInt64) :
    ∃ rng : Rng, rng.nextU64.1 = first ∧ rng.nextU64.2.nextU64.1 = second := by
  obtain ⟨word, isFirst⟩ := exists_output first
  obtain ⟨word', isSecond⟩ := exists_output second
  refine ⟨{ s0 := 0, s1 := word, s2 := word ^^^ word', s3 := 0 }, isFirst, ?_⟩
  have next : word ^^^ (word ^^^ word' ^^^ 0) = word' := by
    rw [UInt64.xor_zero, ← UInt64.xor_assoc, UInt64.xor_self, UInt64.zero_xor]
  change rotateLeft ((word ^^^ (word ^^^ word' ^^^ 0)) * 5) 7 * 9 = second
  rw [next, isSecond]

theorem scaled_lt (positive : 0 < n) (x : UInt64) : scaled n x < n := by
  obtain ⟨rng, rfl, -⟩ := exists_outputs x 0
  exact rng.below_lt positive

/-! ## The draws -/

theorem lt_of_duration (short : hi ≤ Settings.MAX_DURATION_NS) : hi < 2 ^ 62 :=
  short.trans_lt (by decide)

/-- Two outputs come to a value of the octave that the first one tells. -/
theorem logOf_eq (positive : 0 < lo) (ordered : lo ≤ hi) (small : hi < 2 ^ 62)
    (first second : UInt64) :
    ∃ k, scaled (Nat.log 2 (hi / lo) + 1) first = k ∧ Octave lo hi k ∧
      logOf lo hi first second = lo * 2 ^ k +
        scaled (min hi (2 * (lo * 2 ^ k) - 1) - lo * 2 ^ k + 1) second := by
  have drawn := scaled_lt (Nat.succ_pos (Nat.log 2 (hi / lo))) first
  rw [Nat.succ_eq_add_one] at drawn
  generalize isOctave : scaled (Nat.log 2 (hi / lo) + 1) first = k at drawn
  have octave := octave_of_le positive ordered small (Nat.le_of_lt_succ drawn)
  have doubles := octave.doubles
  have begins := octave.begins
  refine ⟨k, rfl, octave, ?_⟩
  unfold logOf
  rw [isOctave, shiftLeft_eq (by have := octave.inside; omega) (by omega),
    shiftLeft_eq octave.inside (by omega), doubles]

/-- A range of 32 bits is drawn from without overflow. -/
theorem checkedRange_eq (rng : Rng) (ordered : lo ≤ hi) (small : hi < 2 ^ 32) :
    checkedRange rng lo hi = some (rng.rangeInclusive lo hi) := by
  have drawn := rng.below_lt (Nat.succ_pos (hi - lo))
  rw [Nat.succ_eq_add_one] at drawn
  refine Option.bind_eq_some_iff.mpr ⟨_, if_pos ordered, ?_⟩
  refine Option.bind_eq_some_iff.mpr ⟨_, if_pos (by omega), ?_⟩
  refine Option.bind_eq_some_iff.mpr ⟨_, if_pos (by omega), ?_⟩
  exact Option.bind_eq_some_iff.mpr ⟨_, if_pos (by omega), rfl⟩

/-- A range of durations is drawn from without overflow and without a lost bit. -/
theorem checkedLog_eq (rng : Rng) (positive : 0 < lo) (ordered : lo ≤ hi)
    (small : hi < 2 ^ 62) : checkedLog rng lo hi = some (rng.logUniform lo hi) := by
  obtain ⟨k, isOctave, octave, value⟩ :=
    logOf_eq positive ordered small rng.nextU64.1 rng.nextU64.2.nextU64.1
  have begins := octave.begins
  have doubles := octave.doubles
  have inside := octave.inside
  have grows : 0 < lo * 2 ^ k := Nat.mul_pos positive (Nat.two_pow_pos k)
  have placed := scaled_lt (n := min hi (2 * (lo * 2 ^ k) - 1) - lo * 2 ^ k + 1)
    (Nat.succ_pos _) rng.nextU64.2.nextU64.1
  have octaves : Nat.log 2 (hi / lo) + 1 < 2 ^ 64 := by
    have := Nat.log_lt_self 2 (Nat.div_pos ordered positive).ne'
    have := Nat.div_le_self hi lo
    omega
  refine Option.bind_eq_some_iff.mpr ⟨_, if_neg positive.ne', ?_⟩
  refine Option.bind_eq_some_iff.mpr ⟨_, if_neg (Nat.div_pos ordered positive).ne', ?_⟩
  refine Option.bind_eq_some_iff.mpr ⟨_, if_pos octaves, ?_⟩
  rw [below_eq, isOctave, logUniform_eq, value]
  dsimp only
  refine Option.bind_eq_some_iff.mpr ⟨_, if_pos ⟨by omega, by omega⟩, ?_⟩
  refine Option.bind_eq_some_iff.mpr ⟨_, if_pos (by omega), ?_⟩
  refine Option.bind_eq_some_iff.mpr ⟨_, if_pos ⟨inside, by omega⟩, ?_⟩
  refine Option.bind_eq_some_iff.mpr ⟨_, if_pos (by omega), ?_⟩
  rw [doubles]
  refine Option.bind_eq_some_iff.mpr ⟨_, if_pos (by omega), ?_⟩
  refine Option.bind_eq_some_iff.mpr ⟨_, if_pos (by omega), ?_⟩
  exact Option.bind_eq_some_iff.mpr ⟨_, if_pos (by rw [below_eq]; omega), rfl⟩

/-- Every value of a range of durations is drawn from it. -/
theorem exists_logOf (positive : 0 < lo) {v : Nat} (above : lo ≤ v) (below : v ≤ hi)
    (small : hi < 2 ^ 62) : ∃ first second, logOf lo hi first second = v := by
  obtain ⟨k, isOctave, begins, ends⟩ := exists_octave positive above below
  have octaves : Nat.log 2 (hi / lo) + 1 < 2 ^ 64 := by
    have := Nat.log_le_self 2 (hi / lo)
    have := Nat.div_le_self hi lo
    omega
  obtain ⟨first, isFirst⟩ := exists_scaled (Nat.lt_succ_of_le isOctave) octaves
  rw [Nat.succ_eq_add_one] at isFirst
  have inRange := octave_of_le positive (above.trans below) small isOctave
  have doubles := inRange.doubles
  obtain ⟨second, isSecond⟩ := exists_scaled
    (n := min hi (2 * (lo * 2 ^ k) - 1) - lo * 2 ^ k + 1) (j := v - lo * 2 ^ k)
    (by omega) (by omega)
  refine ⟨first, second, ?_⟩
  obtain ⟨_, rfl, -, value⟩ := logOf_eq positive (above.trans below) small first second
  rw [value, isFirst, isSecond]
  omega

/-- What a generator's draws come to. -/
structure InRange (rng : Rng) : Prop where
  below : ∀ {n}, 0 < n → (rng.below n).1 < n
  range : ∀ {lo hi}, lo ≤ hi → hi < 2 ^ 32 →
    checkedRange rng lo hi = some (rng.rangeInclusive lo hi) ∧
      lo ≤ (rng.rangeInclusive lo hi).1 ∧ (rng.rangeInclusive lo hi).1 ≤ hi
  log : ∀ {lo hi}, 0 < lo → lo ≤ hi → hi ≤ Settings.MAX_DURATION_NS →
    checkedLog rng lo hi = some (rng.logUniform lo hi) ∧
      lo ≤ (rng.logUniform lo hi).1 ∧ (rng.logUniform lo hi).1 ≤ hi
  /-- The value comes of two outputs -/
  value : ∀ lo hi,
    (rng.logUniform lo hi).1 = logOf lo hi rng.nextU64.1 rng.nextU64.2.nextU64.1
  /-- Every value comes of two that some generator gives -/
  reached : ∀ {lo hi v}, 0 < lo → lo ≤ v → v ≤ hi → hi ≤ Settings.MAX_DURATION_NS →
    ∃ first second, logOf lo hi first second = v ∧
      ∃ other : Rng, other.nextU64.1 = first ∧ other.nextU64.2.nextU64.1 = second
  /-- As many outputs are used whatever they are -/
  afterBelow : ∀ n, (rng.below n).2 = rng.nextU64.2
  afterRange : ∀ lo hi, (rng.rangeInclusive lo hi).2 = rng.nextU64.2
  afterLog : ∀ lo hi, (rng.logUniform lo hi).2 = rng.nextU64.2.nextU64.2

/-- Draws stay in range, for every generator. -/
theorem inRange (rng : Rng) : InRange rng where
  below := rng.below_lt
  range := fun ordered small =>
    ⟨checkedRange_eq rng ordered small, rng.rangeInclusive_mem ordered⟩
  log := fun positive ordered short =>
    ⟨checkedLog_eq rng positive ordered (lt_of_duration short),
      rng.logUniform_mem positive ordered (lt_of_duration short)⟩
  value := fun lo hi => congrArg Prod.fst (logUniform_eq rng lo hi)
  reached := fun positive above below short => by
    obtain ⟨first, second, value⟩ := exists_logOf positive above below (lt_of_duration short)
    exact ⟨first, second, value, exists_outputs first second⟩
  afterBelow := fun n => congrArg Prod.snd (below_eq rng n)
  afterRange := fun lo hi => rfl
  afterLog := fun lo hi => congrArg Prod.snd (logUniform_eq rng lo hi)

end Rng

end Derp
