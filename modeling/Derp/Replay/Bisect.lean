import Derp.Library.Outcome
import Derp.Replay.Defs
import Mathlib.Data.Nat.Log

/-!
# When a failure was decided

The failing seed is run again with everything random replaced from some time on.  Many
such futures are run for one probe, and a search over the times finds two that are close
together, futures from the first failing less often than a threshold and those from the
second as often.  The counts are 32 bits wide and the times 64.
-/

namespace Derp

namespace Bisect

structure Config where
  /-- Futures per probe -/
  runs : Nat
  resolutionNs : Nat
deriving DecidableEq, Repr

structure Probe where
  atNs : Nat
  runs : Nat
  failed : Nat
  /-- Futures that failed some other way, or hung -/
  otherwise : Nat
deriving DecidableEq, Repr

/-- Why there is no step to find. -/
inductive Refusal
  | noRuns
  | notFailing
  | noTime
  | tooShort
  | certain
deriving DecidableEq, Repr

/-- How a future from a time ends, by the set of seeds and its number. -/
abbrev Futures := Nat → Nat → Nat → Ending

/-- How many futures from a time end as the reference did. -/
def probe (futures : Futures) (reference : Ending) (at_ runs round : Nat) : Probe :=
  let endings := (List.range runs).map (futures at_ round)
  { atNs := at_
    runs
    failed := (endings.filter fun e => e.failsLike reference).length
    otherwise := (endings.filter fun e =>
      !e.failsLike reference && (e.failure.isSome || e.timedOut)).length }

/-- Where the search stands: still open at `lo`, decided by `hi`. -/
structure Search where
  lo : Nat
  loFailed : Nat
  hi : Nat
  hiFailed : Option Nat
  probes : List Probe
deriving DecidableEq, Repr

structure Found where
  base : Probe
  /-- Futures of each probe of the search -/
  runs : Nat
  baseFailed : Nat
  threshold : Nat
  search : Search
  /-- The probes of the search, and of its ends again -/
  probes : List Probe
  /-- The ends measured again disagree -/
  unsure : Bool
deriving DecidableEq, Repr

open Outcome Checked

def checkReference (cfg : Config) (reference : Ending) : Outcome Refusal Unit :=
  if cfg.runs = 0 then .error .noRuns
  else if reference.failure = none then .error .notFailing
  else if reference.failureAt = 0 then .error .noTime
  else
    mul 64 cfg.resolutionNs 2 >>= fun twice =>
      if reference.failureAt ≤ twice then .error .tooShort else .ok ()

/-- Whether so many futures fail from the start that there is no moment to find. -/
def isCertain (failed runs : Nat) : Outcome Refusal Bool := do
  let fifths ← mul 32 failed 5
  let most ← mul 32 runs 4
  return (decide (most ≤ fifths))

def assertOpen (certain : Bool) : Outcome Refusal Unit :=
  if certain then .error .certain else .ok ()

/-- The nearer the base rate is to certainty, the less a probe tells. -/
def factor (quarters runs : Nat) : Nat :=
  match quarters / runs with
  | 0 => 1
  | 1 => 2
  | _ => 4

def futuresPerProbe (failed runs : Nat) : Outcome Refusal Nat := do
  let quarters ← mul 32 failed 4
  mul 32 runs (factor quarters runs)

/-- How many of the futures of a probe fail anyway. -/
def scaled (failed runs each : Nat) : Outcome Refusal Nat := do
  let all ← mul 32 failed each
  return (all / runs)

/-- Halfway between what any run does and certainty. -/
def thresholdOf (baseFailed each : Nat) : Outcome Refusal Nat := do
  let sum ← add 32 baseFailed each
  return ((sum + 1) / 2)

section Searching

variable (futures : Futures) (reference : Ending) (each threshold : Nat)

/-- The search after its first probe, in front of the failure. -/
def first (baseFailed resolution : Nat) : Search :=
  let before := reference.failureAt - resolution
  let last := probe futures reference before each 0
  if threshold ≤ last.failed then
    { lo := 0, loFailed := baseFailed, hi := before, hiFailed := some last.failed,
      probes := [last] }
  else
    { lo := before, loFailed := last.failed, hi := reference.failureAt, hiFailed := none,
      probes := [last] }

/-- The search after a probe in the middle. -/
def halve (s : Search) : Search :=
  let p := probe futures reference (s.lo + (s.hi - s.lo) / 2) each 0
  if threshold ≤ p.failed then
    { s with hi := p.atNs, hiFailed := some p.failed, probes := s.probes ++ [p] }
  else { s with lo := p.atNs, loFailed := p.failed, probes := s.probes ++ [p] }

theorem halve_cases (s : Search) :
    ∃ p, p = probe futures reference (s.lo + (s.hi - s.lo) / 2) each 0 ∧
      (threshold ≤ p.failed ∧ halve futures reference each threshold s =
          { s with hi := p.atNs, hiFailed := some p.failed, probes := s.probes ++ [p] } ∨
        p.failed < threshold ∧ halve futures reference each threshold s =
          { s with lo := p.atNs, loFailed := p.failed, probes := s.probes ++ [p] }) := by
  refine ⟨_, rfl, ?_⟩
  unfold halve
  dsimp only
  split
  · exact Or.inl ⟨‹_›, rfl⟩
  · exact Or.inr ⟨Nat.lt_of_not_le ‹_›, rfl⟩

/-- The half that is left is no wider than the other could be. -/
theorem width_halve (s : Search) :
    (halve futures reference each threshold s).hi -
        (halve futures reference each threshold s).lo ≤ (s.hi - s.lo + 1) / 2 := by
  obtain ⟨p, rfl, ⟨-, same⟩ | ⟨-, same⟩⟩ := halve_cases futures reference each threshold s
  · rw [same]
    dsimp only [probe]
    omega
  · rw [same]
    dsimp only [probe]
    omega

/-- Probe in the middle until the ends are close together. -/
def narrow {resolution : Nat} (positive : 0 < resolution) (s : Search) : Search :=
  if resolution < s.hi - s.lo then narrow positive (halve futures reference each threshold s)
  else s
termination_by s.hi - s.lo
decreasing_by
  have := width_halve futures reference each threshold s
  omega

/-- One end of the search measured again, unless it was not measured at first. -/
def again (s : Search) (at_ : Nat) (expect : Bool) : List Probe × Bool :=
  if (at_ = 0 ∧ expect = false) ∨ (at_ = s.hi ∧ s.hiFailed = none) then ([], false)
  else
    let p := probe futures reference at_ each 1
    ([p], decide (threshold ≤ p.failed) != expect)

end Searching

/-- The search, and its ends again with futures not used before. -/
def find (cfg : Config) (reference : Ending) (futures : Futures)
    (base : Probe) (each baseFailed threshold : Nat) : Found :=
  let start := first futures reference each threshold baseFailed (max cfg.resolutionNs 1)
  let search := narrow futures reference each threshold
    (Nat.lt_of_lt_of_le Nat.zero_lt_one (Nat.le_max_right cfg.resolutionNs 1)) start
  let low := again futures reference each threshold search search.lo false
  let high := again futures reference each threshold search search.hi true
  { base, runs := each, baseFailed, threshold, search
    probes := search.probes ++ low.1 ++ high.1
    unsure := low.2 || high.2 }

/-- Bisect a failing run. -/
def bisect (cfg : Config) (reference : Ending) (futures : Futures) : Outcome Refusal Found := do
  checkReference cfg reference
  -- Replaced before the first hand-off, nothing of the reference is left
  let base := probe futures reference 0 cfg.runs 0
  let certain ← isCertain base.failed cfg.runs
  assertOpen certain
  let each ← futuresPerProbe base.failed cfg.runs
  let baseFailed ← scaled base.failed cfg.runs each
  let threshold ← thresholdOf baseFailed each
  return (find cfg reference futures base each baseFailed threshold)

/-! ## The search -/

section Search

variable {futures : Futures} {reference : Ending} {each threshold baseFailed : Nat} {s : Search}

/-- The search has probed the time, and so many futures failed. -/
def Probed (futures : Futures) (reference : Ending) (each : Nat) (s : Search) (at_ failed : Nat) :
    Prop :=
  probe futures reference at_ each 0 ∈ s.probes ∧
    (probe futures reference at_ each 0).failed = failed

/-- A crossing lies between the ends of the search. -/
structure Bracket (futures : Futures) (reference : Ending) (each threshold baseFailed : Nat)
    (s : Search) : Prop where
  ordered : s.lo < s.hi
  low : s.lo = 0 ∧ s.loFailed = baseFailed ∨
    Probed futures reference each s s.lo s.loFailed ∧ s.loFailed < threshold
  high : s.hi = reference.failureAt ∧ s.hiFailed = none ∨
    ∃ failed, s.hiFailed = some failed ∧ Probed futures reference each s s.hi failed ∧
      threshold ≤ failed

theorem bracket_first {resolution : Nat} (positive : 0 < resolution)
    (long : resolution < reference.failureAt) :
    Bracket futures reference each threshold baseFailed
      (first futures reference each threshold baseFailed resolution) := by
  unfold first
  dsimp only
  split
  · exact
      { ordered := by dsimp only; omega
        low := Or.inl ⟨rfl, rfl⟩
        high := Or.inr ⟨_, rfl, ⟨List.mem_singleton_self _, rfl⟩, ‹_›⟩ }
  · exact
      { ordered := by dsimp only; omega
        low := Or.inr ⟨⟨List.mem_singleton_self _, rfl⟩, Nat.lt_of_not_le ‹_›⟩
        high := Or.inl ⟨rfl, rfl⟩ }

/-- One probe was made, and the interval begins within the run. -/
theorem first_bounds (futures : Futures) (reference : Ending)
    (each threshold baseFailed resolution : Nat) :
    let start := first futures reference each threshold baseFailed resolution
    start.probes.length = 1 ∧ start.hi - start.lo ≤ reference.failureAt := by
  unfold first
  dsimp only
  split
  · exact ⟨rfl, (Nat.sub_le _ _).trans (Nat.sub_le _ _)⟩
  · exact ⟨rfl, Nat.sub_le _ _⟩

theorem Probed.append {at_ failed : Nat} {s' : Search}
    (probed : Probed futures reference each s at_ failed) {p : Probe}
    (more : s'.probes = s.probes ++ [p]) : Probed futures reference each s' at_ failed :=
  ⟨more ▸ List.mem_append_left _ probed.1, probed.2⟩

theorem Bracket.halve (bracket : Bracket futures reference each threshold baseFailed s)
    (wide : 1 < s.hi - s.lo) :
    Bracket futures reference each threshold baseFailed
      (halve futures reference each threshold s) := by
  have isLast : ∀ p : Probe, p ∈ s.probes ++ [p] := fun p =>
    List.mem_append_right _ (List.mem_singleton_self p)
  obtain ⟨p, rfl, ⟨isDecided, same⟩ | ⟨isOpen, same⟩⟩ :=
    halve_cases futures reference each threshold s
  · rw [same]
    exact
      { ordered := by dsimp only [probe]; omega
        low := bracket.low.imp_right fun low => ⟨low.1.append rfl, low.2⟩
        high := Or.inr ⟨_, rfl, ⟨isLast _, rfl⟩, isDecided⟩ }
  · rw [same]
    exact
      { ordered := by dsimp only [probe]; omega
        low := Or.inr ⟨⟨isLast _, rfl⟩, isOpen⟩
        high := bracket.high.imp_right fun ⟨failed, isFailed, probed, enough⟩ =>
          ⟨failed, isFailed, probed.append rfl, enough⟩ }

theorem length_probes_halve (s : Search) :
    (Bisect.halve futures reference each threshold s).probes.length = s.probes.length + 1 := by
  obtain ⟨p, -, ⟨-, same⟩ | ⟨-, same⟩⟩ := halve_cases futures reference each threshold s
  · rw [same]
    exact List.length_append
  · rw [same]
    exact List.length_append

/-- The search ends with its ends close together, after as many probes as the interval
can be halved. -/
theorem bracket_narrow {resolution : Nat} (positive : 0 < resolution)
    (bracket : Bracket futures reference each threshold baseFailed s) :
    let found := narrow futures reference each threshold positive s
    Bracket futures reference each threshold baseFailed found ∧
      found.hi - found.lo ≤ resolution ∧
        ∃ rounds, found.probes.length = s.probes.length + rounds ∧
          (rounds = 0 ∨ 2 ^ (rounds - 1) * resolution < s.hi - s.lo) := by
  induction s using narrow.induct futures reference each threshold positive with
  | case1 s wide ih =>
      unfold narrow
      rw [if_pos wide]
      obtain ⟨kept, near, rounds, count, few⟩ := ih (bracket.halve (by omega))
      refine ⟨kept, near, rounds + 1, ?_, Or.inr ?_⟩
      · rw [count, length_probes_halve]
        omega
      · have half := width_halve futures reference each threshold s
        obtain rfl | few := few
        · rw [Nat.add_sub_cancel, Nat.pow_zero, Nat.one_mul]
          exact wide
        · obtain rfl | ⟨before, rfl⟩ : rounds = 0 ∨ ∃ before, rounds = before + 1 :=
            rounds.eq_zero_or_eq_succ_pred.imp_right fun isSucc => ⟨_, isSucc⟩
          · rw [Nat.add_sub_cancel, Nat.pow_zero, Nat.one_mul]
            exact wide
          · rw [Nat.add_sub_cancel] at few ⊢
            rw [Nat.pow_succ, Nat.mul_right_comm]
            omega
  | case2 s narrow_ =>
      unfold narrow
      rw [if_neg narrow_]
      exact ⟨bracket, Nat.le_of_not_lt narrow_, 0, rfl, Or.inl rfl⟩

theorem length_again_le (s : Search) (at_ : Nat) (expect : Bool) :
    (again futures reference each threshold s at_ expect).1.length ≤ 1 := by
  unfold again
  dsimp only
  split
  · exact Nat.zero_le _
  · exact le_rfl

end Search

/-! ## The threshold -/

section Threshold

variable {failed runs : Nat}

theorem factor_cases (quarters : Nat) (positive : 0 < runs) :
    factor quarters runs = 1 ∧ quarters < runs ∨
      factor quarters runs = 2 ∧ quarters < 2 * runs ∨
        factor quarters runs = 4 ∧ 2 * runs ≤ quarters := by
  unfold factor
  split
  · rename_i isZero
    exact Or.inl ⟨rfl, (Nat.div_eq_zero_iff_lt positive).mp isZero⟩
  · rename_i isOne
    refine Or.inr (Or.inl ⟨rfl, (Nat.div_lt_iff_lt_mul positive).mp ?_⟩)
    rw [isOne]
    decide
  · rename_i notZero notOne
    exact Or.inr (Or.inr ⟨rfl, (Nat.le_div_iff_mul_le positive).mp
      ((Nat.two_le_iff _).mpr ⟨notZero, notOne⟩)⟩)

/-- Where the base rate is below four fifths, fewer fail anyway than all. -/
theorem scaled_lt {each : Nat} (open_ : failed * 5 < runs * 4) (some_ : 0 < each) :
    failed * each / runs < each := by
  have fewer : failed < runs := by omega
  rw [Nat.div_lt_iff_lt_mul (by omega), Nat.mul_comm each]
  exact Nat.mul_lt_mul_of_pos_right fewer some_

/-- The sum is never too wide where the product is not. -/
theorem sum_lt (open_ : failed * 5 < runs * 4) (few : runs * 4 < 2 ^ 32)
    (product : failed * (runs * factor (failed * 4) runs) < 2 ^ 32) :
    failed * (runs * factor (failed * 4) runs) / runs + runs * factor (failed * 4) runs <
      2 ^ 32 := by
  have positive : 0 < runs := by omega
  have divided : ∀ k, failed * (runs * k) / runs = failed * k := by
    intro k
    rw [Nat.mul_left_comm, Nat.mul_div_cancel_left _ positive]
  rw [divided]
  obtain ⟨isFactor, low⟩ | ⟨isFactor, low⟩ | ⟨isFactor, high⟩ :=
    factor_cases (failed * 4) positive
  · rw [isFactor]
    omega
  · rw [isFactor]
    omega
  · rw [isFactor] at product ⊢
    have small : runs < 2 ^ 16 := by
      by_contra large
      have square : 2 ^ 16 * 2 ^ 16 ≤ runs * runs :=
        Nat.mul_le_mul (Nat.le_of_not_lt large) (Nat.le_of_not_lt large)
      have double : 2 * runs * runs ≤ failed * 4 * runs := Nat.mul_le_mul_right runs high
      rw [Nat.mul_assoc] at double
      rw [Nat.mul_comm runs 4, ← Nat.mul_assoc] at product
      omega
    omega

theorem threshold_bounds {baseFailed each : Nat} (fewer : baseFailed < each) :
    baseFailed < (baseFailed + each + 1) / 2 ∧ (baseFailed + each + 1) / 2 ≤ each := by
  omega

end Threshold

/-! ## What is found -/

/-- What a bisection promises of the crossing it finds. -/
structure Crossing (cfg : Config) (reference : Ending) (futures : Futures) (found : Found) :
    Prop where
  base : found.base = probe futures reference 0 cfg.runs 0
  scaled : found.baseFailed = found.base.failed * found.runs / cfg.runs
  threshold : found.baseFailed < found.threshold ∧ found.threshold ≤ found.runs
  bracket : Bracket futures reference found.runs found.threshold found.baseFailed found.search
  near : found.search.hi - found.search.lo ≤ cfg.resolutionNs
  /-- The probe in front of the failure, one for each time the interval is halved, and the
  ends again -/
  few : found.probes.length ≤ Nat.log 2 (reference.failureAt / cfg.resolutionNs) + 4

/-- What bisection asks for: a failing run that is long enough, and a base rate below four
fifths. -/
structure Accepted (cfg : Config) (reference : Ending) (futures : Futures) : Prop where
  runs : 0 < cfg.runs
  resolution : 0 < cfg.resolutionNs
  failing : reference.failure ≠ none
  long : cfg.resolutionNs * 2 < reference.failureAt
  isTime : reference.failureAt < 2 ^ 64
  open_ : (probe futures reference 0 cfg.runs 0).failed * 5 < cfg.runs * 4

/-- The counts stay in 32 bits. -/
def Fits (failed runs : Nat) : Prop :=
  runs * 4 < 2 ^ 32 ∧ failed * (runs * factor (failed * 4) runs) < 2 ^ 32

section Found

variable {cfg : Config} {reference : Ending} {futures : Futures}

theorem checkReference_of_accepted (accepted : Accepted cfg reference futures) :
    checkReference cfg reference = .ok () := by
  have fits : cfg.resolutionNs * 2 < 2 ^ 64 := accepted.long.trans accepted.isTime
  unfold checkReference
  rw [if_neg accepted.runs.ne', if_neg accepted.failing,
    if_neg (Nat.zero_lt_of_lt accepted.long).ne', mul_of_lt fits, ok_bind,
    if_neg (Nat.not_le_of_lt accepted.long)]

/-- Few probes in terms of the width halve it down to the resolution. -/
theorem rounds_le {rounds width resolution : Nat} (positive : 0 < resolution)
    (few : rounds = 0 ∨ 2 ^ (rounds - 1) * resolution < width) {whole : Nat}
    (inside : width ≤ whole) :
    rounds ≤ Nat.log 2 (whole / resolution) + 1 := by
  obtain rfl | few := few
  · exact Nat.zero_le _
  · have power : 2 ^ (rounds - 1) ≤ whole / resolution :=
      (Nat.le_div_iff_mul_le positive).mpr (few.le.trans inside)
    have := Nat.le_log_of_pow_le (by decide) power
    omega

/-- What is found from fitting counts is a crossing. -/
theorem crossing_find (accepted : Accepted cfg reference futures) {base : Probe}
    (isBase : base = probe futures reference 0 cfg.runs 0) {each baseFailed threshold : Nat}
    (isScaled : baseFailed = base.failed * each / cfg.runs)
    (isThreshold : baseFailed < threshold ∧ threshold ≤ each) :
    Crossing cfg reference futures
      (find cfg reference futures base each baseFailed threshold) := by
  have isMax : max cfg.resolutionNs 1 = cfg.resolutionNs := Nat.max_eq_left accepted.resolution
  have positive : 0 < max cfg.resolutionNs 1 :=
    Nat.lt_of_lt_of_le Nat.zero_lt_one (Nat.le_max_right cfg.resolutionNs 1)
  have long := accepted.long
  have begun : Bracket futures reference each threshold baseFailed
      (first futures reference each threshold baseFailed (max cfg.resolutionNs 1)) :=
    bracket_first positive (by omega)
  obtain ⟨one, inside⟩ := first_bounds futures reference each threshold baseFailed
    (max cfg.resolutionNs 1)
  obtain ⟨bracket, near, rounds, count, few⟩ := bracket_narrow positive begun
  refine ⟨isBase, isScaled, isThreshold, bracket, isMax ▸ near, ?_⟩
  have bound := rounds_le positive few inside
  rw [isMax] at bound
  unfold find
  dsimp only
  rw [List.length_append, List.length_append, count, one]
  generalize narrow futures reference each threshold positive
    (first futures reference each threshold baseFailed (max cfg.resolutionNs 1)) = search
  have low : (again futures reference each threshold search search.lo false).1.length ≤ 1 :=
    length_again_le search search.lo false
  have high : (again futures reference each threshold search search.hi true).1.length ≤ 1 :=
    length_again_le search search.hi true
  exact (Nat.add_le_add (Nat.add_le_add (Nat.add_le_add le_rfl bound) low) high).trans (by omega)

/-- A bisection that is accepted finds a crossing exactly when its counts fit. -/
theorem finds_iff_fits (accepted : Accepted cfg reference futures) :
    (∃ found, bisect cfg reference futures = .ok found ∧ Crossing cfg reference futures found) ↔
      Fits (probe futures reference 0 cfg.runs 0).failed cfg.runs := by
  have checked := checkReference_of_accepted accepted
  have open_ := accepted.open_
  constructor
  · rintro ⟨found, finds, -⟩
    unfold bisect isCertain futuresPerProbe scaled at finds
    simp only [bind_eq_ok, mul_eq_ok] at finds
    obtain ⟨-, -, -, ⟨-, -, most, ⟨few, -⟩, -⟩, -, -, each, ⟨quarters, ⟨-, rfl⟩, -, rfl⟩, -,
      ⟨all, ⟨product, -⟩, -⟩, -⟩ := finds
    exact ⟨few, product⟩
  · rintro ⟨few, product⟩
    have sum := sum_lt open_ few product
    generalize isBase : probe futures reference 0 cfg.runs 0 = base at open_ few product sum
    have some_ : 0 < cfg.runs * factor (base.failed * 4) cfg.runs := by
      refine Nat.mul_pos accepted.runs ?_
      obtain ⟨isFactor, -⟩ | ⟨isFactor, -⟩ | ⟨isFactor, -⟩ :=
        factor_cases (base.failed * 4) accepted.runs
      all_goals
        rw [isFactor]
        decide
    have less : cfg.runs * factor (base.failed * 4) cfg.runs < 2 ^ 32 :=
      (Nat.le_add_left _ _).trans_lt sum
    refine ⟨_, ?_, crossing_find accepted isBase.symm rfl
      (threshold_bounds (scaled_lt open_ some_))⟩
    unfold bisect isCertain assertOpen futuresPerProbe scaled thresholdOf
    have fifths : base.failed * 5 < 2 ^ 32 := open_.trans few
    have quarters : base.failed * 4 < 2 ^ 32 := by omega
    rw [checked, ok_bind, isBase]
    dsimp only
    rw [mul_of_lt fifths, ok_bind, mul_of_lt few, ok_bind, pure_eq, ok_bind,
      decide_eq_false (Nat.not_le_of_lt open_), if_neg Bool.false_ne_true, ok_bind,
      mul_of_lt quarters, ok_bind, mul_of_lt less, ok_bind, mul_of_lt product, ok_bind, pure_eq,
      ok_bind, add_of_lt sum, ok_bind, pure_eq, ok_bind, pure_eq]

end Found

/-! ## Too many futures -/

/-- A failure after ten milliseconds. -/
def failure : Ending :=
  { Ending.default with
    failure := some (0, ['9'])
    failureAt := 10000000
    lastStatus := [(0, ['9'])] }

/-- Every future whose number is small fails as the reference did. -/
def firstFail (failing : Nat) : Futures := fun _ _ k =>
  if k < failing then failure else Ending.default

theorem failed_firstFail (failing rest at_ round : Nat) :
    (probe (firstFail failing) failure at_ (failing + rest) round).failed = failing := by
  have low : ∀ k ∈ List.range failing,
      ((fun e => e.failsLike failure) ∘ firstFail failing at_ round) k = true := by
    intro k isLow
    rw [Function.comp_apply]
    unfold firstFail
    rw [if_pos (List.mem_range.mp isLow)]
    decide
  have high : ∀ k ∈ (List.range rest).map (failing + ·),
      ¬ ((fun e => e.failsLike failure) ∘ firstFail failing at_ round) k = true := by
    intro k isHigh
    rw [Function.comp_apply]
    obtain ⟨more, -, rfl⟩ := List.mem_map.mp isHigh
    unfold firstFail
    rw [if_neg (Nat.not_lt.mpr (Nat.le_add_right failing more))]
    decide
  unfold probe
  dsimp only
  rw [List.filter_map, List.length_map, List.range_add, List.filter_append,
    List.filter_eq_self.mpr low, List.filter_eq_nil_iff.mpr high, List.append_nil,
    List.length_range]

theorem accepted_firstFail {failing rest : Nat} (open_ : failing * 5 < (failing + rest) * 4) :
    Accepted ⟨failing + rest, 2000000⟩ failure (firstFail failing) where
  runs := by dsimp only; omega
  resolution := show 0 < 2000000 by decide
  failing := by decide
  long := show 2000000 * 2 < failure.failureAt by decide
  isTime := by decide
  open_ := by rwa [failed_firstFail]

/-- Of the twenty futures that are usual, five fail anyway. -/
theorem finds_twenty :
    ∃ found, bisect ⟨5 + 15, 2000000⟩ failure (firstFail 5) = .ok found ∧
      Crossing ⟨5 + 15, 2000000⟩ failure (firstFail 5) found := by
  refine (finds_iff_fits (accepted_firstFail (by decide))).mpr ?_
  rw [failed_firstFail]
  exact ⟨by decide, by decide⟩

/-- Of fifty thousand futures half fail anyway, and their count times the number of
futures of a probe is not a number of 32 bits. -/
theorem not_finds_fiftyThousand :
    ¬ ∀ (cfg : Config) (reference : Ending) (futures : Futures), Accepted cfg reference futures →
      ∃ found, bisect cfg reference futures = .ok found ∧
        Crossing cfg reference futures found := by
  intro every
  obtain ⟨found, finds, -⟩ := every _ _ _ (accepted_firstFail
    (show 25000 * 5 < (25000 + 25000) * 4 by decide))
  unfold bisect at finds
  simp only [bind_eq_ok] at finds
  obtain ⟨-, -, certain, -, -, -, each, isEach, baseFailed, isScaled, -⟩ := finds
  rw [failed_firstFail] at isEach isScaled
  obtain rfl : 200000 = each := Outcome.ok.inj isEach
  cases isScaled

end Bisect

end Derp
