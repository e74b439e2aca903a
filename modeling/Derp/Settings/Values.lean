import Derp.Manifest

/-!
# Values of settings

How the values of a run's settings are written, on the command line and in a run file, and
what is read of them.  Every value that is printed in one of these forms is read back.
-/

namespace Derp

namespace Settings

/-! ## Texts -/

/-- The text without the white space around it. -/
def trim (text : Text) : Text :=
  (text.dropWhile Manifest.isWhitespace).rdropWhile Manifest.isWhitespace

theorem trim_of_forall {text : Text} (solid : ∀ c ∈ text, Manifest.isWhitespace c = false) :
    trim text = text := by
  unfold trim
  have front : text.dropWhile Manifest.isWhitespace = text := by
    cases text with
    | nil => rfl
    | cons c text =>
        rw [List.dropWhile_cons, solid c List.mem_cons_self]
        rfl
  rw [front]
  have all := Text.rdropWhile_append solid (fun _ absent => nomatch absent : ∀ c ∈ [], _)
  rw [List.append_nil] at all
  exact all.1

/-- Digits are neither letters nor white space. -/
theorem of_isDigit {c : Char} (isDigit : c.isDigit = true) :
    c.isAlpha = false ∧ Manifest.isWhitespace c = false ∧ c ≠ 'µ' ∧ c ≠ '.' ∧ c ≠ '/' := by
  have bounds : 48 ≤ c.toNat ∧ c.toNat ≤ 57 := by
    unfold Char.isDigit at isDigit
    rw [Bool.and_eq_true, decide_eq_true_eq, decide_eq_true_eq] at isDigit
    exact ⟨UInt32.le_iff_toNat_le.mp isDigit.1, UInt32.le_iff_toNat_le.mp isDigit.2⟩
  have each : ∀ n ≤ 57, 48 ≤ n →
      (Char.ofNat n).isAlpha = false ∧ Manifest.isWhitespace (Char.ofNat n) = false ∧
        Char.ofNat n ≠ 'µ' ∧ Char.ofNat n ≠ '.' ∧ Char.ofNat n ≠ '/' := by decide
  rw [← Char.ofNat_toNat c]
  exact each c.toNat bounds.2 bounds.1

/-- A pair of numbers as it is printed, with a mark between them. -/
theorem splitOnce_decimal (n : Nat) {c : Char} (pattern rest : Text) (other : c.isDigit = false) :
    Text.splitOnce (c :: pattern) (Text.decimal n ++ c :: pattern ++ rest) =
      some (Text.decimal n, rest) := by
  refine Text.splitOnce_append pattern (fun present => ?_) rest
  rw [Text.isDigit_of_mem_decimal present] at other
  cases other

theorem trim_decimal (n : Nat) : trim (Text.decimal n) = Text.decimal n :=
  trim_of_forall fun _ present => (of_isDigit (Text.isDigit_of_mem_decimal present)).2.1

/-! ## Sizes -/

/-- The bits that a unit of sizes is shifted by. -/
def sizeShift : Text → Option Nat
  | [] => some 0
  | ['K'] | ['k'] => some 10
  | ['M'] | ['m'] => some 20
  | ['G'] | ['g'] => some 30
  | ['T'] | ['t'] => some 40
  | _ => none

/-- Between 64 MB and 4 TB. -/
def SizeInRange (bytes : Nat) : Prop := 64 * 2 ^ 20 ≤ bytes ∧ bytes ≤ 4 * 2 ^ 40

instance (bytes : Nat) : Decidable (SizeInRange bytes) := instDecidableAnd

/-- A heap size: a number of bytes, or of one of the units. -/
def parseSize (s : Text) : Option Nat := do
  let digits := s.rdropWhile Char.isAlpha
  let shift ← sizeShift (s.rtakeWhile Char.isAlpha)
  let n ← Text.parseUnsigned 64 digits
  let bytes := n * 2 ^ shift
  if bytes < 2 ^ 64 ∧ SizeInRange bytes then some bytes else none

theorem sizeInRange_of_parseSize {s : Text} {bytes : Nat} (parsed : parseSize s = some bytes) :
    SizeInRange bytes := by
  obtain ⟨shift, -, parsed⟩ := Option.bind_eq_some_iff.mp parsed
  obtain ⟨n, -, parsed⟩ := Option.bind_eq_some_iff.mp parsed
  dsimp only at parsed
  split at parsed
  · rename_i fits
    obtain rfl := Option.some.inj parsed
    exact fits.2
  · cases parsed

theorem parseSize_decimal {bytes : Nat} (inRange : SizeInRange bytes) :
    parseSize (Text.decimal bytes) = some bytes := by
  have digits : ∀ c ∈ Text.decimal bytes, c.isAlpha = false := fun _ present =>
    (of_isDigit (Text.isDigit_of_mem_decimal present)).1
  have cut := Text.rdropWhile_append digits (fun _ absent => nomatch absent : ∀ c ∈ [], _)
  rw [List.append_nil] at cut
  have small : bytes < 2 ^ 64 := lt_of_le_of_lt inRange.2 (by decide)
  unfold parseSize
  dsimp only
  rw [cut.1, cut.2, Text.parseUnsigned_decimal small]
  change (if bytes * 2 ^ 0 < 2 ^ 64 ∧ SizeInRange (bytes * 2 ^ 0) then some (bytes * 2 ^ 0)
    else none) = _
  rw [Nat.pow_zero, Nat.mul_one, if_pos ⟨small, inRange⟩]

/-! ## Durations -/

/-- A year. -/
def MAX_DURATION_NS : Nat := 365 * 24 * 3600 * 1000000000

def isUnit (c : Char) : Bool := c.isAlpha || c == 'µ'

/-- The nanoseconds that a unit stands for. -/
def scale : Text → Option Nat
  | ['n', 's'] => some 1
  | ['u', 's'] | ['µ', 's'] => some 1000
  | [] | ['m', 's'] => some 1000000
  | ['s'] => some 1000000000
  | _ => none

/-- A number with a unit; a bare one is of milliseconds. -/
def parseDurationNs (s : Text) : Option Nat := do
  let digits := s.rdropWhile isUnit
  let scale ← scale (s.rtakeWhile isUnit)
  let n ← Text.parseUnsigned 64 digits
  let ns := n * scale
  -- Far from overflowing the virtual clock when added to it
  if ns < 2 ^ 64 ∧ ns ≤ MAX_DURATION_NS then some ns else none

theorem le_of_parseDurationNs {s : Text} {ns : Nat} (parsed : parseDurationNs s = some ns) :
    ns ≤ MAX_DURATION_NS := by
  obtain ⟨unit, -, parsed⟩ := Option.bind_eq_some_iff.mp parsed
  obtain ⟨n, -, parsed⟩ := Option.bind_eq_some_iff.mp parsed
  dsimp only at parsed
  split at parsed
  · rename_i fits
    obtain rfl := Option.some.inj parsed
    exact fits.2
  · cases parsed

/-- A number of nanoseconds as it is printed. -/
def inNs (ns : Nat) : Text := Text.decimal ns ++ ['n', 's']

theorem parseDurationNs_inNs {ns : Nat} (short : ns ≤ MAX_DURATION_NS) :
    parseDurationNs (inNs ns) = some ns := by
  have digits : ∀ c ∈ Text.decimal ns, isUnit c = false := by
    intro c present
    have isDigit := of_isDigit (Text.isDigit_of_mem_decimal present)
    unfold isUnit
    rw [isDigit.1, Bool.false_or, beq_eq_false_iff_ne]
    exact isDigit.2.2.1
  have unit : ∀ c ∈ ['n', 's'], isUnit c = true :=
    List.forall_mem_cons.2 ⟨rfl, List.forall_mem_singleton.2 rfl⟩
  have cut := Text.rdropWhile_append digits unit
  have small : ns < 2 ^ 64 := by
    unfold MAX_DURATION_NS at short
    omega
  unfold parseDurationNs inNs
  dsimp only
  rw [cut.1, cut.2, Text.parseUnsigned_decimal small]
  change (if ns * 1 < 2 ^ 64 ∧ ns * 1 ≤ MAX_DURATION_NS then some (ns * 1) else none) = _
  rw [Nat.mul_one, if_pos ⟨small, short⟩]

/-- Nothing in a printed duration is white space or part of a mark between two. -/
theorem of_mem_inNs {ns : Nat} {c : Char} (present : c ∈ inNs ns) :
    Manifest.isWhitespace c = false ∧ c ≠ '.' := by
  rcases List.mem_append.mp present with digit | unit
  · have isDigit := of_isDigit (Text.isDigit_of_mem_decimal digit)
    exact ⟨isDigit.2.1, isDigit.2.2.2.1⟩
  · have each : ∀ c ∈ ['n', 's'], Manifest.isWhitespace c = false ∧ c ≠ '.' :=
      List.forall_mem_cons.2 ⟨by decide, List.forall_mem_singleton.2 (by decide)⟩
    exact each c unit

/-- A duration that is not zero. -/
def parsePositive (s : Text) : Option Nat := (parseDurationNs s).filter fun ns => 0 < ns

theorem of_parsePositive {s : Text} {ns : Nat} (parsed : parsePositive s = some ns) :
    0 < ns ∧ ns ≤ MAX_DURATION_NS := by
  obtain ⟨parsed, positive⟩ := Option.filter_eq_some_iff.mp parsed
  exact ⟨of_decide_eq_true positive, le_of_parseDurationNs parsed⟩

theorem parsePositive_inNs {ns : Nat} (positive : 0 < ns) (short : ns ≤ MAX_DURATION_NS) :
    parsePositive (inNs ns) = some ns := by
  unfold parsePositive
  rw [parseDurationNs_inNs short, Option.filter_some, if_pos (decide_eq_true positive)]

/-- Two durations in order, or one for both ends. -/
def parseDurationRange (s : Text) : Option (Nat × Nat) := do
  let (lo, hi) := (Text.splitOnce ['.', '.'] s).getD (s, s)
  let lo ← parseDurationNs (trim lo)
  let hi ← parseDurationNs (trim hi)
  if lo ≤ hi then some (lo, hi) else none

theorem of_parseDurationRange {s : Text} {lo hi : Nat}
    (parsed : parseDurationRange s = some (lo, hi)) : lo ≤ hi ∧ hi ≤ MAX_DURATION_NS := by
  obtain ⟨low, -, parsed⟩ := Option.bind_eq_some_iff.mp parsed
  obtain ⟨high, isHigh, parsed⟩ := Option.bind_eq_some_iff.mp parsed
  split at parsed
  · rename_i ordered
    obtain ⟨rfl, rfl⟩ := Prod.mk.inj (Option.some.inj parsed)
    exact ⟨ordered, le_of_parseDurationNs isHigh⟩
  · cases parsed

/-- A range whose low end is not zero, since the lengths are drawn by octaves. -/
def parsePauseFor (s : Text) : Option (Nat × Nat) :=
  (parseDurationRange s).filter fun range => 0 < range.1

theorem of_parsePauseFor {s : Text} {lo hi : Nat} (parsed : parsePauseFor s = some (lo, hi)) :
    0 < lo ∧ lo ≤ hi ∧ hi ≤ MAX_DURATION_NS := by
  obtain ⟨parsed, positive⟩ := Option.filter_eq_some_iff.mp parsed
  exact ⟨of_decide_eq_true positive, of_parseDurationRange parsed⟩

theorem parsePauseFor_inNs {lo hi : Nat} (positive : 0 < lo) (ordered : lo ≤ hi)
    (short : hi ≤ MAX_DURATION_NS) :
    parsePauseFor (inNs lo ++ ['.', '.'] ++ inNs hi) = some (lo, hi) := by
  have split : Text.splitOnce ['.', '.'] (inNs lo ++ ['.', '.'] ++ inNs hi) =
      some (inNs lo, inNs hi) :=
    Text.splitOnce_append ['.'] (fun present => (of_mem_inNs present).2 rfl) (inNs hi)
  have trimmed (ns : Nat) : trim (inNs ns) = inNs ns :=
    trim_of_forall fun _ present => (of_mem_inNs present).1
  have range : parseDurationRange (inNs lo ++ ['.', '.'] ++ inNs hi) = some (lo, hi) := by
    unfold parseDurationRange
    rw [split, Option.getD_some]
    dsimp only
    rw [trimmed, trimmed, parseDurationNs_inNs (ordered.trans short), parseDurationNs_inNs short]
    exact if_pos ordered
  unfold parsePauseFor
  rw [range, Option.filter_some, if_pos (decide_eq_true positive)]

/-! ## Fractions and ranges -/

/-- A fraction of at most one. -/
def IsFraction (f : Nat × Nat) : Prop := 0 < f.2 ∧ f.1 ≤ f.2 ∧ f.2 < 2 ^ 32

/-- Two numbers of 32 bits with a stroke between them. -/
def parseFraction (s : Text) : Option (Nat × Nat) := do
  let (num, den) ← Text.splitOnce ['/'] s
  let num ← Text.parseUnsigned 32 (trim num)
  let den ← Text.parseUnsigned 32 (trim den)
  if 0 < den ∧ num ≤ den then some (num, den) else none

/-- How often a choice pauses a thread. -/
def parseChance (s : Text) : Option (Nat × Nat) :=
  if s = "off".toList then some (0, 1) else parseFraction s

/-- How many of the loads and stores are hooked. -/
def parseRate (s : Text) : Option (Nat × Nat) :=
  match Text.splitOnce ['/'] s with
  | some _ => parseFraction s
  | none =>
      if trim s = ['0'] then some (0, 1) else if trim s = ['1'] then some (1, 1) else none

/-- A fraction as it is printed. -/
def showFraction (f : Nat × Nat) : Text := Text.decimal f.1 ++ ['/'] ++ Text.decimal f.2

theorem isFraction_of_parseFraction {s : Text} {f : Nat × Nat}
    (parsed : parseFraction s = some f) : IsFraction f := by
  obtain ⟨parts, -, parsed⟩ := Option.bind_eq_some_iff.mp parsed
  obtain ⟨num, -, parsed⟩ := Option.bind_eq_some_iff.mp parsed
  obtain ⟨den, isDen, parsed⟩ := Option.bind_eq_some_iff.mp parsed
  split at parsed
  · rename_i fraction
    obtain rfl := Option.some.inj parsed
    exact ⟨fraction.1, fraction.2, Text.parseUnsigned_lt isDen⟩
  · cases parsed

theorem isFraction_of_parseChance {s : Text} {f : Nat × Nat} (parsed : parseChance s = some f) :
    IsFraction f := by
  unfold parseChance at parsed
  split at parsed
  · obtain rfl := Option.some.inj parsed
    exact ⟨Nat.one_pos, Nat.zero_le 1, by decide⟩
  · exact isFraction_of_parseFraction parsed

theorem isFraction_of_parseRate {s : Text} {f : Nat × Nat} (parsed : parseRate s = some f) :
    IsFraction f := by
  unfold parseRate at parsed
  split at parsed
  · exact isFraction_of_parseFraction parsed
  · split at parsed
    · obtain rfl := Option.some.inj parsed
      exact ⟨Nat.one_pos, Nat.zero_le 1, by decide⟩
    · split at parsed
      · obtain rfl := Option.some.inj parsed
        exact ⟨Nat.one_pos, le_rfl, by decide⟩
      · cases parsed

theorem splitOnce_showFraction (f : Nat × Nat) :
    Text.splitOnce ['/'] (showFraction f) = some (Text.decimal f.1, Text.decimal f.2) :=
  splitOnce_decimal f.1 [] (Text.decimal f.2) (by decide)

theorem parseFraction_showFraction {f : Nat × Nat} (fraction : IsFraction f) :
    parseFraction (showFraction f) = some f := by
  unfold parseFraction
  rw [splitOnce_showFraction]
  change (do
    let num ← Text.parseUnsigned 32 (trim (Text.decimal f.1))
    let den ← Text.parseUnsigned 32 (trim (Text.decimal f.2))
    if 0 < den ∧ num ≤ den then some (num, den) else none) = _
  rw [trim_decimal, trim_decimal, Text.parseUnsigned_decimal fraction.2.2,
    Text.parseUnsigned_decimal (fraction.2.1.trans_lt fraction.2.2)]
  exact if_pos ⟨fraction.1, fraction.2.1⟩

theorem parseChance_showFraction {f : Nat × Nat} (fraction : IsFraction f) :
    parseChance (showFraction f) = some f := by
  unfold parseChance
  rw [if_neg, parseFraction_showFraction fraction]
  intro isOff
  have whole : Text.splitOnce ['/'] (showFraction f) = none := by
    rw [isOff]
    decide
  rw [splitOnce_showFraction] at whole
  cases whole

theorem parseRate_showFraction {f : Nat × Nat} (fraction : IsFraction f) :
    parseRate (showFraction f) = some f := by
  unfold parseRate
  rw [splitOnce_showFraction]
  exact parseFraction_showFraction fraction

/-- Hook events, from one on. -/
def IsQuantum (q : Nat × Nat) : Prop := 1 ≤ q.1 ∧ q.1 ≤ q.2 ∧ q.2 < 2 ^ 32

def parseQuantum (v : Text) : Option (Nat × Nat) := do
  let (a, b) ← Text.splitOnce ['.', '.'] v
  let lo ← Text.parseUnsigned 32 a
  let hi ← Text.parseUnsigned 32 b
  if 1 ≤ lo ∧ lo ≤ hi then some (lo, hi) else none

/-- A range as it is printed. -/
def showRange (q : Nat × Nat) : Text := Text.decimal q.1 ++ ['.', '.'] ++ Text.decimal q.2

theorem isQuantum_of_parseQuantum {v : Text} {q : Nat × Nat} (parsed : parseQuantum v = some q) :
    IsQuantum q := by
  obtain ⟨parts, -, parsed⟩ := Option.bind_eq_some_iff.mp parsed
  obtain ⟨lo, -, parsed⟩ := Option.bind_eq_some_iff.mp parsed
  obtain ⟨hi, isHi, parsed⟩ := Option.bind_eq_some_iff.mp parsed
  split at parsed
  · rename_i range
    obtain rfl := Option.some.inj parsed
    exact ⟨range.1, range.2, Text.parseUnsigned_lt isHi⟩
  · cases parsed

theorem parseQuantum_showRange {q : Nat × Nat} (quantum : IsQuantum q) :
    parseQuantum (showRange q) = some q := by
  have split : Text.splitOnce ['.', '.'] (showRange q) =
      some (Text.decimal q.1, Text.decimal q.2) :=
    splitOnce_decimal q.1 ['.'] (Text.decimal q.2) (by decide)
  unfold parseQuantum
  rw [split]
  change (do
    let lo ← Text.parseUnsigned 32 (Text.decimal q.1)
    let hi ← Text.parseUnsigned 32 (Text.decimal q.2)
    if 1 ≤ lo ∧ lo ≤ hi then some (lo, hi) else none) = _
  rw [Text.parseUnsigned_decimal quantum.2.2,
    Text.parseUnsigned_decimal (quantum.2.1.trans_lt quantum.2.2)]
  exact if_pos ⟨quantum.1, quantum.2.1⟩

/-! ## Choices -/

def SCHED_RANDOM : Nat := 0

def SCHED_PCT : Nat := 1

def MAX_PCT_DEPTH : Nat := 16

def parseScheduler (s : Text) : Option Nat :=
  if s = "random".toList then some SCHED_RANDOM
  else if s = "pct".toList then some SCHED_PCT
  else none

def parsePctDepth (d : Nat) : Option Nat := if 1 ≤ d ∧ d ≤ MAX_PCT_DEPTH then some d else none

def parseOnOff (v : Text) : Option Bool :=
  if v = "on".toList ∨ v = "true".toList then some true
  else if v = "off".toList ∨ v = "false".toList then some false
  else none

end Settings

end Derp
