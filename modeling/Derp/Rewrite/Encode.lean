import Derp.Rewrite.Decode
import Mathlib.Algebra.Order.Ring.Nat
import Mathlib.Tactic.Positivity

/-!
# The words the trampolines are made of

The encoders the rewriter writes its branches with.  A branch is encoded where
its offset fits, and what is encoded reads back as the branch that was asked
for.
-/

namespace Derp

namespace Rewrite

def STP_X0_X1_PRE : Nat := 0xA9BF07E0

def LDP_X0_X1_POST : Nat := 0xA8C107E0

def STR_X30_PRE : Nat := 0xF81F0FFE

def LDR_X30_POST : Nat := 0xF84107FE

def SUB_X1_X1_1 : Nat := 0xD1000421

def BLR_X0 : Nat := 0xD63F0000

def BLR_X1 : Nat := 0xD63F0020

def RET : Nat := 0xD65F03C0

def B_RANGE : Nat := 128 <<< 20

/-- The low 32 bits of a signed number. -/
def asU32 (x : Int) : Nat := (x % 2 ^ 32).toNat

/-- The signed distance between two addresses. -/
def offset (pc target : Nat) : Int := Int.bmod (target - pc) (2 ^ 64)

/-- Whether an offset in words fits the field. -/
def fits (off : Int) (bits : Nat) : Bool :=
  off % 4 = 0 ∧ -2 ^ (bits + 1) ≤ off ∧ off < 2 ^ (bits + 1)

namespace Stub

def b (pc target : Nat) : Option Nat :=
  let off := offset pc target
  if fits off 26 then some (0x14000000 ||| (asU32 (off / 4) &&& 0x03FFFFFF)) else none

def bl (pc target : Nat) : Option Nat := (b pc target).map (· ||| 0x80000000)

def bCond (cond pc target : Nat) : Option Nat :=
  let off := offset pc target
  if fits off 19 then
    some (0x54000000 ||| ((asU32 (off / 4) &&& 0x7FFFF) <<< 5) ||| cond)
  else none

def cbz (sf : Bool) (rt : Nat) (nonzero : Bool) (pc target : Nat) : Option Nat :=
  let off := offset pc target
  if fits off 19 then
    some (0x34000000 ||| (sf.toNat <<< 31) ||| (nonzero.toNat <<< 24) |||
      ((asU32 (off / 4) &&& 0x7FFFF) <<< 5) ||| rt)
  else none

def tbz (rt bit : Nat) (nonzero : Bool) (pc target : Nat) : Option Nat :=
  let off := offset pc target
  if fits off 14 then
    some (0x36000000 ||| ((bit >>> 5) <<< 31) ||| (nonzero.toNat <<< 24) |||
      ((bit &&& 31) <<< 19) ||| ((asU32 (off / 4) &&& 0x3FFF) <<< 5) ||| rt)
  else none

def br (rn : Nat) : Nat := 0xD61F0000 ||| (rn <<< 5)

/-- The page of the target, within 4 GB. -/
def adrp (rd pc target : Nat) : Option Nat :=
  let pages : Int := (target >>> 12 : Nat) - (pc >>> 12 : Nat)
  if -2 ^ 20 ≤ pages ∧ pages < 2 ^ 20 then
    let imm := asU32 pages
    some (0x90000000 ||| ((imm &&& 3) <<< 29) ||| (((imm >>> 2) &&& 0x7FFFF) <<< 5) ||| rd)
  else none

def addImm (rd rn imm : Nat) : Nat := 0x91000000 ||| (imm <<< 10) ||| (rn <<< 5) ||| rd

/-- How many 16-bit chunks of zeros a value ends in. -/
def zeroChunks (value : Nat) : Nat :=
  if value = 0 ∨ value % 2 ^ 16 ≠ 0 then 0
  else if value % 2 ^ 32 ≠ 0 then 1
  else if value % 2 ^ 48 ≠ 0 then 2
  else 3

/-- For a value with one chunk that is not zero. -/
def movzX (rd value : Nat) : Option Nat :=
  let shift := zeroChunks value
  let imm := value >>> (shift * 16)
  if imm ≤ 0xFFFF then some (0xD2800000 ||| (shift <<< 21) ||| (imm <<< 5) ||| rd) else none

def ldrXImm (rt rn imm : Nat) : Nat := 0xF9400000 ||| ((imm / 8) <<< 10) ||| (rn <<< 5) ||| rt

def strXImm (rt rn imm : Nat) : Nat := 0xF9000000 ||| ((imm / 8) <<< 10) ||| (rn <<< 5) ||| rt

end Stub

/-! ## Fields of a word -/

/-- A contiguous mask picks a field of the word. -/
theorem and_field (w j k : Nat) : w &&& (2 ^ j - 1) * 2 ^ k = w / 2 ^ k % 2 ^ j * 2 ^ k := by
  apply Nat.eq_of_testBit_eq
  intro i
  rw [Nat.testBit_and, Nat.testBit_mul_two_pow, Nat.testBit_mul_two_pow,
    Nat.testBit_two_pow_sub_one, Nat.testBit_mod_two_pow, Nat.testBit_div_two_pow]
  by_cases high : k ≤ i
  · simp only [high, decide_true, Bool.true_and, Nat.sub_add_cancel]
    exact Bool.and_comm ..
  · simp [high]

theorem and_low (w j : Nat) : w &&& 2 ^ j - 1 = w % 2 ^ j := Nat.and_two_pow_sub_one_eq_mod w j

theorem or_field {a b : Nat} (k : Nat) (low : b < 2 ^ k) : a * 2 ^ k ||| b = a * 2 ^ k + b := by
  rw [← Nat.shiftLeft_eq, ← Nat.shiftLeft_add_eq_or_of_lt low]

theorem and_FFFFFFE0 (w : Nat) : w &&& 0xFFFFFFE0 = w / 2 ^ 5 % 2 ^ 27 * 2 ^ 5 :=
  and_field w 27 5

theorem and_FC000000 (w : Nat) : w &&& 0xFC000000 = w / 2 ^ 26 % 2 ^ 6 * 2 ^ 26 :=
  and_field w 6 26

theorem and_FF000000 (w : Nat) : w &&& 0xFF000000 = w / 2 ^ 24 % 2 ^ 8 * 2 ^ 24 :=
  and_field w 8 24

theorem and_7E000000 (w : Nat) : w &&& 0x7E000000 = w / 2 ^ 25 % 2 ^ 6 * 2 ^ 25 :=
  and_field w 6 25

theorem and_01000000 (w : Nat) : w &&& 0x01000000 = w / 2 ^ 24 % 2 ^ 1 * 2 ^ 24 :=
  and_field w 1 24

theorem and_03FFFFFF (w : Nat) : w &&& 0x03FFFFFF = w % 2 ^ 26 := and_low w 26

theorem and_7FFFF (w : Nat) : w &&& 0x7FFFF = w % 2 ^ 19 := and_low w 19

theorem and_3FFF (w : Nat) : w &&& 0x3FFF = w % 2 ^ 14 := and_low w 14

theorem and_1F (w : Nat) : w &&& 0x1F = w % 2 ^ 5 := and_low w 5

theorem and_F (w : Nat) : w &&& 0xF = w % 2 ^ 4 := and_low w 4

/-- The register numbers are cut out of the rest of the word. -/
theorem and_FFFFFC1F (w : Nat) :
    w &&& 0xFFFFFC1F = w / 2 ^ 10 % 2 ^ 22 * 2 ^ 10 + w % 2 ^ 5 := by
  have parts : (0xFFFFFC1F : Nat) = (2 ^ 22 - 1) * 2 ^ 10 ||| 2 ^ 5 - 1 := by decide
  rw [parts, Nat.and_or_distrib_left, and_field, and_low]
  exact or_field 10 (by omega)

/-! ## Branches read back -/

variable
  {pc target rt bit cond imm : Nat}
  {bits : Nat}
  {nonzero sf : Bool}

theorem offset_eq (pc target : Nat) :
    offset pc target =
      if ((target : Int) - pc) % 2 ^ 64 < 2 ^ 63 then ((target : Int) - pc) % 2 ^ 64
      else ((target : Int) - pc) % 2 ^ 64 - 2 ^ 64 := rfl

theorem add_offset (isAddress : target < 2 ^ 64) :
    ((pc + offset pc target) % 2 ^ 64).toNat = target := by
  rw [offset_eq]
  split <;> omega

/-- An offset that fits is what its field says. -/
theorem sext_field {off : Int} (isField : bits = 14 ∨ bits = 19 ∨ bits = 26)
    (isFit : fits off bits = true) :
    sext (asU32 (off / 4) % 2 ^ bits) bits * 4 = off := by
  simp only [fits, decide_eq_true_eq] at isFit
  obtain ⟨whole, low, high⟩ := isFit
  unfold sext asU32
  obtain rfl | rfl | rfl := isField
  · rw [Nat.mod_mod]
    split <;> omega
  · rw [Nat.mod_mod]
    split <;> omega
  · rw [Nat.mod_mod]
    split <;> omega

/-- The field of an offset that fits leads back to the target. -/
theorem rel_field (isAddress : target < 2 ^ 64)
    (isField : bits = 14 ∨ bits = 19 ∨ bits = 26)
    (isFit : fits (offset pc target) bits = true) :
    rel pc (asU32 (offset pc target / 4) % 2 ^ bits) bits = target := by
  unfold rel
  rw [sext_field isField isFit, add_offset isAddress]

theorem decode_bWord (small : imm < 2 ^ 26) :
    decode (0x14000000 ||| imm) pc = .b (rel pc imm 26) := by
  have word : 0x14000000 ||| imm = 5 * 2 ^ 26 + imm := or_field (a := 5) 26 small
  rw [word]
  unfold decode
  rw [and_FFFFFFE0, and_FC000000, if_neg (by omega), if_pos (by omega),
    and_03FFFFFF, show (5 * 2 ^ 26 + imm) % 2 ^ 26 = imm by omega]

theorem decode_blWord (small : imm < 2 ^ 26) :
    decode (0x94000000 ||| imm) pc = .bl (rel pc imm 26) := by
  have word : 0x94000000 ||| imm = 37 * 2 ^ 26 + imm := or_field (a := 37) 26 small
  rw [word]
  unfold decode
  rw [and_FFFFFFE0, and_FC000000, if_neg (by omega), if_neg (by omega), if_pos (by omega),
    and_03FFFFFF, show (37 * 2 ^ 26 + imm) % 2 ^ 26 = imm by omega]

/-- A word whose top byte is set, with an offset and a register behind it. -/
theorem word_19 (top : Nat) (small : imm < 2 ^ 19) (isRegister : rt < 2 ^ 5) :
    top * 2 ^ 24 ||| imm <<< 5 ||| rt = top * 2 ^ 24 + imm * 2 ^ 5 + rt := by
  rw [Nat.shiftLeft_eq, or_field 24 (by omega),
    show top * 2 ^ 24 + imm * 2 ^ 5 = (top * 2 ^ 19 + imm) * 2 ^ 5 by omega,
    or_field 5 isRegister]

theorem decode_bCondWord (small : imm < 2 ^ 19) (isCond : cond < 14) :
    decode (0x54000000 ||| imm <<< 5 ||| cond) pc = .bCond cond (rel pc imm 19) := by
  have word : 0x54000000 ||| imm <<< 5 ||| cond = 0x54 * 2 ^ 24 + imm * 2 ^ 5 + cond :=
    word_19 0x54 small (by omega)
  rw [word]
  unfold decode
  rw [and_FFFFFFE0, and_FC000000, and_FF000000, if_neg (by omega), if_neg (by omega),
    if_neg (by omega), if_pos (by omega), and_F, Nat.shiftRight_eq_div_pow, and_7FFFF,
    show (0x54 * 2 ^ 24 + imm * 2 ^ 5 + cond) % 2 ^ 4 = cond by omega,
    show (0x54 * 2 ^ 24 + imm * 2 ^ 5 + cond) / 2 ^ 5 % 2 ^ 19 = imm by omega,
    if_neg (by omega)]

theorem cbzWord_eq (small : imm < 2 ^ 19) (isRegister : rt < 2 ^ 5) :
    0x34000000 ||| sf.toNat <<< 31 ||| nonzero.toNat <<< 24 ||| imm <<< 5 ||| rt =
      (0x34 + sf.toNat * 2 ^ 7 + nonzero.toNat) * 2 ^ 24 + imm * 2 ^ 5 + rt := by
  rw [← word_19 _ small isRegister]
  cases sf <;> cases nonzero <;> rfl

theorem decode_cbzWord (small : imm < 2 ^ 19) (isRegister : rt < 2 ^ 5) :
    decode (0x34000000 ||| sf.toNat <<< 31 ||| nonzero.toNat <<< 24 ||| imm <<< 5 ||| rt) pc =
      .cbz sf rt nonzero (rel pc imm 19) := by
  have isSf : sf.toNat < 2 := Bool.toNat_lt sf
  have isNonzero : nonzero.toNat < 2 := Bool.toNat_lt nonzero
  rw [cbzWord_eq small isRegister]
  generalize isWord :
    (0x34 + sf.toNat * 2 ^ 7 + nonzero.toNat) * 2 ^ 24 + imm * 2 ^ 5 + rt = w
  have top : w / 2 ^ 31 = sf.toNat := by omega
  have tag : w / 2 ^ 25 % 2 ^ 6 = 26 := by omega
  have sense : w / 2 ^ 24 % 2 ^ 1 = nonzero.toNat := by omega
  unfold decode
  rw [and_FFFFFFE0, and_FC000000, and_FF000000, and_7E000000, if_neg (by omega),
    if_neg (by omega), if_neg (by omega), if_neg (by omega), tag, if_pos (by decide), and_01000000,
    and_1F, Nat.shiftRight_eq_div_pow, Nat.shiftRight_eq_div_pow, and_7FFFF, top, sense,
    show w % 2 ^ 5 = rt by omega, show w / 2 ^ 5 % 2 ^ 19 = imm by omega]
  cases sf <;> cases nonzero <;> rfl

theorem tbzWord_eq (small : imm < 2 ^ 14) (isRegister : rt < 2 ^ 5) (isBit : bit < 2 ^ 6) :
    0x36000000 ||| (bit >>> 5) <<< 31 ||| nonzero.toNat <<< 24 |||
      (bit &&& 31) <<< 19 ||| imm <<< 5 ||| rt =
      (0x36 + bit / 2 ^ 5 * 2 ^ 7 + nonzero.toNat) * 2 ^ 24 +
        (bit % 2 ^ 5 * 2 ^ 14 + imm) * 2 ^ 5 + rt := by
  rw [← word_19 _ (by omega) isRegister, and_1F bit, Nat.shiftRight_eq_div_pow]
  have field : (bit % 2 ^ 5) <<< 19 ||| imm <<< 5 = (bit % 2 ^ 5 * 2 ^ 14 + imm) <<< 5 := by
    rw [Nat.shiftLeft_eq, Nat.shiftLeft_eq, Nat.shiftLeft_eq, or_field 19 (by omega)]
    omega
  have high : 0x36000000 ||| (bit / 2 ^ 5) <<< 31 ||| nonzero.toNat <<< 24 =
      (0x36 + bit / 2 ^ 5 * 2 ^ 7 + nonzero.toNat) * 2 ^ 24 := by
    obtain low | up : bit / 2 ^ 5 = 0 ∨ bit / 2 ^ 5 = 1 := by omega
    · rw [low]
      cases nonzero <;> rfl
    · rw [up]
      cases nonzero <;> rfl
  rw [Nat.or_assoc (0x36000000 ||| _ ||| _), field, high]

theorem decode_tbzWord (small : imm < 2 ^ 14) (isRegister : rt < 2 ^ 5) (isBit : bit < 2 ^ 6) :
    decode (0x36000000 ||| (bit >>> 5) <<< 31 ||| nonzero.toNat <<< 24 |||
      (bit &&& 31) <<< 19 ||| imm <<< 5 ||| rt) pc =
      .tbz rt bit nonzero (rel pc imm 14) := by
  have isNonzero : nonzero.toNat < 2 := Bool.toNat_lt nonzero
  rw [tbzWord_eq small isRegister isBit]
  generalize isWord : (0x36 + bit / 2 ^ 5 * 2 ^ 7 + nonzero.toNat) * 2 ^ 24 +
    (bit % 2 ^ 5 * 2 ^ 14 + imm) * 2 ^ 5 + rt = w
  have top : w / 2 ^ 31 = bit / 2 ^ 5 := by omega
  have tag : w / 2 ^ 25 % 2 ^ 6 = 27 := by omega
  have sense : w / 2 ^ 24 % 2 ^ 1 = nonzero.toNat := by omega
  unfold decode
  rw [and_FFFFFFE0, and_FC000000, and_FF000000, and_7E000000, if_neg (by omega),
    if_neg (by omega), if_neg (by omega), if_neg (by omega), tag, if_neg (by decide),
    if_pos (by decide), and_01000000, and_1F, Nat.shiftRight_eq_div_pow,
    Nat.shiftRight_eq_div_pow, Nat.shiftRight_eq_div_pow, and_3FFF, and_1F, top, sense,
    show w % 2 ^ 5 = rt by omega, show w / 2 ^ 5 % 2 ^ 14 = imm by omega,
    show w / 2 ^ 19 % 2 ^ 5 = bit % 2 ^ 5 by omega, Nat.shiftLeft_eq,
    or_field 5 (by omega), show bit / 2 ^ 5 * 2 ^ 5 + bit % 2 ^ 5 = bit by omega]
  cases nonzero <;> rfl

theorem decode_brWord {rn : Nat} (isRegister : rn < 2 ^ 5) :
    decode (Stub.br rn) pc = .br rn := by
  have word : Stub.br rn = 0xD61F0000 + rn * 2 ^ 5 := by
    unfold Stub.br
    rw [Nat.shiftLeft_eq]
    exact or_field (a := 0xD61F) 16 (by omega)
  rw [word]
  unfold decode
  rw [and_FFFFFFE0, and_FC000000, and_FF000000, and_7E000000, and_FFFFFC1F, if_neg (by omega),
    if_neg (by omega), if_neg (by omega), if_neg (by omega), if_neg (by omega),
    if_neg (by omega), if_pos (by omega), Nat.shiftRight_eq_div_pow, and_1F,
    show (0xD61F0000 + rn * 2 ^ 5) / 2 ^ 5 % 2 ^ 5 = rn by omega]

theorem leadsTo_decodeMem (w : Nat) : (decodeMem w).leadsTo = none := by
  unfold decodeMem
  dsimp only
  repeat' split
  all_goals rfl

/-- A class that leads, if anywhere, as far as a field says. -/
def Class.FieldTarget (pc : Nat) (c : Class) : Prop :=
  ∀ target, c.leadsTo = some target →
    ∃ imm bits, (bits = 14 ∨ bits = 19 ∨ bits = 26) ∧ target = rel pc imm bits

theorem Class.FieldTarget.ite {p : Prop} [Decidable p] {c d : Class}
    (left : c.FieldTarget pc) (right : d.FieldTarget pc) :
    (if p then c else d).FieldTarget pc := by
  split
  · exact left
  · exact right

theorem fieldTarget_decode (w pc : Nat) : (decode w pc).FieldTarget pc := by
  have none_ : ∀ {c : Class}, c.leadsTo = none → c.FieldTarget pc := by
    intro c noTarget target isTarget
    rw [noTarget] at isTarget
    cases isTarget
  have some_ : ∀ {c : Class} (imm bits : Nat), (bits = 14 ∨ bits = 19 ∨ bits = 26) →
      c.leadsTo = some (rel pc imm bits) → c.FieldTarget pc := by
    intro c imm bits isField hasTarget target isTarget
    rw [hasTarget, Option.some_inj] at isTarget
    exact ⟨imm, bits, isField, isTarget.symm⟩
  unfold decode
  refine .ite (none_ rfl) (.ite (some_ _ 26 (by omega) rfl) (.ite (some_ _ 26 (by omega) rfl)
    (.ite (.ite (some_ _ 19 (by omega) rfl) (some_ _ 19 (by omega) rfl))
      (.ite (some_ _ 19 (by omega) rfl) (.ite (some_ _ 14 (by omega) rfl)
        (.ite (none_ rfl) (.ite (none_ rfl) (.ite (none_ rfl) (.ite (none_ rfl)
          (.ite (none_ (leadsTo_decodeMem w)) (.ite (none_ rfl) (.ite (none_ rfl)
            (none_ rfl)))))))))))))

/-- A branch leads 128 MB away at most, around the end of the addresses perhaps. -/
theorem near_of_rel (isField : bits = 14 ∨ bits = 19 ∨ bits = 26)
    (isTarget : target = rel pc imm bits) :
    offset pc target % 4 = 0 ∧ -2 ^ 27 ≤ offset pc target ∧ offset pc target < 2 ^ 27 := by
  rw [offset_eq]
  unfold rel sext at isTarget
  obtain rfl | rfl | rfl := isField <;> split at isTarget <;> split <;> omega

namespace Stub

variable {w : Nat}

theorem b_eq_some (encoded : b pc target = some w) :
    fits (offset pc target) 26 = true ∧
      w = 0x14000000 ||| asU32 (offset pc target / 4) % 2 ^ 26 := by
  unfold b at encoded
  by_cases isFit : fits (offset pc target) 26 = true
  · rw [if_pos isFit, and_03FFFFFF, Option.some_inj] at encoded
    exact ⟨isFit, encoded.symm⟩
  · rw [if_neg isFit] at encoded
    cases encoded

theorem decode_b (isAddress : target < 2 ^ 64) (encoded : b pc target = some w) :
    decode w pc = .b target := by
  obtain ⟨isFit, rfl⟩ := b_eq_some encoded
  rw [decode_bWord (Nat.mod_lt _ (by positivity)), rel_field isAddress (by omega) isFit]

theorem decode_bl (isAddress : target < 2 ^ 64) (encoded : bl pc target = some w) :
    decode w pc = .bl target := by
  obtain ⟨jump, isJump, rfl⟩ := Option.map_eq_some_iff.mp encoded
  obtain ⟨isFit, rfl⟩ := b_eq_some isJump
  have call : ∀ imm, 0x14000000 ||| imm ||| 0x80000000 = 0x94000000 ||| imm := by
    intro imm
    rw [Nat.or_right_comm]
    rfl
  rw [call, decode_blWord (Nat.mod_lt _ (by positivity)), rel_field isAddress (by omega) isFit]

theorem decode_bCond (isAddress : target < 2 ^ 64) (isCond : cond < 14)
    (encoded : bCond cond pc target = some w) :
    decode w pc = .bCond cond target := by
  unfold bCond at encoded
  by_cases isFit : fits (offset pc target) 19 = true
  · rw [if_pos isFit, and_7FFFF, Option.some_inj] at encoded
    rw [← encoded, decode_bCondWord (Nat.mod_lt _ (by positivity)) isCond,
      rel_field isAddress (by omega) isFit]
  · rw [if_neg isFit] at encoded
    cases encoded

theorem decode_cbz (isAddress : target < 2 ^ 64) (isRegister : rt < 2 ^ 5)
    (encoded : cbz sf rt nonzero pc target = some w) :
    decode w pc = .cbz sf rt nonzero target := by
  unfold cbz at encoded
  by_cases isFit : fits (offset pc target) 19 = true
  · rw [if_pos isFit, and_7FFFF, Option.some_inj] at encoded
    rw [← encoded, decode_cbzWord (Nat.mod_lt _ (by positivity)) isRegister,
      rel_field isAddress (by omega) isFit]
  · rw [if_neg isFit] at encoded
    cases encoded

theorem decode_tbz (isAddress : target < 2 ^ 64) (isRegister : rt < 2 ^ 5) (isBit : bit < 2 ^ 6)
    (encoded : tbz rt bit nonzero pc target = some w) :
    decode w pc = .tbz rt bit nonzero target := by
  unfold tbz at encoded
  by_cases isFit : fits (offset pc target) 14 = true
  · rw [if_pos isFit, and_3FFF, Option.some_inj] at encoded
    rw [← encoded, decode_tbzWord (Nat.mod_lt _ (by positivity)) isRegister isBit,
      rel_field isAddress (by omega) isFit]
  · rw [if_neg isFit] at encoded
    cases encoded

end Stub

end Rewrite

end Derp
