import Derp.Rewrite.Targets

/-!
# What is written reads back

The encoders and the decoder are two descriptions of the same words.  A branch
is encoded exactly when its target is in reach, the word reads back as that
branch, and every word that reads as a branch is what its encoder writes.
-/

namespace Derp

namespace Rewrite

/-- A branch that one side writes and the other reads. -/
inductive Branch
  | b (target : Nat)
  | bl (target : Nat)
  | bCond (cond target : Nat)
  | cbz (sf : Bool) (rt : Nat) (nonzero : Bool) (target : Nat)
  | tbz (rt bit : Nat) (nonzero : Bool) (target : Nat)
  | br (rn : Nat)
deriving DecidableEq, Repr

namespace Branch

/-- What the decoder calls it. -/
def toClass : Branch → Class
  | .b target => .b target
  | .bl target => .bl target
  | .bCond cond target => .bCond cond target
  | .cbz sf rt nonzero target => .cbz sf rt nonzero target
  | .tbz rt bit nonzero target => .tbz rt bit nonzero target
  | .br rn => .br rn

/-- What the stubs write for it. -/
def encode (pc : Nat) : Branch → Option Nat
  | .b target => Stub.b pc target
  | .bl target => Stub.bl pc target
  | .bCond cond target => Stub.bCond cond pc target
  | .cbz sf rt nonzero target => Stub.cbz sf rt nonzero pc target
  | .tbz rt bit nonzero target => Stub.tbz rt bit nonzero pc target
  | .br rn => some (Stub.br rn)

/-- The operands are addresses, registers, bits and conditions. -/
def Valid : Branch → Prop
  | .b target | .bl target => target < 2 ^ 64
  | .bCond cond target => cond < 14 ∧ target < 2 ^ 64
  | .cbz _ rt _ target => rt < 2 ^ 5 ∧ target < 2 ^ 64
  | .tbz rt bit _ target => rt < 2 ^ 5 ∧ bit < 2 ^ 6 ∧ target < 2 ^ 64
  | .br rn => rn < 2 ^ 5

/-- Its target, and the bits that the offset in words takes. -/
def aim : Branch → Option (Nat × Nat)
  | .b target | .bl target => some (target, 26)
  | .bCond _ target | .cbz _ _ _ target => some (target, 19)
  | .tbz _ _ _ target => some (target, 14)
  | .br _ => none

/-- The words whose class tells everything about them: an unconditional branch in its
own encoding, and a conditional one without the hint. -/
def Told (w : Nat) : Branch → Prop
  | .b _ => w &&& 0xFC000000 = 0x14000000
  | .bCond _ _ => w &&& 0x10 = 0
  | _ => True

end Branch

/-- The target is a number of words away that a signed field of that width holds. -/
def Reaches (bits pc target : Nat) : Prop :=
  ∃ words : Int, -2 ^ (bits - 1) ≤ words ∧ words < 2 ^ (bits - 1) ∧
    (target : Int) = (pc + words * 4) % 2 ^ 64

variable
  {pc target w bits imm rt bit cond rn : Nat}
  {sf nonzero : Bool}
  {branch : Branch}

theorem fits_iff_reaches (isAddress : target < 2 ^ 64)
    (isField : bits = 14 ∨ bits = 19 ∨ bits = 26) :
    fits (offset pc target) bits = true ↔ Reaches bits pc target := by
  have back : ((pc + offset pc target) % 2 ^ 64).toNat = target := add_offset isAddress
  constructor
  · intro isFit
    simp only [fits, decide_eq_true_eq] at isFit
    obtain ⟨whole, low, high⟩ := isFit
    refine ⟨offset pc target / 4, ?_, ?_, ?_⟩
    · obtain rfl | rfl | rfl := isField <;> omega
    · obtain rfl | rfl | rfl := isField <;> omega
    · rw [show offset pc target / 4 * 4 = offset pc target by omega]
      omega
  · rintro ⟨words, low, high, isTarget⟩
    have isOffset : offset pc target = words * 4 := by
      rw [offset_eq]
      obtain rfl | rfl | rfl := isField <;> split <;> omega
    simp only [fits, decide_eq_true_eq]
    rw [isOffset]
    obtain rfl | rfl | rfl := isField <;> omega

/-- The offset to the target of a field is what the field says. -/
theorem offset_rel (isField : bits = 14 ∨ bits = 19 ∨ bits = 26) :
    offset pc (rel pc imm bits) = sext imm bits * 4 := by
  rw [offset_eq]
  unfold rel sext
  obtain rfl | rfl | rfl := isField <;> split <;> split <;> omega

theorem fits_rel (isField : bits = 14 ∨ bits = 19 ∨ bits = 26) :
    fits (offset pc (rel pc imm bits)) bits = true := by
  rw [offset_rel isField]
  simp only [fits, decide_eq_true_eq]
  unfold sext
  obtain rfl | rfl | rfl := isField <;> split <;> omega

/-- The field of the offset to the target of a field is that field. -/
theorem field_rel (isField : bits = 14 ∨ bits = 19 ∨ bits = 26) (small : imm < 2 ^ bits) :
    asU32 (offset pc (rel pc imm bits) / 4) % 2 ^ bits = imm := by
  rw [offset_rel isField]
  unfold sext asU32
  obtain rfl | rfl | rfl := isField <;> split <;> omega

/-! ## Words that are written again -/

theorem field_eq {x k value : Nat} (shifted : x * 2 ^ k = value * 2 ^ k) : x = value :=
  Nat.eq_of_mul_eq_mul_right (by positivity) shifted

theorem b_rel (isWord : w < 2 ^ 32) (isBranch : w &&& 0xFC000000 = 0x14000000) :
    Stub.b pc (rel pc (w &&& 0x03FFFFFF) 26) = some w := by
  replace isBranch : w / 2 ^ 26 % 2 ^ 6 = 5 := field_eq ((and_FC000000 w).symm.trans isBranch)
  have small : w % 2 ^ 26 < 2 ^ 26 := Nat.mod_lt _ (by decide)
  have word : 0x14000000 ||| w % 2 ^ 26 = w := by
    refine (@or_field 5 _ 26 small).trans ?_
    omega
  unfold Stub.b
  rw [if_pos (fits_rel (by omega)), and_03FFFFFF, and_03FFFFFF, field_rel (by omega) small, word]

theorem bl_rel (isWord : w < 2 ^ 32) (isBranch : w &&& 0xFC000000 = 0x94000000) :
    Stub.bl pc (rel pc (w &&& 0x03FFFFFF) 26) = some w := by
  replace isBranch : w / 2 ^ 26 % 2 ^ 6 = 37 := field_eq ((and_FC000000 w).symm.trans isBranch)
  have small : w % 2 ^ 26 < 2 ^ 26 := Nat.mod_lt _ (by decide)
  have word : 0x14000000 ||| w % 2 ^ 26 ||| 0x80000000 = w := by
    rw [Nat.or_right_comm]
    refine (@or_field 37 _ 26 small).trans ?_
    omega
  unfold Stub.bl Stub.b
  rw [if_pos (fits_rel (by omega)), and_03FFFFFF, and_03FFFFFF, field_rel (by omega) small,
    Option.map_some, word]

theorem and_10 (w : Nat) : w &&& 0x10 = w / 2 ^ 4 % 2 ^ 1 * 2 ^ 4 := and_field w 1 4

theorem bCond_rel (isWord : w < 2 ^ 32) (isBranch : w &&& 0xFF000000 = 0x54000000)
    (plain : w &&& 0x10 = 0) :
    Stub.bCond (w &&& 0xF) pc (rel pc (w >>> 5 &&& 0x7FFFF) 19) = some w := by
  replace isBranch : w / 2 ^ 24 % 2 ^ 8 = 0x54 := field_eq ((and_FF000000 w).symm.trans isBranch)
  replace plain : w / 2 ^ 4 % 2 ^ 1 = 0 := @field_eq _ 4 0 ((and_10 w).symm.trans plain)
  rw [Nat.shiftRight_eq_div_pow, and_7FFFF, and_F]
  have small : w / 2 ^ 5 % 2 ^ 19 < 2 ^ 19 := Nat.mod_lt _ (by decide)
  have word : 0x54000000 ||| (w / 2 ^ 5 % 2 ^ 19) <<< 5 ||| w % 2 ^ 4 = w := by
    have isCond : w % 2 ^ 4 < 2 ^ 5 := by omega
    refine (word_19 0x54 small isCond).trans ?_
    omega
  unfold Stub.bCond
  rw [if_pos (fits_rel (by omega)), and_7FFFF, field_rel (by omega) small, word]

theorem toNat_decide_ne (bit : Nat) (isBit : bit < 2) : (decide (bit ≠ 0)).toNat = bit := by
  obtain rfl | rfl : bit = 0 ∨ bit = 1 := by omega
  · rfl
  · rfl

/-- The sense of a compare or test bit. -/
theorem toNat_sense (w : Nat) :
    (decide (w &&& 0x01000000 ≠ 0)).toNat = w / 2 ^ 24 % 2 ^ 1 := by
  rw [← toNat_decide_ne (w / 2 ^ 24 % 2 ^ 1) (Nat.mod_lt _ (by decide)), and_01000000]
  congr 1
  exact decide_eq_decide.mpr (by omega)

theorem cbz_rel (isWord : w < 2 ^ 32) (isBranch : w &&& 0x7E000000 = 0x34000000) :
    Stub.cbz (w >>> 31 ≠ 0) (w &&& 0x1F) (w &&& 0x01000000 ≠ 0) pc
      (rel pc (w >>> 5 &&& 0x7FFFF) 19) = some w := by
  replace isBranch : w / 2 ^ 25 % 2 ^ 6 = 26 := field_eq ((and_7E000000 w).symm.trans isBranch)
  have small : w / 2 ^ 5 % 2 ^ 19 < 2 ^ 19 := Nat.mod_lt _ (by decide)
  unfold Stub.cbz
  rw [if_pos (fits_rel (by omega)), Nat.shiftRight_eq_div_pow w 5, and_7FFFF, and_7FFFF,
    field_rel (by omega) small, and_1F, cbzWord_eq small (by omega), toNat_sense,
    toNat_decide_ne _ (by rw [Nat.shiftRight_eq_div_pow]; omega), Nat.shiftRight_eq_div_pow,
    Option.some_inj]
  omega

theorem tbz_rel (isWord : w < 2 ^ 32) (isBranch : w &&& 0x7E000000 = 0x36000000) :
    Stub.tbz (w &&& 0x1F) ((w >>> 31) <<< 5 ||| (w >>> 19 &&& 0x1F)) (w &&& 0x01000000 ≠ 0) pc
      (rel pc (w >>> 5 &&& 0x3FFF) 14) = some w := by
  replace isBranch : w / 2 ^ 25 % 2 ^ 6 = 27 := field_eq ((and_7E000000 w).symm.trans isBranch)
  have small : w / 2 ^ 5 % 2 ^ 14 < 2 ^ 14 := Nat.mod_lt _ (by decide)
  have isBit : (w >>> 31) <<< 5 ||| (w >>> 19 &&& 0x1F) =
      w / 2 ^ 31 * 2 ^ 5 + w / 2 ^ 19 % 2 ^ 5 := by
    rw [Nat.shiftLeft_eq, Nat.shiftRight_eq_div_pow, Nat.shiftRight_eq_div_pow, and_1F,
      or_field 5 (by omega)]
  unfold Stub.tbz
  rw [if_pos (fits_rel (by omega)), Nat.shiftRight_eq_div_pow w 5, and_3FFF, and_3FFF,
    field_rel (by omega) small, isBit, and_1F w, tbzWord_eq small (by omega) (by omega),
    toNat_sense, Option.some_inj]
  clear isBit
  omega

theorem br_rn (isWord : w < 2 ^ 32) (isBranch : w &&& 0xFFFFFC1F = 0xD61F0000) :
    Stub.br (w >>> 5 &&& 0x1F) = w := by
  rw [and_FFFFFC1F] at isBranch
  have top : w / 2 ^ 10 % 2 ^ 22 = 0x3587C0 := by omega
  have low : w % 2 ^ 5 = 0 := by omega
  unfold Stub.br
  rw [Nat.shiftRight_eq_div_pow, and_1F, Nat.shiftLeft_eq]
  refine (@or_field 0xD61F _ 16 (by omega)).trans ?_
  clear isBranch
  omega

/-- Whatever branch it is, the word tells it, and is written for it. -/
def Class.WrittenAs (w pc : Nat) (c : Class) : Prop :=
  ∀ branch : Branch, c = branch.toClass → branch.Told w → branch.encode pc = some w

theorem Class.WrittenAs.ite {p : Prop} [Decidable p] {c d : Class} (left : p → c.WrittenAs w pc)
    (right : ¬ p → d.WrittenAs w pc) : (if p then c else d).WrittenAs w pc := by
  split
  · exact left ‹_›
  · exact right ‹_›

/-- Only the branches that go somewhere are written. -/
theorem Class.Plain.writtenAs {c : Class} (plain : c.Plain) : c.WrittenAs w pc := by
  rintro branch rfl -
  cases branch with
  | br rn => cases plain.register
  | _ => cases plain.leadsTo

theorem writtenAs_decode (isWord : w < 2 ^ 32) (pc : Nat) : (decode w pc).WrittenAs w pc := by
  have plain : ∀ {c : Class}, c.Plain → c.WrittenAs w pc := fun isPlain => isPlain.writtenAs
  unfold decode
  refine .ite (fun _ => plain ⟨rfl, rfl⟩) fun _ => .ite (fun isB => ?_) fun notB =>
    .ite (fun isBl => ?_) fun _ => .ite (fun isBCond => .ite (fun _ => ?_) fun _ => ?_) fun _ =>
    .ite (fun isCbz => ?_) fun _ => .ite (fun isTbz => ?_) fun _ => .ite (fun isBr => ?_) fun _ =>
    .ite (fun _ => plain ⟨rfl, rfl⟩) fun _ => .ite (fun _ => plain ⟨rfl, rfl⟩) fun _ =>
    .ite (fun _ => plain ⟨rfl, rfl⟩) fun _ => .ite (fun _ => plain (plain_decodeMem w)) fun _ =>
    .ite (fun _ => plain ⟨rfl, rfl⟩) fun _ => .ite (fun _ => plain ⟨rfl, rfl⟩) fun _ =>
      plain ⟨rfl, rfl⟩
  · rintro (_ | _ | _ | _ | _ | _) same -
    all_goals cases same
    exact b_rel isWord isB
  · rintro (_ | _ | _ | _ | _ | _) same -
    all_goals cases same
    exact bl_rel isWord isBl
  · -- A conditional branch that is always taken tells no condition
    rintro (_ | _ | _ | _ | _ | _) same told
    all_goals cases same
    exact absurd told notB
  · rintro (_ | _ | _ | _ | _ | _) same told
    all_goals cases same
    exact bCond_rel isWord isBCond told
  · rintro (_ | _ | _ | _ | _ | _) same -
    all_goals cases same
    exact cbz_rel isWord isCbz
  · rintro (_ | _ | _ | _ | _ | _) same -
    all_goals cases same
    exact tbz_rel isWord isTbz
  · rintro (_ | _ | _ | _ | _ | _) same -
    all_goals cases same
    exact congrArg some (br_rn isWord isBr)

/-! ## Branches that are written -/

theorem decode_encode (valid : branch.Valid) (encoded : branch.encode pc = some w) :
    decode w pc = branch.toClass := by
  cases branch with
  | b target => exact Stub.decode_b valid encoded
  | bl target => exact Stub.decode_bl valid encoded
  | bCond cond target => exact Stub.decode_bCond valid.2 valid.1 encoded
  | cbz sf rt nonzero target => exact Stub.decode_cbz valid.2 valid.1 encoded
  | tbz rt bit nonzero target => exact Stub.decode_tbz valid.2.2 valid.1 valid.2.1 encoded
  | br rn =>
      obtain rfl := Option.some.inj encoded
      exact decode_brWord valid

/-- A branch is refused exactly when its target is out of reach. -/
theorem encode_eq_none (valid : branch.Valid) :
    branch.encode pc = none ↔
      ∃ target bits, branch.aim = some (target, bits) ∧ ¬ Reaches bits pc target := by
  have refused : ∀ {target bits word : Nat}, target < 2 ^ 64 → bits = 14 ∨ bits = 19 ∨ bits = 26 →
      ((if fits (offset pc target) bits then some word else none) = none ↔
        ¬ Reaches bits pc target) := by
    intro target bits word isAddress isField
    rw [← fits_iff_reaches isAddress isField, ite_eq_right_iff]
    exact ⟨fun none isFit => Option.some_ne_none _ (none isFit), fun far isFit => absurd isFit far⟩
  have alone : ∀ {t b : Nat}, (∃ target bits, some (t, b) = some (target, bits) ∧
      ¬ Reaches bits pc target) ↔ ¬ Reaches b pc t := by
    intro t b
    constructor
    · rintro ⟨target, bits, same, far⟩
      cases same
      exact far
    · exact fun far => ⟨t, b, rfl, far⟩
  cases branch with
  | b target => exact (refused valid (by omega)).trans alone.symm
  | bl target => exact Option.map_eq_none_iff.trans ((refused valid (by omega)).trans alone.symm)
  | bCond cond target => exact (refused valid.2 (by omega)).trans alone.symm
  | cbz sf rt nonzero target => exact (refused valid.2 (by omega)).trans alone.symm
  | tbz rt bit nonzero target => exact (refused valid.2.2 (by omega)).trans alone.symm
  | br rn =>
      constructor
      · intro none
        cases none
      · rintro ⟨target, bits, same, -⟩
        cases same

/-! ## Conditions -/

/-- The flags a condition looks at. -/
structure Flags where
  n : Bool
  z : Bool
  c : Bool
  v : Bool
deriving DecidableEq, Repr

/-- Whether a condition holds: an odd one is the even one in front of it, denied, but for
the last, which always holds. -/
def Flags.holds (flags : Flags) (cond : Nat) : Bool :=
  let base := match cond / 2 with
    | 0 => flags.z
    | 1 => flags.c
    | 2 => flags.n
    | 3 => flags.v
    | 4 => flags.c && !flags.z
    | 5 => flags.n == flags.v
    | 6 => flags.n == flags.v && !flags.z
    | _ => true
  if cond % 2 = 1 ∧ cond ≠ 15 then !base else base

theorem invertCond_eq (isCond : cond < 14) :
    invertCond cond / 2 = cond / 2 ∧ invertCond cond % 2 = 1 - cond % 2 ∧ invertCond cond < 14 := by
  revert isCond cond
  decide

theorem holds_invertCond (flags : Flags) (isCond : cond < 14) :
    flags.holds (invertCond cond) = !flags.holds cond := by
  obtain ⟨same, other, isCond'⟩ := invertCond_eq isCond
  unfold Flags.holds
  rw [same, other]
  obtain isEven | isOdd := Nat.mod_two_eq_zero_or_one cond
  · rw [isEven, if_pos ⟨rfl, by omega⟩, if_neg (by omega)]
  · rw [isOdd, if_neg (by omega), if_pos ⟨rfl, by omega⟩, Bool.not_not]

/-! ## Addresses out of reach of a branch -/

/-- What an `adrp`, or an `add` of a number, does to the registers.  The last number is the
stack pointer in an `add`, and nothing in an `adrp`. -/
def execFar (w pc : Nat) (registers : Nat → Nat) : Nat → Nat :=
  let rd := w &&& 0x1F
  let rn := w >>> 5 &&& 0x1F
  if w >>> 24 &&& 0x9F = 0x90 then
    if rd = SP then registers else Function.update registers rd (pageOf w pc)
  else if w >>> 22 = 0x244 then
    Function.update registers rd ((registers rn + addendOf w) % 2 ^ 64)
  else registers

theorem add_far (isAddress : target < 2 ^ 64) {rd : Nat} (isRegister : rd < 2 ^ 5)
    (isOther : rn < 2 ^ 5) (encoded : Stub.adrp rd pc target = some w) :
    pageOf w pc + addendOf (Stub.addImm rn rd (target &&& 0xFFF)) = target := by
  rw [pageOf_adrp isAddress isRegister encoded, (addendOf_addImm isOther rd isRegister target).1]
  omega

theorem execFar_adrp (isAddress : target < 2 ^ 64) {rd : Nat} (isRegister : rd < SP)
    (encoded : Stub.adrp rd pc target = some w) (registers : Nat → Nat) :
    execFar w pc registers = Function.update registers rd (target / 2 ^ 12 * 2 ^ 12) := by
  have isField : rd < 2 ^ 5 := Nat.lt_succ_of_lt isRegister
  have isPage := pageOf_adrp isAddress isField encoded
  obtain ⟨low, field, isLow, small, -, isWord⟩ := adrp_eq isField encoded
  have isRd : w &&& 0x1F = rd := by
    rw [and_1F, isWord]
    omega
  have isTop : w >>> 24 &&& 0x9F = 0x90 := by
    have top : w >>> 24 = 0x90 + low * 2 ^ 5 := by
      rw [Nat.shiftRight_eq_div_pow, isWord]
      omega
    rw [top]
    obtain rfl | rfl | rfl | rfl : low = 0 ∨ low = 1 ∨ low = 2 ∨ low = 3 := by omega
    all_goals rfl
  unfold execFar
  rw [isTop, isRd, if_pos rfl, if_neg (Nat.ne_of_lt isRegister), isPage]

theorem execFar_addImm {rd : Nat} (isRegister : rd < 2 ^ 5) (isOther : rn < 2 ^ 5)
    (target pc : Nat) (registers : Nat → Nat) :
    execFar (Stub.addImm rn rd (target &&& 0xFFF)) pc registers =
      Function.update registers rn ((registers rd + target % 2 ^ 12) % 2 ^ 64) := by
  have isAddend := (addendOf_addImm isOther rd isRegister target).1
  have isWord := addImm_eq isOther rd isRegister target
  generalize Stub.addImm rn rd (target &&& 0xFFF) = w at isAddend isWord
  have isRn : w &&& 0x1F = rn := by
    rw [and_1F, isWord]
    omega
  have isRd : w >>> 5 &&& 0x1F = rd := by
    rw [and_1F, Nat.shiftRight_eq_div_pow, isWord]
    omega
  have isTop : w >>> 24 = 0x91 := by
    rw [Nat.shiftRight_eq_div_pow, isWord]
    omega
  have isAdd : w >>> 22 = 0x244 := by
    rw [Nat.shiftRight_eq_div_pow, isWord]
    omega
  unfold execFar
  rw [isTop, isAdd, isRn, isRd, isAddend, if_neg (by decide), if_pos rfl]

/-- The two words leave the target in the register of the second. -/
theorem execFar_target (isAddress : target < 2 ^ 64) {rd : Nat} (isRegister : rd < SP)
    (isOther : rn < 2 ^ 5) (encoded : Stub.adrp rd pc target = some w) (registers : Nat → Nat) :
    execFar (Stub.addImm rn rd (target &&& 0xFFF)) (pc + 4) (execFar w pc registers) rn =
      target := by
  rw [execFar_addImm (Nat.lt_succ_of_lt isRegister) isOther,
    execFar_adrp isAddress isRegister encoded, Function.update_self, Function.update_self]
  omega

/-- What the two sides agree on at an address. -/
structure Agreement (pc : Nat) : Prop where
  reads : ∀ {branch : Branch} {w}, branch.Valid → branch.encode pc = some w →
    decode w pc = branch.toClass
  refuses : ∀ {branch : Branch}, branch.Valid →
    (branch.encode pc = none ↔
      ∃ target bits, branch.aim = some (target, bits) ∧ ¬ Reaches bits pc target)
  writes : ∀ {w} {branch : Branch}, w < 2 ^ 32 → decode w pc = branch.toClass → branch.Told w →
    branch.encode pc = some w
  negates : ∀ (flags : Flags) {cond}, cond < 14 →
    flags.holds (invertCond cond) = !flags.holds cond
  adds : ∀ {rd rn target w}, rd < 2 ^ 5 → rn < 2 ^ 5 → target < 2 ^ 64 →
    Stub.adrp rd pc target = some w →
      pageOf w pc + addendOf (Stub.addImm rn rd (target &&& 0xFFF)) = target
  computes : ∀ {rd rn target w}, rd < SP → rn < 2 ^ 5 → target < 2 ^ 64 →
    Stub.adrp rd pc target = some w → ∀ registers,
      execFar (Stub.addImm rn rd (target &&& 0xFFF)) (pc + 4) (execFar w pc registers) rn = target

/-- Encoder and decoder agree at every address. -/
theorem agreement (pc : Nat) : Agreement pc where
  reads := decode_encode
  refuses := encode_eq_none
  writes := fun isWord isBranch told => writtenAs_decode isWord pc _ isBranch told
  negates := fun flags _ isCond => holds_invertCond flags isCond
  adds := fun isRegister isOther isAddress encoded => add_far isAddress isRegister isOther encoded
  computes := fun isRegister isOther isAddress encoded =>
    execFar_target isAddress isRegister isOther encoded

end Rewrite

end Derp
