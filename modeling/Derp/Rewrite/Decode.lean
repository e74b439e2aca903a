import Mathlib.Data.Nat.Bitwise
import Mathlib.Data.Int.Basic

/-!
# What the rewriter tells of an instruction word

Only the classes that are hooked, or that decide what may be hooked, are told
apart; every other word is `other` and stays as it is.  Words are 32 bits and
addresses 64 bits wide.
-/

namespace Derp

namespace Rewrite

/-- The class of an instruction word. -/
inductive Class
  | b (target : Nat)
  | bl (target : Nat)
  | bCond (cond target : Nat)
  /-- `cbz` or `cbnz` -/
  | cbz (sf : Bool) (rt : Nat) (nonzero : Bool) (target : Nat)
  /-- `tbz` or `tbnz` -/
  | tbz (rt bit : Nat) (nonzero : Bool) (target : Nat)
  | br (rn : Nat)
  | blr (rn : Nat)
  | ret
  /-- A read of the CPU's counter register -/
  | counter (rt : Nat)
  /-- A load or store that can be displaced and executed elsewhere -/
  | mem (base : Nat)
  /-- Opens an exclusive span -/
  | exclusiveLoad
  /-- Closes an exclusive span -/
  | exclusiveStore
  /-- The function hands out a stack address -/
  | stackAddr
  | svc
  | other
deriving DecidableEq, Repr

/-- Where a branch inside a function leads. -/
def Class.target : Class → Option Nat
  | .b target | .bCond _ target | .cbz _ _ _ target | .tbz _ _ _ target => some target
  | _ => none

/-- Where a branch leads that tells in its word. -/
def Class.leadsTo : Class → Option Nat
  | .b target | .bl target | .bCond _ target | .cbz _ _ _ target | .tbz _ _ _ target => some target
  | _ => none

def SP : Nat := 31

def FP : Nat := 29

/-- The signed number in the low bits. -/
def sext (v bits : Nat) : Int :=
  if v % 2 ^ bits < 2 ^ (bits - 1) then v % 2 ^ bits else v % 2 ^ bits - 2 ^ bits

/-- The target of a branch, its offset in words. -/
def rel (pc imm bits : Nat) : Nat := ((pc + sext imm bits * 4) % 2 ^ 64).toNat

def decodeMem (w : Nat) : Class :=
  let base := w >>> 5 &&& 0x1F
  -- Literal loads are relative to the pc
  if w &&& 0x3B000000 = 0x18000000 then .other
  else if w &&& 0x3F000000 = 0x08000000 then
    let o2 := w &&& 0x00800000 ≠ 0
    let l := w &&& 0x00400000 ≠ 0
    let o1 := w &&& 0x00200000 ≠ 0
    if ¬ o2 then
      -- `casp`; everything else is exclusive
      if w >>> 31 = 0 ∧ o1 then .mem base
      else if l then .exclusiveLoad
      else .exclusiveStore
    else .mem base
  else if w &&& 0xBF000000 = 0x0C000000 then .mem base
  else if w &&& 0x3B000000 = 0x39000000 then
    if w &&& 0xFFC00000 = 0xF9800000 then .other -- prfm
    else .mem base
  else if w &&& 0x3B000000 = 0x38000000 then
    let op21 := w &&& 0x00200000 ≠ 0
    let op10 := w >>> 10 &&& 3
    if ¬ op21 then
      if op10 = 2 then .other -- unprivileged
      else if w &&& 0xFFE00C00 = 0xF8800000 then .other -- prfum
      else .mem base
    else if op10 = 2 then
      if w &&& 0xFFE00C00 = 0xF8A00800 then .other -- prfm
      else .mem base
    else if op10 = 0 then .mem base
    else .other -- pointer authentication
  else if w &&& 0x3A000000 = 0x28000000 then .mem base
  else .other

def decode (w pc : Nat) : Class :=
  if w &&& 0xFFFFFFE0 = 0xD53BE040 ∨ w &&& 0xFFFFFFE0 = 0xD53BE020 then
    .counter (w &&& 0x1F)
  else if w &&& 0xFC000000 = 0x14000000 then .b (rel pc (w &&& 0x03FFFFFF) 26)
  else if w &&& 0xFC000000 = 0x94000000 then .bl (rel pc (w &&& 0x03FFFFFF) 26)
  else if w &&& 0xFF000000 = 0x54000000 then
    let cond := w &&& 0xF
    let target := rel pc (w >>> 5 &&& 0x7FFFF) 19
    if 0b1110 ≤ cond then .b target else .bCond cond target
  else if w &&& 0x7E000000 = 0x34000000 then
    .cbz (w >>> 31 ≠ 0) (w &&& 0x1F) (w &&& 0x01000000 ≠ 0)
      (rel pc (w >>> 5 &&& 0x7FFFF) 19)
  else if w &&& 0x7E000000 = 0x36000000 then
    .tbz (w &&& 0x1F) ((w >>> 31) <<< 5 ||| (w >>> 19 &&& 0x1F)) (w &&& 0x01000000 ≠ 0)
      (rel pc (w >>> 5 &&& 0x3FFF) 14)
  else if w &&& 0xFFFFFC1F = 0xD61F0000 then .br (w >>> 5 &&& 0x1F)
  else if w &&& 0xFFFFFC1F = 0xD63F0000 then .blr (w >>> 5 &&& 0x1F)
  else if w &&& 0xFFFFFC1F = 0xD65F0000 then .ret
  else if w &&& 0xFFE0001F = 0xD4000001 then .svc
  else if w &&& 0x0A000000 = 0x08000000 then decodeMem w
  else
    let rd := w &&& 0x1F
    let rn := w >>> 5 &&& 0x1F
    let addSubImm64 := w &&& 0x1F800000 = 0x11000000 ∧ w >>> 31 ≠ 0
    if addSubImm64 ∧ rd ≠ SP ∧ (rn = SP ∨ rn = FP) ∧ ¬ (rn = SP ∧ rd = FP) then
      .stackAddr
    else if w &&& 0x1FE003E0 = 0x0B2003E0 ∧ w >>> 31 ≠ 0 ∧ rd ≠ SP then .stackAddr
    else .other

/-- The condition with its sense flipped. -/
def invertCond (cond : Nat) : Nat := cond ^^^ 1

end Rewrite

end Derp
