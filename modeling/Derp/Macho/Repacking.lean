import Derp.Macho.Reading
import Derp.Macho.Writer

/-!
# What becomes of the load commands

The commands of the image are those of the file, each changed in its own way:
the signature's is left out, `__LINKEDIT`'s gets the new ranges and the new
segment's in front, the offsets of the others move.  Repacking gives exactly
these commands, and panics exactly when a sum passes its width.
-/

namespace Derp

namespace Macho

open Outcome Slices Checked

section Pages

/-- The least multiple of the page from the number on. -/
def pageUp (v : Nat) : Nat := (v + (PAGE - 1)) / PAGE * PAGE

theorem returns_roundUp {v : Nat} : (roundUp v PAGE).Returns ↔ v + PAGE < 2 ^ 64 := by
  unfold roundUp
  rw [returns_bind, returns_add]
  refine and_iff_left fun sum isSum => returns_bind.mpr ⟨?_, fun _ _ => returns_ok _⟩
  obtain ⟨-, rfl⟩ := add_eq_ok.mp isSum
  exact returns_sub.mpr (by unfold PAGE; omega)

theorem and_pageMask (w : Nat) : w &&& (2 ^ 64 - 0x4000) = w / 0x4000 % 2 ^ 50 * 0x4000 :=
  Rewrite.and_field w 50 14

theorem roundUp_of_lt {v : Nat} (fits : v + PAGE < 2 ^ 64) : roundUp v PAGE = ok (pageUp v) := by
  have least : (v + PAGE - 1) / PAGE = (v + (PAGE - 1)) / PAGE := by
    rw [Nat.add_sub_assoc (by decide)]
  have small : (v + PAGE - 1) / PAGE < 2 ^ 50 := by
    unfold PAGE at fits ⊢
    omega
  unfold roundUp pageUp
  rw [add_of_lt fits, ok_bind, sub_of_le (by unfold PAGE; omega), ok_bind]
  unfold PAGE at least small ⊢
  rw [and_pageMask, Nat.mod_eq_of_lt small, least]

theorem le_pageUp (v : Nat) : v ≤ pageUp v := by
  unfold pageUp PAGE
  omega

theorem pageUp_lt (v : Nat) : pageUp v < v + PAGE := by
  unfold pageUp PAGE
  omega

theorem pageUp_mod (v : Nat) : pageUp v % PAGE = 0 := Nat.mul_mod_left _ _

theorem pageUp_pos {v : Nat} : 0 < pageUp v ↔ 0 < v := by
  unfold pageUp PAGE
  omega

end Pages

section Fields

variable {b : List UInt8} {off delta : Nat}

theorem put_of_le {part : List UInt8} (fits : off + part.length ≤ b.length) :
    put b off part = ok (overwrite b off part) := assert_of fits _

@[simp] theorem returns_put {part : List UInt8} :
    (put b off part).Returns ↔ off + part.length ≤ b.length := returns_assert

/-- The bytes with one file offset moved. -/
def bumped (delta : Nat) (b : List UInt8) (off : Nat) : List UInt8 :=
  if (u32? b off).getD 0 ≠ 0 then
    overwrite b off (toLittleEndian 4 ((u32? b off).getD 0 + delta % 2 ^ 32))
  else b

/-- The moved offset is below `2^32`. -/
def BumpFits (delta : Nat) (b : List UInt8) (off : Nat) : Prop :=
  (u32? b off).getD 0 ≠ 0 → (u32? b off).getD 0 + delta % 2 ^ 32 < 2 ^ 32

theorem inside_of_getD_ne (present : (u32? b off).getD 0 ≠ 0) : off + 4 ≤ b.length := by
  cases isNumber : u32? b off with
  | none =>
      rw [isNumber] at present
      exact absurd rfl present
  | some v => exact le_length_of_u32? isNumber

theorem returns_bump : (bump delta b off).Returns ↔ BumpFits delta b off := by
  unfold bump BumpFits
  dsimp only
  split
  next present =>
    rw [returns_bind, returns_add, forall_prop_of_true present]
    refine and_iff_left fun moved _ => returns_put.mpr ?_
    rw [length_toLittleEndian]
    exact inside_of_getD_ne present
  next absent => exact iff_of_true (returns_ok _) fun present => absurd present absent

theorem bump_of_fits (fits : BumpFits delta b off) :
    bump delta b off = ok (bumped delta b off) := by
  unfold bump bumped
  dsimp only
  split
  next present =>
    rw [add_of_lt (fits present), ok_bind, put_of_le]
    rw [length_toLittleEndian]
    exact inside_of_getD_ne present
  next => rfl

theorem length_bumped : (bumped delta b off).length = b.length := by
  unfold bumped
  split
  next present =>
    refine length_overwrite ?_
    rw [length_toLittleEndian]
    exact inside_of_getD_ne present
  next => rfl

theorem slice?_bumped_of_apart {start stop : Nat} (apart : stop ≤ off ∨ off + 4 ≤ start) :
    slice? (bumped delta b off) start stop = slice? b start stop := by
  unfold bumped
  split
  next present =>
    refine slice?_overwrite_of_apart ?_ (by rwa [length_toLittleEndian])
    rw [length_toLittleEndian]
    exact inside_of_getD_ne present
  next => rfl

theorem u32?_overwrite {v : Nat} (inside : off + 4 ≤ b.length) (small : v < 2 ^ 32) :
    u32? (overwrite b off (toLittleEndian 4 v)) off = some v := by
  have written := @slice?_overwrite _ b (toLittleEndian 4 v) off
    (by rwa [length_toLittleEndian])
  rw [length_toLittleEndian] at written
  unfold u32?
  rw [written, Option.map_some, ofLittleEndian_toLittleEndian (by norm_num; omega)]

theorem u64?_overwrite {v : Nat} (inside : off + 8 ≤ b.length) (small : v < 2 ^ 64) :
    u64? (overwrite b off (toLittleEndian 8 v)) off = some v := by
  have written := @slice?_overwrite _ b (toLittleEndian 8 v) off
    (by rwa [length_toLittleEndian])
  rw [length_toLittleEndian] at written
  unfold u64?
  rw [written, Option.map_some, ofLittleEndian_toLittleEndian (by norm_num; omega)]

/-- A moved offset, which stays zero if it was. -/
def moved (delta v : Nat) : Nat := if v = 0 then 0 else v + delta % 2 ^ 32

theorem u32?_bumped (fits : BumpFits delta b off) :
    u32? (bumped delta b off) off = (u32? b off).map (moved delta) := by
  unfold bumped
  split
  next present =>
    cases isNumber : u32? b off with
    | none =>
        rw [isNumber] at present
        exact absurd rfl present
    | some v =>
        have := fits present
        rw [isNumber, Option.getD_some] at present this
        rw [Option.getD_some, u32?_overwrite (le_length_of_u32? isNumber) this, Option.map_some,
          moved, if_neg present]
  next absent =>
    cases isNumber : u32? b off with
    | none => rfl
    | some v =>
        rw [isNumber, Option.getD_some, not_not] at absent
        rw [Option.map_some, moved, if_pos absent, absent]

/-- Offsets whose fields do not overlap. -/
def Separate (offs : List Nat) : Prop := offs.Pairwise fun a b => a + 4 ≤ b

theorem u32?_bumped_of_apart {off' : Nat} (apart : off' + 4 ≤ off ∨ off + 4 ≤ off') :
    u32? (bumped delta b off) off' = u32? b off' := by
  unfold u32?
  rw [slice?_bumped_of_apart apart]

theorem bumpFits_bumped {off' : Nat} (apart : off + 4 ≤ off') :
    BumpFits delta (bumped delta b off) off' ↔ BumpFits delta b off' := by
  unfold BumpFits
  rw [u32?_bumped_of_apart (Or.inr apart)]

variable {offs : List Nat}

theorem returns_foldlM_bump (separate : Separate offs) :
    (offs.foldlM (bump delta) b).Returns ↔ ∀ off ∈ offs, BumpFits delta b off := by
  induction offs generalizing b with
  | nil => exact iff_of_true (returns_ok _) (by simp)
  | cons off offs inductionHypothesis =>
      obtain ⟨first, rest⟩ := List.pairwise_cons.mp separate
      rw [returns_foldlM_cons, returns_bump, List.forall_mem_cons]
      refine and_congr_right fun fits => ?_
      rw [bump_of_fits fits]
      simp only [ok.injEq, forall_eq']
      rw [inductionHypothesis rest]
      exact forall₂_congr fun off' later => bumpFits_bumped (first off' later)

theorem foldlM_bump_of_fits (separate : Separate offs)
    (fits : ∀ off ∈ offs, BumpFits delta b off) :
    offs.foldlM (bump delta) b = ok (offs.foldl (bumped delta) b) := by
  induction offs generalizing b with
  | nil => rfl
  | cons off offs inductionHypothesis =>
      obtain ⟨first, rest⟩ := List.pairwise_cons.mp separate
      obtain ⟨here, later⟩ := List.forall_mem_cons.mp fits
      rw [List.foldlM_cons, bump_of_fits here, ok_bind, List.foldl_cons]
      exact inductionHypothesis rest fun off' present =>
        (bumpFits_bumped (first off' present)).mpr (later off' present)

theorem length_foldl_bumped : (offs.foldl (bumped delta) b).length = b.length := by
  induction offs generalizing b with
  | nil => rfl
  | cons off offs inductionHypothesis =>
      rw [List.foldl_cons, inductionHypothesis, length_bumped]

theorem slice?_foldl_bumped_of_apart {start stop : Nat}
    (apart : ∀ off ∈ offs, stop ≤ off ∨ off + 4 ≤ start) :
    slice? (offs.foldl (bumped delta) b) start stop = slice? b start stop := by
  induction offs generalizing b with
  | nil => rfl
  | cons off offs inductionHypothesis =>
      obtain ⟨here, later⟩ := List.forall_mem_cons.mp apart
      rw [List.foldl_cons, inductionHypothesis later, slice?_bumped_of_apart here]

theorem u32?_foldl_bumped (separate : Separate offs)
    (fits : ∀ off ∈ offs, BumpFits delta b off) {off : Nat} (present : off ∈ offs) :
    u32? (offs.foldl (bumped delta) b) off = (u32? b off).map (moved delta) := by
  induction offs generalizing b with
  | nil => cases present
  | cons off' offs inductionHypothesis =>
      obtain ⟨first, rest⟩ := List.pairwise_cons.mp separate
      obtain ⟨here, later⟩ := List.forall_mem_cons.mp fits
      rw [List.foldl_cons]
      rcases List.mem_cons.mp present with rfl | present
      · unfold u32?
        rw [slice?_foldl_bumped_of_apart fun off' later => Or.inl (first off' later)]
        exact u32?_bumped here
      · rw [inductionHypothesis rest (fun off'' later' =>
          (bumpFits_bumped (first off'' later')).mpr (later off'' later')) present,
          u32?_bumped_of_apart (Or.inr (first off present))]

theorem separate_linkeditFields (cmd : Nat) : Separate (linkeditFields cmd) := by
  unfold linkeditFields Separate
  split_ifs <;> decide

theorem late_linkeditFields {cmd : Nat} (isField : off ∈ linkeditFields cmd) : 8 ≤ off := by
  unfold linkeditFields at isField
  split_ifs at isField <;> simp at isField <;> omega

/-- A command's bytes with its offsets into `__LINKEDIT` moved. -/
def shifted (cmd : Nat) (b : List UInt8) (delta : Nat) : List UInt8 :=
  (linkeditFields cmd).foldl (bumped delta) b

/-- Every offset into `__LINKEDIT` stays below `2^32` when moved. -/
def ShiftFits (cmd : Nat) (b : List UInt8) (delta : Nat) : Prop :=
  ∀ off ∈ linkeditFields cmd, BumpFits delta b off

theorem returns_shift {cmd : Nat} :
    (shiftLinkeditOffsets cmd b delta).Returns ↔ ShiftFits cmd b delta :=
  returns_foldlM_bump (separate_linkeditFields cmd)

theorem shift_of_fits {cmd : Nat} (fits : ShiftFits cmd b delta) :
    shiftLinkeditOffsets cmd b delta = ok (shifted cmd b delta) :=
  foldlM_bump_of_fits (separate_linkeditFields cmd) fits

end Fields

section Images

variable (m : MachO) (p : Plan)

/-- The command of the new segment. -/
def stubCommand : Command :=
  segmentCommand STUB_TEXT_SEGMENT p.textAddr p.inserted p.linkedit.fileoff
    (VM_PROT_READ ||| VM_PROT_EXECUTE)

/-- The bytes of `__LINKEDIT`'s command with the new ranges. -/
def relocated (b : List UInt8) : List UInt8 :=
  let b := overwrite b 24 (toLittleEndian 8 (p.textAddr + p.inserted))
  let b := overwrite b 32 (toLittleEndian 8 (pageUp p.newLinkeditSize))
  let b := overwrite b 40 (toLittleEndian 8 (p.linkedit.fileoff + p.inserted))
  overwrite b 48 (toLittleEndian 8 p.newLinkeditSize)

/-- A command of the image: the file's command it comes from, unless it is the new
segment's, and its rank if it may go. -/
structure Image where
  source : Option Command
  command : Command
  rank : Option Nat
deriving DecidableEq, Repr

/-- What a command becomes. -/
def image (numbered : Command × Nat) : List Image :=
  if numbered.1.cmd = LC_CODE_SIGNATURE then []
  else if numbered.2 = p.linkedit.cmdIndex then
    (if 0 < p.inserted then [{ source := none, command := stubCommand p, rank := none }]
      else []) ++
      [{ source := numbered.1
         command := { cmd := numbered.1.cmd, bytes := relocated p numbered.1.bytes }
         rank := none }]
  else
    [{ source := numbered.1
       command :=
        { cmd := numbered.1.cmd, bytes := shifted numbered.1.cmd numbered.1.bytes p.inserted }
       rank := m.droppable numbered.1 }]

def images : List Image := m.commands.zipIdx.flatMap (image m p)

/-- The new ranges of `__LINKEDIT` end below `2^64`. -/
structure RelocationFits : Prop where
  vmaddr : p.textAddr + p.inserted < 2 ^ 64
  vmsize : p.newLinkeditSize + PAGE < 2 ^ 64
  fileoff : p.linkedit.fileoff + p.inserted < 2 ^ 64

/-- The sums for one command stay below their width. -/
def ImageFits (numbered : Command × Nat) : Prop :=
  numbered.1.cmd ≠ LC_CODE_SIGNATURE →
    if numbered.2 = p.linkedit.cmdIndex then RelocationFits p
    else ShiftFits numbered.1.cmd numbered.1.bytes p.inserted

/-- Index and rank of what may go, the first command being of number `n`. -/
def rankedFrom (n : Nat) (images : List Image) : List (Nat × Nat) :=
  (images.zipIdx n).filterMap fun x => x.1.rank.map fun rank => (x.2, rank)

theorem rankedFrom_append (n : Nat) (first second : List Image) :
    rankedFrom n (first ++ second) =
      rankedFrom n first ++ rankedFrom (n + first.length) second := by
  unfold rankedFrom
  rw [List.zipIdx_append, List.filterMap_append]

variable {m p}

theorem length_overwrite8 {b : List UInt8} {off : Nat} (v : Nat) (inside : off + 8 ≤ b.length) :
    (overwrite b off (toLittleEndian 8 v)).length = b.length :=
  length_overwrite (by rwa [length_toLittleEndian])

theorem put8_of_le {b : List UInt8} {off : Nat} (v : Nat) (inside : off + 8 ≤ b.length) :
    put b off (toLittleEndian 8 v) = ok (overwrite b off (toLittleEndian 8 v)) :=
  put_of_le (by rwa [length_toLittleEndian])

/-- Each range written to `__LINKEDIT`'s command leaves its length. -/
theorem lengths_relocated {b : List UInt8} (inside : SEGMENT_CMD_SIZE - 16 ≤ b.length) :
    let first := overwrite b 24 (toLittleEndian 8 (p.textAddr + p.inserted))
    let second := overwrite first 32 (toLittleEndian 8 (pageUp p.newLinkeditSize))
    let third := overwrite second 40 (toLittleEndian 8 (p.linkedit.fileoff + p.inserted))
    first.length = b.length ∧ second.length = b.length ∧ third.length = b.length ∧
      (relocated p b).length = b.length := by
  unfold SEGMENT_CMD_SIZE at inside
  intro first second third
  have isFirst : first.length = b.length := length_overwrite8 _ (by omega)
  have isSecond : second.length = b.length :=
    (length_overwrite8 _ (by rw [isFirst]; omega)).trans isFirst
  have isThird : third.length = b.length :=
    (length_overwrite8 _ (by rw [isSecond]; omega)).trans isSecond
  exact ⟨isFirst, isSecond, isThird,
    (length_overwrite8 _ (by rw [isThird]; omega)).trans isThird⟩

theorem repackLinkedit_of_fits {c : Command} (inside : SEGMENT_CMD_SIZE - 16 ≤ c.bytes.length)
    (fits : RelocationFits p) : MachO.repackLinkedit p c = ok (relocated p c.bytes) := by
  obtain ⟨first, second, third, -⟩ := lengths_relocated (p := p) inside
  unfold SEGMENT_CMD_SIZE at inside
  unfold MachO.repackLinkedit
  rw [add_of_lt fits.vmaddr, ok_bind, put8_of_le _ (by omega), ok_bind,
    roundUp_of_lt fits.vmsize, ok_bind, put8_of_le _ (by omega), ok_bind,
    add_of_lt fits.fileoff, ok_bind, put8_of_le _ (by omega), ok_bind,
    put8_of_le _ (by omega)]
  rfl

theorem returns_repackLinkedit {c : Command} (inside : SEGMENT_CMD_SIZE - 16 ≤ c.bytes.length) :
    (MachO.repackLinkedit p c).Returns ↔ RelocationFits p := by
  constructor
  · intro returns
    obtain ⟨first, second, -, -⟩ := lengths_relocated (p := p) inside
    unfold SEGMENT_CMD_SIZE at inside
    unfold MachO.repackLinkedit at returns
    obtain ⟨vmaddr, returns⟩ := returns_bind.mp returns
    have vmaddr := returns_add.mp vmaddr
    have returns := returns _ (add_of_lt vmaddr)
    rw [put8_of_le _ (by omega), ok_bind, returns_bind, returns_roundUp] at returns
    obtain ⟨vmsize, returns⟩ := returns
    have returns := returns _ (roundUp_of_lt vmsize)
    rw [put8_of_le _ (by omega), ok_bind, returns_bind, returns_add] at returns
    exact ⟨vmaddr, vmsize, returns.1⟩
  · intro fits
    rw [repackLinkedit_of_fits inside fits]
    exact returns_ok _

/-- The command of `__LINKEDIT` is long enough for its ranges. -/
def Holds (p : Plan) (numbered : Command × Nat) : Prop :=
  numbered.2 = p.linkedit.cmdIndex → SEGMENT_CMD_SIZE - 16 ≤ numbered.1.bytes.length

theorem repackCommand_of_fits {numbered : Command × Nat} (r : Repacked) (holds : Holds p numbered)
    (fits : ImageFits p numbered) :
    m.repackCommand p r numbered =
      ok { commands := r.commands ++ (image m p numbered).map (·.command)
           optional := r.optional ++ rankedFrom r.commands.length (image m p numbered) } := by
  obtain ⟨c, i⟩ := numbered
  unfold MachO.repackCommand image
  dsimp only
  by_cases isSignature : c.cmd = LC_CODE_SIGNATURE
  · rw [if_pos isSignature, if_pos isSignature]
    simp [rankedFrom]
  · have fits := fits isSignature
    dsimp only at fits
    rw [if_neg isSignature, if_neg isSignature]
    by_cases isLinkedit : i = p.linkedit.cmdIndex
    · rw [if_pos isLinkedit] at fits
      rw [if_pos isLinkedit, if_pos isLinkedit, repackLinkedit_of_fits (holds isLinkedit) fits,
        ok_bind]
      by_cases isInserted : 0 < p.inserted
      · rw [if_pos isInserted, if_pos isInserted]
        simp [rankedFrom, stubCommand]
      · rw [if_neg isInserted, if_neg isInserted]
        simp [rankedFrom]
    · rw [if_neg isLinkedit] at fits
      rw [if_neg isLinkedit, if_neg isLinkedit, shift_of_fits fits, ok_bind]
      cases isRank : m.droppable c with
      | none => simp [rankedFrom]
      | some rank => simp [rankedFrom]

theorem returns_repackCommand {numbered : Command × Nat} (r : Repacked)
    (holds : Holds p numbered) :
    (m.repackCommand p r numbered).Returns ↔ ImageFits p numbered := by
  constructor
  · obtain ⟨c, i⟩ := numbered
    intro returns isSignature
    unfold MachO.repackCommand at returns
    dsimp only at returns isSignature ⊢
    rw [if_neg isSignature] at returns
    by_cases isLinkedit : i = p.linkedit.cmdIndex
    · rw [if_pos isLinkedit] at returns ⊢
      exact (returns_repackLinkedit (holds isLinkedit)).mp (returns_bind.mp returns).1
    · rw [if_neg isLinkedit] at returns ⊢
      exact returns_shift.mp (returns_bind.mp returns).1
  · intro fits
    rw [repackCommand_of_fits r holds fits]
    exact returns_ok _

theorem foldlM_repackCommand_of_fits {items : List (Command × Nat)} (r : Repacked)
    (holds : ∀ x ∈ items, Holds p x) (fits : ∀ x ∈ items, ImageFits p x) :
    items.foldlM (m.repackCommand p) r =
      ok { commands := r.commands ++ (items.flatMap (image m p)).map (·.command)
           optional := r.optional ++
             rankedFrom r.commands.length (items.flatMap (image m p)) } := by
  induction items generalizing r with
  | nil => simp [rankedFrom]
  | cons x items inductionHypothesis =>
      obtain ⟨holdsHere, holdsLater⟩ := List.forall_mem_cons.mp holds
      obtain ⟨here, later⟩ := List.forall_mem_cons.mp fits
      rw [List.foldlM_cons, repackCommand_of_fits r holdsHere here, ok_bind,
        inductionHypothesis _ holdsLater later, List.flatMap_cons, rankedFrom_append]
      simp only [List.map_append, List.append_assoc, List.length_append, List.length_map]

theorem returns_foldlM_repackCommand {items : List (Command × Nat)} (r : Repacked)
    (holds : ∀ x ∈ items, Holds p x) :
    (items.foldlM (m.repackCommand p) r).Returns ↔ ∀ x ∈ items, ImageFits p x := by
  induction items generalizing r with
  | nil => exact iff_of_true (returns_ok _) (by simp)
  | cons x items inductionHypothesis =>
      obtain ⟨holdsHere, holdsLater⟩ := List.forall_mem_cons.mp holds
      rw [returns_foldlM_cons, returns_repackCommand r holdsHere, List.forall_mem_cons]
      refine and_congr_right fun fits => ?_
      rw [repackCommand_of_fits r holdsHere fits]
      simp only [ok.injEq, forall_eq']
      exact inductionHypothesis _ holdsLater

/-- Repacking gives what the commands become, and what of it may go. -/
theorem repack_of_fits (holds : ∀ x ∈ m.commands.zipIdx, Holds p x)
    (fits : ∀ x ∈ m.commands.zipIdx, ImageFits p x) :
    m.repack p = ok { commands := (images m p).map (·.command)
                      optional := rankedFrom 0 (images m p) } := by
  unfold MachO.repack images
  rw [foldlM_repackCommand_of_fits {} holds fits]
  rfl

theorem returns_repack (holds : ∀ x ∈ m.commands.zipIdx, Holds p x) :
    (m.repack p).Returns ↔ ∀ x ∈ m.commands.zipIdx, ImageFits p x :=
  returns_foldlM_repackCommand {} holds

end Images

end Macho

end Derp
