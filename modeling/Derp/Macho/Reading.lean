import Derp.Macho.Commands

/-!
# When reading panics

The functions that look things up in a parsed file add up numbers the file
chose.  Each of them returns exactly when these sums stay below their width.
-/

namespace Derp

namespace Macho

open Outcome Slices Checked

section Addresses

/-- The segment an address is in, as numbers without a width tell. -/
def holderIn (segments : List Segment) (addr : Nat) : Option Segment :=
  segments.find? fun s => 0 < s.filesize ∧ s.vmaddr ≤ addr ∧ addr < s.vmaddr + s.vmsize

/-- The file offset of an address, as numbers without a width tell. -/
def spotIn (segments : List Segment) (addr : Nat) : Option Nat :=
  (holderIn segments addr).bind fun s =>
    if addr - s.vmaddr < s.filesize then some (s.fileoff + (addr - s.vmaddr)) else none

/-- The segment the address is in ends below `2^64`, and so does the file offset
if there is one. -/
def AddrFits (segments : List Segment) (addr : Nat) : Prop :=
  ∀ s, holderIn segments addr = some s → s.vmaddr + s.vmsize < 2 ^ 64 ∧
    (addr - s.vmaddr < s.filesize → s.fileoff + (addr - s.vmaddr) < 2 ^ 64)

variable {segments : List Segment} {addr : Nat} (isAddr : addr < 2 ^ 64)

theorem holderIn_cons (s : Segment) :
    holderIn (s :: segments) addr =
      if 0 < s.filesize ∧ s.vmaddr ≤ addr ∧ addr < s.vmaddr + s.vmsize then some s
      else holderIn segments addr := by
  unfold holderIn
  rw [List.find?_cons]
  split <;> simp_all

theorem holderIn_eq_some {s : Segment} (isHolder : holderIn segments addr = some s) :
    s ∈ segments ∧ 0 < s.filesize ∧ s.vmaddr ≤ addr ∧ addr < s.vmaddr + s.vmsize :=
  ⟨List.mem_of_find?_eq_some isHolder, by simpa using List.find?_some isHolder⟩

include isAddr in
/-- Looking for the segment gives it, unless it does not end below `2^64`. -/
theorem findM?_containsAddr :
    (segments.findM? fun s => if 0 < s.filesize then s.containsAddr addr else ok false) =
      if ∀ s, holderIn segments addr = some s → s.vmaddr + s.vmsize < 2 ^ 64 then
        ok (holderIn segments addr)
      else (.panic : Outcome Error (Option Segment)) := by
  classical
  induction segments with
  | nil => rfl
  | cons s segments inductionHypothesis =>
      rw [List.findM?]
      by_cases inside : 0 < s.filesize ∧ s.vmaddr ≤ addr ∧ addr < s.vmaddr + s.vmsize
      · have holder : holderIn (s :: segments) addr = some s := by
          rw [holderIn_cons, if_pos inside]
        rw [holder, if_pos inside.1]
        unfold Segment.containsAddr
        rw [if_neg (not_lt.mpr inside.2.1)]
        by_cases bounded : s.vmaddr + s.vmsize < 2 ^ 64
        · rw [add_of_lt bounded, ok_bind, ok_bind, decide_eq_true inside.2.2, if_pos]
          · rfl
          · rintro _ ⟨⟩
            exact bounded
        · rw [if_neg fun all => bounded (all s rfl), add, assert, if_neg bounded]
          rfl
      · have holder : holderIn (s :: segments) addr = holderIn segments addr := by
          rw [holderIn_cons, if_neg inside]
        have missed : (if 0 < s.filesize then s.containsAddr addr else ok false) =
            (ok false : Outcome Error Bool) := by
          unfold Segment.containsAddr
          split_ifs
          · rfl
          · rw [add_of_lt (by omega), ok_bind, decide_eq_false (by omega)]
          · rfl
        rw [holder, missed, ok_bind, inductionHypothesis]

variable {m : MachO}

include isAddr in
/-- Looking an address up gives its file offset, if the sums fit. -/
theorem addrToOffset_of_fits (fits : AddrFits m.segments addr) :
    m.addrToOffset addr = ok (spotIn m.segments addr) := by
  classical
  unfold MachO.addrToOffset MachO.segmentForAddr spotIn
  rw [findM?_containsAddr isAddr, if_pos fun s isHolder => (fits s isHolder).1, ok_bind]
  cases isHolder : holderIn m.segments addr with
  | none => rfl
  | some s =>
      have inside := (holderIn_eq_some isHolder).2
      dsimp only [Option.bind]
      rw [sub_of_le inside.2.1, ok_bind]
      by_cases isBacked : addr - s.vmaddr < s.filesize
      · rw [if_pos isBacked, if_pos isBacked, add_of_lt ((fits s isHolder).2 isBacked), ok_bind]
      · rw [if_neg isBacked, if_neg isBacked]

include isAddr in
theorem returns_addrToOffset :
    (m.addrToOffset addr).Returns ↔ AddrFits m.segments addr := by
  classical
  constructor
  · intro returns s isHolder
    have inside := (holderIn_eq_some isHolder).2
    unfold MachO.addrToOffset MachO.segmentForAddr at returns
    rw [findM?_containsAddr isAddr] at returns
    split_ifs at returns with bounded
    · refine ⟨bounded s isHolder, fun isBacked => ?_⟩
      rw [ok_bind, isHolder] at returns
      dsimp only at returns
      rw [sub_of_le inside.2.1, ok_bind, if_pos isBacked, returns_bind] at returns
      exact returns_add.mp returns.1
    · exact absurd returns not_returns_panic
  · intro fits
    rw [addrToOffset_of_fits isAddr fits]
    exact returns_ok _

end Addresses

section Tables

variable {data : List UInt8} {m : MachO} {cmd off size : Nat}

theorem linkeditData_lt (isTable : m.linkeditData cmd = some (off, size)) :
    off < 2 ^ 32 ∧ size < 2 ^ 32 := by
  unfold MachO.linkeditData at isTable
  simp only [Option.bind_eq_bind, Option.bind_eq_some_iff, Option.some.injEq,
    Prod.mk.injEq] at isTable
  obtain ⟨c, -, _, isOff, _, isSize, rfl, rfl⟩ := isTable
  exact ⟨u32?_lt isOff, u32?_lt isSize⟩

/-- The deltas of a table of function starts, up to a zero or a number that is
cut off. -/
def deltas : Nat → List UInt8 → List Nat
  | 0, _ => []
  | rounds + 1, bytes =>
      match readUleb bytes with
      | none => []
      | some (delta, n) => if delta = 0 then [] else delta :: deltas rounds (bytes.drop n)

theorem returns_functionStartsFrom {rounds addr : Nat} {bytes : List UInt8}
    (isAddr : addr < 2 ^ 64) :
    (functionStartsFrom rounds bytes addr).Returns ↔ addr + (deltas rounds bytes).sum < 2 ^ 64 := by
  induction rounds generalizing bytes addr with
  | zero => exact iff_of_true (returns_ok _) isAddr
  | succ rounds inductionHypothesis =>
      unfold functionStartsFrom deltas
      by_cases isEmpty : bytes = []
      · subst isEmpty
        exact iff_of_true (returns_ok _) isAddr
      · rw [if_neg isEmpty]
        cases isNumber : readUleb bytes with
        | none => exact iff_of_true (returns_error _) isAddr
        | some number =>
            obtain ⟨delta, n⟩ := number
            rw [ofOption_some, ok_bind]
            dsimp only
            by_cases isLast : delta = 0
            · rw [if_pos isLast, if_pos isLast]
              exact iff_of_true (returns_ok _) isAddr
            · rw [if_neg isLast, if_neg isLast, List.sum_cons, returns_bind, returns_add]
              constructor
              · rintro ⟨fits, rest⟩
                have := returns_bind.mp (rest _ (add_of_lt fits))
                have := (inductionHypothesis fits).mp this.1
                omega
              · intro fits
                have small : addr + delta < 2 ^ 64 := by omega
                refine ⟨small, fun next isNext => ?_⟩
                obtain ⟨-, rfl⟩ := add_eq_ok.mp isNext
                exact returns_bind.mpr ⟨(inductionHypothesis small).mpr (by omega),
                  fun _ _ => returns_ok _⟩

/-- The function starts are below `2^64`. -/
def StartsFit (m : MachO) : Prop :=
  ∀ off size bytes text, m.linkeditData LC_FUNCTION_STARTS = some (off, size) →
    slice? m.data off (off + size) = some bytes → m.segment "__TEXT" = some text →
      text.vmaddr + (deltas bytes.length bytes).sum < 2 ^ 64

theorem returns_functionStarts (small : ∀ s ∈ m.segments, s.vmaddr < 2 ^ 64) :
    m.functionStarts.Returns ↔ StartsFit m := by
  unfold MachO.functionStarts StartsFit
  simp only [returns_bind, returns_ofOption, true_and, ofOption_eq_ok, returns_add]
  constructor
  · intro returns off size bytes text isTable isPart isText
    obtain ⟨fits, rest⟩ := returns (off, size) isTable
    have present := List.mem_of_find?_eq_some isText
    exact (returns_functionStartsFrom (small text present)).mp
      (rest _ (add_of_lt fits) bytes isPart text isText)
  · rintro fits ⟨off, size⟩ isTable
    have bounds := linkeditData_lt isTable
    refine ⟨by omega, fun stop isStop bytes isPart text isText => ?_⟩
    obtain ⟨-, rfl⟩ := add_eq_ok.mp isStop
    have present := List.mem_of_find?_eq_some isText
    exact (returns_functionStartsFrom (small text present)).mpr
      (fits off size bytes text isTable isPart isText)

/-- The addresses of the data in the code are below `2^64`. -/
def DataFits (m : MachO) : Prop :=
  ∀ off size k rel, m.linkeditData LC_DATA_IN_CODE = some (off, size) → k < size / 8 →
    off + 8 * k + 8 ≤ m.data.length → u32? m.data (off + 8 * k) = some rel →
      ((m.segment "__TEXT").map (·.vmaddr)).getD 0 + rel < 2 ^ 64

theorem returns_dataInCodeFrom {base limit rounds i : Nat} (few : i + 8 * rounds ≤ limit)
    (bounded : limit < 2 ^ 64) :
    (dataInCodeFrom data base limit rounds i).Returns ↔
      ∀ k rel, k < rounds → i + 8 * k + 8 ≤ data.length → u32? data (i + 8 * k) = some rel →
        base + rel < 2 ^ 64 := by
  induction rounds generalizing i with
  | zero => exact iff_of_true (returns_ok _) fun k rel early => absurd early (Nat.not_lt_zero k)
  | succ rounds inductionHypothesis =>
      unfold dataInCodeFrom
      rw [add_of_lt (by omega), ok_bind]
      by_cases inside : i + 8 ≤ limit ∧ i + 8 ≤ data.length
      · obtain ⟨rel, isRel⟩ := Option.isSome_iff_exists.mp
          (@isSome_u32? data i (by omega))
        obtain ⟨len, isLen⟩ := Option.isSome_iff_exists.mp
          (@isSome_u16? data (i + 4) (by omega))
        obtain ⟨kind, isKind⟩ := Option.isSome_iff_exists.mp
          (@isSome_u16? data (i + 6) (by omega))
        rw [if_pos inside, isRel, unwrap_some, ok_bind, isLen, unwrap_some, ok_bind, isKind,
          unwrap_some, ok_bind, returns_bind, returns_add]
        constructor
        · rintro ⟨first, rest⟩ k rel' early within isRel'
          have later := (inductionHypothesis (i := i + 8) (by omega)).mp
            (returns_bind.mp (rest _ (add_of_lt first))).1
          cases k with
          | zero =>
              obtain rfl := Option.some.inj (isRel.symm.trans isRel')
              exact first
          | succ k =>
              have place : i + 8 * (k + 1) = i + 8 + 8 * k := by omega
              rw [place] at within isRel'
              exact later k rel' (by omega) within isRel'
        · intro all
          refine ⟨all 0 rel (Nat.succ_pos _) inside.2 isRel, fun addr _ => returns_bind.mpr
            ⟨(inductionHypothesis (by omega)).mpr fun k rel' early within isRel' => ?_,
              fun _ _ => returns_ok _⟩⟩
          have place : i + 8 * (k + 1) = i + 8 + 8 * k := by omega
          exact all (k + 1) rel' (by omega) (by omega) (by rwa [place])
      · rw [if_neg inside]
        exact iff_of_true (returns_ok _) fun k rel early within _ => absurd within (by omega)

theorem returns_dataInCode : m.dataInCode.Returns ↔ DataFits m := by
  unfold MachO.dataInCode DataFits
  cases isTable : m.linkeditData LC_DATA_IN_CODE with
  | none =>
      refine iff_of_true (returns_ok _) ?_
      rintro _ _ _ _ ⟨⟩
  | some table =>
      obtain ⟨off, size⟩ := table
      have bounds := linkeditData_lt isTable
      dsimp only
      rw [add_of_lt (by omega), ok_bind, returns_dataInCodeFrom (by omega) (by omega)]
      constructor
      · rintro all _ _ k rel ⟨⟩
        exact all k rel
      · intro all k rel
        exact all off size k rel rfl

end Tables

section Symbols

variable {m : MachO}

/-- Whether the names are those of the section where the code is. -/
def isTextSection (names : List UInt8 × List UInt8) : Bool :=
  names.1 = ascii "__TEXT" ∧ names.2 = ascii "__text"

theorem returns_textSectionIndexFrom {index : Nat} {names : List (List UInt8 × List UInt8)}
    (small : index < 2 ^ 8) :
    (textSectionIndexFrom index names).Returns ↔
      index + min (names.findIdx isTextSection + 1) names.length < 2 ^ 8 := by
  induction names generalizing index with
  | nil => exact iff_of_true (returns_ok _) (by simpa using small)
  | cons name names inductionHypothesis =>
      obtain ⟨segment, section_⟩ := name
      unfold textSectionIndexFrom
      rw [List.findIdx_cons, List.length_cons, returns_bind, returns_add]
      by_cases isText : segment = ascii "__TEXT" ∧ section_ = ascii "__text"
      · have found : isTextSection (segment, section_) = true := decide_eq_true isText
        rw [found]
        simp only [if_pos isText, returns_ok, implies_true, and_true, cond_true]
        omega
      · have missed : isTextSection (segment, section_) = false := decide_eq_false isText
        rw [missed]
        simp only [if_neg isText, cond_false]
        constructor
        · rintro ⟨first, rest⟩
          have := (inductionHypothesis first).mp (rest _ (add_of_lt first))
          omega
        · intro fits
          have first : index + 1 < 2 ^ 8 := by omega
          refine ⟨first, fun next isNext => ?_⟩
          obtain ⟨-, rfl⟩ := add_eq_ok.mp isNext
          exact (inductionHypothesis first).mpr (by omega)

/-- The names of the segments and sections, in the order the symbols number the
sections in. -/
def sectionNames (m : MachO) : List (List UInt8 × List UInt8) :=
  m.segments.flatMap fun segment => segment.sections.map fun s => (segment.name, s.name)

/-- No more than 255 sections up to the one where the code is. -/
def SectionsFit (m : MachO) : Prop :=
  (m.command LC_SYMTAB).isSome →
    min ((sectionNames m).findIdx isTextSection + 1) (sectionNames m).length < 2 ^ 8

theorem returns_symbolAt {textIndex symoff : Nat} (strings : List UInt8) {i : Nat}
    (small : symoff < 2 ^ 32) (early : i < 2 ^ 32) :
    (m.symbolAt textIndex symoff strings i).Returns := by
  unfold MachO.symbolAt
  rw [add_of_lt (by omega), ok_bind, add_of_lt (by omega), ok_bind]
  cases isEntry : slice? m.data (symoff + i * 16) (symoff + i * 16 + 16) with
  | none => exact returns_ok _
  | some entry =>
      have length : entry.length = 16 := by
        rw [length_of_slice? isEntry]
        omega
      dsimp only
      rw [List.getElem?_eq_getElem (by omega), List.getElem?_eq_getElem (by omega), unwrap_some,
        ok_bind, unwrap_some, ok_bind]
      split <;> exact returns_ok _

theorem returns_symbols : m.symbols.Returns ↔ SectionsFit m := by
  unfold MachO.symbols SectionsFit
  cases m.command LC_SYMTAB with
  | none => exact iff_of_true (returns_ok _) (by rintro ⟨⟩)
  | some c =>
      have index : m.textSectionIndex.Returns ↔
          min ((sectionNames m).findIdx isTextSection + 1) (sectionNames m).length < 2 ^ 8 := by
        unfold MachO.textSectionIndex
        rw [returns_textSectionIndexFrom (Nat.two_pow_pos 8), Nat.zero_add]
        rfl
      dsimp only
      rw [returns_bind, index]
      simp only [Option.isSome_some, forall_const]
      refine and_iff_left fun textIndex _ => ?_
      cases textIndex with
      | none => exact returns_ok _
      | some textIndex =>
          have symoff := getD_u32?_lt c.bytes 8
          have nsyms := getD_u32?_lt c.bytes 12
          have stroff := getD_u32?_lt c.bytes 16
          have strsize := getD_u32?_lt c.bytes 20
          dsimp only
          rw [add_of_lt (by omega), ok_bind, returns_bind]
          refine ⟨returns_mapM fun i early => ?_, fun _ _ => returns_ok _⟩
          have := List.mem_range.mp early
          exact returns_symbolAt _ symoff (by omega)

end Symbols

section Layout

variable {m : MachO}

theorem returns_textSection : m.textSection.Returns := by
  unfold MachO.textSection
  exact returns_bind.mpr ⟨returns_ofOption _ _, fun _ _ => returns_ofOption _ _⟩

/-- The smallest offset of a file-backed section. -/
def firstOffset (m : MachO) : Option Nat :=
  ((m.segments.flatMap (·.sections)).filterMap fun s =>
    if s.offset ≠ 0 then some s.offset else none).min?

theorem headerRoom_eq (small : m.header.sizeofcmds < 2 ^ 32) :
    m.headerRoom = ok ((firstOffset m).getD (HEADER_SIZE + m.header.sizeofcmds) -
      (HEADER_SIZE + m.header.sizeofcmds)) := by
  unfold MachO.headerRoom HEADER_SIZE firstOffset
  rw [add_of_lt (by omega), ok_bind]

/-- What the layout asks of `__LINKEDIT` before it looks at `__TEXT`. -/
def LastAndAligned (m : MachO) (linkedit : Segment) : Prop :=
  linkedit.fileoff % PAGE = 0 ∧ linkedit.vmaddr % PAGE = 0 ∧
    ∀ s ∈ m.segments, s.fileoff ≤ linkedit.fileoff

/-- `__TEXT` ends below `2^64` if the layout looks. -/
def TextFits (m : MachO) : Prop :=
  ∀ linkedit text, m.segment "__LINKEDIT" = some linkedit → m.segment "__TEXT" = some text →
    LastAndAligned m linkedit → text.vmaddr + text.vmsize < 2 ^ 64

/-- Farther apart than a branch reaches. -/
def OutOfReach (textAddr stop : Nat) : Prop :=
  (textAddr - stop) + (stop - textAddr) ≥ Rewrite.B_RANGE

theorem planLayout_of {linkedit text : Segment}
    (isLinkedit : m.segment "__LINKEDIT" = some linkedit)
    (isText : m.segment "__TEXT" = some text) (checked : LastAndAligned m linkedit) :
    m.planLayout = (do
      let stop ← add 64 text.vmaddr text.vmsize
      if (linkedit.vmaddr - stop) + (stop - linkedit.vmaddr) ≥ Rewrite.B_RANGE then
        .error (.badLayout "stub segment is out of b range of all of __TEXT")
      else ok linkedit.vmaddr) := by
  obtain ⟨alignedOff, alignedAddr, last⟩ := checked
  unfold MachO.planLayout
  rw [isLinkedit, isText, ofOption_some, ok_bind, ofOption_some, ok_bind, if_neg (by omega),
    if_neg]
  rw [List.any_eq_true]
  rintro ⟨s, present, late⟩
  exact absurd (last s present) (not_le.mpr (by simpa using late))

theorem planLayout_of_not {linkedit text : Segment}
    (isLinkedit : m.segment "__LINKEDIT" = some linkedit)
    (isText : m.segment "__TEXT" = some text) (unchecked : ¬ LastAndAligned m linkedit) :
    ∃ e, m.planLayout = .error e := by
  unfold MachO.planLayout
  rw [isLinkedit, isText, ofOption_some, ok_bind, ofOption_some, ok_bind]
  by_cases aligned : linkedit.fileoff % PAGE ≠ 0 ∨ linkedit.vmaddr % PAGE ≠ 0
  · exact ⟨_, if_pos aligned⟩
  · rw [if_neg aligned]
    refine ⟨_, if_pos (List.any_eq_true.mpr ?_)⟩
    by_contra none
    refine unchecked ⟨by omega, by omega, fun s present => ?_⟩
    by_contra late
    exact none ⟨s, present, decide_eq_true (not_le.mp late)⟩

theorem returns_planLayout : m.planLayout.Returns ↔ TextFits m := by
  unfold TextFits
  cases isLinkedit : m.segment "__LINKEDIT" with
  | none =>
      refine iff_of_true ?_ (by rintro _ _ ⟨⟩)
      unfold MachO.planLayout
      rw [isLinkedit]
      exact returns_error _
  | some linkedit =>
      cases isText : m.segment "__TEXT" with
      | none =>
          refine iff_of_true ?_ (by rintro _ _ _ ⟨⟩)
          unfold MachO.planLayout
          rw [isLinkedit, isText]
          exact returns_error _
      | some text =>
          by_cases checked : LastAndAligned m linkedit
          · rw [planLayout_of isLinkedit isText checked, returns_bind, returns_add]
            constructor
            · rintro ⟨fits, -⟩ _ _ ⟨⟩ ⟨⟩ -
              exact fits
            · intro fits
              refine ⟨fits _ _ rfl rfl checked, fun _ _ => ?_⟩
              split
              · exact returns_error _
              · exact returns_ok _
          · obtain ⟨e, isError⟩ := planLayout_of_not isLinkedit isText checked
            rw [isError]
            refine iff_of_true (returns_error _) ?_
            rintro _ _ ⟨⟩ ⟨⟩ isChecked
            exact absurd isChecked checked

/-- What the layout asks for. -/
def LaidOut (m : MachO) (linkedit : Segment) : Prop :=
  ∃ text, m.segment "__TEXT" = some text ∧ LastAndAligned m linkedit ∧
    text.vmaddr + text.vmsize < 2 ^ 64 ∧ ¬ OutOfReach linkedit.vmaddr (text.vmaddr + text.vmsize)

/-- A layout that is planned is `__LINKEDIT`'s address. -/
theorem planLayout_eq_ok {textAddr : Nat} :
    m.planLayout = ok textAddr ↔
      ∃ linkedit, m.segment "__LINKEDIT" = some linkedit ∧ LaidOut m linkedit ∧
        textAddr = linkedit.vmaddr := by
  constructor
  · intro planned
    cases isLinkedit : m.segment "__LINKEDIT" with
    | none =>
        unfold MachO.planLayout at planned
        rw [isLinkedit] at planned
        cases planned
    | some linkedit =>
        cases isText : m.segment "__TEXT" with
        | none =>
            unfold MachO.planLayout at planned
            rw [isLinkedit, isText] at planned
            cases planned
        | some text =>
            by_cases checked : LastAndAligned m linkedit
            · rw [planLayout_of isLinkedit isText checked] at planned
              obtain ⟨stop, isStop, planned⟩ := bind_eq_ok.mp planned
              obtain ⟨fits, rfl⟩ := add_eq_ok.mp isStop
              split_ifs at planned with far
              exact ⟨linkedit, rfl, ⟨text, isText, checked, fits, far⟩, (ok.inj planned).symm⟩
            · obtain ⟨e, isError⟩ := planLayout_of_not isLinkedit isText checked
              rw [isError] at planned
              cases planned
  · rintro ⟨linkedit, isLinkedit, ⟨text, isText, checked, fits, near⟩, rfl⟩
    rw [planLayout_of isLinkedit isText checked, add_of_lt fits, ok_bind]
    exact if_neg near

end Layout

end Macho

end Derp
