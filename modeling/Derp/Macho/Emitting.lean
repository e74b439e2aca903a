import Derp.Macho.Fitting

/-!
# What is emitted

The image is put together from four pieces: the file up to `__LINKEDIT` with new
commands and patched words, the new segment, and `__LINKEDIT` without the
signature.  Each step returns exactly when its sums and positions fit, and what
comes out is described piece by piece.
-/

namespace Derp

namespace Macho

open Outcome Slices Checked

section Planning

variable {m : MachO} {linkedit : Segment}

/-- `__LINKEDIT` ends below `2^64` in the file if it is compared with the end of
the signature. -/
def SignatureFits (m : MachO) (linkedit : Segment) : Prop :=
  ∀ sigOff sigSize, m.linkeditData LC_CODE_SIGNATURE = some (sigOff, sigSize) →
    linkedit.fileoff ≤ sigOff → linkedit.fileoff + linkedit.filesize < 2 ^ 64

/-- How much of `__LINKEDIT` stands in front of the signature. -/
def Unsigned (m : MachO) (linkedit : Segment) (newLinkeditSize : Nat) : Prop :=
  match m.linkeditData LC_CODE_SIGNATURE with
  | none => newLinkeditSize = linkedit.filesize
  | some (sigOff, sigSize) =>
      linkedit.fileoff ≤ sigOff ∧ sigOff + sigSize ≤ linkedit.fileoff + linkedit.filesize ∧
        newLinkeditSize = sigOff - linkedit.fileoff

theorem returns_unsignedSize :
    (m.unsignedSize linkedit).Returns ↔ SignatureFits m linkedit := by
  unfold MachO.unsignedSize SignatureFits
  cases isTable : m.linkeditData LC_CODE_SIGNATURE with
  | none => exact iff_of_true (returns_ok _) (by rintro _ _ ⟨⟩)
  | some table =>
      obtain ⟨sigOff, sigSize⟩ := table
      have bounds := linkeditData_lt isTable
      dsimp only
      by_cases before : sigOff < linkedit.fileoff
      · rw [if_pos before]
        refine iff_of_true (returns_error _) ?_
        rintro _ _ ⟨⟩ late
        omega
      · rw [if_neg before, add_of_lt (by omega), ok_bind, returns_bind, returns_add]
        constructor
        · rintro ⟨fits, -⟩ _ _ ⟨⟩ -
          exact fits
        · intro fits
          refine ⟨fits sigOff sigSize rfl (by omega), fun _ _ => ?_⟩
          split
          · exact returns_error _
          · exact returns_sub.mpr (by omega)

theorem unsignedSize_eq_ok {newLinkeditSize : Nat} :
    m.unsignedSize linkedit = ok newLinkeditSize ↔
      SignatureFits m linkedit ∧ Unsigned m linkedit newLinkeditSize := by
  unfold MachO.unsignedSize SignatureFits Unsigned
  cases isTable : m.linkeditData LC_CODE_SIGNATURE with
  | none =>
      simp only [ok.injEq, reduceCtorEq, false_implies, implies_true, true_and]
      exact eq_comm
  | some table =>
      obtain ⟨sigOff, sigSize⟩ := table
      have bounds := linkeditData_lt isTable
      dsimp only
      by_cases before : sigOff < linkedit.fileoff
      · rw [if_pos before]
        refine iff_of_false (by rintro ⟨⟩) ?_
        rintro ⟨-, after, -⟩
        omega
      · rw [if_neg before, add_of_lt (by omega), ok_bind]
        constructor
        · intro same
          obtain ⟨linkeditEnd, isEnd, same⟩ := bind_eq_ok.mp same
          obtain ⟨fits, rfl⟩ := add_eq_ok.mp isEnd
          split_ifs at same with outside
          obtain ⟨-, rfl⟩ := sub_eq_ok.mp same
          exact ⟨fun _ _ _ _ => fits, by omega, by omega, rfl⟩
        · rintro ⟨fits, after, inside, rfl⟩
          rw [add_of_lt (fits sigOff sigSize rfl after), ok_bind, if_neg (by omega),
            sub_of_le after]

/-- What emitting goes by. -/
structure Planned (m : MachO) (stubText : List UInt8) (p : Plan) : Prop where
  isLinkedit : m.segment "__LINKEDIT" = some p.linkedit
  laidOut : LaidOut m p.linkedit
  textAddr : p.textAddr = p.linkedit.vmaddr
  inserted : p.inserted = pageUp stubText.length
  signature : SignatureFits m p.linkedit
  unsigned : Unsigned m p.linkedit p.newLinkeditSize

variable {stubText : List UInt8} (small : stubText.length < 2 ^ 63)

include small in
theorem plan_eq_ok {p : Plan} : m.plan stubText = ok p ↔ Planned m stubText p := by
  have fits : stubText.length + PAGE < 2 ^ 64 := by
    unfold PAGE
    omega
  unfold MachO.plan
  constructor
  · intro isPlan
    obtain ⟨textAddr, planned, isPlan⟩ := bind_eq_ok.mp isPlan
    obtain ⟨linkedit, isLinkedit, laidOut, rfl⟩ := planLayout_eq_ok.mp planned
    rw [isLinkedit, unwrap_some, ok_bind, roundUp_of_lt fits, ok_bind] at isPlan
    obtain ⟨newLinkeditSize, isSize, isPlan⟩ := bind_eq_ok.mp isPlan
    obtain rfl := ok.inj isPlan
    obtain ⟨signature, unsigned⟩ := unsignedSize_eq_ok.mp isSize
    exact ⟨isLinkedit, laidOut, rfl, rfl, signature, unsigned⟩
  · obtain ⟨linkedit, textAddr, inserted, newLinkeditSize⟩ := p
    rintro ⟨isLinkedit, laidOut, isAddr, isInserted, signature, unsigned⟩
    dsimp only at isLinkedit laidOut isAddr isInserted signature unsigned
    rw [planLayout_eq_ok.mpr ⟨linkedit, isLinkedit, laidOut, isAddr⟩, ok_bind, isLinkedit,
      unwrap_some, ok_bind, roundUp_of_lt fits, ok_bind,
      unsignedSize_eq_ok.mpr ⟨signature, unsigned⟩, ok_bind, isInserted]

include small in
theorem returns_plan :
    (m.plan stubText).Returns ↔ TextFits m ∧ ∀ linkedit, m.segment "__LINKEDIT" = some linkedit →
      LaidOut m linkedit → SignatureFits m linkedit := by
  have fits : stubText.length + PAGE < 2 ^ 64 := by
    unfold PAGE
    omega
  unfold MachO.plan
  rw [returns_bind, returns_planLayout]
  refine and_congr_right fun _ => ?_
  constructor
  · intro returns linkedit isLinkedit laidOut
    have returns := returns _ (planLayout_eq_ok.mpr ⟨linkedit, isLinkedit, laidOut, rfl⟩)
    rw [isLinkedit, unwrap_some, ok_bind, roundUp_of_lt fits, ok_bind] at returns
    exact returns_unsignedSize.mp (returns_bind.mp returns).1
  · intro all textAddr planned
    obtain ⟨linkedit, isLinkedit, laidOut, -⟩ := planLayout_eq_ok.mp planned
    rw [isLinkedit, unwrap_some, ok_bind, roundUp_of_lt fits, ok_bind]
    exact returns_bind.mpr ⟨returns_unsignedSize.mpr (all linkedit isLinkedit laidOut),
      fun _ _ => returns_ok _⟩

end Planning

section Heads

variable {m : MachO} {p : Plan} {commands : List Command}

/-- Commands written one behind the other. -/
def written (commands : List Command) : List UInt8 := commands.flatMap (·.bytes)

@[simp] theorem length_written (commands : List Command) :
    (written commands).length = lengths commands := List.length_flatMap

/-- The file up to `__LINKEDIT` with new commands. -/
def headed (m : MachO) (p : Plan) (commands : List Command) : List UInt8 :=
  let out := m.data.take p.linkedit.fileoff
  let out := overwrite out 16 (toLittleEndian 4 commands.length)
  let out := overwrite out 20 (toLittleEndian 4 (lengths commands))
  let out := overwrite out HEADER_SIZE (written commands)
  overwrite out (HEADER_SIZE + lengths commands)
    (List.replicate (m.header.sizeofcmds - lengths commands) 0)

/-- Old and new commands end before `__LINKEDIT`, which the file goes up to. -/
structure HeadFits (m : MachO) (p : Plan) (commands : List Command) : Prop where
  inside : p.linkedit.fileoff ≤ m.data.length
  positive : 0 < p.linkedit.fileoff
  newEnd : HEADER_SIZE + lengths commands ≤ p.linkedit.fileoff
  oldEnd : HEADER_SIZE + m.header.sizeofcmds ≤ p.linkedit.fileoff

/-- Writing the commands one after the other. -/
def putCommand (head : List UInt8 × Nat) (c : Command) : Outcome Error (List UInt8 × Nat) := do
  let stop ← add 64 head.2 c.bytes.length
  let out ← put head.1 head.2 c.bytes
  ok (out, stop)

theorem foldlM_putCommand {out : List UInt8} {off : Nat} (inside : off ≤ out.length)
    (small : out.length < 2 ^ 63) (few : off + lengths commands < 2 ^ 64) :
    commands.foldlM putCommand (out, off) =
      if off + lengths commands ≤ out.length then
        ok (overwrite out off (written commands), off + lengths commands)
      else .panic := by
  induction commands generalizing out off with
  | nil =>
      rw [if_pos (by simpa using inside)]
      simp [overwrite, written]
  | cons c commands inductionHypothesis =>
      rw [lengths_cons] at few ⊢
      rw [List.foldlM_cons]
      unfold putCommand
      rw [add_of_lt (by dsimp only; omega), ok_bind]
      dsimp only
      by_cases fits : off + c.bytes.length ≤ out.length
      · have length := length_overwrite fits
        rw [put_of_le fits, ok_bind, ok_bind]
        refine (inductionHypothesis (by omega) (by omega) (by omega)).trans ?_
        rw [overwrite_overwrite fits, length, Nat.add_assoc]
        rfl
      · rw [if_neg (by omega), put, assert, if_neg fits]
        rfl

theorem writeCommands_eq (aligned : p.linkedit.fileoff % PAGE = 0)
    (short : m.data.length < 2 ^ 63) (header : m.header.sizeofcmds < 2 ^ 32)
    (small : lengths commands + HEADER_SIZE < 2 ^ 64) (inserted : p.inserted ≤ 2 ^ 63) :
    (HeadFits m p commands → m.writeCommands p commands = ok (headed m p commands)) ∧
      (¬ HeadFits m p commands → m.writeCommands p commands = .panic) := by
  have start : m.writeCommands p commands = (do
      let out ← unwrap (slice? m.data 0 p.linkedit.fileoff)
      let out ← put out 16 (toLittleEndian 4 commands.length)
      let out ← put out 20 (toLittleEndian 4 (lengths commands))
      let head ← commands.foldlM putCommand (out, HEADER_SIZE)
      put head.1 (HEADER_SIZE + lengths commands)
        (List.replicate (m.header.sizeofcmds - lengths commands) 0)) := by
    unfold HEADER_SIZE at small
    have width : max (HEADER_SIZE + m.header.sizeofcmds) (HEADER_SIZE + lengths commands) -
        (HEADER_SIZE + lengths commands) = m.header.sizeofcmds - lengths commands := by
      omega
    unfold MachO.writeCommands
    rw [add_of_lt (by unfold HEADER_SIZE; omega), ok_bind, size_of_lt (by omega), ok_bind,
      add_of_lt (by omega), ok_bind, add_of_lt (by unfold HEADER_SIZE; omega)]
    simp only [ok_bind, width]
    rfl
  rw [start]
  by_cases inside : p.linkedit.fileoff ≤ m.data.length
  · have length : (m.data.take p.linkedit.fileoff).length = p.linkedit.fileoff := by
      rw [List.length_take]
      omega
    rw [slice?_of_le (Nat.zero_le _) inside, unwrap_some, ok_bind, List.drop_zero, Nat.sub_zero]
    by_cases positive : 0 < p.linkedit.fileoff
    · have page : 0x4000 ≤ p.linkedit.fileoff := by
        unfold PAGE at aligned
        omega
      have first := @length_overwrite _ (m.data.take p.linkedit.fileoff)
        (toLittleEndian 4 commands.length) 16 (by rw [length_toLittleEndian]; omega)
      have second := (@length_overwrite _ _ (toLittleEndian 4 (lengths commands)) 20
        (by rw [length_toLittleEndian, first]; omega)).trans first
      rw [put_of_le (by rw [length_toLittleEndian]; omega), ok_bind,
        put_of_le (by rw [length_toLittleEndian]; omega), ok_bind,
        foldlM_putCommand (by unfold HEADER_SIZE; omega) (by omega) (by omega)]
      by_cases newEnd : HEADER_SIZE + lengths commands ≤ p.linkedit.fileoff
      · have third := (@length_overwrite _ _ (written commands) HEADER_SIZE
          (by rw [length_written, second]; omega)).trans second
        rw [if_pos (by omega), ok_bind]
        dsimp only
        by_cases oldEnd : HEADER_SIZE + m.header.sizeofcmds ≤ p.linkedit.fileoff
        · refine ⟨fun _ => ?_, fun unfit => absurd ⟨inside, positive, newEnd, oldEnd⟩ unfit⟩
          rw [put_of_le (by rw [List.length_replicate]; omega)]
          rfl
        · refine ⟨fun fits => absurd fits.oldEnd oldEnd, fun _ => ?_⟩
          rw [put, assert, if_neg (by rw [List.length_replicate]; omega)]
      · rw [if_neg (by omega)]
        exact ⟨fun fits => absurd fits.newEnd newEnd, fun _ => rfl⟩
    · refine ⟨fun fits => absurd fits.positive positive, fun _ => ?_⟩
      rw [put, assert, if_neg (by rw [length_toLittleEndian]; omega)]
      rfl
  · refine ⟨fun fits => absurd fits.inside inside, fun _ => ?_⟩
    rw [slice?_eq_none.mpr (by omega)]
    rfl

theorem length_headed (fits : HeadFits m p commands) (aligned : p.linkedit.fileoff % PAGE = 0) :
    (headed m p commands).length = p.linkedit.fileoff := by
  obtain ⟨inside, positive, newEnd, oldEnd⟩ := fits
  have page : 0x4000 ≤ p.linkedit.fileoff := by
    unfold PAGE at aligned
    omega
  have length : (m.data.take p.linkedit.fileoff).length = p.linkedit.fileoff := by
    rw [List.length_take]
    omega
  have first := (@length_overwrite _ (m.data.take p.linkedit.fileoff)
    (toLittleEndian 4 commands.length) 16 (by rw [length_toLittleEndian]; omega)).trans length
  have second := (@length_overwrite _ _ (toLittleEndian 4 (lengths commands)) 20
    (by rw [length_toLittleEndian, first]; omega)).trans first
  have third := (@length_overwrite _ _ (written commands) HEADER_SIZE
    (by rw [length_written, second]; omega)).trans second
  exact (length_overwrite (by rw [List.length_replicate, third]; omega)).trans third

end Heads

section Patches

variable {m : MachO} {p : Plan} {patch : Nat × Nat} {out : List UInt8}

/-- The sums made for a patch stay below `2^64`. -/
def PatchFits (m : MachO) (patch : Nat × Nat) : Prop :=
  AddrFits m.segments patch.1 ∧ ∀ off, spotIn m.segments patch.1 = some off → off + 4 < 2 ^ 64

/-- A patch is of a word in front of `__LINKEDIT`. -/
def Placed (m : MachO) (p : Plan) (patch : Nat × Nat) : Prop :=
  ∃ off, spotIn m.segments patch.1 = some off ∧ off + 4 ≤ p.linkedit.fileoff

/-- The file with one word patched. -/
def patched (m : MachO) (out : List UInt8) (patch : Nat × Nat) : List UInt8 :=
  match spotIn m.segments patch.1 with
  | none => out
  | some off => overwrite out off (toLittleEndian 4 patch.2)

/-- Each patch fits as long as those before it are placed. -/
def PatchesFit (m : MachO) (p : Plan) : List (Nat × Nat) → Prop
  | [] => True
  | patch :: patches => PatchFits m patch ∧ (Placed m p patch → PatchesFit m p patches)

theorem patchesFit_of_placed {patches : List (Nat × Nat)} (fits : PatchesFit m p patches)
    (placed : ∀ patch ∈ patches, Placed m p patch) :
    ∀ patch ∈ patches, PatchFits m patch ∧ Placed m p patch := by
  induction patches with
  | nil => simp
  | cons patch patches inductionHypothesis =>
      obtain ⟨here, later⟩ := List.forall_mem_cons.mp placed
      exact List.forall_mem_cons.mpr ⟨⟨fits.1, here⟩, inductionHypothesis (fits.2 here) later⟩

theorem applyPatch_of_placed (isAddr : patch.1 < 2 ^ 64) (length : out.length = p.linkedit.fileoff)
    (fits : PatchFits m patch) (placed : Placed m p patch) :
    m.applyPatch p out patch = ok (patched m out patch) := by
  obtain ⟨off, isSpot, inside⟩ := placed
  unfold MachO.applyPatch patched
  rw [addrToOffset_of_fits isAddr fits.1, ok_bind, isSpot]
  dsimp only
  rw [add_of_lt (fits.2 off isSpot), ok_bind, if_neg (by omega),
    put_of_le (by rw [length_toLittleEndian]; omega)]

theorem applyPatch_of_not_placed (isAddr : patch.1 < 2 ^ 64) (fits : PatchFits m patch)
    (unplaced : ¬ Placed m p patch) : ∃ e, m.applyPatch p out patch = .error e := by
  unfold MachO.applyPatch
  rw [addrToOffset_of_fits isAddr fits.1, ok_bind]
  cases isSpot : spotIn m.segments patch.1 with
  | none => exact ⟨_, rfl⟩
  | some off =>
      dsimp only
      rw [add_of_lt (fits.2 off isSpot), ok_bind, if_pos]
      · exact ⟨_, rfl⟩
      · by_contra inside
        exact unplaced ⟨off, isSpot, not_lt.mp inside⟩

theorem returns_applyPatch (isAddr : patch.1 < 2 ^ 64) (length : out.length = p.linkedit.fileoff) :
    (m.applyPatch p out patch).Returns ↔ PatchFits m patch := by
  constructor
  · intro returns
    unfold MachO.applyPatch at returns
    obtain ⟨first, returns⟩ := returns_bind.mp returns
    have addrFits := (returns_addrToOffset isAddr).mp first
    refine ⟨addrFits, fun off isSpot => ?_⟩
    have returns := returns _ (addrToOffset_of_fits isAddr addrFits)
    rw [isSpot] at returns
    exact returns_add.mp (returns_bind.mp returns).1
  · intro fits
    by_cases placed : Placed m p patch
    · rw [applyPatch_of_placed isAddr length fits placed]
      exact returns_ok _
    · obtain ⟨e, isError⟩ := @applyPatch_of_not_placed _ _ _ out isAddr fits placed
      rw [isError]
      exact returns_error e

theorem length_patched (length : out.length = p.linkedit.fileoff) (placed : Placed m p patch) :
    (patched m out patch).length = p.linkedit.fileoff := by
  obtain ⟨off, isSpot, inside⟩ := placed
  unfold patched
  rw [isSpot]
  exact (length_overwrite (by rw [length_toLittleEndian]; omega)).trans length

variable {patches : List (Nat × Nat)} (areAddrs : ∀ patch ∈ patches, patch.1 < 2 ^ 64)

include areAddrs in
theorem returns_foldlM_applyPatch (length : out.length = p.linkedit.fileoff) :
    (patches.foldlM (m.applyPatch p) out).Returns ↔ PatchesFit m p patches := by
  induction patches generalizing out with
  | nil => exact iff_of_true (returns_ok _) trivial
  | cons patch patches inductionHypothesis =>
      obtain ⟨isAddr, areAddrs⟩ := List.forall_mem_cons.mp areAddrs
      rw [returns_foldlM_cons, returns_applyPatch isAddr length, PatchesFit]
      refine and_congr_right fun fits => ?_
      by_cases placed : Placed m p patch
      · rw [applyPatch_of_placed isAddr length fits placed]
        simp only [ok.injEq, forall_eq', placed, true_implies]
        exact inductionHypothesis areAddrs (length_patched length placed)
      · obtain ⟨e, isError⟩ := @applyPatch_of_not_placed _ _ _ out isAddr fits placed
        rw [isError]
        exact iff_of_true (by rintro _ ⟨⟩) fun isPlaced => absurd isPlaced placed

include areAddrs in
theorem foldlM_applyPatch_eq_ok (length : out.length = p.linkedit.fileoff) {out' : List UInt8} :
    patches.foldlM (m.applyPatch p) out = ok out' ↔
      (∀ patch ∈ patches, PatchFits m patch ∧ Placed m p patch) ∧
        out' = patches.foldl (patched m) out := by
  induction patches generalizing out with
  | nil =>
      simp only [List.foldlM_nil, pure_eq, ok.injEq, List.not_mem_nil, false_implies,
        implies_true, true_and, List.foldl_nil]
      exact eq_comm
  | cons patch patches inductionHypothesis =>
      obtain ⟨isAddr, areAddrs⟩ := List.forall_mem_cons.mp areAddrs
      rw [List.foldlM_cons, List.foldl_cons, List.forall_mem_cons]
      constructor
      · intro ran
        obtain ⟨next, first, rest⟩ := bind_eq_ok.mp ran
        have returns : (m.applyPatch p out patch).Returns := by
          rw [first]
          exact returns_ok _
        have fits := (returns_applyPatch isAddr length).mp returns
        by_cases placed : Placed m p patch
        · rw [applyPatch_of_placed isAddr length fits placed] at first
          obtain rfl := ok.inj first
          obtain ⟨all, same⟩ :=
            (inductionHypothesis areAddrs (length_patched length placed)).mp rest
          exact ⟨⟨⟨fits, placed⟩, all⟩, same⟩
        · obtain ⟨e, isError⟩ := @applyPatch_of_not_placed _ _ _ out isAddr fits placed
          rw [isError] at first
          cases first
      · rintro ⟨⟨⟨fits, placed⟩, all⟩, same⟩
        rw [applyPatch_of_placed isAddr length fits placed, ok_bind]
        exact (inductionHypothesis areAddrs (length_patched length placed)).mpr ⟨all, same⟩

end Patches

section Pieces

variable {m : MachO} {p : Plan} {stubText out : List UInt8}

/-- What is left of `__LINKEDIT` is in the file. -/
def RestFits (m : MachO) (p : Plan) : Prop :=
  p.linkedit.fileoff + p.newLinkeditSize ≤ m.data.length

/-- The pieces one behind the other. -/
def assembled (m : MachO) (p : Plan) (stubText out : List UInt8) : List UInt8 :=
  out ++ stubText ++ List.replicate (p.inserted - stubText.length) 0 ++
    (m.data.drop p.linkedit.fileoff).take p.newLinkeditSize

theorem appendPieces_eq (length : out.length = p.linkedit.fileoff)
    (inserted : p.inserted = pageUp stubText.length)
    (small : p.linkedit.fileoff + p.inserted < 2 ^ 64) (short : m.data.length < 2 ^ 63) :
    (RestFits m p → m.appendPieces p stubText out = ok (assembled m p stubText out)) ∧
      (¬ RestFits m p → m.appendPieces p stubText out = .panic) := by
  have more := le_pageUp stubText.length
  have resized : resize (out ++ stubText) (p.linkedit.fileoff + p.inserted) =
      out ++ stubText ++ List.replicate (p.inserted - stubText.length) 0 := by
    unfold resize
    rw [List.take_of_length_le (by rw [List.length_append]; omega), List.length_append]
    congr 2
    omega
  unfold MachO.appendPieces RestFits
  rw [add_of_lt small, ok_bind, resized]
  constructor
  · intro fits
    rw [add_of_lt (by omega), ok_bind, slice?_of_le (Nat.le_add_right _ _) fits, unwrap_some,
      ok_bind, Nat.add_sub_cancel_left]
    rfl
  · intro unfit
    by_cases bounded : p.linkedit.fileoff + p.newLinkeditSize < 2 ^ 64
    · rw [add_of_lt bounded, ok_bind, slice?_eq_none.mpr (by omega)]
      rfl
    · rw [add, assert, if_neg bounded]
      rfl

end Pieces

section Whole

variable {data : List UInt8} {m : MachO} (parsed : Parsed data m) (short : data.length < 2 ^ 63)

include parsed

theorem sizeofcmds_lt : m.header.sizeofcmds < 2 ^ 32 := u32?_lt parsed.sizeofcmds

theorem command_of_segment {s : Segment} (present : s ∈ m.segments) :
    ∃ c, m.commands[s.cmdIndex]? = some c ∧ c.cmd = LC_SEGMENT_64 ∧
      parseSegment s.cmdIndex c.bytes = ok s := by
  obtain ⟨-, c, isCommand, isSegment, isParsed⟩ := mem_segmentsOf parsed.isSegments present
  exact ⟨c, isCommand, isSegment, isParsed⟩

theorem segmentBytes {s : Segment} (present : s ∈ m.segments) :
    ∃ c, m.commands[s.cmdIndex]? = some c ∧ c.cmd = LC_SEGMENT_64 ∧ SegmentBytes c.bytes s := by
  obtain ⟨c, isCommand, isSegment, isParsed⟩ := command_of_segment parsed present
  exact ⟨c, isCommand, isSegment, segmentBytes_of_parseSegment isParsed⟩

theorem vmaddr_lt {s : Segment} (present : s ∈ m.segments) : s.vmaddr < 2 ^ 64 := by
  obtain ⟨c, -, -, said⟩ := segmentBytes parsed present
  exact u64?_lt said.vmaddr

theorem offset_lt {s : Segment} (present : s ∈ m.segments) {section_ : Section}
    (inSections : section_ ∈ s.sections) : section_.offset < 2 ^ 32 := by
  obtain ⟨c, -, -, isParsed⟩ := command_of_segment parsed present
  exact offset_lt_of_parseSegment isParsed inSections

variable {p : Plan} (isLinkedit : m.segment "__LINKEDIT" = some p.linkedit)

include isLinkedit

theorem holds_of_parsed : ∀ x ∈ m.commands.zipIdx, Holds p x := by
  rintro ⟨c, i⟩ present isNumber
  obtain ⟨d, isCommand, -, said⟩ :=
    segmentBytes parsed (List.mem_of_find?_eq_some isLinkedit)
  have isNumber : i = p.linkedit.cmdIndex := isNumber
  rw [← isNumber, (List.mem_zipIdx_iff_getElem?.mp present)] at isCommand
  obtain rfl := Option.some.inj isCommand
  exact le_trans (Nat.sub_le _ _) said.length

omit parsed isLinkedit in
theorem length_stubCommand : (stubCommand p).bytes.length = SEGMENT_CMD_SIZE := by
  have name : (ascii STUB_TEXT_SEGMENT).length = 6 := by decide
  have kept {b part : List UInt8} {start : Nat} (whole : b.length = SEGMENT_CMD_SIZE)
      (fits : start + part.length ≤ SEGMENT_CMD_SIZE) :
      (overwrite b start part).length = SEGMENT_CMD_SIZE := by
    rw [length_overwrite (whole.symm ▸ fits), whole]
  unfold stubCommand segmentCommand
  repeat' refine kept ?_ ?_
  · exact List.length_replicate
  -- each field ends inside the command
  all_goals
    simp only [length_toLittleEndian, name]
    decide

omit parsed isLinkedit in
/-- The image's commands take no more than the file's and the new segment's. -/
theorem lengths_image {items : List Command} {n : Nat} (holds : ∀ x ∈ items.zipIdx n, Holds p x) :
    lengths (((items.zipIdx n).flatMap (image m p)).map (·.command)) ≤
      lengths items + if n ≤ p.linkedit.cmdIndex then SEGMENT_CMD_SIZE else 0 := by
  induction items generalizing n with
  | nil => exact Nat.zero_le _
  | cons c items inductionHypothesis =>
      rw [List.zipIdx_cons] at holds ⊢
      obtain ⟨here, later⟩ := List.forall_mem_cons.mp holds
      have rest := inductionHypothesis later
      rw [List.flatMap_cons, List.map_append, lengths_append, lengths_cons]
      have first : lengths ((image m p (c, n)).map (·.command)) ≤
          c.bytes.length + if n = p.linkedit.cmdIndex then SEGMENT_CMD_SIZE else 0 := by
        unfold image
        dsimp only
        split_ifs
        · exact Nat.zero_le _
        · exact Nat.zero_le _
        · have := (lengths_relocated (p := p) (here ‹n = p.linkedit.cmdIndex›)).2.2.2
          dsimp only at this
          simp [length_stubCommand, this]
          omega
        · have := (lengths_relocated (p := p) (here ‹n = p.linkedit.cmdIndex›)).2.2.2
          dsimp only at this
          simp [this]
        · simp [shifted, length_foldl_bumped]
      split_ifs at first rest ⊢ <;> omega

/-- What the file's commands become. -/
abbrev emitted (m : MachO) (p : Plan) : List Command := (images m p).map (·.command)

/-- The commands that are kept. -/
abbrev keptCommands (m : MachO) (p : Plan) (dropped : List Nat) : List Command :=
  without dropped 0 (emitted m p)

/-- The order in which they are given up. -/
abbrev emittedOrder (m : MachO) (p : Plan) : List (Nat × Nat) :=
  dropOrder (rankedFrom 0 (images m p))

include short in
theorem lengths_emitted : lengths (emitted m p) + SIGNATURE_CMD_SIZE + HEADER_SIZE < 2 ^ 64 := by
  have image : lengths (emitted m p) ≤ lengths m.commands + _ :=
    lengths_image (m := m) (holds_of_parsed parsed isLinkedit)
  have file : HEADER_SIZE + lengths m.commands ≤ data.length :=
    le_length_of_laid parsed.laid parsed.header
  unfold SEGMENT_CMD_SIZE at image
  unfold SIGNATURE_CMD_SIZE
  split_ifs at image <;> omega

end Whole

section Emit

variable {data : List UInt8} {m : MachO} (parsed : Parsed data m) (short : data.length < 2 ^ 63)
  {patches : List (Nat × Nat)} (areAddrs : ∀ patch ∈ patches, patch.1 < 2 ^ 64)
  {stubText : List UInt8} (small : stubText.length < 2 ^ 63)

/-- What an image is emitted by: the plan, and the commands given up. -/
structure Fitting (m : MachO) (stubText : List UInt8) (p : Plan) (dropped : List Nat) : Prop where
  planned : Planned m stubText p
  isDropped : Dropped (emitted m p) (headerSpace m) (emittedOrder m p) dropped
  room : lengths (keptCommands m p dropped) + SIGNATURE_CMD_SIZE ≤ headerSpace m

/-- The file up to `__LINKEDIT` as it is emitted. -/
def front (m : MachO) (p : Plan) (dropped : List Nat) (patches : List (Nat × Nat)) : List UInt8 :=
  patches.foldl (patched m) (headed m p (keptCommands m p dropped))

/-- The emitted bytes. -/
abbrev output (m : MachO) (patches : List (Nat × Nat)) (stubText : List UInt8) (p : Plan)
    (dropped : List Nat) : List UInt8 :=
  assembled m p stubText (front m p dropped patches)

/-- The sums and positions of an image that is emitted. -/
structure Emits (m : MachO) (patches : List (Nat × Nat)) (stubText : List UInt8) (p : Plan)
    (dropped : List Nat) : Prop where
  fitting : Fitting m stubText p dropped
  imageFits : ∀ x ∈ m.commands.zipIdx, ImageFits p x
  headFits : HeadFits m p (keptCommands m p dropped)
  patchesFit : ∀ patch ∈ patches, PatchFits m patch ∧ Placed m p patch
  restFits : RestFits m p

/-- No sum made in emitting passes its width, and no position its piece. -/
structure EmitFits (m : MachO) (patches : List (Nat × Nat)) (stubText : List UInt8) : Prop where
  text : TextFits m
  signature : ∀ linkedit, m.segment "__LINKEDIT" = some linkedit → LaidOut m linkedit →
    SignatureFits m linkedit
  images : ∀ p, Planned m stubText p → ∀ x ∈ m.commands.zipIdx, ImageFits p x
  head : ∀ p dropped, Fitting m stubText p dropped →
    HeadFits m p (keptCommands m p dropped)
  patchesFit : ∀ p dropped, Fitting m stubText p dropped → PatchesFit m p patches
  rest : ∀ p dropped, Fitting m stubText p dropped →
    (∀ patch ∈ patches, Placed m p patch) → RestFits m p

include parsed short small in
/-- Emitting once the commands are repacked. -/
theorem emit_of_planned {p : Plan} (planned : Planned m stubText p)
    (imageFits : ∀ x ∈ m.commands.zipIdx, ImageFits p x) :
    ∃ dropped, Dropped (emitted m p) (headerSpace m) (emittedOrder m p) dropped ∧
      m.emit patches stubText =
        if headerSpace m < lengths (keptCommands m p dropped) + SIGNATURE_CMD_SIZE then
          .error (.noHeaderRoom (lengths (emitted m p) + SIGNATURE_CMD_SIZE) (headerSpace m))
        else (do
          let out ← m.writeCommands p (keptCommands m p dropped)
          let out ← patches.foldlM (m.applyPatch p) out
          m.appendPieces p stubText out) := by
  have few := lengths_emitted parsed short planned.isLinkedit
  obtain ⟨dropped, spec, indices, fitted⟩ := fitCommands_eq
    (r := { commands := emitted m p, optional := rankedFrom 0 (images m p) }) (m := m)
    (by dsimp only; omega) (sizeofcmds_lt parsed) (fun s present section_ inSections =>
      offset_lt parsed present inSections) (indices_dropOrder (images m p))
  refine ⟨dropped, spec, ?_⟩
  unfold MachO.emit
  rw [(plan_eq_ok small).mpr planned, ok_bind,
    repack_of_fits (holds_of_parsed parsed planned.isLinkedit) imageFits, ok_bind, fitted]
  split_ifs <;> rfl

section Steps

variable {p : Plan} {dropped : List Nat}

omit parsed short areAddrs small in
theorem Planned.aligned (planned : Planned m stubText p) : p.linkedit.fileoff % PAGE = 0 := by
  obtain ⟨_, -, checked, -⟩ := planned.laidOut
  exact checked.1

omit parsed short areAddrs in
include small in
theorem Planned.inserted_le (planned : Planned m stubText p) : p.inserted ≤ 2 ^ 63 := by
  rw [planned.inserted]
  unfold pageUp PAGE
  omega

omit areAddrs small in
include parsed short in
theorem lengths_kept_lt (fitting : Fitting m stubText p dropped) :
    lengths (keptCommands m p dropped) + HEADER_SIZE < 2 ^ 64 := by
  have few := lengths_emitted parsed short fitting.planned.isLinkedit
  obtain ⟨count, -, isPrefix⟩ := fitting.isDropped.isPrefix
  have indices := indices_dropOrder (images m p)
  have split : (emittedOrder m p).map (·.1) =
      ((emittedOrder m p).take count).map (·.1) ++ ((emittedOrder m p).drop count).map (·.1) := by
    rw [← List.map_append, List.take_append_drop]
  rw [split] at indices
  have indices := indices.of_prefix
  rw [← isPrefix] at indices
  have kept : lengths (keptCommands m p dropped) + weights (emitted m p) dropped =
      lengths (emitted m p) := lengths_without indices.distinct indices.inside
  omega

include parsed short small in
theorem writeCommands_of_fitting (fitting : Fitting m stubText p dropped) :
    (HeadFits m p (keptCommands m p dropped) →
      m.writeCommands p (keptCommands m p dropped) =
        ok (headed m p (keptCommands m p dropped))) ∧
      (¬ HeadFits m p (keptCommands m p dropped) →
        m.writeCommands p (keptCommands m p dropped) = .panic) :=
  writeCommands_eq fitting.planned.aligned (by rwa [parsed.isData]) (sizeofcmds_lt parsed)
    (lengths_kept_lt parsed short fitting) (fitting.planned.inserted_le small)

omit parsed short areAddrs small in
theorem length_front (aligned : p.linkedit.fileoff % PAGE = 0)
    (headFits : HeadFits m p (keptCommands m p dropped))
    (patchesFit : ∀ patch ∈ patches, PatchFits m patch ∧ Placed m p patch) :
    (front m p dropped patches).length = p.linkedit.fileoff := by
  have start := length_headed headFits aligned
  unfold front
  generalize headed m p (keptCommands m p dropped) = out at start ⊢
  induction patches generalizing out with
  | nil => exact start
  | cons patch patches inductionHypothesis =>
      obtain ⟨here, later⟩ := List.forall_mem_cons.mp patchesFit
      exact inductionHypothesis later _ (length_patched start here.2)

include parsed short small in
theorem appendPieces_of_fitting (fitting : Fitting m stubText p dropped)
    (headFits : HeadFits m p (keptCommands m p dropped)) {out : List UInt8}
    (length : out.length = p.linkedit.fileoff) :
    (RestFits m p → m.appendPieces p stubText out = ok (assembled m p stubText out)) ∧
      (¬ RestFits m p → m.appendPieces p stubText out = .panic) := by
  have inserted := fitting.planned.inserted_le small
  have inside := headFits.inside
  rw [parsed.isData] at inside
  exact appendPieces_eq length fitting.planned.inserted (by omega) (by rwa [parsed.isData])

end Steps

include parsed short areAddrs small in
/-- What is emitted, and when. -/
theorem emit_eq_ok {out : List UInt8} :
    m.emit patches stubText = ok out ↔
      ∃ p dropped, Emits m patches stubText p dropped ∧
        out = output m patches stubText p dropped := by
  constructor
  · intro ran
    have start := ran
    unfold MachO.emit at start
    obtain ⟨p, isPlan, start⟩ := bind_eq_ok.mp start
    obtain ⟨r, isRepacked, -⟩ := bind_eq_ok.mp start
    have planned := (plan_eq_ok small).mp isPlan
    have holds := holds_of_parsed parsed planned.isLinkedit
    have imageFits : ∀ x ∈ m.commands.zipIdx, ImageFits p x := by
      refine (returns_repack holds).mp ?_
      rw [isRepacked]
      exact returns_ok r
    obtain ⟨dropped, isDropped, same⟩ :=
      @emit_of_planned _ _ parsed short patches _ small _ planned imageFits
    rw [same] at ran
    split_ifs at ran with isFull
    have fitting : Fitting m stubText p dropped := ⟨planned, isDropped, not_lt.mp isFull⟩
    obtain ⟨writes, fails⟩ := writeCommands_of_fitting parsed short small fitting
    by_cases headFits : HeadFits m p (keptCommands m p dropped)
    · have length := length_headed headFits planned.aligned
      rw [writes headFits, ok_bind] at ran
      obtain ⟨out', isPatched, ran⟩ := bind_eq_ok.mp ran
      obtain ⟨patchesFit, rfl⟩ := (foldlM_applyPatch_eq_ok areAddrs length).mp isPatched
      have length := length_front planned.aligned headFits patchesFit
      obtain ⟨appends, fails⟩ := appendPieces_of_fitting parsed short small fitting headFits length
      by_cases restFits : RestFits m p
      · exact ⟨p, dropped, ⟨fitting, imageFits, headFits, patchesFit, restFits⟩,
          (ok.inj ((appends restFits).symm.trans ran)).symm⟩
      · cases (fails restFits).symm.trans ran
    · rw [fails headFits] at ran
      cases ran
  · rintro ⟨p, dropped, ⟨fitting, imageFits, headFits, patchesFit, restFits⟩, rfl⟩
    obtain ⟨dropped', isDropped, same⟩ :=
      @emit_of_planned _ _ parsed short patches _ small _ fitting.planned imageFits
    obtain rfl := fitting.isDropped.unique isDropped
    have length := length_headed headFits fitting.planned.aligned
    rw [same, if_neg (not_lt.mpr fitting.room),
      (writeCommands_of_fitting parsed short small fitting).1 headFits, ok_bind,
      (foldlM_applyPatch_eq_ok areAddrs length).mpr ⟨patchesFit, rfl⟩, ok_bind]
    exact (appendPieces_of_fitting parsed short small fitting headFits
      (length_front fitting.planned.aligned headFits patchesFit)).1 restFits

include parsed short areAddrs small in
/-- Emitting returns exactly when its sums and positions fit. -/
theorem returns_emit :
    (m.emit patches stubText).Returns ↔ EmitFits m patches stubText := by
  have images : ∀ {p}, (m.emit patches stubText).Returns → Planned m stubText p →
      ∀ x ∈ m.commands.zipIdx, ImageFits p x := by
    intro p returns planned
    refine (returns_repack (holds_of_parsed parsed planned.isLinkedit)).mp ?_
    unfold MachO.emit at returns
    rw [(plan_eq_ok small).mpr planned, ok_bind] at returns
    exact (returns_bind.mp returns).1
  have later : ∀ {p dropped}, (m.emit patches stubText).Returns → Fitting m stubText p dropped →
      (do
        let out ← m.writeCommands p (keptCommands m p dropped)
        let out ← patches.foldlM (m.applyPatch p) out
        m.appendPieces p stubText out).Returns := by
    intro p dropped returns fitting
    obtain ⟨dropped', isDropped, same⟩ := @emit_of_planned _ _ parsed short patches _ small _
      fitting.planned (images returns fitting.planned)
    obtain rfl := fitting.isDropped.unique isDropped
    rwa [same, if_neg (not_lt.mpr fitting.room)] at returns
  have head : ∀ {p dropped}, (m.emit patches stubText).Returns → Fitting m stubText p dropped →
      HeadFits m p (keptCommands m p dropped) := by
    intro p dropped returns fitting
    by_contra unfit
    have returns := later returns fitting
    rw [(writeCommands_of_fitting parsed short small fitting).2 unfit] at returns
    exact not_returns_panic returns
  have patching : ∀ {p dropped}, (m.emit patches stubText).Returns → Fitting m stubText p dropped →
      (patches.foldlM (m.applyPatch p) (headed m p (keptCommands m p dropped)) >>=
        m.appendPieces p stubText).Returns := by
    intro p dropped returns fitting
    have headFits := head returns fitting
    have returns := later returns fitting
    rwa [(writeCommands_of_fitting parsed short small fitting).1 headFits, ok_bind] at returns
  constructor
  · intro returns
    have plan := (returns_plan small).mp (returns_bind.mp returns).1
    refine
      { text := plan.1
        signature := plan.2
        images := fun p planned => images returns planned
        head := fun p dropped fitting => head returns fitting
        patchesFit := fun p dropped fitting => ?_
        rest := fun p dropped fitting placed => ?_ }
    · have length := length_headed (head returns fitting) fitting.planned.aligned
      exact (returns_foldlM_applyPatch areAddrs length).mp
        (returns_bind.mp (patching returns fitting)).1
    · have headFits := head returns fitting
      have length := length_headed headFits fitting.planned.aligned
      have patching := returns_bind.mp (patching returns fitting)
      have fits := (returns_foldlM_applyPatch areAddrs length).mp patching.1
      have patchesFit : ∀ patch ∈ patches, PatchFits m patch ∧ Placed m p patch :=
        patchesFit_of_placed fits placed
      have ran := patching.2 _ ((foldlM_applyPatch_eq_ok areAddrs length).mpr ⟨patchesFit, rfl⟩)
      change (m.appendPieces p stubText (front m p dropped patches)).Returns at ran
      by_contra unfit
      rw [(appendPieces_of_fitting parsed short small fitting headFits
        (length_front fitting.planned.aligned headFits patchesFit)).2 unfit] at ran
      exact not_returns_panic ran
  · intro fits
    cases isPlan : m.plan stubText with
    | panic => exact absurd isPlan ((returns_plan small).mpr ⟨fits.text, fits.signature⟩)
    | error e =>
        unfold MachO.emit
        rw [isPlan]
        exact returns_error e
    | ok p =>
        have planned := (plan_eq_ok small).mp isPlan
        obtain ⟨dropped, isDropped, same⟩ := @emit_of_planned _ _ parsed short patches _ small _
          planned (fits.images p planned)
        rw [same]
        split_ifs with isFull
        · exact returns_error _
        · have fitting : Fitting m stubText p dropped := ⟨planned, isDropped, not_lt.mp isFull⟩
          have headFits := fits.head p dropped fitting
          have length := length_headed headFits planned.aligned
          rw [(writeCommands_of_fitting parsed short small fitting).1 headFits, ok_bind,
            returns_bind]
          refine ⟨(returns_foldlM_applyPatch areAddrs length).mpr
            (fits.patchesFit p dropped fitting), fun out isPatched => ?_⟩
          obtain ⟨patchesFit, rfl⟩ := (foldlM_applyPatch_eq_ok areAddrs length).mp isPatched
          change (m.appendPieces p stubText (front m p dropped patches)).Returns
          rw [(appendPieces_of_fitting parsed short small fitting headFits
            (length_front planned.aligned headFits patchesFit)).1
              (fits.rest p dropped fitting fun patch present => (patchesFit patch present).2)]
          exact returns_ok _

end Emit

end Macho

end Derp
