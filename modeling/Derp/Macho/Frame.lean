import Derp.Macho.Built
import Derp.Macho.Checks

/-!
# What emitting keeps

The image is the file with patched words, the new segment in front of what is
left of `__LINKEDIT`, and load commands that are the file's in order, changed
only where they give `__LINKEDIT`'s ranges or point into it.
-/

namespace Derp

namespace Macho

open Outcome Slices Checked

section Commands

/-- Only the offsets into `__LINKEDIT` are changed, each that is not zero moved by
the amount. -/
structure Moved (delta : Nat) (c c' : Command) : Prop where
  cmd : c'.cmd = c.cmd
  length : c'.bytes.length = c.bytes.length
  fields : ∀ off ∈ linkeditFields c.cmd,
    u32? c'.bytes off = (u32? c.bytes off).map fun v => if v = 0 then 0 else v + delta
  others : ∀ start stop, (∀ off ∈ linkeditFields c.cmd, stop ≤ off ∨ off + 4 ≤ start) →
    slice? c'.bytes start stop = slice? c.bytes start stop

/-- Only the ranges are changed, to those of the plan. -/
structure Ranged (p : Plan) (c c' : Command) : Prop where
  cmd : c'.cmd = c.cmd
  length : c'.bytes.length = c.bytes.length
  ranges : NewRanges p c'.bytes
  others : ∀ start stop, stop ≤ 24 ∨ 56 ≤ start →
    slice? c'.bytes start stop = slice? c.bytes start stop

/-- The command of a segment of the plan's ranges without sections. -/
structure IsStub (p : Plan) (c : Command) : Prop where
  cmd : c.cmd = LC_SEGMENT_64
  length : c.bytes.length = SEGMENT_CMD_SIZE
  segment : SegmentBytes c.bytes (stubSegment p)

/-- The commands of an image: those of the file in order without the signature,
and the new segment's right in front of `__LINKEDIT`'s.  Some are given up, in
the order of their ranks, as long as the rest has no room. -/
structure Recast (m : MachO) (p : Plan) (commands : List Command) (images : List Image)
    (dropped : List Nat) : Prop where
  sources : images.filterMap (·.source) = m.commands.filter (·.cmd ≠ LC_CODE_SIGNATURE)
  ranks : ∀ i ∈ images, i.rank = i.source.bind m.droppable
  linkedit : ∃ before stub c moved after, images = before ++ stub :: moved :: after ∧
    stub.source = none ∧ IsStub p stub.command ∧
      m.commands[p.linkedit.cmdIndex]? = some c ∧ moved.source = some c ∧
        Ranged p c moved.command ∧
          ∀ i ∈ before ++ after, ∃ c, i.source = some c ∧ Moved p.inserted c i.command
  isDropped : Dropped (images.map (·.command)) (headerSpace m) (dropOrder (rankedFrom 0 images))
    dropped
  kept : commands = (without dropped 0 images).map (·.command)

variable {data : List UInt8} {m : MachO} {p : Plan}

theorem moved_shifted {c : Command} (fits : ShiftFits c.cmd c.bytes p.inserted)
    (small : p.inserted < 2 ^ 32) :
    Moved p.inserted c { cmd := c.cmd, bytes := shifted c.cmd c.bytes p.inserted } where
  cmd := rfl
  length := length_foldl_bumped
  fields := by
    intro off isField
    refine (u32?_foldl_bumped (separate_linkeditFields _) fits isField).trans ?_
    unfold moved
    rw [Nat.mod_eq_of_lt small]
  others := fun _ _ apart => slice?_foldl_bumped_of_apart apart

theorem ranged_relocated {c : Command} (inside : SEGMENT_CMD_SIZE - 16 ≤ c.bytes.length)
    (fits : RelocationFits p) : Ranged p c { cmd := c.cmd, bytes := relocated p c.bytes } where
  cmd := rfl
  length := (lengths_relocated inside).2.2.2
  ranges := newRanges_relocated inside fits
  others := fun _ _ apart => slice?_relocated_of_apart inside apart

theorem isStub_stubCommand (fits : PlanFits p) : IsStub p (stubCommand p) where
  cmd := rfl
  length := length_stubCommand
  segment := segmentBytes_stubCommand fits.textAddr fits.inserted fits.fileoff

theorem image_of_ne {numbered : Command × Nat} (isOther : numbered.2 ≠ p.linkedit.cmdIndex) :
    image m p numbered =
      if numbered.1.cmd = LC_CODE_SIGNATURE then []
      else
        [{ source := numbered.1
           command :=
            { cmd := numbered.1.cmd, bytes := shifted numbered.1.cmd numbered.1.bytes p.inserted }
           rank := m.droppable numbered.1 }] := by
  unfold image
  rw [if_neg isOther]

theorem sources_image (numbered : Command × Nat) :
    (image m p numbered).filterMap (·.source) =
      [numbered.1].filter (·.cmd ≠ LC_CODE_SIGNATURE) := by
  unfold image
  by_cases isSignature : numbered.1.cmd = LC_CODE_SIGNATURE
  · rw [if_pos isSignature]
    simp [isSignature]
  · rw [if_neg isSignature]
    split_ifs <;> simp [isSignature]

theorem sources_images :
    (images m p).filterMap (·.source) = m.commands.filter (·.cmd ≠ LC_CODE_SIGNATURE) := by
  unfold images
  generalize 0 = n
  induction m.commands generalizing n with
  | nil => rfl
  | cons c commands inductionHypothesis =>
      rw [List.zipIdx_cons, List.flatMap_cons, List.filterMap_append, inductionHypothesis,
        sources_image, ← List.filter_append]
      rfl

theorem droppable_segment {c : Command} (isSegment : c.cmd = LC_SEGMENT_64) :
    m.droppable c = none := by
  unfold MachO.droppable
  rw [isSegment, if_neg (by rintro ⟨⟨⟩, -⟩), if_neg (by decide), if_neg (by decide)]

theorem moved_images {items : List (Command × Nat)}
    (others : ∀ x ∈ items, x.2 ≠ p.linkedit.cmdIndex) (fits : ∀ x ∈ items, ImageFits p x)
    (small : p.inserted < 2 ^ 32) :
    ∀ i ∈ items.flatMap (image m p), i.rank = i.source.bind m.droppable ∧
      ∃ c, i.source = some c ∧ Moved p.inserted c i.command := by
  intro i present
  obtain ⟨x, inItems, inImage⟩ := List.mem_flatMap.mp present
  have isOther := others x inItems
  have fits := fits x inItems
  rw [image_of_ne isOther] at inImage
  split_ifs at inImage with isSignature
  · cases inImage
  · obtain rfl := List.mem_singleton.mp inImage
    have fits := fits isSignature
    rw [if_neg isOther] at fits
    exact ⟨rfl, x.1, rfl, moved_shifted fits small⟩

/-- The commands of the image are those of the file, each changed in its own way. -/
theorem recast_of_emits (parsed : Parsed data m) (short : data.length < 2 ^ 63)
    {patches : List (Nat × Nat)} {stubText : List UInt8} (textLength : stubText.length < 2 ^ 63)
    {dropped : List Nat} (emits : Emits m patches stubText p dropped)
    (isText : stubText ≠ []) (small : p.inserted < 2 ^ 32) :
    Recast m p (keptCommands m p dropped) (images m p) dropped := by
  have planned := emits.fitting.planned
  have planFits := planFits parsed short textLength emits
  have present := List.mem_of_find?_eq_some planned.isLinkedit
  obtain ⟨c, isCommand, isSegment, told⟩ := segmentBytes parsed present
  have isInserted : 0 < p.inserted := by
    rw [planned.inserted]
    exact pageUp_pos.mpr (List.length_pos_iff.mpr isText)
  obtain ⟨inside, rfl⟩ := List.getElem?_eq_some_iff.mp isCommand
  have split : m.commands.zipIdx =
      (m.commands.take p.linkedit.cmdIndex).zipIdx ++
        (m.commands[p.linkedit.cmdIndex], p.linkedit.cmdIndex) ::
          (m.commands.drop (p.linkedit.cmdIndex + 1)).zipIdx (p.linkedit.cmdIndex + 1) := by
    conv_lhs =>
      rw [← List.take_append_drop p.linkedit.cmdIndex m.commands,
        List.drop_eq_getElem_cons inside, List.zipIdx_append, List.length_take,
        Nat.min_eq_left (le_of_lt inside), Nat.zero_add, List.zipIdx_cons]
  have unsigned : m.commands[p.linkedit.cmdIndex].cmd ≠ LC_CODE_SIGNATURE := by
    rw [isSegment]
    decide
  have middle : image m p (m.commands[p.linkedit.cmdIndex], p.linkedit.cmdIndex) =
      [{ source := none, command := stubCommand p, rank := none },
        { source := m.commands[p.linkedit.cmdIndex]
          command :=
            { cmd := m.commands[p.linkedit.cmdIndex].cmd
              bytes := relocated p m.commands[p.linkedit.cmdIndex].bytes }
          rank := none }] := by
    unfold image
    rw [if_neg unsigned, if_pos rfl, if_pos isInserted]
    rfl
  have fits := emits.imageFits
  rw [split] at fits
  have before := @moved_images m p
    (m.commands.take p.linkedit.cmdIndex).zipIdx (fun x inItems => by
      have := (List.mem_zipIdx inItems).2.1
      rw [List.length_take] at this
      omega) (fun x inItems => fits x (List.mem_append_left _ inItems)) small
  have after := @moved_images m p
    ((m.commands.drop (p.linkedit.cmdIndex + 1)).zipIdx (p.linkedit.cmdIndex + 1))
    (fun x inItems => by
      have := (List.mem_zipIdx inItems).1
      omega) (fun x inItems => fits x (List.mem_append_right _ (List.mem_cons_of_mem _ inItems)))
      small
  have whole : images m p = _ := congrArg (List.flatMap (image m p)) split
  rw [List.flatMap_append, List.flatMap_cons, middle, List.cons_append, List.cons_append,
    List.nil_append] at whole
  refine
    { sources := sources_images
      ranks := ?_
      linkedit := ⟨_, _, _, _, _, whole, rfl, isStub_stubCommand planFits, isCommand, rfl,
        ranged_relocated (le_trans (Nat.sub_le _ _) told.length) (relocationFits parsed emits), ?_⟩
      isDropped := emits.fitting.isDropped
      kept := keptCommands_eq }
  · rw [whole]
    intro i isImage
    rcases List.mem_append.mp isImage with isImage | isImage
    · exact (before i isImage).1
    · rcases List.mem_cons.mp isImage with rfl | isImage
      · rfl
      · rcases List.mem_cons.mp isImage with rfl | isImage
        · exact (droppable_segment isSegment).symm
        · exact (after i isImage).1
  · intro i isImage
    rcases List.mem_append.mp isImage with isImage | isImage
    · exact (before i isImage).2
    · exact (after i isImage).2

end Commands

section Bytes

variable {data : List UInt8} {m : MachO} (parsed : Parsed data m) (short : data.length < 2 ^ 63)
  {patches : List (Nat × Nat)} {stubText : List UInt8} (textLength : stubText.length < 2 ^ 63)
  {p : Plan} {dropped : List Nat} (emits : Emits m patches stubText p dropped)

/-- The output is the file with its commands recast, words patched, and the text in
front of what is left of `__LINKEDIT`. -/
structure Keeps (data out : List UInt8) (m : MachO) (patches : List (Nat × Nat))
    (stubText : List UInt8) (first : Nat) (p : Plan) : Prop where
  planned : Planned m stubText p
  commands : ∃ m' images dropped, MachO.parse out = ok m' ∧
    m'.header.sizeofcmds = lengths m'.commands ∧ Recast m p m'.commands images dropped
  placed : ∀ patch ∈ patches, Placed m p patch
  unpatched : ∀ i, first ≤ i → i < p.linkedit.fileoff →
    (∀ patch ∈ patches, ∀ off, spotIn m.segments patch.1 = some off → i < off ∨ off + 4 ≤ i) →
      out[i]? = data[i]?
  patched : ∀ before patch after, patches = before ++ patch :: after →
    ∀ off, spotIn m.segments patch.1 = some off →
      (∀ later ∈ after, spotIn m.segments later.1 ≠ some off) →
        slice? out off (off + 4) = some (toLittleEndian 4 patch.2)
  text : slice? out p.linkedit.fileoff (p.linkedit.fileoff + p.inserted) =
    some (stubText ++ List.replicate (p.inserted - stubText.length) 0)
  inFile : p.linkedit.fileoff + p.newLinkeditSize ≤ data.length
  rest : slice? out (p.linkedit.fileoff + p.inserted)
    (p.linkedit.fileoff + p.newLinkeditSize + p.inserted) =
      slice? data p.linkedit.fileoff (p.linkedit.fileoff + p.newLinkeditSize)
  length : out.length = p.linkedit.fileoff + p.inserted + p.newLinkeditSize

include emits in
/-- The new commands end in front of the first section. -/
theorem newEnd_le_first {first : Nat} (isFirst : firstOffset m = some first)
    (behind : HEADER_SIZE + m.header.sizeofcmds ≤ first) :
    HEADER_SIZE + lengths (keptCommands m p dropped) + SIGNATURE_CMD_SIZE ≤ first := by
  have room := emits.fitting.room
  unfold headerSpace at room
  rw [isFirst, Option.getD_some] at room
  omega

include parsed short textLength emits in
theorem keeps_output {first : Nat} (isFirst : firstOffset m = some first)
    (behind : HEADER_SIZE + m.header.sizeofcmds ≤ first)
    (apart : patches.Pairwise (SameOrApart m)) (isText : stubText ≠ [])
    (small : p.inserted < 2 ^ 32) (whole : WholeCommands m)
    (clear : ClearOf m patches (keptCommands m p dropped))
    (outShort : (output m patches stubText p dropped).length < 2 ^ 63) :
    Keeps data (output m patches stubText p dropped) m patches stubText first p := by
  have planned := emits.fitting.planned
  have placed : ∀ patch ∈ patches, Placed m p patch :=
    fun patch present => (emits.patchesFit patch present).2
  have headLength := length_headed_of_emits emits
  have frontLength := length_front_of_emits emits
  have restFits := emits.restFits
  have newEnd := newEnd_le_first emits isFirst behind
  refine
    { planned
      commands := ?_
      placed
      unpatched := ?_
      patched := ?_
      text := slice?_assembled_stub frontLength planned.inserted
      inFile := by
        unfold RestFits at restFits
        rwa [parsed.isData] at restFits
      rest := ?_
      length := length_assembled frontLength planned.inserted restFits }
  · obtain ⟨m', parsed', isCommands, isSize, -⟩ :=
      parsed_output parsed short textLength emits whole clear
    have recast := recast_of_emits parsed short textLength emits isText small
    refine ⟨m', images m p, dropped, ?_, by rw [isSize, isCommands], by rwa [isCommands]⟩
    exact (parse_eq_ok outShort).mpr parsed'
  · intro i late inside untouched
    have unpatched : (output m patches stubText p dropped)[i]? =
        (headed m p (keptCommands m p dropped))[i]? :=
      (getElem?_assembled_front frontLength planned.inserted inside).trans
        (getElem?_foldl_patched_of_apart headLength placed untouched)
    rw [unpatched, ← parsed.isData]
    exact getElem?_headed_of_le emits.headFits planned.aligned (by omega) (by omega) inside
  · rintro before patch after rfl off isSpot isLast
    obtain ⟨off', isSpot', inside⟩ := placed patch (by simp)
    obtain rfl := Option.some.inj (isSpot.symm.trans isSpot')
    rw [slice?_assembled_front frontLength planned.inserted inside]
    unfold front
    exact slice?_foldl_patched_last headLength placed
      (List.pairwise_cons.mp (List.pairwise_append.mp apart).2.1).1 isSpot isLast
  · rw [slice?_assembled_rest frontLength planned.inserted restFits (by omega) le_rfl le_rfl,
      parsed.isData]

/-- Patches are at file positions past so many bytes of commands. -/
def PastCommands (m : MachO) (patches : List (Nat × Nat)) (size : Nat) : Prop :=
  ∀ patch ∈ patches, ∀ off, spotIn m.segments patch.1 = some off → HEADER_SIZE + size ≤ off

include parsed emits in
/-- Patches past the old commands leave the size of the new ones. -/
theorem u32?_output_sizeofcmds (past : PastCommands m patches m.header.sizeofcmds) :
    u32? (output m patches stubText p dropped) 20 = some (lengths (keptCommands m p dropped)) := by
  have planned := emits.fitting.planned
  have page := page_le_fileoff emits.headFits planned.aligned
  rw [← u32?_headed_sizeofcmds emits.headFits planned.aligned
    (lengths_keptCommands_lt parsed emits)]
  unfold u32?
  rw [slice?_assembled_front (length_front_of_emits emits) planned.inserted (by omega)]
  unfold front
  rw [slice?_foldl_patched_of_apart (length_headed_of_emits emits)
    (fun patch present => (emits.patchesFit patch present).2)]
  intro patch present off isSpot
  have := past patch present off isSpot
  unfold HEADER_SIZE at this
  omega

end Bytes

/-- The frame of emitting in each build, for files of whole commands, texts below 4 GiB
and patches past the commands of the file and of the output, where no sum leaves its
width. -/
theorem keeps_emit [Build] {data : List UInt8} (short : data.length < 2 ^ 63) {m : MachO}
    (isParsed : MachO.parse data = ok m) (whole : WholeCommands m) {first : Nat}
    (isFirst : firstOffset m = some first) (behind : HEADER_SIZE + m.header.sizeofcmds ≤ first)
    {patches : List (Nat × Nat)} (areAddrs : ∀ patch ∈ patches, patch.1 < 2 ^ 64)
    (apart : patches.Pairwise (SameOrApart m)) (past : PastCommands m patches m.header.sizeofcmds)
    {stubText : List UInt8} (isText : stubText ≠ []) (small : pageUp stubText.length < 2 ^ 32)
    (fits : EmitFits m patches stubText) {out : List UInt8} (outShort : out.length < 2 ^ 63)
    (emitted : m.emit patches stubText = ok out)
    (pastNew : ∀ size, u32? out 20 = some size → PastCommands m patches size) :
    ∃ p, Keeps data out m patches stubText first p := by
  rw [parse_eq_checked short] at isParsed
  have parsed := (parse_eq_ok short).mp isParsed
  have textLength : stubText.length < 2 ^ 63 := by
    have := le_pageUp stubText.length
    omega
  rw [emit_eq_checked short parsed areAddrs textLength fits] at emitted
  obtain ⟨p, dropped, emits, rfl⟩ := (emit_eq_ok parsed short areAddrs textLength).mp emitted
  refine ⟨p, keeps_output parsed short textLength emits isFirst behind apart isText ?_ whole
    (pastNew _ (u32?_output_sizeofcmds parsed emits past)) outShort⟩
  rwa [emits.fitting.planned.inserted]

section Program

/-- A program's `__TEXT` with one section. -/
def textCommand : Command :=
  { cmd := LC_SEGMENT_64
    bytes :=
      overwrite
        (overwrite
          ((segmentCommand "__TEXT" 0x100000000 0x4000 0 5).bytes ++ ascii "__text" ++
            List.replicate 10 0 ++ ascii "__TEXT" ++ List.replicate 10 0 ++
              toLittleEndian 8 0x100001000 ++ toLittleEndian 8 0x100 ++ toLittleEndian 4 0x1000 ++
                List.replicate 28 0)
          4 (toLittleEndian 4 152))
        64 (toLittleEndian 4 1) }

/-- Its `__DATA`, of zeros only, with a hole of two pages in front. -/
def dataCommand : Command :=
  { cmd := LC_SEGMENT_64
    bytes := overwrite (segmentCommand "__DATA" 0x10000C000 0x4000 0 3).bytes 48
      (toLittleEndian 8 0) }

/-- Two symbols and their names. -/
def symtabCommand : Command :=
  { cmd := LC_SYMTAB
    bytes := toLittleEndian 4 LC_SYMTAB ++ toLittleEndian 4 24 ++ toLittleEndian 4 0x4008 ++
      toLittleEndian 4 2 ++ toLittleEndian 4 0x4028 ++ toLittleEndian 4 20 }

def startsCommand : Command :=
  { cmd := LC_FUNCTION_STARTS
    bytes := toLittleEndian 4 LC_FUNCTION_STARTS ++ toLittleEndian 4 16 ++
      toLittleEndian 4 0x4000 ++ toLittleEndian 4 8 }

def programCommands : List Command :=
  [textCommand, segmentCommand "__LINKEDIT" 0x100004000 0x4000 0x4000 1, dataCommand]

def programLinkedit : Segment where
  cmdIndex := 1
  name := ascii "__LINKEDIT"
  vmaddr := 0x100004000
  vmsize := 0x4000
  fileoff := 0x4000
  filesize := 0x4000
  sections := []

def programSegments : List Segment :=
  [{ cmdIndex := 0
     name := ascii "__TEXT"
     vmaddr := 0x100000000
     vmsize := 0x4000
     fileoff := 0
     filesize := 0x4000
     sections :=
      [{ name := ascii "__text", addr := 0x100001000, size := 0x100, offset := 0x1000 }] },
    programLinkedit,
    { cmdIndex := 2
      name := ascii "__DATA"
      vmaddr := 0x10000C000
      vmsize := 0x4000
      fileoff := 0
      filesize := 0
      sections := [] }]

def programZeros : List UInt8 := List.replicate 0x7EB8 0

def program : MachO := saidBy programCommands programZeros programSegments

def programPlan (inserted : Nat) : Plan where
  linkedit := programLinkedit
  textAddr := 0x100004000
  inserted
  newLinkeditSize := 0x4000

theorem evaluated_programCommands :
    (∀ c ∈ programCommands, u32? c.bytes 0 = some c.cmd ∧ u32? c.bytes 4 = some c.bytes.length) ∧
      lengths programCommands = 296 ∧ segmentsOf 0 programCommands = ok programSegments := by
  decide +kernel

theorem framed_programCommands : ∀ c ∈ programCommands, Framed c := fun c present =>
  have framed := evaluated_programCommands.1 c present
  ⟨framed.1, framed.2⟩

theorem sizeofcmds_program : program.header.sizeofcmds = 296 := evaluated_programCommands.2.1

theorem whole_program : WholeCommands program :=
  fun c present => (framed_programCommands c present).length

theorem parsed_program : Parsed (fileOf programCommands programZeros) program :=
  parsed_fileOf framed_programCommands (by rw [evaluated_programCommands.2.1]; decide)
    evaluated_programCommands.2.2

theorem length_program : program.data.length = 0x8000 := by
  change (fileOf programCommands programZeros).length = _
  rw [length_fileOf, evaluated_programCommands.2.1, programZeros, List.length_replicate]
  decide

theorem laidOut_program : LaidOut program programLinkedit := by
  refine ⟨programSegments[0], by decide, ⟨by decide, by decide, by decide⟩,
    by decide, ?_⟩
  unfold OutOfReach
  decide

section Emitted

variable {stubText : List UInt8} {inserted : Nat} (isInserted : pageUp stubText.length = inserted)
  (few : inserted = 0x4000 ∨ inserted = 0x8000) {patches : List (Nat × Nat)}

include isInserted in
theorem planned_program : Planned program stubText (programPlan inserted) where
  isLinkedit := by
    change program.segment "__LINKEDIT" = some programLinkedit
    decide
  laidOut := laidOut_program
  textAddr := rfl
  inserted := isInserted.symm
  signature := by
    have none : program.linkeditData LC_CODE_SIGNATURE = none := by decide
    intro sigOff sigSize isTable
    rw [none] at isTable
    cases isTable
  unsigned := by
    have none : program.linkeditData LC_CODE_SIGNATURE = none := by decide
    unfold Unsigned
    rw [none]
    rfl

include few in
theorem evaluated_emitted :
    lengths (emitted program (programPlan inserted)) = 368 ∧
      (let read := u32? (written (keptCommands program (programPlan inserted) []))
      read 4 = some 152 ∧ read (152 + 4) = some 72 ∧ read (152 + 72 + 4) = some 72) := by
  rcases few with rfl | rfl <;> decide +kernel

include isInserted few in
theorem emits_program (patchesFit : ∀ patch ∈ patches,
      PatchFits program patch ∧ Placed program (programPlan inserted) patch) :
    Emits program patches stubText (programPlan inserted) [] := by
  have length := length_program
  obtain ⟨commands, -⟩ := evaluated_emitted few
  have fileoff : (programPlan inserted).linkedit.fileoff = 0x4000 := rfl
  have size := sizeofcmds_program
  have first : firstOffset program = some 0x1000 := by decide
  have space : headerSpace program = 0xFE0 := by
    unfold headerSpace HEADER_SIZE
    rw [size, first]
    rfl
  refine emits_of_room (planned_program isInserted) ?_
    (by rw [commands, space]; decide) (by omega) (by rw [fileoff]; decide)
    (by rw [commands, fileoff]; decide) (by rw [size, fileoff]; decide) patchesFit ?_
  · intro x present isKept
    split_ifs with isLinkedit
    · have textAddr : (programPlan inserted).textAddr = 0x100004000 := rfl
      have same : (programPlan inserted).inserted = inserted := rfl
      refine ⟨?_, ?_, ?_⟩
      · omega
      · change 0x4000 + PAGE < 2 ^ 64
        decide
      · omega
    · have none : ∀ x ∈ programCommands.zipIdx, linkeditFields x.1.cmd = [] := by decide
      intro off isField
      rw [none x present] at isField
      cases isField
  · have size : (programPlan inserted).newLinkeditSize = 0x4000 := rfl
    unfold RestFits
    omega

theorem fits_programPatch {addr word off : Nat} (isSpot : spotIn program.segments addr = some off)
    (inside : off + 4 ≤ 0x4000) :
    PatchFits program (addr, word) ∧ Placed program (programPlan inserted) (addr, word) := by
  refine ⟨⟨fun s isHolder => ?_, fun off' isSpot' => ?_⟩, off, isSpot, inside⟩
  · have present := List.mem_of_find?_eq_some isHolder
    have small : ∀ s ∈ programSegments, s.vmaddr + s.vmsize < 2 ^ 64 ∧ s.fileoff < 2 ^ 63 ∧
        s.filesize < 2 ^ 63 := by decide
    have := small s present
    exact ⟨this.1, fun early => by omega⟩
  · obtain rfl := Option.some.inj (isSpot.symm.trans isSpot')
    omega

theorem short_program : (fileOf programCommands programZeros).length < 2 ^ 63 := by
  have := length_program
  change (fileOf programCommands programZeros).length = _ at this
  omega

theorem parse_program : MachO.parse (fileOf programCommands programZeros) = ok program :=
  (parse_eq_ok short_program).mpr parsed_program

include isInserted few in
theorem emit_program (areAddrs : ∀ patch ∈ patches, patch.1 < 2 ^ 64)
    (patchesFit : ∀ patch ∈ patches,
      PatchFits program patch ∧ Placed program (programPlan inserted) patch) :
    program.emit patches stubText =
        ok (output program patches stubText (programPlan inserted) []) ∧
      (output program patches stubText (programPlan inserted) []).length = 0x8000 + inserted := by
  have emits := emits_program isInserted few patchesFit
  have short := le_pageUp stubText.length
  refine ⟨(emit_eq_ok parsed_program short_program areAddrs (by omega)).mpr
    ⟨programPlan inserted, [], emits, rfl⟩, ?_⟩
  have length : (output program patches stubText (programPlan inserted) []).length =
      0x4000 + inserted + 0x4000 :=
    length_assembled (length_front_of_emits emits) emits.fitting.planned.inserted emits.restFits
  omega

end Emitted

/-- The sums of a file that is emitted fit. -/
theorem emitFits_program {out : List UInt8} {patches : List (Nat × Nat)} {stubText : List UInt8}
    (areAddrs : ∀ patch ∈ patches, patch.1 < 2 ^ 64) (small : stubText.length < 2 ^ 63)
    (emitted : program.emit patches stubText = ok out) : EmitFits program patches stubText := by
  refine (returns_emit parsed_program short_program areAddrs small).mp ?_
  rw [emitted]
  exact returns_ok out

/-- A word of the section is patched by a build without checks. -/
theorem keeps_emit_program :
    ∃ p, Keeps (fileOf programCommands programZeros)
      (output program [(0x100001000, 7)] [1] (programPlan 0x4000) []) program [(0x100001000, 7)] [1]
        0x1000 p := by
  have isSpot : spotIn program.segments 0x100001000 = some 0x1000 := by decide
  have areAddrs : ∀ patch ∈ [(0x100001000, 7)], patch.1 < 2 ^ 64 := by decide
  have isInserted : pageUp [(1 : UInt8)].length = 0x4000 := by decide
  have patchesFit : ∀ patch ∈ [(0x100001000, 7)],
      PatchFits program patch ∧ Placed program (programPlan 0x4000) patch := by
    intro patch present
    obtain rfl := List.mem_singleton.mp present
    exact fits_programPatch isSpot (by decide)
  have past : ∀ {size : Nat}, size ≤ 368 → PastCommands program [(0x100001000, 7)] size := by
    intro size few patch present off isSpot'
    obtain rfl := List.mem_singleton.mp present
    obtain rfl := Option.some.inj (isSpot.symm.trans isSpot')
    unfold HEADER_SIZE
    omega
  have size := sizeofcmds_program
  obtain ⟨emitted, outLength⟩ := emit_program isInserted (Or.inl rfl) areAddrs patchesFit
  have isFirst : firstOffset program = some 0x1000 := by decide
  have behind : HEADER_SIZE + program.header.sizeofcmds ≤ 0x1000 := by
    rw [size]
    decide
  have fits := emitFits_program areAddrs (by decide) emitted
  refine @keeps_emit Wrapping.build _ short_program _
    ((@parse_eq_checked Wrapping.build _ short_program).trans parse_program) whole_program _
    isFirst behind _ areAddrs
    (List.pairwise_singleton _ _) (past (by omega)) _ (List.cons_ne_nil _ _)
    (by rw [isInserted]; decide) fits _ (by omega)
    ((@emit_eq_checked Wrapping.build _ short_program _ parsed_program _ areAddrs _ (by decide)
      fits).trans emitted) ?_
  intro size isSize
  refine past ?_
  have isNew := u32?_output_sizeofcmds parsed_program
    (emits_program isInserted (Or.inl rfl) patchesFit) (past (by omega))
  rw [keptCommands_nil, (evaluated_emitted (Or.inl rfl)).1] at isNew
  obtain rfl := Option.some.inj (isNew.symm.trans isSize)
  exact le_rfl

/-- A patch between the end of the commands and that of the new ones is written on
a new command, which then claims to be longer than the file. -/
theorem not_keeps_program :
    MachO.parse (fileOf programCommands programZeros) = ok program ∧ WholeCommands program ∧
      program.header.sizeofcmds = lengths program.commands ∧
        firstOffset program = some 0x1000 ∧ HEADER_SIZE + program.header.sizeofcmds ≤ 0x1000 ∧
          program.segment "__LINKEDIT" = some programLinkedit ∧
            0x1000 ≤ programLinkedit.fileoff ∧
              PastCommands program [(0x10000014C, 0xFFFFFFFF)] program.header.sizeofcmds ∧
                ∃ out, program.emit [(0x10000014C, 0xFFFFFFFF)] [1] = ok out ∧
                  ¬ ∃ p, Keeps (fileOf programCommands programZeros) out program
                    [(0x10000014C, 0xFFFFFFFF)] [1] 0x1000 p := by
  have isSpot : spotIn program.segments 0x10000014C = some 0x14C := by decide
  have areAddrs : ∀ patch ∈ [(0x10000014C, 0xFFFFFFFF)], patch.1 < 2 ^ 64 := by decide
  have isInserted : pageUp [(1 : UInt8)].length = 0x4000 := by decide
  have placed : ∀ patch ∈ [(0x10000014C, 0xFFFFFFFF)],
      PatchFits program patch ∧ Placed program (programPlan 0x4000) patch := by
    intro patch present
    obtain rfl := List.mem_singleton.mp present
    exact fits_programPatch isSpot (by decide)
  have emits := emits_program isInserted (Or.inl rfl) placed
  have aligned := emits.fitting.planned.aligned
  obtain ⟨emitted, outLength⟩ := emit_program isInserted (Or.inl rfl) areAddrs placed
  refine ⟨parse_program, whole_program, rfl, by decide, by rw [sizeofcmds_program]; decide,
    by decide, by decide, ?_, _, emitted, ?_⟩
  · intro patch present off isSpot'
    obtain rfl := List.mem_singleton.mp present
    obtain rfl := Option.some.inj (isSpot.symm.trans isSpot')
    rw [sizeofcmds_program]
    decide
  rintro ⟨p, keeps⟩
  obtain ⟨m', images, dropped, isAgain, -⟩ := keeps.commands
  have parsed' := (parse_eq_ok (by omega)).mp isAgain
  -- In front of the patch the output reads as the head
  have same : ∀ {off : Nat}, off + 4 ≤ 0x14C →
      u32? (output program [(0x10000014C, 0xFFFFFFFF)] [1] (programPlan 0x4000) []) off =
        u32? (headed program (programPlan 0x4000) (keptCommands program (programPlan 0x4000) []))
          off := by
    intro off early
    have fileoff : (programPlan 0x4000).linkedit.fileoff = 0x4000 := rfl
    unfold u32?
    rw [slice?_assembled_front (length_front_of_emits emits) emits.fitting.planned.inserted
      (by omega)]
    unfold front
    rw [slice?_foldl_patched_of_apart (length_headed_of_emits emits)
      (fun patch present => (placed patch present).2)]
    intro patch present off' isSpot'
    obtain rfl := List.mem_singleton.mp present
    obtain rfl := Option.some.inj (isSpot.symm.trans isSpot')
    exact Or.inl early
  have told : ∀ {off v : Nat}, HEADER_SIZE + off + 4 ≤ 0x14C →
      u32? (written (keptCommands program (programPlan 0x4000) [])) off = some v →
        u32? (output program [(0x10000014C, 0xFFFFFFFF)] [1] (programPlan 0x4000) [])
          (HEADER_SIZE + off) = some v := by
    intro off v early isNumber
    have length : lengths (keptCommands program (programPlan 0x4000) []) = 368 := by
      rw [keptCommands_nil]
      exact (evaluated_emitted (Or.inl rfl)).1
    rw [← isNumber, same early]
    refine u32?_of_slice? (slice?_headed_commands emits.headFits aligned) ?_
    unfold HEADER_SIZE at early ⊢
    omega
  have count := parsed'.ncmds
  rw [same (by decide), u32?_headed_ncmds emits.headFits aligned (by decide)] at count
  have four : m'.commands.length = 4 := by
    rw [← Option.some.inj count]
    decide
  -- The lengths of the first three, one behind the other, lead to the patched one
  obtain ⟨c₀, c₁, c₂, c₃, isCommands⟩ : ∃ c₀ c₁ c₂ c₃, m'.commands = [c₀, c₁, c₂, c₃] := by
    match isCommands : m'.commands, four with
    | [c₀, c₁, c₂, c₃], _ => exact ⟨c₀, c₁, c₂, c₃, rfl⟩
  have laid := parsed'.laid
  rw [isCommands] at laid
  obtain ⟨-, first, -, -, second, -, -, third, -, -, fourth, inside, -⟩ := laid
  obtain ⟨-, isFirst, isSecond, isThird⟩ := @evaluated_emitted 0x4000 (Or.inl rfl)
  rw [told (by decide) isFirst] at first
  rw [← Option.some.inj first, Nat.add_assoc HEADER_SIZE, told (by decide) isSecond] at second
  rw [← Option.some.inj first, ← Option.some.inj second, Nat.add_assoc HEADER_SIZE,
    Nat.add_assoc HEADER_SIZE, told (by decide) isThird] at third
  rw [← Option.some.inj first, ← Option.some.inj second, ← Option.some.inj third] at fourth inside
  have patched := keeps.patched [] _ [] rfl 0x14C isSpot (by simp)
  have long : u32? (output program [(0x10000014C, 0xFFFFFFFF)] [1] (programPlan 0x4000) []) 0x14C =
      some 0xFFFFFFFF := by
    unfold u32?
    rw [patched]
    decide
  have isLong := Option.some.inj (long.symm.trans fourth)
  have := (slice?_eq_some.mp inside).1.2
  omega

end Program

end Macho

end Derp
