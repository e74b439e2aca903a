import Derp.Macho.Recast

/-!
# The image as it is parsed again

Where the file's commands are whole and no patch is put on the new ones, the
image parses: its commands are the ones kept, its segments those of the file with
`__LINKEDIT` moved.
-/

namespace Derp

namespace Macho

open Outcome Slices Checked

section Kept

variable {m : MachO} {p : Plan}

/-- Every command of the file is as long as its prefix. -/
def WholeCommands (m : MachO) : Prop := ∀ c ∈ m.commands, 8 ≤ c.bytes.length

/-- The commands that are kept. -/
abbrev keptImages (m : MachO) (p : Plan) (dropped : List Nat) : List Image :=
  without dropped 0 (images m p)

theorem mem_images {i : Image} (present : i ∈ images m p) :
    ∃ c n, m.commands[n]? = some c ∧ i ∈ image m p (c, n) := by
  obtain ⟨⟨c, n⟩, numbered, inImage⟩ := List.mem_flatMap.mp present
  exact ⟨c, n, List.mem_zipIdx_iff_getElem?.mp numbered, inImage⟩

theorem framed_shifted {c : Command} (framed : Framed c) (delta : Nat) :
    Framed { cmd := c.cmd, bytes := shifted c.cmd c.bytes delta } := by
  have same : ∀ {start stop : Nat}, stop ≤ 8 →
      slice? (shifted c.cmd c.bytes delta) start stop = slice? c.bytes start stop := by
    intro start stop early
    refine slice?_foldl_bumped_of_apart fun off isField => Or.inl ?_
    exact le_trans early (late_linkeditFields isField)
  refine ⟨?_, ?_⟩
  · unfold u32?
    rw [same (by decide)]
    exact framed.cmd
  · unfold u32?
    rw [same (by decide)]
    have length : (shifted c.cmd c.bytes delta).length = c.bytes.length := length_foldl_bumped
    rw [length]
    exact framed.cmdsize

theorem framed_relocated {c : Command} (framed : Framed c)
    (inside : SEGMENT_CMD_SIZE - 16 ≤ c.bytes.length) :
    Framed { cmd := c.cmd, bytes := relocated p c.bytes } := by
  refine ⟨?_, ?_⟩
  · unfold u32?
    rw [slice?_relocated_of_apart inside (Or.inl (by decide))]
    exact framed.cmd
  · unfold u32?
    rw [slice?_relocated_of_apart inside (Or.inl (by decide)),
      (lengths_relocated inside).2.2.2]
    exact framed.cmdsize

variable {data : List UInt8} (parsed : Parsed data m) (whole : WholeCommands m)
  (isLinkedit : m.segment "__LINKEDIT" = some p.linkedit)

include parsed whole isLinkedit in
theorem framed_images {i : Image} (present : i ∈ images m p) : Framed i.command := by
  obtain ⟨c, n, isCommand, inImage⟩ := mem_images present
  have inFile := List.mem_of_getElem? isCommand
  have framed := framed_of_laid parsed.laid inFile (whole c inFile)
  have holds := holds_of_parsed parsed isLinkedit (c, n)
    (List.mem_zipIdx_iff_getElem?.mpr isCommand)
  unfold image at inImage
  dsimp only at inImage
  split_ifs at inImage with isSignature isNumber isInserted
  · cases inImage
  · rcases List.mem_append.mp inImage with isStub | isMoved
    · obtain rfl := List.mem_singleton.mp isStub
      exact framed_stubCommand
    · obtain rfl := List.mem_singleton.mp isMoved
      exact framed_relocated framed (holds isNumber)
  · obtain rfl := List.mem_singleton.mp inImage
    exact framed_relocated framed (holds isNumber)
  · obtain rfl := List.mem_singleton.mp inImage
    exact framed_shifted framed _

include parsed in
omit whole isLinkedit in
/-- Segment commands of the image say what a segment is. -/
theorem segmentBytes_images (fits : RelocationFits p) (planFits : PlanFits p) {i : Image}
    (present : i ∈ images m p) (isSegment : i.command.cmd = LC_SEGMENT_64) :
    ∃ s, SegmentBytes i.command.bytes s := by
  obtain ⟨c, n, isCommand, inImage⟩ := mem_images present
  have said : c.cmd = LC_SEGMENT_64 → ∃ s, SegmentBytes c.bytes s :=
    segmentBytes_of_segmentsOf parsed.isSegments c (List.mem_of_getElem? isCommand)
  unfold image at inImage
  dsimp only at inImage
  split_ifs at inImage with isSignature isNumber isInserted
  · cases inImage
  · rcases List.mem_append.mp inImage with isStub | isMoved
    · obtain rfl := List.mem_singleton.mp isStub
      exact ⟨_, segmentBytes_stubCommand planFits.textAddr planFits.inserted planFits.fileoff⟩
    · obtain rfl := List.mem_singleton.mp isMoved
      obtain ⟨s, told⟩ := said isSegment
      exact ⟨_, segmentBytes_relocated told fits⟩
  · obtain rfl := List.mem_singleton.mp inImage
    obtain ⟨s, told⟩ := said isSegment
    exact ⟨_, segmentBytes_relocated told fits⟩
  · obtain rfl := List.mem_singleton.mp inImage
    obtain ⟨s, told⟩ := said isSegment
    dsimp only at isSegment ⊢
    rw [isSegment, shifted_segment]
    exact ⟨s, told⟩

theorem mem_rankedFrom {images : List Image} {n i : Nat} {rank : Nat}
    (present : (i, rank) ∈ rankedFrom n images) :
    ∃ image, images[i - n]? = some image ∧ image.rank = some rank := by
  obtain ⟨⟨image, j⟩, numbered, isRanked⟩ := List.mem_filterMap.mp present
  obtain ⟨rank', isRank, same⟩ := Option.map_eq_some_iff.mp isRanked
  obtain ⟨rfl, rfl⟩ := Prod.mk.inj same
  obtain ⟨late, isImage⟩ := List.mem_zipIdx_iff_le_and_getElem?_sub.mp numbered
  exact ⟨image, isImage, isRank⟩

/-- What is given up has a rank. -/
theorem rank_of_dropped {dropped : List Nat} {room : Nat} {commands : List Command}
    (isDropped : Dropped commands room (emittedOrder m p) dropped) {i : Nat} (present : i ∈ dropped)
    {image : Image} (isImage : (images m p)[i]? = some image) : image.rank.isSome := by
  obtain ⟨count, -, rfl⟩ := isDropped.isPrefix
  obtain ⟨⟨j, rank⟩, inPrefix, rfl⟩ := List.mem_map.mp present
  have ranked := (List.mergeSort_perm _ _).mem_iff.mp (List.mem_of_mem_take inPrefix)
  obtain ⟨image', isImage', isRank⟩ := mem_rankedFrom ranked
  obtain rfl := Option.some.inj (isImage.symm.trans isImage')
  rw [isRank]
  rfl

/-- What may be given up is no segment. -/
theorem bare_of_rank {i : Image} (present : i ∈ images m p) (ranked : i.rank.isSome) :
    bare i.command = none := by
  obtain ⟨c, n, -, inImage⟩ := mem_images present
  unfold image at inImage
  dsimp only at inImage
  split_ifs at inImage with isSignature isNumber isInserted
  · cases inImage
  · rcases List.mem_append.mp inImage with isStub | isMoved
    · obtain rfl := List.mem_singleton.mp isStub
      cases ranked
    · obtain rfl := List.mem_singleton.mp isMoved
      cases ranked
  · obtain rfl := List.mem_singleton.mp inImage
    cases ranked
  · obtain rfl := List.mem_singleton.mp inImage
    refine bare_of_ne fun isSegment => ?_
    dsimp only at isSegment ranked
    unfold MachO.droppable at ranked
    rw [isSegment, if_neg (by rintro ⟨⟨⟩, -⟩), if_neg (by decide), if_neg (by decide)] at ranked
    cases ranked

end Kept

section Parsing

variable {data : List UInt8} {m : MachO} (parsed : Parsed data m) (short : data.length < 2 ^ 63)
  {patches : List (Nat × Nat)} {stubText : List UInt8} (small : stubText.length < 2 ^ 63)
  {p : Plan} {dropped : List Nat} (emits : Emits m patches stubText p dropped)

/-- No patch is put on the commands. -/
def ClearOf (m : MachO) (patches : List (Nat × Nat)) (commands : List Command) : Prop :=
  ∀ patch ∈ patches, ∀ off, spotIn m.segments patch.1 = some off →
    HEADER_SIZE + lengths commands ≤ off

theorem keptCommands_eq :
    keptCommands m p dropped = (keptImages m p dropped).map (·.command) := (map_without _).symm

include emits

theorem length_headed_of_emits :
    (headed m p (keptCommands m p dropped)).length = p.linkedit.fileoff :=
  length_headed emits.headFits emits.fitting.planned.aligned

theorem length_front_of_emits : (front m p dropped patches).length = p.linkedit.fileoff :=
  length_front emits.fitting.planned.aligned emits.headFits emits.patchesFit

/-- Up to the end of the commands the output is the head. -/
theorem slice?_output_of_le (clear : ClearOf m patches (keptCommands m p dropped))
    {start stop : Nat}
    (early : stop ≤ HEADER_SIZE + lengths (keptCommands m p dropped)) :
    slice? (output m patches stubText p dropped) start stop =
      slice? (headed m p (keptCommands m p dropped)) start stop := by
  have newEnd := emits.headFits.newEnd
  rw [slice?_assembled_front (length_front_of_emits emits) emits.fitting.planned.inserted
    (by omega)]
  exact slice?_foldl_patched_of_apart (length_headed_of_emits emits)
    (fun patch present => (emits.patchesFit patch present).2) fun patch present off isSpot =>
      Or.inl (by have := clear patch present off isSpot; omega)

include parsed in
theorem lengths_keptCommands_lt : lengths (keptCommands m p dropped) < 2 ^ 32 := by
  have room := emits.fitting.room
  have header := sizeofcmds_lt parsed
  unfold headerSpace HEADER_SIZE at room
  cases isFirst : firstOffset m with
  | none =>
      rw [isFirst, Option.getD_none] at room
      omega
  | some first =>
      obtain ⟨section_, inSection, isOffset⟩ := List.mem_filterMap.mp (List.min?_mem isFirst)
      obtain ⟨s, inSegment, inSections⟩ := List.mem_flatMap.mp inSection
      have := offset_lt parsed inSegment inSections
      split_ifs at isOffset
      obtain rfl := Option.some.inj isOffset
      rw [isFirst, Option.getD_some] at room
      omega

include parsed short small in
theorem planFits : PlanFits p := by
  have present := List.mem_of_find?_eq_some emits.fitting.planned.isLinkedit
  have inside := emits.headFits.inside
  have inserted := emits.fitting.planned.inserted_le small
  rw [parsed.isData] at inside
  refine ⟨?_, by omega, by omega⟩
  rw [emits.fitting.planned.textAddr]
  exact vmaddr_lt parsed present

include parsed in
theorem relocationFits : RelocationFits p := by
  obtain ⟨c, isCommand, isSegment, -⟩ := segmentBytes parsed
    (List.mem_of_find?_eq_some emits.fitting.planned.isLinkedit)
  have fits := emits.imageFits (c, p.linkedit.cmdIndex)
    (List.mem_zipIdx_iff_getElem?.mpr isCommand) (by dsimp only; rw [isSegment]; decide)
  dsimp only at fits
  rwa [if_pos rfl] at fits

include parsed short small in
/-- The output parses to the commands kept and the segments moved. -/
theorem parsed_output (whole : WholeCommands m)
    (clear : ClearOf m patches (keptCommands m p dropped)) :
    ∃ m', Parsed (output m patches stubText p dropped) m' ∧
      m'.commands = keptCommands m p dropped ∧
        m'.header.sizeofcmds = lengths (keptCommands m p dropped) ∧
          m'.segments.map Segment.view = m.segments.flatMap (segmentImages p) := by
  have planned := emits.fitting.planned
  have headFits := emits.headFits
  have framed : ∀ c ∈ keptCommands m p dropped, Framed c := by
    intro c present
    rw [keptCommands_eq] at present
    obtain ⟨i, isKept, rfl⟩ := List.mem_map.mp present
    exact framed_images parsed whole planned.isLinkedit (without_sublist.subset isKept)
  have few := lengths_keptCommands_lt parsed emits
  have count := length_le_lengths framed
  have segmentsSaid : ∀ c ∈ keptCommands m p dropped, c.cmd = LC_SEGMENT_64 →
      ∃ s, SegmentBytes c.bytes s := by
    intro c present isSegment
    rw [keptCommands_eq] at present
    obtain ⟨i, isKept, rfl⟩ := List.mem_map.mp present
    exact segmentBytes_images parsed (relocationFits parsed emits)
      (planFits parsed short small emits) (without_sublist.subset isKept) isSegment
  obtain ⟨segments, isSegments, views⟩ := exists_segmentsOf (n := 0) segmentsSaid
  have header : ∀ {off : Nat}, off + 4 ≤ 16 →
      u32? (output m patches stubText p dropped) off = u32? data off := by
    intro off early
    unfold u32?
    rw [slice?_output_of_le emits clear (by unfold HEADER_SIZE; omega),
      slice?_headed_of_lt headFits planned.aligned early, parsed.isData]
  have counts : ∀ {off v : Nat}, off + 4 ≤ 24 →
      u32? (headed m p (keptCommands m p dropped)) off = some v →
        u32? (output m patches stubText p dropped) off = some v := by
    intro off v early isCount
    unfold u32? at isCount ⊢
    rwa [slice?_output_of_le emits clear (by unfold HEADER_SIZE; omega)]
  refine ⟨{ data := output m patches stubText p dropped
            header :=
              { cputype := CPU_TYPE_ARM64
                filetype := MH_EXECUTE
                ncmds := (keptCommands m p dropped).length
                sizeofcmds := lengths (keptCommands m p dropped) }
            commands := keptCommands m p dropped
            segments }, ?_, rfl, rfl, ?_⟩
  · exact
      { magic := (header (by decide)).trans parsed.magic
        header := by
          have := page_le_fileoff headFits planned.aligned
          have : (output m patches stubText p dropped).length = _ :=
            length_assembled (length_front_of_emits emits) planned.inserted emits.restFits
          unfold HEADER_SIZE
          omega
        cputype := (header (by decide)).trans parsed.cputype
        filetype := (header (by decide)).trans parsed.filetype
        ncmds := counts (by decide) (u32?_headed_ncmds headFits planned.aligned (by omega))
        sizeofcmds := counts (by decide) (u32?_headed_sizeofcmds headFits planned.aligned few)
        isHeader := ⟨rfl, rfl, rfl⟩
        isData := rfl
        laid := by
          refine laid_of_written ?_ framed
          rw [slice?_output_of_le emits clear le_rfl]
          exact slice?_headed_commands headFits planned.aligned
        isSegments := isSegments }
  · dsimp only
    rw [views, keptCommands_eq, List.filterMap_map, filterMap_without]
    · exact filterMap_images parsed.isSegments (fun x numbered isNumber => by
        obtain ⟨c, isCommand, isSegment, -⟩ := segmentBytes parsed
          (List.mem_of_find?_eq_some planned.isLinkedit)
        rw [← isNumber, List.mem_zipIdx_iff_getElem?.mp numbered] at isCommand
        obtain rfl := Option.some.inj isCommand
        exact isSegment) (relocationFits parsed emits) (planFits parsed short small emits)
    · intro i image isImage isPosition
      rw [Nat.zero_add] at isPosition
      exact bare_of_rank (List.mem_of_getElem? isImage)
        (rank_of_dropped emits.fitting.isDropped isPosition isImage)

end Parsing

end Macho

end Derp
