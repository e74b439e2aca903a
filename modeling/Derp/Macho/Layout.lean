import Derp.Macho.Frame

/-!
# Where the image's pieces stand

`__LINKEDIT` moves up by the new segment and ends at the code signature.  Nothing
else moves, and nothing checks what stands where it goes or behind the signature:
the layout of the image is valid exactly when there is room.
-/

namespace Derp

namespace Macho

open Outcome Slices Checked

section Ranges

variable {start size start' size' : Nat}

/-- Two ranges have nothing in common. -/
def Apart (start size start' size' : Nat) : Prop :=
  ∀ a, start ≤ a → a < start + size → start' ≤ a → start' + size' ≤ a

theorem apart_iff : Apart start size start' size' ↔
    size = 0 ∨ size' = 0 ∨ start + size ≤ start' ∨ start' + size' ≤ start := by
  constructor
  · intro apart
    have atStart := apart start
    have atStart' := apart start'
    omega
  · intro cases a
    omega

theorem Apart.symm (apart : Apart start size start' size') : Apart start' size' start size := by
  rw [apart_iff] at apart ⊢
  omega

/-- Apart from two ranges, one behind the other, is apart from both together. -/
theorem apart_add {more : Nat} :
    Apart start size start' (size' + more) ↔
      Apart start size start' size' ∧ Apart start size (start' + size') more := by
  simp only [apart_iff]
  omega

end Ranges

section Valid

/-- Two segments have no memory and no bytes of the file in common. -/
structure Segment.Disjoint (s t : Segment) : Prop where
  memory : Apart s.vmaddr s.vmsize t.vmaddr t.vmsize
  file : Apart s.fileoff s.filesize t.fileoff t.filesize

theorem Segment.Disjoint.symm {s t : Segment} (disjoint : s.Disjoint t) : t.Disjoint s :=
  ⟨disjoint.memory.symm, disjoint.file.symm⟩

/-- Where a command gives the file offset of something in `__LINKEDIT`, and how many
there are of what size. -/
structure BlobField where
  off : Nat
  count : Nat
  width : Nat
deriving DecidableEq, Repr

/-- Symbols, strings, indirect symbols, function starts, data in code, exports,
fixups and what the loader is told. -/
def blobFields (cmd : Nat) : List BlobField :=
  if cmd ∈ [LC_FUNCTION_STARTS, LC_DATA_IN_CODE, LC_DYLD_EXPORTS_TRIE, LC_DYLD_CHAINED_FIXUPS] then
    [⟨8, 12, 1⟩]
  else if cmd = LC_SYMTAB then [⟨8, 12, 16⟩, ⟨16, 20, 1⟩]
  else if cmd = LC_DYSYMTAB then [⟨56, 60, 4⟩]
  else if cmd = LC_DYLD_INFO ∨ cmd = LC_DYLD_INFO_ONLY then
    [⟨8, 12, 1⟩, ⟨16, 20, 1⟩, ⟨24, 28, 1⟩, ⟨32, 36, 1⟩, ⟨40, 44, 1⟩]
  else []

def BlobField.offset (field : BlobField) (c : Command) : Nat := (u32? c.bytes field.off).getD 0

def BlobField.size (field : BlobField) (c : Command) : Nat :=
  (u32? c.bytes field.count).getD 0 * field.width

/-- What a command's field tells of in a file. -/
def BlobField.read (field : BlobField) (c : Command) (data : List UInt8) : Option (List UInt8) :=
  slice? data (field.offset c) (field.offset c + field.size c)

/-- What the commands tell of lies in `__LINKEDIT`. -/
def BlobsInside (m : MachO) (linkedit : Segment) : Prop :=
  ∀ c ∈ m.commands, ∀ field ∈ blobFields c.cmd, 0 < field.size c →
    linkedit.fileoff ≤ field.offset c ∧
      field.offset c + field.size c ≤ linkedit.fileoff + linkedit.filesize

/-- The output's segments are apart and in the file, and what a command that is kept
tells of is found where the command now says. -/
structure Valid (data out : List UInt8) (m : MachO) (p : Plan) (dropped : List Nat) : Prop where
  segments : ∃ m', MachO.parse out = ok m' ∧ m'.commands = keptCommands m p dropped ∧
    m'.segments.Pairwise Segment.Disjoint ∧
      ∀ s ∈ m'.segments, s.fileoff + s.filesize ≤ out.length
  blobs : ∀ i ∈ keptImages m p dropped, ∀ c, i.source = some c →
    ∀ field ∈ blobFields c.cmd, 0 < field.size c →
      ∃ bytes, field.read c data = some bytes ∧ field.read i.command out = some bytes

/-- There is room for `__LINKEDIT` in memory and in the file, and nothing that is
needed stands behind its new end. -/
structure Roomy (m : MachO) (p : Plan) (dropped : List Nat) : Prop where
  memory : ∀ s ∈ m.segments, s.cmdIndex ≠ p.linkedit.cmdIndex →
    Apart s.vmaddr s.vmsize p.linkedit.vmaddr (p.inserted + pageUp p.newLinkeditSize)
  file : ∀ s ∈ m.segments, s.cmdIndex ≠ p.linkedit.cmdIndex → 0 < s.filesize →
    s.fileoff + s.filesize ≤ p.linkedit.fileoff
  blobs : ∀ i ∈ keptImages m p dropped, ∀ c, i.source = some c →
    ∀ field ∈ blobFields c.cmd, 0 < field.size c →
      field.offset c + field.size c ≤ p.linkedit.fileoff + p.newLinkeditSize

end Valid

section Blobs

variable {data : List UInt8} {m : MachO} (parsed : Parsed data m) {p : Plan}

theorem mem_linkeditFields {cmd : Nat} {field : BlobField} (isField : field ∈ blobFields cmd) :
    field.off ∈ linkeditFields cmd ∧
      ∀ off ∈ linkeditFields cmd, field.count + 4 ≤ off ∨ off + 4 ≤ field.count := by
  unfold blobFields at isField
  split_ifs at isField with isData isSymbols isDynamic isInfo
  · have isLinkedit : linkeditFields cmd = [8] := by
      have : ∀ cmd ∈ [LC_FUNCTION_STARTS, LC_DATA_IN_CODE, LC_DYLD_EXPORTS_TRIE,
          LC_DYLD_CHAINED_FIXUPS], linkeditFields cmd = [8] := by decide
      exact this cmd isData
    rw [isLinkedit]
    revert field
    decide
  · rw [isSymbols]
    revert field
    decide
  · rw [isDynamic]
    revert field
    decide
  · have isLinkedit : linkeditFields cmd = [8, 16, 24, 32, 40] := by
      rcases isInfo with rfl | rfl <;> rfl
    rw [isLinkedit]
    revert field
    decide
  · cases isField

theorem Moved.size {delta : Nat} {c c' : Command} (moved : Moved delta c c') {field : BlobField}
    (isField : field ∈ blobFields c.cmd) : field.size c' = field.size c := by
  unfold BlobField.size u32?
  rw [moved.others _ _ (mem_linkeditFields isField).2]

theorem Moved.offset {delta : Nat} {c c' : Command} (moved : Moved delta c c') {field : BlobField}
    (isField : field ∈ blobFields c.cmd) (present : field.offset c ≠ 0) :
    field.offset c' = field.offset c + delta := by
  unfold BlobField.offset at present ⊢
  rw [moved.fields _ (mem_linkeditFields isField).1]
  cases isNumber : u32? c.bytes field.off with
  | none =>
      rw [isNumber] at present
      exact absurd rfl present
  | some v =>
      rw [isNumber, Option.getD_some] at present
      rw [Option.map_some, Option.getD_some, Option.getD_some, if_neg present]

include parsed in
/-- A command of the image that tells of something is one of the file, its offsets
moved. -/
theorem moved_of_source (isLinkedit : m.segment "__LINKEDIT" = some p.linkedit)
    (imageFits : ∀ x ∈ m.commands.zipIdx, ImageFits p x) (small : p.inserted < 2 ^ 32) {i : Image}
    (present : i ∈ images m p) {c : Command} (isSource : i.source = some c) {field : BlobField}
    (isField : field ∈ blobFields c.cmd) : c ∈ m.commands ∧ Moved p.inserted c i.command := by
  obtain ⟨d, n, isCommand, inImage⟩ := mem_images present
  obtain ⟨e, isLinkedit, isSegment, -⟩ := segmentBytes parsed (List.mem_of_find?_eq_some isLinkedit)
  have numbered : (d, n) ∈ m.commands.zipIdx := List.mem_zipIdx_iff_getElem?.mpr isCommand
  by_cases isNumber : n = p.linkedit.cmdIndex
  · rw [isNumber, isLinkedit] at isCommand
    obtain rfl := Option.some.inj isCommand
    unfold image at inImage
    dsimp only at inImage
    rw [if_neg (by rw [isSegment]; decide), if_pos isNumber] at inImage
    have isSegment : c.cmd = LC_SEGMENT_64 := by
      rcases List.mem_append.mp inImage with isStub | isMoved
      · split_ifs at isStub
        · obtain rfl := List.mem_singleton.mp isStub
          cases isSource
        · cases isStub
      · obtain rfl := List.mem_singleton.mp isMoved
        obtain rfl := Option.some.inj isSource
        exact isSegment
    rw [isSegment] at isField
    cases isField
  · rw [image_of_ne isNumber] at inImage
    split_ifs at inImage with isSignature
    · cases inImage
    · obtain rfl := List.mem_singleton.mp inImage
      obtain rfl := Option.some.inj isSource
      have fits := imageFits _ numbered isSignature
      rw [if_neg isNumber] at fits
      exact ⟨List.mem_of_getElem? isCommand, moved_shifted fits small⟩

end Blobs

section Segments

variable {m : MachO} {p : Plan}

/-- Segments are numbered in order. -/
theorem pairwise_cmdIndex {n : Nat} {commands : List Command} {segments : List Segment}
    (isSegments : segmentsOf n commands = ok segments) :
    segments.Pairwise (·.cmdIndex < ·.cmdIndex) := by
  induction commands generalizing n segments with
  | nil =>
      obtain rfl := ok.inj isSegments
      exact List.Pairwise.nil
  | cons c commands inductionHypothesis =>
      obtain ⟨first, isFirst, isSegments⟩ := bind_eq_ok.mp isSegments
      obtain ⟨rest, isRest, isSegments⟩ := bind_eq_ok.mp isSegments
      obtain rfl := ok.inj isSegments
      unfold segmentOf at isFirst
      split_ifs at isFirst with isSegment
      · obtain ⟨s, isParsed, rfl⟩ := map_eq_ok.mp isFirst
        refine List.pairwise_cons.mpr ⟨fun t present => ?_, inductionHypothesis isRest⟩
        have number := (parseSegment_eq_ok.mp isParsed).2
        have later := (mem_segmentsOf isRest present).1
        omega
      · obtain rfl := ok.inj isFirst
        exact inductionHypothesis isRest

theorem Segment.Disjoint.view {s t : Segment} (disjoint : s.Disjoint t) : s.view.Disjoint t.view :=
  ⟨disjoint.memory, disjoint.file⟩

theorem segmentImages_of_ne {s : Segment} (isOther : s.cmdIndex ≠ p.linkedit.cmdIndex) :
    segmentImages p s = [s.view] := if_neg isOther

theorem pairwise_segmentImages (s : Segment) :
    (segmentImages p s).Pairwise Segment.Disjoint := by
  unfold segmentImages
  split_ifs
  · refine List.pairwise_pair.mpr ⟨apart_iff.mpr ?_, apart_iff.mpr ?_⟩
    · exact Or.inr (Or.inr (Or.inl le_rfl))
    · exact Or.inr (Or.inr (Or.inl le_rfl))
  · exact List.pairwise_singleton _ _
  · exact List.pairwise_singleton _ _

/-- Apart from what `__LINKEDIT` becomes is apart from its new segment and itself
together. -/
theorem disjoint_linkedit_iff (textAddr : p.textAddr = p.linkedit.vmaddr) {s : Segment} :
    (∀ t ∈ segmentImages p p.linkedit, s.view.Disjoint t) ↔
      Apart s.vmaddr s.vmsize p.linkedit.vmaddr (p.inserted + pageUp p.newLinkeditSize) ∧
        Apart s.fileoff s.filesize p.linkedit.fileoff (p.inserted + p.newLinkeditSize) := by
  have moved : s.view.Disjoint (movedLinkedit p p.linkedit).view ↔
      Apart s.vmaddr s.vmsize (p.linkedit.vmaddr + p.inserted) (pageUp p.newLinkeditSize) ∧
        Apart s.fileoff s.filesize (p.linkedit.fileoff + p.inserted) p.newLinkeditSize := by
    rw [← textAddr]
    exact ⟨fun disjoint => ⟨disjoint.memory, disjoint.file⟩, fun apart => ⟨apart.1, apart.2⟩⟩
  have stub : s.view.Disjoint (stubSegment p) ↔
      Apart s.vmaddr s.vmsize p.linkedit.vmaddr p.inserted ∧
        Apart s.fileoff s.filesize p.linkedit.fileoff p.inserted := by
    rw [← textAddr]
    exact ⟨fun disjoint => ⟨disjoint.memory, disjoint.file⟩, fun apart => ⟨apart.1, apart.2⟩⟩
  rw [apart_add, apart_add]
  unfold segmentImages
  rw [if_pos rfl]
  split_ifs with isInserted
  · rw [List.singleton_append, List.forall_mem_cons, List.forall_mem_singleton, stub, moved]
    exact and_and_and_comm
  · have none : p.inserted = 0 := by omega
    rw [List.nil_append, List.forall_mem_singleton, moved, none]
    have empty : ∀ start size start', Apart start size start' 0 := fun start size start' =>
      apart_iff.mpr (Or.inr (Or.inl rfl))
    simp only [empty, true_and]

/-- The segments the image has are apart exactly when the others are apart from where
`__LINKEDIT` goes. -/
theorem pairwise_images (ordered : m.segments.Pairwise (·.cmdIndex < ·.cmdIndex))
    (disjoint : m.segments.Pairwise Segment.Disjoint) (present : p.linkedit ∈ m.segments) :
    (m.segments.flatMap (segmentImages p)).Pairwise Segment.Disjoint ↔
      ∀ s ∈ m.segments, s.cmdIndex ≠ p.linkedit.cmdIndex →
        ∀ t ∈ segmentImages p p.linkedit, s.view.Disjoint t := by
  rw [List.pairwise_flatMap, and_iff_right fun s _ => pairwise_segmentImages s]
  constructor
  · intro apart s inFile isOther
    have : Std.Symm fun s t : Segment =>
        ∀ x ∈ segmentImages p s, ∀ y ∈ segmentImages p t, x.Disjoint y :=
      ⟨fun s t disjoint y inT x inS => (disjoint x inS y inT).symm⟩
    have := apart.forall inFile present fun same => isOther (by rw [same])
    rw [segmentImages_of_ne isOther] at this
    exact this _ (List.mem_singleton_self _)
  · intro apart
    have unique : ∀ s ∈ m.segments, s.cmdIndex = p.linkedit.cmdIndex → s = p.linkedit := by
      intro s inFile isNumber
      by_contra isOther
      have : Std.Symm fun s t : Segment => s.cmdIndex ≠ t.cmdIndex :=
        ⟨fun s t differ => differ.symm⟩
      have differ : m.segments.Pairwise fun s t => s.cmdIndex ≠ t.cmdIndex :=
        ordered.imp Nat.ne_of_lt
      exact differ.forall inFile present isOther isNumber
    refine (ordered.and disjoint).imp_of_mem fun {s t} inFile inFile' both => ?_
    by_cases isLinkedit : s.cmdIndex = p.linkedit.cmdIndex
    · obtain rfl := unique s inFile isLinkedit
      have isOther : t.cmdIndex ≠ p.linkedit.cmdIndex := (Nat.ne_of_lt both.1).symm
      rw [segmentImages_of_ne isOther]
      intro x inImages y isImage
      obtain rfl := List.mem_singleton.mp isImage
      exact (apart t inFile' isOther x inImages).symm
    · rw [segmentImages_of_ne isLinkedit]
      intro x isImage y inImages
      obtain rfl := List.mem_singleton.mp isImage
      by_cases isLinkedit' : t.cmdIndex = p.linkedit.cmdIndex
      · obtain rfl := unique t inFile' isLinkedit'
        exact apart s inFile isLinkedit y inImages
      · rw [segmentImages_of_ne isLinkedit'] at inImages
        obtain rfl := List.mem_singleton.mp inImages
        exact both.2.view

end Segments

section Output

variable {data : List UInt8} {m : MachO} (parsed : Parsed data m) (short : data.length < 2 ^ 63)
  {patches : List (Nat × Nat)} {stubText : List UInt8} (textLength : stubText.length < 2 ^ 63)
  {p : Plan} {dropped : List Nat} (emits : Emits m patches stubText p dropped)

theorem view_disjoint_view {s t : Segment} : s.view.Disjoint t.view ↔ s.Disjoint t :=
  ⟨fun disjoint => ⟨disjoint.memory, disjoint.file⟩, Segment.Disjoint.view⟩

include emits in
theorem length_output :
    (output m patches stubText p dropped).length =
      p.linkedit.fileoff + p.inserted + p.newLinkeditSize :=
  length_assembled (length_front_of_emits emits) emits.fitting.planned.inserted emits.restFits

/-- The image's segments are in the file where the others of the file are. -/
theorem images_inside {stop : Nat}
    (room : p.linkedit.fileoff + p.inserted + p.newLinkeditSize = stop) :
    (∀ t ∈ m.segments.flatMap (segmentImages p), t.fileoff + t.filesize ≤ stop) ↔
      ∀ s ∈ m.segments, s.cmdIndex ≠ p.linkedit.cmdIndex → s.fileoff + s.filesize ≤ stop := by
  constructor
  · intro inside s inFile isOther
    have := inside s.view (List.mem_flatMap.mpr ⟨s, inFile, by
      rw [segmentImages_of_ne isOther]
      exact List.mem_singleton_self _⟩)
    exact this
  · intro inside t inImages
    obtain ⟨s, inFile, isImage⟩ := List.mem_flatMap.mp inImages
    by_cases isLinkedit : s.cmdIndex = p.linkedit.cmdIndex
    · unfold segmentImages at isImage
      rw [if_pos isLinkedit] at isImage
      rcases List.mem_append.mp isImage with isStub | isMoved
      · split_ifs at isStub
        · obtain rfl := List.mem_singleton.mp isStub
          exact le_trans (Nat.le_add_right _ _) (le_of_eq room)
        · cases isStub
      · obtain rfl := List.mem_singleton.mp isMoved
        exact le_of_eq room
    · rw [segmentImages_of_ne isLinkedit] at isImage
      obtain rfl := List.mem_singleton.mp isImage
      exact inside s inFile isLinkedit

include parsed short textLength emits in
/-- The segments of the output are apart and in it exactly when there is room. -/
theorem segments_output_iff (whole : WholeCommands m)
    (clear : ClearOf m patches (keptCommands m p dropped))
    (outShort : (output m patches stubText p dropped).length < 2 ^ 63)
    (disjoint : m.segments.Pairwise Segment.Disjoint) :
    (∃ m', MachO.parse (output m patches stubText p dropped) = ok m' ∧
      m'.commands = keptCommands m p dropped ∧ m'.segments.Pairwise Segment.Disjoint ∧
        ∀ s ∈ m'.segments,
          s.fileoff + s.filesize ≤ (output m patches stubText p dropped).length) ↔
      ∀ s ∈ m.segments, s.cmdIndex ≠ p.linkedit.cmdIndex →
        Apart s.vmaddr s.vmsize p.linkedit.vmaddr (p.inserted + pageUp p.newLinkeditSize) ∧
          (0 < s.filesize → s.fileoff + s.filesize ≤ p.linkedit.fileoff) := by
  have planned := emits.fitting.planned
  obtain ⟨_, _, ⟨-, -, last⟩, -⟩ := planned.laidOut
  obtain ⟨m', parsed', isCommands, -, views⟩ :=
    parsed_output parsed short textLength emits whole clear
  have isParsed := (parse_eq_ok outShort).mpr parsed'
  have length := length_output emits
  have apart : m'.segments.Pairwise Segment.Disjoint ↔
      ∀ s ∈ m.segments, s.cmdIndex ≠ p.linkedit.cmdIndex →
        Apart s.vmaddr s.vmsize p.linkedit.vmaddr (p.inserted + pageUp p.newLinkeditSize) ∧
          Apart s.fileoff s.filesize p.linkedit.fileoff (p.inserted + p.newLinkeditSize) := by
    simp only [← disjoint_linkedit_iff planned.textAddr]
    rw [← pairwise_images (pairwise_cmdIndex parsed.isSegments) disjoint
      (List.mem_of_find?_eq_some planned.isLinkedit), ← views, List.pairwise_map]
    simp only [view_disjoint_view]
  have inside : (∀ s ∈ m'.segments,
      s.fileoff + s.filesize ≤ (output m patches stubText p dropped).length) ↔
      ∀ s ∈ m.segments, s.cmdIndex ≠ p.linkedit.cmdIndex →
        s.fileoff + s.filesize ≤ (output m patches stubText p dropped).length := by
    rw [← images_inside length.symm, ← views, List.forall_mem_map]
    rfl
  constructor
  · rintro ⟨m'', isParsed', -, isApart, isInside⟩ s inFile isOther
    obtain rfl := ok.inj (isParsed.symm.trans isParsed')
    obtain ⟨memory, file⟩ := apart.mp isApart s inFile isOther
    have within := inside.mp isInside s inFile isOther
    refine ⟨memory, fun present => ?_⟩
    have early := last s inFile
    rw [apart_iff] at file
    omega
  · intro room
    refine ⟨m', isParsed, isCommands, apart.mpr fun s inFile isOther => ?_,
      inside.mpr fun s inFile isOther => ?_⟩
    · obtain ⟨memory, file⟩ := room s inFile isOther
      refine ⟨memory, apart_iff.mpr ?_⟩
      omega
    · have early := last s inFile
      have file := (room s inFile isOther).2
      omega

include parsed emits in
/-- What a kept command tells of is found exactly when it ends in front of the
signature. -/
theorem blob_output_iff (small : p.inserted < 2 ^ 32) (told : BlobsInside m p.linkedit) {i : Image}
    (isKept : i ∈ keptImages m p dropped) {c : Command} (isSource : i.source = some c)
    {field : BlobField} (isField : field ∈ blobFields c.cmd) (present : 0 < field.size c) :
    (∃ bytes, field.read c data = some bytes ∧
      field.read i.command (output m patches stubText p dropped) = some bytes) ↔
      field.offset c + field.size c ≤ p.linkedit.fileoff + p.newLinkeditSize := by
  have planned := emits.fitting.planned
  have positive := emits.headFits.positive
  have restFits := emits.restFits
  unfold RestFits at restFits
  rw [parsed.isData] at restFits
  obtain ⟨inFile, moved⟩ := moved_of_source parsed planned.isLinkedit emits.imageFits small
    (without_sublist.subset isKept) isSource isField
  obtain ⟨late, -⟩ := told c inFile field isField present
  have offset := moved.offset isField (by omega)
  have size := moved.size isField
  have length := length_output emits
  constructor
  · rintro ⟨bytes, -, isRead⟩
    have within := (slice?_eq_some.mp isRead).1.2
    rw [offset, size] at within
    omega
  · intro early
    have isRead : field.read i.command (output m patches stubText p dropped) =
        field.read c data := by
      unfold BlobField.read
      rw [offset, size, show field.offset c + p.inserted + field.size c =
        field.offset c + field.size c + p.inserted by omega,
        slice?_assembled_rest (length_front_of_emits emits) planned.inserted emits.restFits
          (Nat.le_add_right _ _) late early, parsed.isData]
    have there : (field.read c data).isSome :=
      isSome_slice? (Nat.le_add_right _ _) (by omega)
    obtain ⟨bytes, isThere⟩ := Option.isSome_iff_exists.mp there
    exact ⟨bytes, isThere, isRead.trans isThere⟩

include parsed short textLength emits in
theorem valid_output_iff (small : p.inserted < 2 ^ 32) (whole : WholeCommands m)
    (clear : ClearOf m patches (keptCommands m p dropped))
    (outShort : (output m patches stubText p dropped).length < 2 ^ 63)
    (disjoint : m.segments.Pairwise Segment.Disjoint) (told : BlobsInside m p.linkedit) :
    Valid data (output m patches stubText p dropped) m p dropped ↔ Roomy m p dropped := by
  have segments :=
    segments_output_iff parsed short textLength emits whole clear outShort disjoint
  constructor
  · intro valid
    have room := segments.mp valid.segments
    exact
      { memory := fun s inFile isOther => (room s inFile isOther).1
        file := fun s inFile isOther => (room s inFile isOther).2
        blobs := fun i isKept c isSource field isField present =>
          (blob_output_iff parsed emits small told isKept isSource isField present).mp
            (valid.blobs i isKept c isSource field isField present) }
  · intro roomy
    exact
      { segments := segments.mpr fun s inFile isOther =>
          ⟨roomy.memory s inFile isOther, roomy.file s inFile isOther⟩
        blobs := fun i isKept c isSource field isField present =>
          (blob_output_iff parsed emits small told isKept isSource isField present).mpr
            (roomy.blobs i isKept c isSource field isField present) }

end Output

section Emitted

variable {m : MachO} {stubText : List UInt8} {p p' : Plan} {dropped dropped' : List Nat}

theorem Unsigned.unique {linkedit : Segment} {n n' : Nat} (unsigned : Unsigned m linkedit n)
    (unsigned' : Unsigned m linkedit n') : n = n' := by
  unfold Unsigned at unsigned unsigned'
  cases isTable : m.linkeditData LC_CODE_SIGNATURE with
  | none =>
      rw [isTable] at unsigned unsigned'
      exact unsigned.trans unsigned'.symm
  | some table =>
      rw [isTable] at unsigned unsigned'
      exact unsigned.2.2.trans unsigned'.2.2.symm

theorem Planned.unique (planned : Planned m stubText p) (planned' : Planned m stubText p') :
    p = p' := by
  obtain ⟨linkedit, textAddr, inserted, size⟩ := p
  obtain ⟨linkedit', textAddr', inserted', size'⟩ := p'
  obtain rfl : linkedit = linkedit' :=
    Option.some.inj (planned.isLinkedit.symm.trans planned'.isLinkedit)
  obtain rfl : textAddr = textAddr' := planned.textAddr.trans planned'.textAddr.symm
  obtain rfl : inserted = inserted' := planned.inserted.trans planned'.inserted.symm
  obtain rfl : size = size' := planned.unsigned.unique planned'.unsigned
  rfl

theorem Fitting.unique (fitting : Fitting m stubText p dropped)
    (fitting' : Fitting m stubText p' dropped') : p = p' ∧ dropped = dropped' := by
  obtain rfl := fitting.planned.unique fitting'.planned
  exact ⟨rfl, fitting.isDropped.unique fitting'.isDropped⟩

end Emitted

/-! ## Programs -/

section Program

theorem disjoint_program : programSegments.Pairwise Segment.Disjoint := by
  have apart : programSegments.Pairwise fun s t =>
      (s.vmaddr + s.vmsize ≤ t.vmaddr ∨ t.vmaddr + t.vmsize ≤ s.vmaddr) ∧
        (t.filesize = 0 ∨ s.fileoff + s.filesize ≤ t.fileoff) := by decide
  refine List.Pairwise.imp (fun {s t} both => ⟨apart_iff.mpr ?_, apart_iff.mpr ?_⟩) apart
  · exact Or.inr (Or.inr both.1)
  · rcases both.2 with none | before
    · exact Or.inr (Or.inl none)
    · exact Or.inr (Or.inr (Or.inl before))

theorem blobsInside_program (linkedit : Segment) : BlobsInside program linkedit := by
  have none : ∀ c ∈ programCommands, blobFields c.cmd = [] := by decide
  intro c present field isField
  rw [none c present] at isField
  cases isField

end Program

section Signed

def signatureCommand : Command :=
  { cmd := LC_CODE_SIGNATURE
    bytes := toLittleEndian 4 LC_CODE_SIGNATURE ++ toLittleEndian 4 16 ++
      toLittleEndian 4 0x7000 ++ toLittleEndian 4 0x1000 }

/-- The program with symbols, function starts and a signature. -/
def signedCommands : List Command :=
  programCommands ++ [symtabCommand, startsCommand, signatureCommand]

def signedLater : List UInt8 := List.replicate 0x3E80 0 ++ List.replicate 0x4000 7

def signed : MachO := saidBy signedCommands signedLater programSegments

def signedPlan : Plan where
  linkedit := programLinkedit
  textAddr := 0x100004000
  inserted := 0x4000
  newLinkeditSize := 0x3000

theorem evaluated_signedCommands :
    (∀ c ∈ signedCommands, u32? c.bytes 0 = some c.cmd ∧ u32? c.bytes 4 = some c.bytes.length) ∧
      lengths signedCommands = 352 ∧ segmentsOf 0 signedCommands = ok programSegments := by
  decide +kernel

theorem framed_signedCommands : ∀ c ∈ signedCommands, Framed c := fun c present =>
  have framed := evaluated_signedCommands.1 c present
  ⟨framed.1, framed.2⟩

theorem whole_signed : WholeCommands signed :=
  fun c present => (framed_signedCommands c present).length

theorem parsed_signed : Parsed (fileOf signedCommands signedLater) signed :=
  parsed_fileOf framed_signedCommands (by rw [evaluated_signedCommands.2.1]; decide)
    evaluated_signedCommands.2.2

theorem length_signed : signed.data.length = 0x8000 := by
  change (fileOf signedCommands signedLater).length = _
  rw [length_fileOf, evaluated_signedCommands.2.1, signedLater, List.length_append,
    List.length_replicate, List.length_replicate]
  decide

theorem planned_signed : Planned signed [1] signedPlan where
  isLinkedit := by
    change signed.segment "__LINKEDIT" = some programLinkedit
    decide
  laidOut := by
    refine ⟨programSegments[0], by decide, ⟨by decide, by decide, by decide⟩, by decide, ?_⟩
    unfold OutOfReach
    decide
  textAddr := rfl
  inserted := by decide
  signature := by
    intro sigOff sigSize isTable late
    change programLinkedit.fileoff + programLinkedit.filesize < 2 ^ 64
    decide
  unsigned := by
    have isTable : signed.linkeditData LC_CODE_SIGNATURE = some (0x7000, 0x1000) := by decide
    unfold Unsigned
    rw [isTable]
    decide

theorem emits_signed : Emits signed [] [1] signedPlan [] := by
  have commands : lengths (emitted signed signedPlan) = 408 := by decide +kernel
  have size : signed.header.sizeofcmds = 352 := evaluated_signedCommands.2.1
  have length := length_signed
  have fileoff : signedPlan.linkedit.fileoff = 0x4000 := rfl
  have space : headerSpace signed = 0xFE0 := by
    have first : firstOffset signed = some 0x1000 := by decide
    unfold headerSpace HEADER_SIZE
    rw [size, first]
    rfl
  refine emits_of_room planned_signed ?_ (by rw [commands, space]; decide) (by omega)
    (by rw [fileoff]; decide) (by rw [commands, fileoff]; decide) (by rw [size, fileoff]; decide)
    (by simp) ?_
  · intro x present isKept
    split_ifs with isLinkedit
    · refine ⟨?_, ?_, ?_⟩
      · decide
      · change 0x3000 + PAGE < 2 ^ 64
        decide
      · decide
    · have small : ∀ x ∈ signedCommands.zipIdx, ∀ off ∈ linkeditFields x.1.cmd,
          (u32? x.1.bytes off).getD 0 + 0x4000 < 2 ^ 32 := by decide
      exact fun off isField _ => small x present off isField
  · have size : signedPlan.newLinkeditSize = 0x3000 := rfl
    unfold RestFits
    omega

theorem blobsInside_signed : BlobsInside signed signedPlan.linkedit := by
  have inside : ∀ c ∈ signedCommands, ∀ field ∈ blobFields c.cmd,
      0x4000 ≤ field.offset c ∧ field.offset c + field.size c ≤ 0x8000 := by decide
  exact fun c present field isField _ => inside c present field isField

end Signed

section Program

/-- With two pages inserted `__LINKEDIT` is moved onto the segment behind the hole. -/
theorem overlaps_program :
    ∃ out, program.emit [] (List.replicate 0x4001 0) = ok out ∧
      ∀ p dropped, ¬ Valid (fileOf programCommands programZeros) out program p dropped := by
  have isInserted : pageUp (List.replicate 0x4001 (0 : UInt8)).length = 0x8000 := by
    rw [List.length_replicate]
    decide
  obtain ⟨emitted, outLength⟩ :=
    @emit_program _ _ isInserted (Or.inr rfl) [] (by simp) (by simp)
  refine ⟨_, emitted, fun p dropped valid => ?_⟩
  have emits := @emits_program _ _ isInserted (Or.inr rfl) [] (by simp)
  obtain ⟨m', isParsed, -, apart, inside⟩ := valid.segments
  have textLength : (List.replicate 0x4001 (0 : UInt8)).length < 2 ^ 63 := by
    rw [List.length_replicate]
    omega
  obtain ⟨m'', parsed'', isCommands, -, -⟩ :=
    parsed_output parsed_program short_program textLength emits whole_program (by simp [ClearOf])
  obtain rfl := ok.inj (((parse_eq_ok (by omega)).mpr parsed'').symm.trans isParsed)
  have room := (segments_output_iff parsed_program short_program textLength emits whole_program
    (by simp [ClearOf]) (by omega) disjoint_program).mp ⟨_, isParsed, isCommands, apart, inside⟩
  have data : ∃ s ∈ programSegments, s.cmdIndex ≠ programLinkedit.cmdIndex ∧
      s.vmaddr = 0x10000C000 ∧ s.vmsize = 0x4000 := by decide
  obtain ⟨s, inFile, isOther, isAddr, isSize⟩ := data
  have memory := (room s inFile isOther).1
  have plan : (programPlan 0x8000).linkedit.vmaddr = 0x100004000 ∧
      (programPlan 0x8000).inserted + pageUp (programPlan 0x8000).newLinkeditSize = 0xC000 := by
    decide
  rw [apart_iff, isAddr, isSize, plan.1, plan.2] at memory
  omega

/-- A patch on the header is written like any other, and no file is left to be read. -/
theorem not_parsed_program :
    ∃ out, program.emit [(0x100000000, 0)] [1] = ok out ∧
      ∀ p dropped, ¬ Valid (fileOf programCommands programZeros) out program p dropped := by
  have isSpot : spotIn program.segments 0x100000000 = some 0 := by decide
  have areAddrs : ∀ patch ∈ [(0x100000000, 0)], patch.1 < 2 ^ 64 := by decide
  have isInserted : pageUp [(1 : UInt8)].length = 0x4000 := by decide
  have placed : ∀ patch ∈ [(0x100000000, 0)],
      PatchFits program patch ∧ Placed program (programPlan 0x4000) patch := by
    intro patch present
    obtain rfl := List.mem_singleton.mp present
    exact fits_programPatch isSpot (by decide)
  have emits := emits_program isInserted (Or.inl rfl) placed
  obtain ⟨emitted, outLength⟩ := emit_program isInserted (Or.inl rfl) areAddrs placed
  refine ⟨_, emitted, fun p dropped valid => ?_⟩
  obtain ⟨m', isParsed, -⟩ := valid.segments
  have magic := ((parse_eq_ok (by omega)).mp isParsed).magic
  have fileoff : (programPlan 0x4000).linkedit.fileoff = 0x4000 := rfl
  have patched : slice? (output program [(0x100000000, 0)] [1] (programPlan 0x4000) []) 0 4 =
      some (toLittleEndian 4 0) := by
    rw [slice?_assembled_front (length_front_of_emits emits) emits.fitting.planned.inserted
      (by omega)]
    exact @slice?_foldl_patched_last _ _ _ [] [] _ _ (length_headed_of_emits emits)
      (fun patch present => (placed patch present).2) (by simp) isSpot (by simp)
  unfold u32? at magic
  rw [patched] at magic
  exact absurd magic (by decide)

end Program

end Macho

end Derp
