import Derp.Macho.Written

/-!
# The commands of the image

Commands that begin with their kind and their length are found again where they
were written, so the image parses and its commands are the ones kept.  Its
segments are those of the file, with `__LINKEDIT` moved and the new segment in
front of it.
-/

namespace Derp

namespace Macho

open Outcome Slices Checked

section Framing

/-- A command begins with its kind and its length. -/
structure Framed (c : Command) : Prop where
  cmd : u32? c.bytes 0 = some c.cmd
  cmdsize : u32? c.bytes 4 = some c.bytes.length

theorem Framed.length {c : Command} (framed : Framed c) : 8 ≤ c.bytes.length :=
  le_length_of_u32? framed.cmdsize

/-- Numbers of a part are numbers of the whole. -/
theorem u32?_of_slice? {data part : List UInt8} {start stop off : Nat}
    (isPart : slice? data start stop = some part) (inside : start + off + 4 ≤ stop) :
    u32? data (start + off) = u32? part off := by
  obtain ⟨⟨ordered, within⟩, -⟩ := slice?_eq_some.mp isPart
  have length := length_of_slice? isPart
  unfold u32?
  rw [@slice?_of_le _ part _ _ (by omega) (by omega)]
  congr 1
  refine slice?_eq_some_of (by omega) (by omega)
    (by rw [List.length_take, List.length_drop]; omega) fun i early => ?_
  rw [List.getElem?_take_of_lt (by omega), List.getElem?_drop,
    getElem?_of_slice? isPart (by omega), Nat.add_assoc]

/-- Commands of a file with a whole prefix begin with their kind and length. -/
theorem framed_of_laid {data : List UInt8} {off : Nat} {commands : List Command}
    (laid : Laid data off commands) {c : Command} (present : c ∈ commands)
    (whole : 8 ≤ c.bytes.length) : Framed c := by
  induction commands generalizing off with
  | nil => cases present
  | cons d commands inductionHypothesis =>
      obtain ⟨isKind, isSize, isPart, rest⟩ := laid
      rcases List.mem_cons.mp present with rfl | present
      · refine ⟨?_, ?_⟩
        · rw [← @u32?_of_slice? _ _ _ _ 0 isPart (by omega)]
          exact isKind
        · rw [← @u32?_of_slice? _ _ _ _ 4 isPart (by omega)]
          exact isSize
      · exact inductionHypothesis rest present

theorem length_le_lengths {commands : List Command} (framed : ∀ c ∈ commands, Framed c) :
    commands.length ≤ lengths commands := by
  induction commands with
  | nil => exact Nat.le_refl 0
  | cons c commands inductionHypothesis =>
      obtain ⟨here, later⟩ := List.forall_mem_cons.mp framed
      have := here.length
      have := inductionHypothesis later
      rw [List.length_cons, lengths_cons]
      omega

/-- Commands written one behind the other stand there. -/
theorem laid_of_written {data : List UInt8} {off : Nat} {commands : List Command}
    (isWritten : slice? data off (off + lengths commands) = some (written commands))
    (framed : ∀ c ∈ commands, Framed c) : Laid data off commands := by
  induction commands generalizing off with
  | nil => trivial
  | cons c commands inductionHypothesis =>
      obtain ⟨here, later⟩ := List.forall_mem_cons.mp framed
      have whole := here.length
      rw [lengths_cons] at isWritten
      obtain ⟨⟨-, within⟩, -⟩ := slice?_eq_some.mp isWritten
      have split : written (c :: commands) = c.bytes ++ written commands := rfl
      have isPart : slice? data off (off + c.bytes.length) = some c.bytes := by
        refine slice?_eq_some_of (Nat.le_add_right _ _) (by omega) (by omega) fun i early => ?_
        rw [← getElem?_of_slice? isWritten (by omega), split,
          List.getElem?_append_left (by omega)]
      have isRest : slice? data (off + c.bytes.length)
          (off + c.bytes.length + lengths commands) = some (written commands) := by
        refine slice?_eq_some_of (Nat.le_add_right _ _) (by omega)
          (by rw [length_written]; omega) fun i early => ?_
        rw [Nat.add_assoc, ← getElem?_of_slice? isWritten (by omega), split,
          List.getElem?_append_right (by omega), Nat.add_sub_cancel_left]
      refine ⟨?_, ?_, isPart, inductionHypothesis isRest later⟩
      · have := @u32?_of_slice? _ _ _ _ 0 isPart (by omega)
        rw [Nat.add_zero] at this
        rw [this]
        exact here.cmd
      · rw [u32?_of_slice? isPart (by omega)]
        exact here.cmdsize

end Framing

section Relocating

variable {p : Plan} {b : List UInt8} (inside : SEGMENT_CMD_SIZE - 16 ≤ b.length)

include inside in
/-- Outside the ranges `__LINKEDIT`'s command stays. -/
theorem slice?_relocated_of_apart {start stop : Nat} (apart : stop ≤ 24 ∨ 56 ≤ start) :
    slice? (relocated p b) start stop = slice? b start stop := by
  obtain ⟨first, second, third, -⟩ := lengths_relocated (p := p) inside
  unfold SEGMENT_CMD_SIZE at inside
  unfold relocated
  dsimp only
  rw [slice?_overwrite_of_apart (by rw [length_toLittleEndian, third]; omega)
      (by rw [length_toLittleEndian]; omega),
    slice?_overwrite_of_apart (by rw [length_toLittleEndian, second]; omega)
      (by rw [length_toLittleEndian]; omega),
    slice?_overwrite_of_apart (by rw [length_toLittleEndian, first]; omega)
      (by rw [length_toLittleEndian]; omega),
    slice?_overwrite_of_apart (by rw [length_toLittleEndian]; omega)
      (by rw [length_toLittleEndian]; omega)]

/-- The new ranges as they are read. -/
structure NewRanges (p : Plan) (b : List UInt8) : Prop where
  vmaddr : u64? b 24 = some (p.textAddr + p.inserted)
  vmsize : u64? b 32 = some (pageUp p.newLinkeditSize)
  fileoff : u64? b 40 = some (p.linkedit.fileoff + p.inserted)
  filesize : u64? b 48 = some p.newLinkeditSize

include inside in
theorem newRanges_relocated (fits : RelocationFits p) : NewRanges p (relocated p b) := by
  obtain ⟨first, second, third, -⟩ := lengths_relocated (p := p) inside
  obtain ⟨vmaddr, vmsize, fileoff⟩ := fits
  have page := pageUp_lt p.newLinkeditSize
  unfold SEGMENT_CMD_SIZE at inside
  have apart : ∀ {items : List UInt8} {start off v : Nat}, start + 8 ≤ items.length →
      off + 8 ≤ start ∨ start + 8 ≤ off →
        u64? (overwrite items start (toLittleEndian 8 v)) off = u64? items off := by
    intro items start off v fits' apart'
    unfold u64?
    rw [slice?_overwrite_of_apart (by rwa [length_toLittleEndian])
      (by rw [length_toLittleEndian]; omega)]
  unfold relocated
  refine ⟨?_, ?_, ?_, ?_⟩
  · dsimp only
    rw [apart (by rw [third]; omega) (by omega), apart (by rw [second]; omega) (by omega),
      apart (by rw [first]; omega) (by omega), u64?_overwrite (by omega) vmaddr]
  · dsimp only
    rw [apart (by rw [third]; omega) (by omega), apart (by rw [second]; omega) (by omega),
      u64?_overwrite (by rw [first]; omega) (by omega)]
  · dsimp only
    rw [apart (by rw [third]; omega) (by omega), u64?_overwrite (by rw [second]; omega) fileoff]
  · exact u64?_overwrite (by rw [third]; omega) (by omega)

/-- `__LINKEDIT` where it goes. -/
def movedLinkedit (p : Plan) (s : Segment) : Segment :=
  { s with
    vmaddr := p.textAddr + p.inserted
    vmsize := pageUp p.newLinkeditSize
    fileoff := p.linkedit.fileoff + p.inserted
    filesize := p.newLinkeditSize }

theorem segmentBytes_relocated {s : Segment} (said : SegmentBytes b s) (fits : RelocationFits p) :
    SegmentBytes (relocated p b) (movedLinkedit p s) := by
  have length := said.length
  have inside : SEGMENT_CMD_SIZE - 16 ≤ b.length := le_trans (Nat.sub_le _ _) length
  have ranges := newRanges_relocated inside fits
  obtain ⟨nsects, isCount, isSections⟩ := said.sections
  refine
    { length := by rwa [(lengths_relocated inside).2.2.2]
      name := by rw [slice?_relocated_of_apart inside (Or.inl le_rfl)]; exact said.name
      vmaddr := ranges.vmaddr
      vmsize := ranges.vmsize
      fileoff := ranges.fileoff
      filesize := ranges.filesize
      sections := ⟨nsects, ?_, ?_⟩ }
  · unfold u32?
    rw [slice?_relocated_of_apart inside (Or.inr (by omega))]
    exact isCount
  · refine (parseSections_congr fun start stop late => ?_).trans isSections
    unfold SEGMENT_CMD_SIZE at late
    exact slice?_relocated_of_apart inside (Or.inr (by omega))

end Relocating

section Stub

variable (p : Plan)

/-- The new segment. -/
def stubSegment : Segment where
  cmdIndex := 0
  name := ascii STUB_TEXT_SEGMENT
  vmaddr := p.textAddr
  vmsize := p.inserted
  fileoff := p.linkedit.fileoff
  filesize := p.inserted
  sections := []

variable {p}

/-- The fields of the new segment's command. -/
def stubFields (vmaddr size fileoff prot : Nat) : List (List UInt8) :=
  [toLittleEndian 4 LC_SEGMENT_64, toLittleEndian 4 SEGMENT_CMD_SIZE,
    ascii STUB_TEXT_SEGMENT ++ List.replicate 10 0, toLittleEndian 8 vmaddr,
    toLittleEndian 8 size, toLittleEndian 8 fileoff, toLittleEndian 8 size, toLittleEndian 4 prot,
    toLittleEndian 4 prot, toLittleEndian 4 0, toLittleEndian 4 0]

theorem bytes_segmentCommand (vmaddr size fileoff prot : Nat) :
    (segmentCommand STUB_TEXT_SEGMENT vmaddr size fileoff prot).bytes =
      (stubFields vmaddr size fileoff prot).flatten := by
  have zeros : List.replicate SEGMENT_CMD_SIZE (0 : UInt8) =
      ([4, 4, 6, 10, 8, 8, 8, 8, 4, 4, 4, 4].map fun n => List.replicate n 0).flatten := by
    decide
  have eight : ∀ v : Nat, (toLittleEndian 8 v).length = (List.replicate 8 (0 : UInt8)).length :=
    fun v => by rw [length_toLittleEndian, List.length_replicate]
  have four : ∀ v : Nat, (toLittleEndian 4 v).length = (List.replicate 4 (0 : UInt8)).length :=
    fun v => by rw [length_toLittleEndian, List.length_replicate]
  unfold segmentCommand
  dsimp only
  rw [zeros, overwrite_flatten 0 0 rfl (four _) rfl, overwrite_flatten 1 4 rfl (four _) rfl,
    overwrite_flatten 2 8 rfl (by decide) rfl, overwrite_flatten 4 24 rfl (eight _) rfl,
    overwrite_flatten 5 32 rfl (eight _) rfl, overwrite_flatten 6 40 rfl (eight _) rfl,
    overwrite_flatten 7 48 rfl (eight _) rfl, overwrite_flatten 8 56 rfl (four _) rfl,
    overwrite_flatten 9 60 rfl (four _) rfl]
  have zero : toLittleEndian 4 0 = List.replicate 4 0 := by decide
  unfold stubFields
  rw [zero]
  simp only [List.map_cons, List.map_nil, List.set_cons_zero, List.set_cons_succ,
    List.flatten_cons, List.append_assoc]

theorem u64?_flatten {parts : List (List UInt8)} (k start : Nat) {v : Nat}
    (isPart : parts[k]? = some (toLittleEndian 8 v))
    (isStart : ((parts.take k).map List.length).sum = start) (small : v < 2 ^ 64) :
    u64? parts.flatten start = some v := by
  unfold u64?
  rw [slice?_flatten k start isPart isStart (by rw [length_toLittleEndian]), Option.map_some,
    ofLittleEndian_toLittleEndian small]

theorem u32?_flatten {parts : List (List UInt8)} (k start : Nat) {v : Nat}
    (isPart : parts[k]? = some (toLittleEndian 4 v))
    (isStart : ((parts.take k).map List.length).sum = start) (small : v < 2 ^ 32) :
    u32? parts.flatten start = some v := by
  unfold u32?
  rw [slice?_flatten k start isPart isStart (by rw [length_toLittleEndian]), Option.map_some,
    ofLittleEndian_toLittleEndian small]

theorem segmentBytes_stubCommand (vmaddr : p.textAddr < 2 ^ 64) (size : p.inserted < 2 ^ 64)
    (fileoff : p.linkedit.fileoff < 2 ^ 64) :
    SegmentBytes (stubCommand p).bytes (stubSegment p) := by
  have length := length_stubCommand (p := p)
  unfold stubCommand at length ⊢
  rw [bytes_segmentCommand] at length ⊢
  generalize VM_PROT_READ ||| VM_PROT_EXECUTE = prot at length ⊢
  refine
    { length := length.ge
      name := ?_
      vmaddr := u64?_flatten 3 24 rfl rfl vmaddr
      vmsize := u64?_flatten 4 32 rfl rfl size
      fileoff := u64?_flatten 5 40 rfl rfl fileoff
      filesize := u64?_flatten 6 48 rfl rfl size
      sections := ⟨0, u32?_flatten 9 64 rfl rfl (by decide), rfl⟩ }
  have isName : slice? (stubFields p.textAddr p.inserted p.linkedit.fileoff prot).flatten 8 24 =
      some (ascii STUB_TEXT_SEGMENT ++ List.replicate 10 0) :=
    slice?_flatten 2 8 rfl rfl (by decide)
  rw [isName, Option.map_some]
  have cut : name16 (ascii STUB_TEXT_SEGMENT ++ List.replicate 10 0) = ascii STUB_TEXT_SEGMENT := by
    decide
  rw [cut]
  rfl

theorem framed_stubCommand : Framed (stubCommand p) := by
  have length := length_stubCommand (p := p)
  refine ⟨?_, ?_⟩
  · unfold stubCommand
    rw [bytes_segmentCommand]
    exact u32?_flatten (v := LC_SEGMENT_64) 0 0 rfl rfl (by decide)
  · rw [length]
    unfold stubCommand
    rw [bytes_segmentCommand]
    exact u32?_flatten 1 4 rfl rfl (by decide)

end Stub

section Segments

/-- A segment, whatever the number of its command. -/
def Segment.view (s : Segment) : Segment := { s with cmdIndex := 0 }

/-- The segment a command is about, whatever its number. -/
def bare (c : Command) : Option Segment :=
  if c.cmd = LC_SEGMENT_64 then
    match parseSegment 0 c.bytes with
    | .ok s => some s
    | .error _ => none
    | .panic => none
  else none

theorem SegmentBytes.renumbered {bytes : List UInt8} {s : Segment} (said : SegmentBytes bytes s)
    (i : Nat) : SegmentBytes bytes { s with cmdIndex := i } :=
  ⟨said.length, said.name, said.vmaddr, said.vmsize, said.fileoff, said.filesize, said.sections⟩

theorem bare_of_segmentBytes {c : Command} {s : Segment} (isSegment : c.cmd = LC_SEGMENT_64)
    (said : SegmentBytes c.bytes s) : bare c = some s.view := by
  have isParsed : parseSegment 0 c.bytes = ok s.view :=
    parseSegment_eq_ok.mpr ⟨said.renumbered 0, rfl⟩
  unfold bare
  rw [if_pos isSegment, isParsed]

theorem bare_of_ne {c : Command} (isOther : c.cmd ≠ LC_SEGMENT_64) : bare c = none := if_neg isOther

variable {commands : List Command} {segments : List Segment} {n : Nat}

theorem segmentBytes_of_segmentsOf (isSegments : segmentsOf n commands = ok segments) :
    ∀ c ∈ commands, c.cmd = LC_SEGMENT_64 → ∃ s, SegmentBytes c.bytes s := by
  induction commands generalizing n segments with
  | nil => simp
  | cons c commands inductionHypothesis =>
      obtain ⟨first, isFirst, isSegments⟩ := bind_eq_ok.mp isSegments
      obtain ⟨rest, isRest, -⟩ := bind_eq_ok.mp isSegments
      refine List.forall_mem_cons.mpr ⟨fun isSegment => ?_, inductionHypothesis isRest⟩
      unfold segmentOf at isFirst
      rw [if_pos isSegment] at isFirst
      obtain ⟨s, isParsed, -⟩ := map_eq_ok.mp isFirst
      exact ⟨s, segmentBytes_of_parseSegment isParsed⟩

theorem exists_segmentsOf
    (said : ∀ c ∈ commands, c.cmd = LC_SEGMENT_64 → ∃ s, SegmentBytes c.bytes s) :
    ∃ segments, segmentsOf n commands = ok segments ∧
      segments.map Segment.view = commands.filterMap bare := by
  induction commands generalizing n with
  | nil => exact ⟨[], rfl, rfl⟩
  | cons c commands inductionHypothesis =>
      obtain ⟨here, later⟩ := List.forall_mem_cons.mp said
      obtain ⟨rest, isRest, same⟩ := inductionHypothesis (n := n + 1) later
      unfold segmentsOf segmentOf
      rw [List.filterMap_cons]
      by_cases isSegment : c.cmd = LC_SEGMENT_64
      · obtain ⟨s, told⟩ := here isSegment
        have isParsed : parseSegment n c.bytes = ok { s with cmdIndex := n } :=
          parseSegment_eq_ok.mpr ⟨told.renumbered n, rfl⟩
        rw [if_pos isSegment, isParsed, isRest, bare_of_segmentBytes isSegment told]
        refine ⟨_, rfl, ?_⟩
        rw [List.map_append, same]
        rfl
      · rw [if_neg isSegment, isRest, bare_of_ne isSegment]
        exact ⟨rest, rfl, same⟩

variable {m : MachO} {p : Plan}

/-- What a segment becomes. -/
def segmentImages (p : Plan) (s : Segment) : List Segment :=
  if s.cmdIndex = p.linkedit.cmdIndex then
    (if 0 < p.inserted then [stubSegment p] else []) ++ [(movedLinkedit p s).view]
  else [s.view]

/-- The numbers of the new segment's command are below `2^64`. -/
structure PlanFits (p : Plan) : Prop where
  textAddr : p.textAddr < 2 ^ 64
  inserted : p.inserted < 2 ^ 64
  fileoff : p.linkedit.fileoff < 2 ^ 64

theorem shifted_segment {b : List UInt8} {delta : Nat} : shifted LC_SEGMENT_64 b delta = b := rfl

/-- The segments of the image's commands are what the file's become. -/
theorem filterMap_images (isSegments : segmentsOf n commands = ok segments)
    (isLinkedit : ∀ x ∈ commands.zipIdx n, x.2 = p.linkedit.cmdIndex → x.1.cmd = LC_SEGMENT_64)
    (fits : RelocationFits p) (small : PlanFits p) :
    ((commands.zipIdx n).flatMap (image m p)).filterMap (fun i => bare i.command) =
      segments.flatMap (segmentImages p) := by
  induction commands generalizing n segments with
  | nil =>
      obtain rfl := ok.inj isSegments
      rfl
  | cons c commands inductionHypothesis =>
      obtain ⟨first, isFirst, isSegments⟩ := bind_eq_ok.mp isSegments
      obtain ⟨rest, isRest, isSegments⟩ := bind_eq_ok.mp isSegments
      obtain rfl := ok.inj isSegments
      rw [List.zipIdx_cons] at isLinkedit ⊢
      obtain ⟨here, later⟩ := List.forall_mem_cons.mp isLinkedit
      dsimp only at here
      rw [List.flatMap_cons, List.filterMap_append, inductionHypothesis isRest later,
        List.flatMap_append]
      congr 1
      unfold segmentOf at isFirst
      unfold image
      dsimp only
      by_cases isSegment : c.cmd = LC_SEGMENT_64
      · rw [if_pos isSegment] at isFirst
        obtain ⟨s, isParsed, rfl⟩ := map_eq_ok.mp isFirst
        obtain ⟨said, rfl⟩ := parseSegment_eq_ok.mp isParsed
        have unsigned : c.cmd ≠ LC_CODE_SIGNATURE := by
          rw [isSegment]
          decide
        rw [if_neg unsigned, List.flatMap_singleton]
        unfold segmentImages
        by_cases isNumber : s.cmdIndex = p.linkedit.cmdIndex
        · have moved : bare { cmd := c.cmd, bytes := relocated p c.bytes } =
              some (movedLinkedit p s).view :=
            bare_of_segmentBytes isSegment (segmentBytes_relocated said fits)
          rw [if_pos isNumber, if_pos isNumber, List.filterMap_append]
          by_cases isInserted : 0 < p.inserted
          · have stub : bare (stubCommand p) = some (stubSegment p) :=
              bare_of_segmentBytes rfl
                (segmentBytes_stubCommand small.textAddr small.inserted small.fileoff)
            rw [if_pos isInserted, if_pos isInserted]
            simp [stub, moved]
          · rw [if_neg isInserted, if_neg isInserted]
            simp [moved]
        · have same : bare { cmd := c.cmd, bytes := shifted c.cmd c.bytes p.inserted } =
              some s.view := by
            rw [isSegment, shifted_segment]
            exact bare_of_segmentBytes rfl said
          rw [if_neg isNumber, if_neg isNumber]
          simp [same]
      · rw [if_neg isSegment] at isFirst
        obtain rfl := ok.inj isFirst
        by_cases isSignature : c.cmd = LC_CODE_SIGNATURE
        · rw [if_pos isSignature]
          rfl
        · have none : bare { cmd := c.cmd, bytes := shifted c.cmd c.bytes p.inserted } = none :=
            bare_of_ne isSegment
          rw [if_neg isSignature, if_neg fun isNumber => isSegment (here isNumber)]
          simp [none]

end Segments

end Macho

end Derp
