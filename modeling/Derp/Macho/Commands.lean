import Derp.Macho.Reader

/-!
# The load commands of a file

Load commands stand one behind the other, each with its kind and its length in
front, and segments are what the segment commands among them say.  Parsing finds
exactly this, and never panics.
-/

namespace Derp

namespace Macho

open Outcome Slices Checked

section Numbers

variable {b part : List UInt8} {off v : Nat}

theorem number_lt {start stop width : Nat} (isWidth : stop - start = width)
    (isNumber : (slice? b start stop).map ofLittleEndian = some v) : v < 2 ^ (8 * width) := by
  obtain ⟨part, isPart, rfl⟩ := Option.map_eq_some_iff.mp isNumber
  have := ofLittleEndian_lt part
  rw [length_of_slice? isPart, isWidth] at this
  rwa [pow_mul]

theorem u16?_lt (isNumber : u16? b off = some v) : v < 2 ^ 16 :=
  @number_lt _ _ _ _ 2 (by omega) isNumber

theorem u32?_lt (isNumber : u32? b off = some v) : v < 2 ^ 32 :=
  @number_lt _ _ _ _ 4 (by omega) isNumber

theorem u64?_lt (isNumber : u64? b off = some v) : v < 2 ^ 64 :=
  @number_lt _ _ _ _ 8 (by omega) isNumber

theorem getD_u32?_lt (b : List UInt8) (off : Nat) : (u32? b off).getD 0 < 2 ^ 32 := by
  cases isNumber : u32? b off with
  | none => exact Nat.two_pow_pos 32
  | some v => exact u32?_lt isNumber

theorem isSome_slice? {start stop : Nat} (ordered : start ≤ stop) (inside : stop ≤ b.length) :
    (slice? b start stop).isSome := by
  rw [slice?_of_le ordered inside]
  rfl

theorem isSome_u16? (inside : off + 2 ≤ b.length) : (u16? b off).isSome := by
  unfold u16?
  rw [Option.isSome_map]
  exact isSome_slice? (Nat.le_add_right off 2) inside

theorem isSome_u32? (inside : off + 4 ≤ b.length) : (u32? b off).isSome := by
  unfold u32?
  rw [Option.isSome_map]
  exact isSome_slice? (Nat.le_add_right off 4) inside

theorem isSome_u64? (inside : off + 8 ≤ b.length) : (u64? b off).isSome := by
  unfold u64?
  rw [Option.isSome_map]
  exact isSome_slice? (Nat.le_add_right off 8) inside

theorem le_length_of_u32? (isNumber : u32? b off = some v) : off + 4 ≤ b.length := by
  obtain ⟨part, isPart, -⟩ := Option.map_eq_some_iff.mp isNumber
  exact (slice?_eq_some.mp isPart).1.2

theorem u32At_eq (fits : off + 4 < 2 ^ 64) : u32At b off = ok (u32? b off) := by
  unfold u32At
  rw [add_of_lt fits, ok_bind]
  rfl

theorem returns_u32At : (u32At b off).Returns ↔ off + 4 < 2 ^ 64 := by
  unfold u32At
  rw [returns_bind, returns_add]
  exact and_iff_left fun _ _ => returns_ok _

end Numbers

theorem returns_parseSection {s : List UInt8} (length : s.length = SECTION_SIZE) :
    (parseSection s).Returns := by
  unfold SECTION_SIZE at length
  unfold parseSection
  simp only [returns_bind, returns_unwrap, returns_ok, implies_true, and_true]
  exact ⟨isSome_slice? (by omega) (by omega), fun _ _ => ⟨isSome_u64? (by omega), fun _ _ =>
    ⟨isSome_u64? (by omega), fun _ _ => isSome_u32? (by omega)⟩⟩⟩

theorem returns_parseSections {bytes : List UInt8} {nsects i : Nat} (few : i + nsects ≤ 2 ^ 32) :
    (parseSections bytes nsects i).Returns := by
  induction nsects generalizing i with
  | zero => exact returns_ok _
  | succ nsects inductionHypothesis =>
      unfold parseSections SEGMENT_CMD_SIZE
      have sizes : 72 + i * SECTION_SIZE + SECTION_SIZE < 2 ^ 64 := by
        unfold SECTION_SIZE
        omega
      rw [add_of_lt (by omega), ok_bind, add_of_lt sizes, ok_bind, returns_bind]
      refine ⟨returns_ofOption _ _, fun s isPart => returns_bind.mpr ⟨?_, fun _ _ =>
        returns_bind.mpr ⟨inductionHypothesis (by omega), fun _ _ => returns_ok _⟩⟩⟩
      apply returns_parseSection
      rw [length_of_slice? (ofOption_eq_ok.mp isPart)]
      omega

theorem returns_parseSegment (cmdIndex : Nat) (bytes : List UInt8) :
    (parseSegment cmdIndex bytes).Returns := by
  unfold parseSegment SEGMENT_CMD_SIZE
  split
  · exact returns_error _
  · simp only [returns_bind, returns_unwrap, returns_ok, implies_true, and_true, unwrap_eq_ok]
    refine ⟨isSome_u32? (by omega), fun nsects isCount => ⟨?_, fun _ _ =>
      ⟨isSome_slice? (by omega) (by omega), fun _ _ => ⟨isSome_u64? (by omega), fun _ _ =>
        ⟨isSome_u64? (by omega), fun _ _ => ⟨isSome_u64? (by omega), fun _ _ =>
          isSome_u64? (by omega)⟩⟩⟩⟩⟩⟩
    exact returns_parseSections (by have := u32?_lt isCount; omega)

theorem returns_segmentOf (cmdIndex : Nat) (c : Command) : (segmentOf cmdIndex c).Returns := by
  unfold segmentOf
  split
  · exact returns_map.mpr (returns_parseSegment _ _)
  · exact returns_ok _

section Segments

/-- What the segment commands among commands say, the first of number `i`. -/
def segmentsOf : Nat → List Command → Outcome Error (List Segment)
  | _, [] => ok []
  | i, c :: commands => do
      let found ← segmentOf i c
      let rest ← segmentsOf (i + 1) commands
      ok (found ++ rest)

/-- Commands stand one behind the other from an offset on, kind and length in
front of each. -/
def Laid (data : List UInt8) : Nat → List Command → Prop
  | _, [] => True
  | off, c :: commands =>
      u32? data off = some c.cmd ∧ u32? data (off + 4) = some c.bytes.length ∧
        slice? data off (off + c.bytes.length) = some c.bytes ∧
          Laid data (off + c.bytes.length) commands

variable {data : List UInt8} {commands : List Command} {segments : List Segment}

theorem le_length_of_laid {off : Nat} (laid : Laid data off commands) (start : off ≤ data.length) :
    off + (commands.map (·.bytes.length)).sum ≤ data.length := by
  induction commands generalizing off with
  | nil => simpa using start
  | cons c commands inductionHypothesis =>
      obtain ⟨-, -, isPart, rest⟩ := laid
      have := inductionHypothesis rest (slice?_eq_some.mp isPart).1.2
      rw [List.map_cons, List.sum_cons]
      omega

variable (short : data.length < 2 ^ 63)

include short in
theorem returns_parseCommands {ncmds off : Nat} (start : off ≤ data.length) :
    (parseCommands data ncmds off commands segments).Returns := by
  induction ncmds generalizing off commands segments with
  | zero => exact returns_ok _
  | succ ncmds inductionHypothesis =>
      unfold parseCommands
      rw [u32At_eq (by omega), ok_bind, returns_bind]
      refine ⟨returns_ofOption _ _, fun cmd isKind => ?_⟩
      have inside := le_length_of_u32? (ofOption_eq_ok.mp isKind)
      rw [add_of_lt (by omega), ok_bind, u32At_eq (by omega), ok_bind, returns_bind]
      refine ⟨returns_ofOption _ _, fun cmdsize isSize => ?_⟩
      have small := u32?_lt (ofOption_eq_ok.mp isSize)
      rw [add_of_lt (by omega), ok_bind, returns_bind]
      refine ⟨returns_ofOption _ _, fun bytes isPart => ?_⟩
      have next := (slice?_eq_some.mp (ofOption_eq_ok.mp isPart)).1.2
      exact returns_bind.mpr ⟨returns_segmentOf _ _, fun _ _ => inductionHypothesis next⟩

include short in
/-- Parsing finds the commands that stand there, and their segments. -/
theorem parseCommands_eq_ok {ncmds off : Nat} (start : off ≤ data.length)
    {commands' : List Command} {segments' : List Segment} :
    parseCommands data ncmds off commands segments = ok (commands', segments') ↔
      ∃ found foundSegments, commands' = commands ++ found ∧ segments' = segments ++ foundSegments ∧
        found.length = ncmds ∧ Laid data off found ∧
          segmentsOf commands.length found = ok foundSegments := by
  induction ncmds generalizing off commands segments with
  | zero =>
      simp only [parseCommands, ok.injEq, Prod.mk.injEq, List.length_eq_zero_iff]
      constructor
      · rintro ⟨rfl, rfl⟩
        exact ⟨[], [], by simp, by simp, rfl, trivial, rfl⟩
      · rintro ⟨_, _, rfl, rfl, rfl, -, none⟩
        obtain rfl := ok.inj none
        simp
  | succ ncmds inductionHypothesis =>
      unfold parseCommands
      rw [u32At_eq (by omega), ok_bind]
      constructor
      · intro parsed
        obtain ⟨cmd, isKind, parsed⟩ := bind_eq_ok.mp parsed
        have isKind := ofOption_eq_ok.mp isKind
        have inside := le_length_of_u32? isKind
        rw [add_of_lt (by omega), ok_bind, u32At_eq (by omega), ok_bind] at parsed
        obtain ⟨cmdsize, isSize, parsed⟩ := bind_eq_ok.mp parsed
        have isSize := ofOption_eq_ok.mp isSize
        have small := u32?_lt isSize
        rw [add_of_lt (by omega), ok_bind] at parsed
        obtain ⟨bytes, isPart, parsed⟩ := bind_eq_ok.mp parsed
        have isPart := ofOption_eq_ok.mp isPart
        obtain rfl : bytes.length = cmdsize := by
          rw [length_of_slice? isPart]
          omega
        obtain ⟨first, isFirst, parsed⟩ := bind_eq_ok.mp parsed
        obtain ⟨found, foundSegments, rfl, rfl, count, laid, isFound⟩ :=
          (inductionHypothesis (slice?_eq_some.mp isPart).1.2).mp parsed
        rw [List.length_append] at isFound
        refine ⟨{ cmd, bytes } :: found, first ++ foundSegments, by simp, by simp, by simp [count],
          ⟨isKind, isSize, isPart, laid⟩, ?_⟩
        rw [segmentsOf, isFirst, ok_bind]
        exact bind_eq_ok.mpr ⟨_, isFound, rfl⟩
      · rintro ⟨found, foundSegments, rfl, rfl, count, laid, isFound⟩
        cases found with
        | nil => cases count
        | cons c found =>
            obtain ⟨isKind, isSize, isPart, rest⟩ := laid
            have inside := le_length_of_u32? isKind
            have small := u32?_lt isSize
            rw [isKind, ofOption_some, ok_bind, add_of_lt (by omega), ok_bind,
              u32At_eq (by omega), ok_bind, isSize, ofOption_some, ok_bind,
              add_of_lt (by omega), ok_bind, isPart, ofOption_some, ok_bind]
            have next := (slice?_eq_some.mp isPart).1.2
            have remaining : found.length = ncmds := by simpa using count
            obtain ⟨first, isFirst, isFound⟩ := bind_eq_ok.mp isFound
            obtain ⟨later, isLater, isFound⟩ := bind_eq_ok.mp isFound
            obtain rfl := ok.inj isFound
            rw [isFirst, ok_bind]
            refine (inductionHypothesis next).mpr ⟨found, later, by simp, by simp, remaining,
              rest, ?_⟩
            rwa [List.length_append]

end Segments

section Files

/-- What a parsed file says. -/
structure Parsed (data : List UInt8) (m : MachO) : Prop where
  magic : u32? data 0 = some MH_MAGIC_64
  header : HEADER_SIZE ≤ data.length
  cputype : u32? data 4 = some CPU_TYPE_ARM64
  filetype : u32? data 12 = some MH_EXECUTE
  ncmds : u32? data 16 = some m.commands.length
  sizeofcmds : u32? data 20 = some m.header.sizeofcmds
  isHeader : m.header.cputype = CPU_TYPE_ARM64 ∧ m.header.filetype = MH_EXECUTE ∧
    m.header.ncmds = m.commands.length
  isData : m.data = data
  laid : Laid data HEADER_SIZE m.commands
  isSegments : segmentsOf 0 m.commands = ok m.segments

variable {data : List UInt8} (short : data.length < 2 ^ 63)

include short in
theorem returns_parse : (MachO.parse data).Returns := by
  unfold MachO.parse HEADER_SIZE
  refine returns_bind.mpr ⟨returns_ofOption _ _, fun magic isMagic => ?_⟩
  split_ifs with isOther isShort
  · exact returns_error _
  · exact returns_error _
  · refine returns_bind.mpr ⟨returns_unwrap.mpr (isSome_u32? (by omega)), fun _ _ => ?_⟩
    refine returns_bind.mpr ⟨returns_unwrap.mpr (isSome_u32? (by omega)), fun _ _ => ?_⟩
    refine returns_bind.mpr ⟨returns_unwrap.mpr (isSome_u32? (by omega)), fun _ _ => ?_⟩
    refine returns_bind.mpr ⟨returns_unwrap.mpr (isSome_u32? (by omega)), fun _ _ => ?_⟩
    split_ifs
    · exact returns_error _
    · exact returns_bind.mpr ⟨returns_parseCommands short (by omega), fun _ _ => returns_ok _⟩

include short in
/-- Exactly what the file says is parsed. -/
theorem parse_eq_ok {m : MachO} : MachO.parse data = ok m ↔ Parsed data m := by
  unfold MachO.parse
  constructor
  · intro parsed
    obtain ⟨magic, isMagic, parsed⟩ := bind_eq_ok.mp parsed
    split_ifs at parsed with isOther isShort
    obtain ⟨cputype, isCpu, parsed⟩ := bind_eq_ok.mp parsed
    obtain ⟨filetype, isFile, parsed⟩ := bind_eq_ok.mp parsed
    obtain ⟨ncmds, isCount, parsed⟩ := bind_eq_ok.mp parsed
    obtain ⟨sizeofcmds, isSize, parsed⟩ := bind_eq_ok.mp parsed
    split_ifs at parsed with isForeign
    obtain ⟨⟨commands, segments⟩, isCommands, parsed⟩ := bind_eq_ok.mp parsed
    obtain rfl := ok.inj parsed
    obtain ⟨found, foundSegments, rfl, rfl, rfl, laid, isSegments⟩ :=
      (parseCommands_eq_ok short (not_lt.mp isShort)).mp isCommands
    rw [not_or, not_not, not_not] at isForeign
    obtain ⟨rfl, rfl⟩ := isForeign
    exact
      { magic := by rw [ofOption_eq_ok.mp isMagic, not_not.mp isOther]
        header := not_lt.mp isShort
        cputype := unwrap_eq_ok.mp isCpu
        filetype := unwrap_eq_ok.mp isFile
        ncmds := unwrap_eq_ok.mp isCount
        sizeofcmds := unwrap_eq_ok.mp isSize
        isHeader := ⟨rfl, rfl, rfl⟩
        isData := rfl
        laid := laid
        isSegments := isSegments }
  · intro parsed
    obtain ⟨data', ⟨_, _, _, _⟩, commands, segments⟩ := m
    obtain ⟨magic, header, cputype, filetype, ncmds, sizeofcmds, isHeader, isData, laid,
      isSegments⟩ := parsed
    dsimp only at ncmds sizeofcmds isHeader isData laid isSegments
    obtain ⟨rfl, rfl, rfl⟩ := isHeader
    subst data'
    rw [magic, ofOption_some, ok_bind, if_neg (not_not.mpr rfl), if_neg (not_lt.mpr header),
      cputype, filetype, ncmds, sizeofcmds]
    simp only [unwrap_some, ok_bind]
    have isCommands : parseCommands data commands.length HEADER_SIZE [] [] =
        ok (commands, segments) :=
      (@parseCommands_eq_ok _ [] _ short _ _ header _ _).mpr
        ⟨commands, segments, rfl, rfl, rfl, laid, isSegments⟩
    rw [if_neg (by simp), isCommands]
    rfl

/-- What a segment says is said by the command of its number. -/
theorem mem_segmentsOf {commands : List Command} {i : Nat} {segments : List Segment}
    (isSegments : segmentsOf i commands = ok segments) {s : Segment} (present : s ∈ segments) :
    i ≤ s.cmdIndex ∧ ∃ c, commands[s.cmdIndex - i]? = some c ∧ c.cmd = LC_SEGMENT_64 ∧
      parseSegment s.cmdIndex c.bytes = ok s := by
  induction commands generalizing i segments with
  | nil =>
      obtain rfl := ok.inj isSegments
      cases present
  | cons c commands inductionHypothesis =>
      obtain ⟨first, isFirst, isSegments⟩ := bind_eq_ok.mp isSegments
      obtain ⟨rest, isRest, isSegments⟩ := bind_eq_ok.mp isSegments
      obtain rfl := ok.inj isSegments
      rcases List.mem_append.mp present with present | present
      · unfold segmentOf at isFirst
        split_ifs at isFirst with isSegment
        · obtain ⟨segment, isParsed, rfl⟩ := map_eq_ok.mp isFirst
          obtain rfl := List.mem_singleton.mp present
          have number : s.cmdIndex = i := by
            unfold parseSegment at isParsed
            split_ifs at isParsed
            simp only [bind_eq_ok, ok.injEq] at isParsed
            obtain ⟨_, -, _, -, _, -, _, -, _, -, _, -, _, -, rfl⟩ := isParsed
            rfl
          rw [number, Nat.sub_self]
          exact ⟨le_rfl, c, rfl, isSegment, isParsed⟩
        · obtain rfl := ok.inj isFirst
          cases present
      · obtain ⟨later, d, isCommand, isSegment, isParsed⟩ := inductionHypothesis isRest present
        refine ⟨by omega, d, ?_, isSegment, isParsed⟩
        rwa [show s.cmdIndex - i = s.cmdIndex - (i + 1) + 1 by omega, List.getElem?_cons_succ]

/-- What bytes of a segment command say. -/
structure SegmentBytes (bytes : List UInt8) (s : Segment) : Prop where
  length : SEGMENT_CMD_SIZE ≤ bytes.length
  name : (slice? bytes 8 24).map name16 = some s.name
  vmaddr : u64? bytes 24 = some s.vmaddr
  vmsize : u64? bytes 32 = some s.vmsize
  fileoff : u64? bytes 40 = some s.fileoff
  filesize : u64? bytes 48 = some s.filesize
  sections : ∃ nsects, u32? bytes 64 = some nsects ∧ parseSections bytes nsects 0 = ok s.sections

theorem parseSegment_eq_ok {i : Nat} {bytes : List UInt8} {s : Segment} :
    parseSegment i bytes = ok s ↔ SegmentBytes bytes s ∧ s.cmdIndex = i := by
  unfold parseSegment
  constructor
  · intro isParsed
    split_ifs at isParsed with isShort
    simp only [bind_eq_ok, ok.injEq, unwrap_eq_ok] at isParsed
    obtain ⟨nsects, isCount, sections, isSections, name, isName, _, vmaddr, _, vmsize, _, fileoff,
      _, filesize, rfl⟩ := isParsed
    exact ⟨⟨not_lt.mp isShort, by rw [isName]; rfl, vmaddr, vmsize, fileoff, filesize,
      ⟨nsects, isCount, isSections⟩⟩, rfl⟩
  · rintro ⟨⟨length, isName, vmaddr, vmsize, fileoff, filesize, nsects, isCount, isSections⟩, rfl⟩
    obtain ⟨name, isPart, isName⟩ := Option.map_eq_some_iff.mp isName
    rw [if_neg (not_lt.mpr length), isCount, unwrap_some, ok_bind, isSections, ok_bind, isPart,
      unwrap_some, ok_bind, vmaddr, vmsize, fileoff, filesize]
    simp only [unwrap_some, ok_bind, isName]

theorem segmentBytes_of_parseSegment {i : Nat} {bytes : List UInt8} {s : Segment}
    (isParsed : parseSegment i bytes = ok s) : SegmentBytes bytes s :=
  (parseSegment_eq_ok.mp isParsed).1

/-- Section headers are read alike where the bytes behind the ranges are the same. -/
theorem parseSections_congr {bytes bytes' : List UInt8} {nsects i : Nat}
    (same : ∀ start stop, SEGMENT_CMD_SIZE ≤ start →
      slice? bytes' start stop = slice? bytes start stop) :
    parseSections bytes' nsects i = parseSections bytes nsects i := by
  induction nsects generalizing i with
  | zero => rfl
  | succ nsects inductionHypothesis =>
      unfold parseSections
      rw [inductionHypothesis]
      by_cases fits : SEGMENT_CMD_SIZE + i * SECTION_SIZE < 2 ^ 64
      · rw [add_of_lt fits, ok_bind, ok_bind]
        by_cases fits' : SEGMENT_CMD_SIZE + i * SECTION_SIZE + SECTION_SIZE < 2 ^ 64
        · rw [add_of_lt fits', ok_bind, ok_bind, same _ _ (Nat.le_add_right _ _)]
        · rw [add, assert, if_neg fits']
          rfl
      · rw [add, assert, if_neg fits]
        rfl

theorem offset_lt_of_parseSections {bytes : List UInt8} {nsects i : Nat} {sections : List Section}
    (isParsed : parseSections bytes nsects i = ok sections) {section_ : Section}
    (present : section_ ∈ sections) : section_.offset < 2 ^ 32 := by
  induction nsects generalizing i sections with
  | zero =>
      obtain rfl := ok.inj isParsed
      cases present
  | succ nsects inductionHypothesis =>
      unfold parseSections at isParsed
      simp only [bind_eq_ok, ok.injEq] at isParsed
      obtain ⟨_, -, _, -, s, -, first, isFirst, rest, isRest, rfl⟩ := isParsed
      rcases List.mem_cons.mp present with rfl | present
      · unfold parseSection at isFirst
        simp only [bind_eq_ok, ok.injEq, unwrap_eq_ok] at isFirst
        obtain ⟨_, -, _, -, _, -, _, isOffset, rfl⟩ := isFirst
        exact u32?_lt isOffset
      · exact inductionHypothesis isRest present

theorem offset_lt_of_parseSegment {i : Nat} {bytes : List UInt8} {s : Segment}
    (isParsed : parseSegment i bytes = ok s) {section_ : Section}
    (present : section_ ∈ s.sections) : section_.offset < 2 ^ 32 := by
  unfold parseSegment at isParsed
  split_ifs at isParsed
  simp only [bind_eq_ok, ok.injEq] at isParsed
  obtain ⟨_, -, _, isSections, _, -, _, -, _, -, _, -, _, -, rfl⟩ := isParsed
  exact offset_lt_of_parseSections isSections present

end Files

end Macho

end Derp
