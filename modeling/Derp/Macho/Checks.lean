import Derp.Macho.Emitting

/-!
# Builds with and without checks

Where a build with checks does not panic, no sum or difference leaves its width, and
one without them does the same.
-/

namespace Derp

namespace Macho

open Outcome Slices

variable [Build]

/-! ## Reading -/

theorem agrees_u32At (b : List UInt8) (off : Nat) :
    Agrees (@u32At b off Checked.build) (u32At b off) :=
  .bind (agrees_add 64 off 4) fun _ _ => .refl _

theorem agrees_parseSections (bytes : List UInt8) (nsects i : Nat) :
    Agrees (@parseSections Checked.build bytes nsects i) (parseSections bytes nsects i) := by
  induction nsects generalizing i with
  | zero => exact .refl _
  | succ nsects inductionHypothesis =>
      refine .bind (agrees_add _ _ _) fun off _ => .bind (agrees_add _ _ _) fun stop _ => ?_
      refine .bind (.refl _) fun s _ => .bind (.refl _) fun first _ => ?_
      exact .bind (inductionHypothesis (i + 1)) fun _ _ => .refl _

theorem agrees_parseSegment (cmdIndex : Nat) (bytes : List UInt8) :
    Agrees (@parseSegment Checked.build cmdIndex bytes) (parseSegment cmdIndex bytes) := by
  refine .ite (.refl _) (.bind (.refl _) fun nsects _ => ?_)
  exact .bind (agrees_parseSections bytes nsects 0) fun _ _ => .refl _

theorem agrees_segmentOf (cmdIndex : Nat) (c : Command) :
    Agrees (@segmentOf Checked.build cmdIndex c) (segmentOf cmdIndex c) :=
  .ite (.map _ (agrees_parseSegment cmdIndex c.bytes)) (.refl _)

theorem agrees_parseCommands (data : List UInt8) (ncmds off : Nat) (commands : List Command)
    (segments : List Segment) :
    Agrees (@parseCommands Checked.build data ncmds off commands segments)
      (parseCommands data ncmds off commands segments) := by
  induction ncmds generalizing off commands segments with
  | zero => exact .refl _
  | succ ncmds inductionHypothesis =>
      refine .bind (agrees_u32At data off) fun cmd? _ => .bind (.refl _) fun cmd _ => ?_
      refine .bind (agrees_add _ _ _) fun sizeAt _ => .bind (agrees_u32At data sizeAt) fun _ _ => ?_
      refine .bind (.refl _) fun cmdsize _ => .bind (agrees_add _ _ _) fun stop _ => ?_
      refine .bind (.refl _) fun bytes _ => .bind (agrees_segmentOf _ _) fun found _ => ?_
      exact inductionHypothesis _ _ _

theorem agrees_parse (data : List UInt8) :
    Agrees (@MachO.parse Checked.build data) (MachO.parse data) := by
  refine .bind (.refl _) fun magic _ => .ite (.refl _) (.ite (.refl _) ?_)
  refine .bind (.refl _) fun cputype _ => .bind (.refl _) fun filetype _ => ?_
  refine .bind (.refl _) fun ncmds _ => .bind (.refl _) fun sizeofcmds _ => .ite (.refl _) ?_
  exact .bind (agrees_parseCommands data ncmds HEADER_SIZE [] []) fun _ _ => .refl _

theorem agrees_containsAddr (s : Segment) (addr : Nat) :
    Agrees (@Segment.containsAddr Checked.build s addr) (s.containsAddr addr) :=
  .ite (.refl _) (.bind (agrees_add _ _ _) fun _ _ => .refl _)

omit [Build] in
theorem agrees_findM {p p' : Segment → Outcome Error Bool} (each : ∀ s, Agrees (p s) (p' s))
    (segments : List Segment) : Agrees (segments.findM? p) (segments.findM? p') := by
  induction segments with
  | nil => exact .refl _
  | cons s segments inductionHypothesis =>
      refine .bind (each s) fun found _ => ?_
      cases found with
      | true => exact .refl _
      | false => exact inductionHypothesis

theorem agrees_dataInCodeFrom (data : List UInt8) (base limit rounds i : Nat) :
    Agrees (@dataInCodeFrom Checked.build data base limit rounds i)
      (dataInCodeFrom data base limit rounds i) := by
  induction rounds generalizing i with
  | zero => exact .refl _
  | succ rounds inductionHypothesis =>
      refine .bind (agrees_add _ _ _) fun stop _ => .ite ?_ (.refl _)
      refine .bind (.refl _) fun rel _ => .bind (.refl _) fun len _ => ?_
      refine .bind (.refl _) fun kind _ => .bind (agrees_add _ _ _) fun addr _ => ?_
      exact .bind (inductionHypothesis stop) fun _ _ => .refl _

section Files

variable (m : MachO)

theorem agrees_addrToOffset (addr : Nat) (isAddr : addr < 2 ^ 64) :
    Agrees (@MachO.addrToOffset m Checked.build addr) (m.addrToOffset addr) := by
  refine .bind (agrees_findM (fun s => .ite (agrees_containsAddr s addr) (.refl _)) _)
    fun holder _ => ?_
  cases holder with
  | none => exact .refl _
  | some segment =>
      refine .bind (agrees_sub _ isAddr) fun rel _ => .ite ?_ (.refl _)
      exact .bind (agrees_add _ _ _) fun _ _ => .refl _

theorem agrees_dataInCode : Agrees (@MachO.dataInCode m Checked.build) m.dataInCode := by
  unfold MachO.dataInCode
  cases m.linkeditData LC_DATA_IN_CODE with
  | none => exact .refl _
  | some table => exact .bind (agrees_add _ _ _) fun limit _ => agrees_dataInCodeFrom _ _ _ _ _

theorem agrees_headerRoom : Agrees (@MachO.headerRoom m Checked.build) m.headerRoom :=
  .bind (agrees_add _ _ _) fun _ _ => .refl _

theorem agrees_planLayout : Agrees (@MachO.planLayout m Checked.build) m.planLayout := by
  refine .bind (.refl _) fun linkedit _ => .bind (.refl _) fun text _ => ?_
  refine .ite (.refl _) (.ite (.refl _) ?_)
  exact .bind (agrees_add _ _ _) fun _ _ => .refl _

end Files

/-! ## Writing -/

theorem agrees_roundUp {v align : Nat} :
    Agrees (@roundUp Checked.build v align) (roundUp v align) := by
  refine .bind (agrees_add _ _ _) fun sum isSum => ?_
  exact .bind (agrees_sub 1 (@lt_of_add _ _ _ _ _ Checked.build isSum)) fun _ _ => .refl _

theorem agrees_bump (delta : Nat) (b : List UInt8) (off : Nat) :
    Agrees (@bump Checked.build delta b off) (bump delta b off) :=
  .ite (.bind (agrees_add _ _ _) fun _ _ => .refl _) (.refl _)

theorem agrees_size (commands : List Command) :
    Agrees (@size Checked.build commands) (size commands) :=
  .foldlM (fun _ _ _ => agrees_add _ _ _) _

theorem agrees_sizeOfDropped (commands : List Command) (dropped : List Nat) :
    Agrees (@sizeOfDropped Checked.build commands dropped) (sizeOfDropped commands dropped) :=
  .foldlM (fun _ _ _ => .bind (.refl _) fun _ _ => agrees_add _ _ _) _

theorem agrees_dropFrom (commands : List Command) (room : Nat) (optional : List (Nat × Nat))
    (dropped : List Nat) :
    Agrees (@dropFrom Checked.build commands room optional dropped)
      (dropFrom commands room optional dropped) := by
  induction optional generalizing dropped with
  | nil => exact .refl _
  | cons first optional inductionHypothesis =>
      refine .bind (agrees_size commands) fun total _ => ?_
      refine .bind (agrees_add _ _ _) fun need isNeed => ?_
      have small := @lt_of_add _ _ _ _ _ Checked.build isNeed
      refine .bind (agrees_sizeOfDropped commands dropped) fun gone _ => ?_
      refine .bind (agrees_sub gone small) fun left _ => .ite (.refl _) ?_
      exact inductionHypothesis _

section Files

variable (m : MachO) (p : Plan)

theorem agrees_unsignedSize (linkedit : Segment) :
    Agrees (@MachO.unsignedSize m Checked.build linkedit) (m.unsignedSize linkedit) := by
  unfold MachO.unsignedSize
  cases isTable : m.linkeditData LC_CODE_SIGNATURE with
  | none => exact .refl _
  | some table =>
      have small := (linkeditData_lt isTable).1
      refine .ite (.refl _) (.bind (agrees_add _ _ _) fun sigEnd _ => ?_)
      refine .bind (agrees_add _ _ _) fun linkeditEnd _ => .ite (.refl _) ?_
      exact agrees_sub _ (by omega)

theorem agrees_repackLinkedit (c : Command) :
    Agrees (@MachO.repackLinkedit Checked.build p c) (MachO.repackLinkedit p c) := by
  refine .bind (agrees_add _ _ _) fun vmaddr _ => .bind (.refl _) fun b _ => ?_
  refine .bind agrees_roundUp fun vmsize _ => .bind (.refl _) fun b _ => ?_
  exact .bind (agrees_add _ _ _) fun _ _ => .refl _

theorem agrees_repackCommand (r : Repacked) (numbered : Command × Nat) :
    Agrees (@MachO.repackCommand m Checked.build p r numbered) (m.repackCommand p r numbered) := by
  refine .ite (.refl _) (.ite ?_ ?_)
  · exact .bind (agrees_repackLinkedit p numbered.1) fun _ _ => .refl _
  · refine .bind ?_ fun _ _ => .refl _
    exact .foldlM (fun off _ b => agrees_bump _ b off) _

theorem agrees_fitCommands (r : Repacked) :
    Agrees (@MachO.fitCommands m Checked.build r) (m.fitCommands r) := by
  refine .bind (agrees_headerRoom m) fun free _ => .bind (agrees_add _ _ _) fun room _ => ?_
  refine .bind (agrees_size _) fun total _ => .bind (agrees_add _ _ _) fun need _ => ?_
  refine .bind (agrees_dropFrom _ _ _ _) fun dropped _ => .bind (.refl _) fun commands _ => ?_
  exact .bind (agrees_size _) fun sizeofcmds _ => .bind (agrees_add _ _ _) fun _ _ => .refl _

theorem agrees_writeCommands (commands : List Command) :
    Agrees (@MachO.writeCommands m Checked.build p commands) (m.writeCommands p commands) := by
  refine .bind (agrees_add _ _ _) fun oldEnd _ => .bind (agrees_size _) fun sizeofcmds _ => ?_
  refine .bind (agrees_add _ _ _) fun _ _ => .bind (.refl _) fun out _ => ?_
  refine .bind (.refl _) fun out _ => .bind (.refl _) fun out _ => ?_
  refine .bind (.foldlM (fun c _ head => ?_) _) fun head _ => ?_
  · exact .bind (agrees_add _ _ _) fun _ _ => .refl _
  · exact .bind (agrees_add _ _ _) fun _ _ => .refl _

theorem agrees_applyPatch (out : List UInt8) (patch : Nat × Nat) (isAddr : patch.1 < 2 ^ 64) :
    Agrees (@MachO.applyPatch m Checked.build p out patch) (m.applyPatch p out patch) := by
  refine .bind (agrees_addrToOffset m patch.1 isAddr) fun found _ => ?_
  cases found with
  | none => exact .refl _
  | some off => exact .bind (agrees_add _ _ _) fun _ _ => .refl _

theorem agrees_appendPieces (stubText out : List UInt8) :
    Agrees (@MachO.appendPieces m Checked.build p stubText out) (m.appendPieces p stubText out) :=
  .bind (agrees_add _ _ _) fun _ _ => .bind (agrees_add _ _ _) fun _ _ => .refl _

theorem agrees_plan (stubText : List UInt8) :
    Agrees (@MachO.plan m Checked.build stubText) (m.plan stubText) := by
  refine .bind (agrees_planLayout m) fun textAddr _ => .bind (.refl _) fun linkedit _ => ?_
  refine .bind agrees_roundUp fun inserted _ => ?_
  exact .bind (agrees_unsignedSize m linkedit) fun _ _ => .refl _

/-- The image is the same in each build, where one with checks does not panic. -/
theorem agrees_emit {patches : List (Nat × Nat)} (areAddrs : ∀ patch ∈ patches, patch.1 < 2 ^ 64)
    (stubText : List UInt8) :
    Agrees (@MachO.emit m Checked.build patches stubText) (m.emit patches stubText) := by
  refine .bind (agrees_plan m stubText) fun p _ => ?_
  refine .bind (.foldlM (fun x _ r => agrees_repackCommand m p r x) _) fun r _ => ?_
  refine .bind (agrees_fitCommands m r) fun commands _ => ?_
  refine .bind (agrees_writeCommands m p commands) fun out _ => ?_
  refine .bind (.foldlM (fun patch present out => ?_) _) fun out _ => ?_
  · exact agrees_applyPatch m p out patch (areAddrs patch present)
  · exact agrees_appendPieces m p stubText out

end Files

/-! ## Files -/

section Builds

variable {data : List UInt8} (short : data.length < 2 ^ 63)

include short in
theorem parse_eq_checked : MachO.parse data = @MachO.parse Checked.build data :=
  agrees_parse data (returns_parse short)

include short in
/-- Where its sums fit, each build emits the same image. -/
theorem emit_eq_checked {m : MachO} (parsed : Parsed data m) {patches : List (Nat × Nat)}
    (areAddrs : ∀ patch ∈ patches, patch.1 < 2 ^ 64) {stubText : List UInt8}
    (small : stubText.length < 2 ^ 63) (fits : EmitFits m patches stubText) :
    m.emit patches stubText = @MachO.emit m Checked.build patches stubText :=
  agrees_emit m areAddrs stubText ((returns_emit parsed short areAddrs small).mpr fits)

end Builds

end Macho

end Derp
