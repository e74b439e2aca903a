import Derp.Macho.Emitting

/-!
# When reading and writing panic

Parsing never panics.  The functions on a parsed file return exactly when the
sums they make of the file's numbers stay below their width and the pieces they
take from the file are in it.
-/

namespace Derp

namespace Macho

open Outcome Slices Checked

/-- Each function on a parsed file gives a value or an error. -/
structure AllReturn (m : MachO) (addr : Nat) (patches : List (Nat × Nat))
    (stubText : List UInt8) : Prop where
  planLayout : m.planLayout.Returns
  textSection : m.textSection.Returns
  functionStarts : m.functionStarts.Returns
  symbols : m.symbols.Returns
  dataInCode : m.dataInCode.Returns
  addrToOffset : (m.addrToOffset addr).Returns
  headerRoom : m.headerRoom.Returns
  emit : (m.emit patches stubText).Returns

/-- The sums of the file's numbers fit. -/
structure AllFits (m : MachO) (addr : Nat) (patches : List (Nat × Nat))
    (stubText : List UInt8) : Prop where
  text : TextFits m
  starts : StartsFit m
  sections : SectionsFit m
  data : DataFits m
  address : AddrFits m.segments addr
  emit : EmitFits m patches stubText

/-- A file is read and written without a panic exactly when its numbers fit. -/
theorem allReturn_iff_allFits {data : List UInt8} (short : data.length < 2 ^ 63)
    {addr : Nat} (isAddr : addr < 2 ^ 64)
    {patches : List (Nat × Nat)} (areAddrs : ∀ patch ∈ patches, patch.1 < 2 ^ 64)
    {stubText : List UInt8} (small : stubText.length < 2 ^ 63) :
    ((MachO.parse data).Returns ∧
      ∀ m, MachO.parse data = ok m → AllReturn m addr patches stubText) ↔
      ∀ m, MachO.parse data = ok m → AllFits m addr patches stubText := by
  rw [and_iff_right (returns_parse short)]
  refine forall₂_congr fun m isParsed => ?_
  have parsed := (parse_eq_ok short).mp isParsed
  have vmaddrs : ∀ s ∈ m.segments, s.vmaddr < 2 ^ 64 := fun s present => vmaddr_lt parsed present
  constructor
  · intro returns
    exact
      { text := returns_planLayout.mp returns.planLayout
        starts := (returns_functionStarts vmaddrs).mp returns.functionStarts
        sections := returns_symbols.mp returns.symbols
        data := returns_dataInCode.mp returns.dataInCode
        address := (returns_addrToOffset isAddr).mp returns.addrToOffset
        emit := (returns_emit parsed short areAddrs small).mp returns.emit }
  · intro fits
    exact
      { planLayout := returns_planLayout.mpr fits.text
        textSection := returns_textSection
        functionStarts := (returns_functionStarts vmaddrs).mpr fits.starts
        symbols := returns_symbols.mpr fits.sections
        dataInCode := returns_dataInCode.mpr fits.data
        addrToOffset := (returns_addrToOffset isAddr).mpr fits.address
        headerRoom := by
          rw [headerRoom_eq (sizeofcmds_lt parsed)]
          exact returns_ok _
        emit := (returns_emit parsed short areAddrs small).mpr fits.emit }

/-- The header of an executable with so many commands of so many bytes. -/
def headerBytes (ncmds sizeofcmds : Nat) : List UInt8 :=
  toLittleEndian 4 MH_MAGIC_64 ++ toLittleEndian 4 CPU_TYPE_ARM64 ++ toLittleEndian 4 0 ++
    toLittleEndian 4 MH_EXECUTE ++ toLittleEndian 4 ncmds ++ toLittleEndian 4 sizeofcmds ++
      toLittleEndian 8 0

/-- The commands of a program without sections. -/
def plainCommands : List UInt8 :=
  headerBytes 2 144 ++
    (segmentCommand "__TEXT" 0x100000000 0x4000 0 5).bytes ++
      (segmentCommand "__LINKEDIT" 0x100004000 0x4000 0x4000 1).bytes

/-- Its numbers fit, and each function returns. -/
theorem allReturn_iff_allFits_plainCommands :
    ((MachO.parse plainCommands).Returns ∧
      ∀ m, MachO.parse plainCommands = ok m → AllReturn m 0x100000000 [(0x100000000, 0)] [0]) ∧
      ∀ m, MachO.parse plainCommands = ok m → AllFits m 0x100000000 [(0x100000000, 0)] [0] := by
  have returns : (MachO.parse plainCommands).Returns := by decide +kernel
  have all : (MachO.parse plainCommands).bind (fun m => ok (decide
      (m.planLayout.Returns ∧ m.textSection.Returns ∧ m.functionStarts.Returns ∧
        m.symbols.Returns ∧ m.dataInCode.Returns ∧ (m.addrToOffset 0x100000000).Returns ∧
          m.headerRoom.Returns ∧ (m.emit [(0x100000000, 0)] [0]).Returns))) = ok true := by
    decide +kernel
  have allReturn : ∀ m, MachO.parse plainCommands = ok m →
      AllReturn m 0x100000000 [(0x100000000, 0)] [0] := by
    intro m parsed
    rw [parsed] at all
    obtain ⟨planLayout, textSection, functionStarts, symbols, dataInCode, addrToOffset, headerRoom,
      emit⟩ := of_decide_eq_true (ok.inj all)
    exact ⟨planLayout, textSection, functionStarts, symbols, dataInCode, addrToOffset, headerRoom,
      emit⟩
  have address : ∀ patch ∈ [(0x100000000, 0)], patch.1 < 2 ^ 64 := by decide
  exact ⟨⟨returns, allReturn⟩, (allReturn_iff_allFits (by decide +kernel) (by decide) address
    (by decide)).mp ⟨returns, allReturn⟩⟩

/-- A file whose `__TEXT` ends past the last address. -/
def endlessText : List UInt8 :=
  headerBytes 2 144 ++
    (segmentCommand "__TEXT" 0xFFFFFFFFFFFFC000 0x4000 0 5).bytes ++
      (segmentCommand "__LINKEDIT" 0 0 0 1).bytes

/-- Planning the layout of that file panics. -/
theorem not_allReturn_endlessText :
    ¬ ((MachO.parse endlessText).Returns ∧
      ∀ m, MachO.parse endlessText = ok m → AllReturn m 0 [] []) := by
  rintro ⟨-, all⟩
  have isParsed : (MachO.parse endlessText).bind (fun m => m.planLayout) = .panic := by
    decide +kernel
  cases parsed : MachO.parse endlessText with
  | ok m =>
      rw [parsed] at isParsed
      exact (all m parsed).planLayout isParsed
  | error e =>
      rw [parsed] at isParsed
      cases isParsed
  | panic =>
      have : (MachO.parse endlessText).Returns := by decide +kernel
      exact this parsed

end Macho

end Derp
