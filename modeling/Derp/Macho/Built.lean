import Derp.Macho.Output
import Derp.Macho.Panics

/-!
# Files built from commands

A header, commands that say their kinds and lengths, and any bytes behind them
are a file that parses to the commands.  Where nothing may be given up and the
header has room, everything is kept.
-/

namespace Derp

namespace Macho

open Outcome Slices Checked

section Files

/-- Commands behind their header, and more bytes. -/
def fileOf (commands : List Command) (later : List UInt8) : List UInt8 :=
  headerBytes commands.length (lengths commands) ++ (written commands ++ later)

/-- What such a file says. -/
def saidBy (commands : List Command) (later : List UInt8) (segments : List Segment) : MachO :=
  { data := fileOf commands later
    header :=
      { cputype := CPU_TYPE_ARM64
        filetype := MH_EXECUTE
        ncmds := commands.length
        sizeofcmds := lengths commands }
    commands
    segments }

variable {commands : List Command} {later : List UInt8} {segments : List Segment}

theorem headerBytes_eq (ncmds sizeofcmds : Nat) :
    headerBytes ncmds sizeofcmds =
      [toLittleEndian 4 MH_MAGIC_64, toLittleEndian 4 CPU_TYPE_ARM64, toLittleEndian 4 0,
        toLittleEndian 4 MH_EXECUTE, toLittleEndian 4 ncmds, toLittleEndian 4 sizeofcmds,
        toLittleEndian 8 0].flatten := by
  simp only [headerBytes, List.flatten_cons, List.flatten_nil, List.append_nil, List.append_assoc]

theorem length_headerBytes (ncmds sizeofcmds : Nat) :
    (headerBytes ncmds sizeofcmds).length = HEADER_SIZE := by
  rw [headerBytes_eq]
  rfl

theorem length_fileOf : (fileOf commands later).length =
    HEADER_SIZE + lengths commands + later.length := by
  unfold fileOf
  rw [List.length_append, length_headerBytes, List.length_append, length_written, Nat.add_assoc]

/-- The header is read from its bytes. -/
theorem u32?_fileOf {off : Nat} (early : off + 4 ≤ HEADER_SIZE) :
    u32? (fileOf commands later) off =
      u32? (headerBytes commands.length (lengths commands)) off := by
  unfold u32? fileOf
  rw [slice?_append_left (by rwa [length_headerBytes])]

theorem parsed_fileOf (framed : ∀ c ∈ commands, Framed c) (few : lengths commands < 2 ^ 32)
    (isSegments : segmentsOf 0 commands = ok segments) :
    Parsed (fileOf commands later) (saidBy commands later segments) := by
  have count := length_le_lengths framed
  exact
    { magic := by
        rw [u32?_fileOf (by decide), headerBytes_eq]
        exact u32?_flatten 0 0 rfl rfl (by decide)
      header := by
        rw [length_fileOf]
        omega
      cputype := by
        rw [u32?_fileOf (by decide), headerBytes_eq]
        exact u32?_flatten 1 4 rfl rfl (by decide)
      filetype := by
        rw [u32?_fileOf (by decide), headerBytes_eq]
        exact u32?_flatten 3 12 rfl rfl (by decide)
      ncmds := by
        rw [u32?_fileOf (by decide), headerBytes_eq]
        exact u32?_flatten 4 16 rfl rfl (lt_of_le_of_lt count few)
      sizeofcmds := by
        rw [u32?_fileOf (by decide), headerBytes_eq]
        exact u32?_flatten 5 20 rfl rfl few
      isHeader := ⟨rfl, rfl, rfl⟩
      isData := rfl
      laid := by
        refine laid_of_written ?_ framed
        unfold fileOf
        rw [← List.append_assoc]
        exact slice?_middle _ _ _ (length_headerBytes _ _) (by rw [length_written]; rfl)
      isSegments }

end Files

section Emitted

variable {m : MachO} {patches : List (Nat × Nat)} {stubText : List UInt8} {p : Plan}

theorem keptCommands_nil : keptCommands m p [] = emitted m p := without_eq_self (by simp)

/-- Where there is room for every command, everything is kept. -/
theorem emits_of_room (planned : Planned m stubText p)
    (imageFits : ∀ x ∈ m.commands.zipIdx, ImageFits p x)
    (room : lengths (emitted m p) + SIGNATURE_CMD_SIZE ≤ headerSpace m)
    (inside : p.linkedit.fileoff ≤ m.data.length) (positive : 0 < p.linkedit.fileoff)
    (newEnd : HEADER_SIZE + lengths (emitted m p) ≤ p.linkedit.fileoff)
    (oldEnd : HEADER_SIZE + m.header.sizeofcmds ≤ p.linkedit.fileoff)
    (patchesFit : ∀ patch ∈ patches, PatchFits m patch ∧ Placed m p patch)
    (restFits : RestFits m p) : Emits m patches stubText p [] where
  fitting :=
    { planned
      isDropped :=
        { isPrefix := ⟨0, Nat.zero_le _, rfl⟩
          needed := fun _ fewer => absurd fewer (Nat.not_lt_zero _)
          enough := fun _ => room }
      room := by rwa [keptCommands_nil] }
  imageFits
  headFits := ⟨inside, positive, by rwa [keptCommands_nil], oldEnd⟩
  patchesFit
  restFits

end Emitted

end Macho

end Derp
