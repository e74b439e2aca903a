import Derp.Library.Bytes
import Derp.Library.Outcome
import Derp.Library.Slices
import Derp.Rewrite.Encode

/-!
# Reading a Mach-O file

The header, load commands, segments and sections of an arm64 executable, and the
tables found through them: the function starts, the symbols, the data in the
code.  Names are kept as their bytes up to the first zero.  Sums of offsets,
addresses and numbers are taken at the width the code adds them at, as the build
says; indices are checked.
-/

namespace Derp

namespace Macho

open Outcome Slices

def MH_MAGIC_64 : Nat := 0xFEEDFACF

def CPU_TYPE_ARM64 : Nat := 0x0100000C

def MH_EXECUTE : Nat := 2

def PAGE : Nat := 0x4000

def LC_SEGMENT_64 : Nat := 0x19

def LC_SYMTAB : Nat := 0x2

def LC_DYSYMTAB : Nat := 0xB

def LC_SOURCE_VERSION : Nat := 0x2A

def LC_DYLD_INFO : Nat := 0x22

def LC_DYLD_INFO_ONLY : Nat := 0x80000022

def LC_CODE_SIGNATURE : Nat := 0x1D

def LC_SEGMENT_SPLIT_INFO : Nat := 0x1E

def LC_FUNCTION_STARTS : Nat := 0x26

def LC_DATA_IN_CODE : Nat := 0x29

def LC_DYLIB_CODE_SIGN_DRS : Nat := 0x2B

def LC_LINKER_OPTIMIZATION_HINT : Nat := 0x2E

def LC_DYLD_EXPORTS_TRIE : Nat := 0x80000033

def LC_DYLD_CHAINED_FIXUPS : Nat := 0x80000034

def LC_ATOM_INFO : Nat := 0x36

def HEADER_SIZE : Nat := 32

def SEGMENT_CMD_SIZE : Nat := 72

def SECTION_SIZE : Nat := 80

/-- A name as it is written in a file. -/
def ascii (name : String) : List UInt8 := name.toList.map fun c => UInt8.ofNat c.toNat

inductive Error
  | truncated (what : String)
  | badMagic (magic : Nat)
  | notArm64Executable
  | missingSegment (segment : String)
  | missingCommand (command : String)
  | noHeaderRoom (need have_ : Nat)
  | badLayout (what : String)
deriving DecidableEq, Repr

structure Header where
  cputype : Nat
  filetype : Nat
  ncmds : Nat
  sizeofcmds : Nat
deriving DecidableEq, Repr

structure Command where
  cmd : Nat
  /-- The whole command, including the 8-byte prefix -/
  bytes : List UInt8
deriving DecidableEq, Repr

structure Section where
  name : List UInt8
  addr : Nat
  size : Nat
  offset : Nat
deriving DecidableEq, Repr

structure Segment where
  cmdIndex : Nat
  name : List UInt8
  vmaddr : Nat
  vmsize : Nat
  fileoff : Nat
  filesize : Nat
  sections : List Section
deriving DecidableEq, Repr

structure MachO where
  data : List UInt8
  header : Header
  commands : List Command
  segments : List Segment
deriving DecidableEq, Repr

section Numbers

variable (b : List UInt8) (off : Nat)

def u16? : Option Nat := (slice? b off (off + 2)).map ofLittleEndian

def u32? : Option Nat := (slice? b off (off + 4)).map ofLittleEndian

def u64? : Option Nat := (slice? b off (off + 8)).map ofLittleEndian

/-- The number at an offset that may be anything. -/
def u32At [Build] : Outcome Error (Option Nat) := do
  let stop ← add 64 off 4
  ok ((slice? b off stop).map ofLittleEndian)

end Numbers

def name16 (b : List UInt8) : List UInt8 := b.takeWhile (· ≠ 0)

def parseSection (s : List UInt8) : Outcome Error Section := do
  let name ← unwrap (slice? s 0 16)
  let addr ← unwrap (u64? s 32)
  let size ← unwrap (u64? s 40)
  let offset ← unwrap (u32? s 48)
  ok { name := name16 name, addr, size, offset }

/-- The section headers from number `i` on. -/
def parseSections [Build] (bytes : List UInt8) : Nat → Nat → Outcome Error (List Section)
  | 0, _ => ok []
  | nsects + 1, i => do
      let off ← add 64 SEGMENT_CMD_SIZE (i * SECTION_SIZE)
      let stop ← add 64 off SECTION_SIZE
      let s ← ofOption (.truncated "section header") (slice? bytes off stop)
      let first ← parseSection s
      let rest ← parseSections bytes nsects (i + 1)
      ok (first :: rest)

def parseSegment [Build] (cmdIndex : Nat) (bytes : List UInt8) : Outcome Error Segment :=
  if bytes.length < SEGMENT_CMD_SIZE then .error (.truncated "segment command")
  else do
    let nsects ← unwrap (u32? bytes 64)
    let sections ← parseSections bytes nsects 0
    let name ← unwrap (slice? bytes 8 24)
    let vmaddr ← unwrap (u64? bytes 24)
    let vmsize ← unwrap (u64? bytes 32)
    let fileoff ← unwrap (u64? bytes 40)
    let filesize ← unwrap (u64? bytes 48)
    ok { cmdIndex, name := name16 name, vmaddr, vmsize, fileoff, filesize, sections }

/-- Commands whose payload is one offset and size into `__LINKEDIT`. -/
def isLinkeditData (cmd : Nat) : Bool :=
  cmd ∈ [LC_CODE_SIGNATURE, LC_SEGMENT_SPLIT_INFO, LC_FUNCTION_STARTS, LC_DATA_IN_CODE,
    LC_DYLIB_CODE_SIGN_DRS, LC_LINKER_OPTIMIZATION_HINT, LC_DYLD_EXPORTS_TRIE,
    LC_DYLD_CHAINED_FIXUPS, LC_ATOM_INFO]

/-- The segment a command is about, if it is about one. -/
def segmentOf [Build] (cmdIndex : Nat) (c : Command) : Outcome Error (List Segment) :=
  if c.cmd = LC_SEGMENT_64 then (fun segment => [segment]) <$> parseSegment cmdIndex c.bytes
  else ok []

/-- So many load commands from the offset on, behind those read before. -/
def parseCommands [Build] (data : List UInt8) :
    Nat → Nat → List Command → List Segment → Outcome Error (List Command × List Segment)
  | 0, _, commands, segments => ok (commands, segments)
  | ncmds + 1, off, commands, segments => do
      let cmd ← ofOption (.truncated "load command") (← u32At data off)
      let sizeAt ← add 64 off 4
      let cmdsize ← ofOption (.truncated "load command") (← u32At data sizeAt)
      let stop ← add 64 off cmdsize
      let bytes ← ofOption (.truncated "load command") (slice? data off stop)
      let found ← segmentOf commands.length { cmd, bytes }
      parseCommands data ncmds stop (commands ++ [{ cmd, bytes }]) (segments ++ found)

def MachO.parse [Build] (data : List UInt8) : Outcome Error MachO := do
  let magic ← ofOption (.truncated "header") (u32? data 0)
  if magic ≠ MH_MAGIC_64 then .error (.badMagic magic)
  else if data.length < HEADER_SIZE then .error (.truncated "header")
  else do
    let cputype ← unwrap (u32? data 4)
    let filetype ← unwrap (u32? data 12)
    let ncmds ← unwrap (u32? data 16)
    let sizeofcmds ← unwrap (u32? data 20)
    if cputype ≠ CPU_TYPE_ARM64 ∨ filetype ≠ MH_EXECUTE then .error .notArm64Executable
    else do
      let (commands, segments) ← parseCommands data ncmds HEADER_SIZE [] []
      ok { data, header := { cputype, filetype, ncmds, sizeofcmds }, commands, segments }

/-- Whether the segment spans the address. -/
def Segment.containsAddr [Build] (s : Segment) (addr : Nat) : Outcome Error Bool :=
  if addr < s.vmaddr then ok false
  else do
    let stop ← add 64 s.vmaddr s.vmsize
    ok (addr < stop)

def Segment.section (s : Segment) (name : List UInt8) : Option Section :=
  s.sections.find? (·.name = name)

def readUlebFrom (v shift n : Nat) : List UInt8 → Option (Nat × Nat)
  | [] => none
  | byte :: bytes =>
      let v := v ||| ((byte.toNat &&& 0x7F) <<< shift) % 2 ^ 64
      if byte.toNat &&& 0x80 = 0 then some (v, n + 1)
      else if shift + 7 > 63 then none
      else readUlebFrom v (shift + 7) (n + 1) bytes

/-- The number bytes begin with, and how many bytes it takes. -/
def readUleb (b : List UInt8) : Option (Nat × Nat) := readUlebFrom 0 0 0 b

/-- The addresses the deltas lead to.  No delta takes less than a byte, so there
are at most as many rounds as bytes. -/
def functionStartsFrom [Build] : Nat → List UInt8 → Nat → Outcome Error (List Nat)
  | 0, _, _ => ok []
  | rounds + 1, bytes, addr =>
      if bytes = [] then ok []
      else do
        let (delta, n) ← ofOption (.truncated "function starts") (readUleb bytes)
        if delta = 0 then ok []
        else do
          let addr ← add 64 addr delta
          let rest ← functionStartsFrom rounds (bytes.drop n) addr
          ok (addr :: rest)

/-- The number of `__TEXT,__text` among the names of segments and sections. -/
def textSectionIndexFrom [Build] : Nat → List (List UInt8 × List UInt8) → Outcome Error (Option Nat)
  | _, [] => ok none
  | index, (segment, section_) :: rest => do
      let index ← add 8 index 1
      if segment = ascii "__TEXT" ∧ section_ = ascii "__text" then ok (some index)
      else textSectionIndexFrom index rest

/-- Entries of the data in the code, no more than the table's size allows. -/
def dataInCodeFrom [Build] (data : List UInt8) (base limit : Nat) :
    Nat → Nat → Outcome Error (List (Nat × Nat × Nat))
  | 0, _ => ok []
  | rounds + 1, i => do
      let stop ← add 64 i 8
      if stop ≤ limit ∧ stop ≤ data.length then do
        let rel ← unwrap (u32? data i)
        let len ← unwrap (u16? data (i + 4))
        let kind ← unwrap (u16? data (i + 6))
        let addr ← add 64 base rel
        let rest ← dataInCodeFrom data base limit rounds stop
        ok ((addr, len, kind) :: rest)
      else ok []

namespace MachO

variable (m : MachO)

def segment (name : String) : Option Segment := m.segments.find? (·.name = ascii name)

def command (cmd : Nat) : Option Command := m.commands.find? (·.cmd = cmd)

/-- The section where all program code lives. -/
def textSection : Outcome Error Section := do
  let text ← ofOption (.missingSegment "__TEXT") (m.segment "__TEXT")
  ofOption (.missingSegment "__TEXT,__text") (text.section (ascii "__text"))

def segmentForAddr [Build] (addr : Nat) : Outcome Error (Option Segment) :=
  m.segments.findM? fun s => if 0 < s.filesize then s.containsAddr addr else ok false

/-- The file offset that backs an address, if the address is file-backed. -/
def addrToOffset [Build] (addr : Nat) : Outcome Error (Option Nat) := do
  match ← m.segmentForAddr addr with
  | none => ok none
  | some segment => do
      let rel ← sub 64 addr segment.vmaddr
      if rel < segment.filesize then do
        let off ← add 64 segment.fileoff rel
        ok (some off)
      else ok none

def readWord [Build] (addr : Nat) : Outcome Error (Option Nat) := do
  match ← m.addrToOffset addr with
  | none => ok none
  | some off => u32At m.data off

def linkeditData (cmd : Nat) : Option (Nat × Nat) := do
  let c ← m.command cmd
  let off ← u32? c.bytes 8
  let size ← u32? c.bytes 12
  some (off, size)

/-- Absolute addresses of every function start, ascending. -/
def functionStarts [Build] : Outcome Error (List Nat) := do
  let (off, size) ← ofOption (.missingCommand "LC_FUNCTION_STARTS")
    (m.linkeditData LC_FUNCTION_STARTS)
  let stop ← add 64 off size
  let bytes ← ofOption (.truncated "function starts") (slice? m.data off stop)
  let text ← ofOption (.missingSegment "__TEXT") (m.segment "__TEXT")
  functionStartsFrom bytes.length bytes text.vmaddr

def textSectionIndex [Build] : Outcome Error (Option Nat) :=
  textSectionIndexFrom 0
    (m.segments.flatMap fun segment => segment.sections.map fun s => (segment.name, s.name))

/-- The symbol of entry `i`, if it is defined in the section. -/
def symbolAt [Build] (textIndex symoff : Nat) (strings : List UInt8) (i : Nat) :
    Outcome Error (Option (Nat × List UInt8)) := do
  let start ← add 64 symoff (i * 16)
  let stop ← add 64 start 16
  match slice? m.data start stop with
  | none => ok none
  | some entry => do
      let nType ← unwrap entry[4]?
      let nSect ← unwrap entry[5]?
      if nType &&& 0xE0 ≠ 0 ∨ nType &&& 0x0E ≠ 0x0E ∨ nSect.toNat ≠ textIndex then ok none
      else ok do
        let strx ← u32? entry 0
        let name ← slice? strings strx strings.length
        let stop ← name.findIdx? (· = 0)
        let value ← u64? entry 8
        some (value, name.take stop)

/-- The symbols defined in `__text`, in address order. -/
def symbols [Build] : Outcome Error (List (Nat × List UInt8)) :=
  match m.command LC_SYMTAB with
  | none => ok []
  | some c => do
      match ← m.textSectionIndex with
      | none => ok []
      | some textIndex => do
          let symoff := (u32? c.bytes 8).getD 0
          let nsyms := (u32? c.bytes 12).getD 0
          let stroff := (u32? c.bytes 16).getD 0
          let strsize := (u32? c.bytes 20).getD 0
          let stop ← add 64 stroff strsize
          let strings := (slice? m.data stroff stop).getD []
          let entries ← (List.range nsyms).mapM (m.symbolAt textIndex symoff strings)
          ok ((entries.filterMap id).mergeSort fun a b =>
            a.1 < b.1 ∨ a.1 = b.1 ∧ a.2 ≤ b.2)

/-- Addresses, lengths and kinds of the data in the code. -/
def dataInCode [Build] : Outcome Error (List (Nat × Nat × Nat)) :=
  match m.linkeditData LC_DATA_IN_CODE with
  | none => ok []
  | some (off, size) => do
      let base := ((m.segment "__TEXT").map (·.vmaddr)).getD 0
      let limit ← add 64 off size
      dataInCodeFrom m.data base limit (size / 8) off

/-- Bytes free between the end of the load commands and the first file-backed
section. -/
def headerRoom [Build] : Outcome Error Nat := do
  let stop ← add 64 HEADER_SIZE m.header.sizeofcmds
  let offsets := (m.segments.flatMap (·.sections)).filterMap fun s =>
    if s.offset ≠ 0 then some s.offset else none
  ok (offsets.min?.getD stop - stop)

/-- The address the `__STUB` segment takes over from `__LINKEDIT`. -/
def planLayout [Build] : Outcome Error Nat := do
  let linkedit ← ofOption (.missingSegment "__LINKEDIT") (m.segment "__LINKEDIT")
  let text ← ofOption (.missingSegment "__TEXT") (m.segment "__TEXT")
  if linkedit.fileoff % PAGE ≠ 0 ∨ linkedit.vmaddr % PAGE ≠ 0 then
    .error (.badLayout "__LINKEDIT is not page aligned")
  else if m.segments.any fun s => s.fileoff > linkedit.fileoff then
    .error (.badLayout "__LINKEDIT is not last in the file")
  else do
    let textAddr := linkedit.vmaddr
    let stop ← add 64 text.vmaddr text.vmsize
    if (textAddr - stop) + (stop - textAddr) ≥ Rewrite.B_RANGE then
      .error (.badLayout "stub segment is out of b range of all of __TEXT")
    else ok textAddr

end MachO

end Macho

end Derp
