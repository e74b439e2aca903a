import Derp.Macho.Reader

/-!
# Writing the rewritten image

The image is written anew with patched words, and with one segment, `__STUB`, in
front of `__LINKEDIT`, which moves up in memory and in the file.  The code
signature goes; commands that nothing needs at run time give up their space
where the header is short of it.
-/

namespace Derp

namespace Macho

open Outcome Slices

/-- `codesign` adds its command back and needs room for it. -/
def SIGNATURE_CMD_SIZE : Nat := 16

def VM_PROT_READ : Nat := 1

def VM_PROT_EXECUTE : Nat := 4

def STUB_TEXT_SEGMENT : String := "__STUB"

def roundUp [Build] (v align : Nat) : Outcome Error Nat := do
  let sum ← add 64 v align
  let last ← sub 64 sum 1
  ok (last &&& (2 ^ 64 - align))

/-- Write to a part of a slice, which has to go that far. -/
def put (b : List UInt8) (off : Nat) (part : List UInt8) : Outcome Error (List UInt8) :=
  assert (off + part.length ≤ b.length) (overwrite b off part)

/-- A file-backed segment command without section headers. -/
def segmentCommand (segname : String) (vmaddr size fileoff prot : Nat) : Command :=
  let b := List.replicate SEGMENT_CMD_SIZE 0
  let b := overwrite b 0 (toLittleEndian 4 LC_SEGMENT_64)
  let b := overwrite b 4 (toLittleEndian 4 SEGMENT_CMD_SIZE)
  let b := overwrite b 8 (ascii segname)
  let b := overwrite b 24 (toLittleEndian 8 vmaddr)
  let b := overwrite b 32 (toLittleEndian 8 size)
  let b := overwrite b 40 (toLittleEndian 8 fileoff)
  let b := overwrite b 48 (toLittleEndian 8 size)
  let b := overwrite b 56 (toLittleEndian 4 prot)
  let b := overwrite b 60 (toLittleEndian 4 prot)
  { cmd := LC_SEGMENT_64, bytes := b }

/-- Move one file offset; the amount is cut to the offset's width. -/
def bump [Build] (delta : Nat) (b : List UInt8) (off : Nat) : Outcome Error (List UInt8) :=
  let v := (u32? b off).getD 0
  if v ≠ 0 then do
    let moved ← add 32 v (delta % 2 ^ 32)
    put b off (toLittleEndian 4 moved)
  else ok b

/-- Where a command has file offsets that point into `__LINKEDIT`. -/
def linkeditFields (cmd : Nat) : List Nat :=
  if isLinkeditData cmd then [8]
  else if cmd = LC_SYMTAB then [8, 16]
  else if cmd = LC_DYSYMTAB then [32, 40, 48, 56, 64, 72]
  else if cmd = LC_DYLD_INFO ∨ cmd = LC_DYLD_INFO_ONLY then [8, 16, 24, 32, 40]
  else []

/-- Move every file offset that points into `__LINKEDIT`. -/
def shiftLinkeditOffsets [Build] (cmd : Nat) (b : List UInt8) (delta : Nat) :
    Outcome Error (List UInt8) :=
  (linkeditFields cmd).foldlM (bump delta) b

/-- The commands written so far, and index and rank of those that may go. -/
structure Repacked where
  commands : List Command := []
  optional : List (Nat × Nat) := []
deriving DecidableEq, Repr

/-- What the size, position and address of the new segment come to. -/
structure Plan where
  linkedit : Segment
  textAddr : Nat
  inserted : Nat
  newLinkeditSize : Nat
deriving DecidableEq, Repr

def size [Build] (commands : List Command) : Outcome Error Nat :=
  commands.foldlM (fun total c => add 64 total c.bytes.length) 0

def sizeOfDropped [Build] (commands : List Command) (dropped : List Nat) : Outcome Error Nat :=
  dropped.foldlM (fun total i => do
    let c ← unwrap commands[i]?
    add 64 total c.bytes.length) 0

/-- What is given up, in the order of the ranks, until the rest has room. -/
def dropFrom [Build] (commands : List Command) (room : Nat) :
    List (Nat × Nat) → List Nat → Outcome Error (List Nat)
  | [], dropped => ok dropped
  | (index, _) :: optional, dropped => do
      let total ← size commands
      let need ← add 64 total SIGNATURE_CMD_SIZE
      let gone ← sizeOfDropped commands dropped
      let left ← sub 64 need gone
      if left ≤ room then ok dropped else dropFrom commands room optional (dropped ++ [index])

/-- Take out the commands at the indices, from the last to the first. -/
def removeDropped (commands : List Command) (dropped : List Nat) : Outcome Error (List Command) :=
  (dropped.mergeSort (· ≤ ·)).reverse.foldlM
    (fun commands i => assert (i < commands.length) (commands.eraseIdx i)) commands

/-- Cut or fill up with zeros. -/
def resize (b : List UInt8) (length : Nat) : List UInt8 :=
  b.take length ++ List.replicate (length - b.length) 0

/-- Digits of an error's address. -/
def hex (n : Nat) : String := String.ofList (Nat.toDigits 16 n)

namespace MachO

variable (m : MachO)

/-- In which order a command may be given up, if it may. -/
def droppable (c : Command) : Option Nat :=
  if c.cmd = LC_DATA_IN_CODE ∧ (m.linkeditData LC_DATA_IN_CODE).all (·.2 = 0) then some 0
  else if c.cmd = LC_SOURCE_VERSION then some 1
  else if c.cmd = LC_FUNCTION_STARTS then some 2
  else none

/-- The size of `__LINKEDIT` without the code signature. -/
def unsignedSize [Build] (linkedit : Segment) : Outcome Error Nat :=
  match m.linkeditData LC_CODE_SIGNATURE with
  | none => ok linkedit.filesize
  | some (sigOff, sigSize) =>
      if sigOff < linkedit.fileoff then
        .error (.badLayout "code signature is not at the end of __LINKEDIT")
      else do
        let sigEnd ← add 64 sigOff sigSize
        let linkeditEnd ← add 64 linkedit.fileoff linkedit.filesize
        if sigEnd > linkeditEnd then
          .error (.badLayout "code signature is not at the end of __LINKEDIT")
        else sub 64 sigOff linkedit.fileoff

def repackLinkedit [Build] (p : Plan) (c : Command) : Outcome Error (List UInt8) := do
  let vmaddr ← add 64 p.textAddr p.inserted
  let b ← put c.bytes 24 (toLittleEndian 8 vmaddr)
  let vmsize ← roundUp p.newLinkeditSize PAGE
  let b ← put b 32 (toLittleEndian 8 vmsize)
  let fileoff ← add 64 p.linkedit.fileoff p.inserted
  let b ← put b 40 (toLittleEndian 8 fileoff)
  put b 48 (toLittleEndian 8 p.newLinkeditSize)

def repackCommand [Build] (p : Plan) (r : Repacked) (numbered : Command × Nat) :
    Outcome Error Repacked :=
  let (c, i) := numbered
  if c.cmd = LC_CODE_SIGNATURE then ok r
  else if i = p.linkedit.cmdIndex then do
    let commands :=
      if 0 < p.inserted then
        r.commands ++ [segmentCommand STUB_TEXT_SEGMENT p.textAddr p.inserted p.linkedit.fileoff
          (VM_PROT_READ ||| VM_PROT_EXECUTE)]
      else r.commands
    let bytes ← repackLinkedit p c
    ok { r with commands := commands ++ [{ cmd := c.cmd, bytes }] }
  else do
    let optional :=
      match m.droppable c with
      | some rank => r.optional ++ [(r.commands.length, rank)]
      | none => r.optional
    let bytes ← shiftLinkeditOffsets c.cmd c.bytes p.inserted
    ok { commands := r.commands ++ [{ cmd := c.cmd, bytes }], optional }

def repack [Build] (p : Plan) : Outcome Error Repacked :=
  m.commands.zipIdx.foldlM (m.repackCommand p) {}

/-- Give up commands until the rest has room in the header. -/
def fitCommands [Build] (r : Repacked) : Outcome Error (List Command) := do
  let free ← m.headerRoom
  let room ← add 64 free m.header.sizeofcmds
  let total ← size r.commands
  let need ← add 64 total SIGNATURE_CMD_SIZE
  let dropped ← dropFrom r.commands room (r.optional.mergeSort fun a b => a.2 ≤ b.2) []
  let commands ← removeDropped r.commands dropped
  let sizeofcmds ← size commands
  let signed ← add 64 sizeofcmds SIGNATURE_CMD_SIZE
  if signed > room then .error (.noHeaderRoom need room) else ok commands

/-- The file up to `__LINKEDIT` with the new commands. -/
def writeCommands [Build] (p : Plan) (commands : List Command) : Outcome Error (List UInt8) := do
  let oldEnd ← add 64 HEADER_SIZE m.header.sizeofcmds
  let sizeofcmds ← size commands
  let _ ← add 64 m.data.length p.inserted
  let out ← unwrap (slice? m.data 0 p.linkedit.fileoff)
  let out ← put out 16 (toLittleEndian 4 commands.length)
  let out ← put out 20 (toLittleEndian 4 sizeofcmds)
  let (out, _) ← commands.foldlM (fun (out, off) c => do
    let stop ← add 64 off c.bytes.length
    let out ← put out off c.bytes
    ok (out, stop)) (out, HEADER_SIZE)
  -- The gap a shorter list of commands leaves
  let newEnd ← add 64 HEADER_SIZE sizeofcmds
  put out newEnd (List.replicate (max oldEnd newEnd - newEnd) 0)

def applyPatch [Build] (p : Plan) (out : List UInt8) (patch : Nat × Nat) :
    Outcome Error (List UInt8) := do
  match ← m.addrToOffset patch.1 with
  | none => .error (.badLayout ("patch at 0x" ++ hex patch.1 ++ " is not file-backed"))
  | some off => do
      let stop ← add 64 off 4
      if stop > p.linkedit.fileoff then
        .error (.badLayout ("patch at 0x" ++ hex patch.1 ++ " is inside __LINKEDIT"))
      else put out off (toLittleEndian 4 patch.2)

/-- The new segment and what is left of `__LINKEDIT`, behind the rest. -/
def appendPieces [Build] (p : Plan) (stubText out : List UInt8) : Outcome Error (List UInt8) := do
  let stubEnd ← add 64 p.linkedit.fileoff p.inserted
  let out := resize (out ++ stubText) stubEnd
  let stop ← add 64 p.linkedit.fileoff p.newLinkeditSize
  let rest ← unwrap (slice? m.data p.linkedit.fileoff stop)
  ok (out ++ rest)

/-- What emitting goes by. -/
def plan [Build] (stubText : List UInt8) : Outcome Error Plan := do
  let textAddr ← m.planLayout
  let linkedit ← unwrap (m.segment "__LINKEDIT")
  let inserted ← roundUp stubText.length PAGE
  let newLinkeditSize ← m.unsignedSize linkedit
  ok { linkedit, textAddr, inserted, newLinkeditSize }

/-- The rewritten image: the patches are addresses and words, and the text becomes
the `__STUB` segment, if there is any. -/
def emit [Build] (patches : List (Nat × Nat)) (stubText : List UInt8) :
    Outcome Error (List UInt8) := do
  let p ← m.plan stubText
  let r ← m.repack p
  let commands ← m.fitCommands r
  let out ← m.writeCommands p commands
  let out ← patches.foldlM (m.applyPatch p) out
  m.appendPieces p stubText out

end MachO

end Macho

end Derp
