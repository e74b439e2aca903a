import Derp.Macho.Repacking
import Derp.Rewrite.Hooks

/-!
# Rewriting an image

The function table is sorted out into the functions to hook and the rooms for
trampolines, the functions are hooked one after the other, and the image is
emitted with the sites' words and the rooms' trampolines as patches.
-/

namespace Derp

namespace Rewrite

open Outcome Slices Macho

def HEADER_MAGIC : Nat := 0

def HEADER_SITES : Nat := 8

def HEADER_MEM_SITES : Nat := 16

def HEADER_SEED : Nat := 24

/-- The header in front of the segment's code. -/
def STUB_HEADER_SIZE : Nat := 32

def MAGIC : Nat := 0x0033303054535752

/-- What the names of rooms begin with. -/
def ROOM_PREFIX : String := "_rewrite_room_"

/-- The function table sorted out: what to hook, what was passed over, and the rooms
the program was linked with. -/
structure Ranges where
  functions : List (Nat × Nat) := []
  unnamed : Nat := 0
  unnamedAddrs : List Nat := []
  rooms : List (Nat × Nat) := []
deriving DecidableEq, Repr

/-- Whether one of the symbols, which are sorted, is at the address. -/
def named (symbols : List (Nat × List UInt8)) (s : Nat) : Bool :=
  symbols.any fun symbol => symbol.1 = s

def isRoom (symbols : List (Nat × List UInt8)) (s : Nat) : Bool :=
  ((symbols.dropWhile fun symbol => symbol.1 < s).takeWhile fun symbol => symbol.1 = s).any
    fun symbol => (ascii ROOM_PREFIX).isPrefixOf symbol.2

/-- One entry of the function table, and the next one. -/
def Ranges.add (symbols : List (Nat × List UInt8)) (mostlyNamed : Bool) (textAddr stop : Nat)
    (out : Ranges) (s : Nat) (next : Option Nat) : Ranges :=
  if s < textAddr ∨ stop ≤ s then out
  else if mostlyNamed ∧ ¬ named symbols s then
    { out with unnamed := out.unnamed + 1, unnamedAddrs := out.unnamedAddrs ++ [s] }
  else
    let e := min (next.getD stop) stop
    if e ≤ s then out
    else if isRoom symbols s then { out with rooms := out.rooms ++ [(s, e)] }
    else { out with functions := out.functions ++ [(s, e)] }

def Ranges.addAll (symbols : List (Nat × List UInt8)) (mostlyNamed : Bool) (textAddr stop : Nat) :
    Ranges → List Nat → Ranges
  | out, [] => out
  | out, s :: starts =>
      (out.add symbols mostlyNamed textAddr stop s starts.head?).addAll symbols mostlyNamed
        textAddr stop starts

/-- The functions to hook.  Entries without a symbol are passed over where symbols
name at least half of the table. -/
def functionRanges [Build] (m : MachO) : Outcome Error Ranges := do
  let text ← m.textSection
  let stop ← Outcome.add 64 text.addr text.size
  let starts ← m.functionStarts
  let symbols ← m.symbols
  let mostlyNamed : Bool := starts.length ≤ (starts.filter (named symbols)).length * 2
  ok (({} : Ranges).addAll symbols mostlyNamed text.addr stop starts)

/-- The words from one address to another; what is not in the file is zero. -/
def wordsOf [Build] (m : MachO) (start stop : Nat) : Outcome Error (List Nat) :=
  (List.range ((stop - start) / 4)).mapM fun i => do
    let word ← m.readWord (start + i * 4)
    ok (word.getD 0)

/-- Where the data in the code starts and ends. -/
def dicOf [Build] (m : MachO) : Outcome Error (List (Nat × Nat)) := do
  let entries ← m.dataInCode
  entries.mapM fun entry => do
    let stop ← Outcome.add 64 entry.1 entry.2.1
    ok (entry.1, stop)

def hookRange [Build] (m : MachO) (opts : Options) (dic : List (Nat × Nat)) (s : Hooking)
    (range : Nat × Nat) : Outcome Error Hooking := do
  let words ← wordsOf m range.1 range.2
  ok (s.hookFunction opts dic range.1 words)

/-- Everything that is hooked, and where it may be. -/
structure Hooked where
  ranges : Ranges
  dic : List (Nat × Nat)
  hooking : Hooking

/-- Hook the functions of a file, one after the other. -/
def hookAll [Build] (m : MachO) (opts : Options) : Outcome Error Hooked := do
  let textAddr ← m.planLayout
  let ranges ← functionRanges m
  let text ← m.textSection
  let segment ← Outcome.add 64 textAddr STUB_HEADER_SIZE
  let stats : Stats :=
    { unnamedEntries := ranges.unnamed
      unnamedAddrs := ranges.unnamedAddrs
      rooms := ranges.rooms.length }
  let dic ← dicOf m
  let hooking ← ranges.functions.foldlM (hookRange m opts dic)
    { b := Builder.new segment ranges.rooms text.addr
      stats
      rng := Rng.seedFromU64 opts.seed.toUInt64 }
  ok { ranges, dic, hooking }

/-- The segment: its header and the words of its area. -/
def stubText (opts : Options) (s : Hooking) : List UInt8 :=
  let text := List.replicate STUB_HEADER_SIZE 0
  let text := overwrite text HEADER_MAGIC (toLittleEndian 8 MAGIC)
  let text := overwrite text HEADER_SITES (toLittleEndian 8 s.b.sites.length)
  let text := overwrite text HEADER_MEM_SITES (toLittleEndian 8 s.stats.memSites)
  let text := overwrite text HEADER_SEED (toLittleEndian 8 opts.seed)
  text ++ ((s.b.areas.head?.map fun a => a.code).getD []).flatMap (toLittleEndian 4)

/-- A room's trampolines are patches like the sites' own. -/
def Area.patches (a : Area) : List (Nat × Nat) := a.code.mapIdx fun i w => (a.wordAddr i, w)

def Builder.allPatches (b : Builder) : List (Nat × Nat) :=
  b.patches ++ b.areas.tail.flatMap Area.patches

structure Rewritten where
  image : List UInt8
  stats : Stats
  sites : List Site

def rewrite [Build] (m : MachO) (opts : Options) : Outcome Error Rewritten := do
  let hooked ← hookAll m opts
  let s := hooked.hooking
  let text := stubText opts s
  let image ← m.emit s.b.allPatches text
  ok
    { image
      stats := { s.stats with
        unreachableSites := s.b.unreachable
        sitesPerMb := s.b.siteBuckets
        stubBytes := text.length
        roomBytes := (s.b.areas.tail.map fun room => room.code.length * 4).sum }
      sites := s.b.sites }

end Rewrite

end Derp
