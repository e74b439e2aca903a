import Derp.Alloc.Defs

/-!
# The heap

The allocator's own state, with the addresses of its region.
-/

namespace Derp

namespace Alloc

/-- A heap and the memory of its region, a word at a time. -/
structure Heap extends Slabs where
  /-- Whether the pages of a freed run or window slab are given back. -/
  releasing : Bool := false
  /-- First address of the region, zero before it is mapped. -/
  base : Nat := 0
  /-- Where the compact layout goes on. -/
  bump : Nat := 0
  /-- First address past the region. -/
  stop : Nat := 0
  /-- The first free block of each class. -/
  list : Nat → Nat := fun _ => 0
  /-- The first free page-multiple block: its first word links to the next,
  its second is its size. -/
  huge : Nat := 0
  /-- No region was to be had. -/
  broken : Bool := false
  /-- The words of the region. -/
  mem : Nat → Nat := fun _ => 0

namespace Heap

/-- A run of free slabs, by its first address. -/
def takeSlabs (h : Heap) (n : Nat) (pooled : Bool) : Option Nat × Heap :=
  let (spot, s) := h.toSlabs.takeSlabs n pooled
  (spot.map fun spot => h.base + spot * slab, { h with toSlabs := s })

end Heap

end Alloc

end Derp
