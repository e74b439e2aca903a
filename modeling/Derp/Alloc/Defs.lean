import Derp.Rng
import Mathlib.Logic.Function.Basic
import Mathlib.Data.List.Basic

/-!
# Where blocks are placed

The heap's region is cut into slabs.  A slab belongs to a class of small
blocks, which lie in a window at one end of the region, or to a run of slabs
that is one big block.  What a seeded layout keeps about them is kept as
offsets and counts, and is gathered here: the stream, the taken slabs, the
pools that blocks are drawn from, and the counts of free and of live blocks.
-/

namespace Derp

namespace Alloc

/-- A seeded heap hands out the region in slabs of this size. -/
def slab : Nat := 65536
/-- The window is at most as large as a pool's 32-bit offsets reach. -/
def windowMax : Nat := 68719476736
/-- A number of draws from a range, in order. -/
def draws (rng : Rng) (first n : Nat) : Nat → List Nat × Rng
  | 0 => ([], rng)
  | count + 1 =>
      let (x, rng) := rng.below n
      let (rest, rng) := draws rng first n count
      ((first + x) :: rest, rng)

/-- What a heap keeps about its slabs and blocks but for addresses. -/
structure Slabs where
  size : Nat := 0
  /-- None keeps the compact layout. -/
  rng : Option Rng := none
  taken : Nat → Bool := fun _ => false
  /-- First slab and length in slabs of the pooled classes' window. -/
  window : Nat × Nat := (0, 0)
  /-- Candidates of each class, as offsets into the window in units of 16
  bytes. -/
  pools : Nat → List Nat := fun _ => []
  /-- Free blocks of each class, in its pool and on its list. -/
  freeBlocks : Nat → Nat := fun _ => 0
  /-- Live blocks of each slab of the window. -/
  live : Nat → Nat := fun _ => 0

namespace Slabs

/-- Slabs in a row become taken, or free again. -/
def markSlabs (s : Slabs) (first n : Nat) (taken : Bool) : Slabs :=
  { s with taken := fun i =>
      if first ≤ i ∧ i < first + n then taken else s.taken i }

/-- First slab and length of the part of the region to place in. -/
def side (s : Slabs) (pooled : Bool) : Nat × Nat :=
  match pooled, s.window.1 with
  | true, _ => s.window
  | false, 0 => (s.window.2, s.size / slab - s.window.2)
  | false, _ => (0, s.window.1)

/-- Slabs in a row are all free. -/
def free (s : Slabs) (n spot : Nat) : Bool :=
  (List.range' spot n).all fun i => !s.taken i

/-- Look from a place on, past the last taken slab in the way. -/
def firstFitFrom (s : Slabs) (last n : Nat) : Nat → Nat → Option Nat
  | 0, _ => none
  | fuel + 1, spot =>
      if spot ≤ last then
        match (List.range' spot n).reverse.find? s.taken with
        | none => some spot
        | some i => firstFitFrom s last n fuel (i + 1)
      else none

/-- The first run of `n` free slabs that starts in a range. -/
def firstFit (s : Slabs) (start last n : Nat) : Option Nat :=
  s.firstFitFrom last n (last + 1 - start) start

/-- The place for a run: the first of the draws where it fits, else the first
fit from one more drawn place on, else the first fit before that. -/
def place (s : Slabs) (first last n : Nat) (tries : List Nat) : Option Nat :=
  match (tries.take 16).find? (s.free n) with
  | some spot => some spot
  | none =>
      let start := tries.getD 16 0
      (s.firstFit start (first + last) n).or
        (s.firstFit first (max (start - 1) first) n)

/-- A run of `n` free slabs at a random place, now taken: in the window for a
pooled class's slab, outside it for a run. -/
def takeSlabs (s : Slabs) (n : Nat) (pooled : Bool) : Option Nat × Slabs :=
  let (first, len) := s.side pooled
  if len < max n 1 ∨ n = 0 then (none, s)
  else
    let last := len - max n 1
    match s.rng with
    | none => (none, s)
    | some rng =>
        let (tries, rng) := draws rng first (last + 1) 17
        let s := { s with rng := some rng }
        match s.place first last n tries with
        | none => (none, s)
        | some spot => (some spot, s.markSlabs spot n true)

/-- Choose the end of the region that the window is at. -/
def openWindow (s : Slabs) : Slabs :=
  match s.rng with
  | none => s
  | some rng =>
      let nSlabs := s.size / slab
      let len := min (windowMax / slab) (nSlabs / 4)
      let (low, rng) := rng.below 2
      { s with
        rng := some rng
        window := (if low = 0 then 0 else nSlabs - len, len) }

end Slabs

end Alloc

end Derp
