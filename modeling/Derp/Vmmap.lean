import Derp.Library.Transition
import Mathlib.Algebra.Order.Ring.Nat
import Mathlib.Data.List.GetD
import Mathlib.Tactic.Common

/-!
# The region for mappings

Mapping requests of scheduled threads that name no address are placed in a
region of their own: first fit among what was given back, else the next unused
stretch.  What is unmapped in the region is given back.  The region records
what is free but not what is mapped, so what it hands out depends on what the
guest names when it unmaps.
-/

namespace Derp

namespace Vmmap

def base : Nat := 0x7C00000000
def size : Nat := 68719476736
def page : Nat := 0x4000

/-- Rounded up to whole pages, in a machine word. -/
def roundUp (v : Nat) : Nat := (v + page - 1) % 2 ^ 64 / page * page

def inRegion (addr : Nat) : Bool := base ≤ addr && addr < base + size

structure Region where
  /-- First address never handed out. -/
  next : Nat
  /-- Stretches given back, with their lengths. -/
  free : List (Nat × Nat)
  deriving DecidableEq

namespace Region

/-- A stretch of `len` bytes, if the region has room. -/
def take (r : Region) (len : Nat) : Option Nat × Region :=
  match r.free.findIdx? fun e => len ≤ e.2 with
  | some i =>
      let (addr, l) := r.free.getD i (0, 0)
      (some addr, { r with
        free :=
          if l = len then r.free.eraseIdx i
          else r.free.set i ((addr + len) % 2 ^ 64, l - len) })
  | none =>
      if base + size < (r.next + len) % 2 ^ 64 then (none, r)
      else (some r.next, { r with next := (r.next + len) % 2 ^ 64 })

def giveBack (r : Region) (addr len : Nat) : Region :=
  { r with free := r.free ++ [(addr, len)] }

end Region

/-- An address lies in a stretch. -/
def In (e : Nat × Nat) (x : Nat) : Prop := e.1 ≤ x ∧ x < e.1 + e.2

def Overlap (e e' : Nat × Nat) : Prop := ∃ x, In e x ∧ In e' x

/-- A stretch that was handed out, with what was unmapped since. -/
structure Stretch where
  addr : Nat
  len : Nat
  holes : List (Nat × Nat) := []
  deriving DecidableEq

namespace Stretch

def range (s : Stretch) : Nat × Nat := (s.addr, s.len)

/-- The stretch still has an address that was not unmapped. -/
def Mapped (s : Stretch) (x : Nat) : Prop :=
  In s.range x ∧ ∀ hole ∈ s.holes, ¬ In hole x

/-- The stretch is wholly unmapped. -/
def Gone (s : Stretch) : Prop := ∀ x, ¬ s.Mapped x

def punch (hole : Nat × Nat) (s : Stretch) : Stretch :=
  { s with holes := hole :: s.holes }

end Stretch

/-- The region, the segments attached in it and what it has handed out. -/
structure Vm where
  region : Region := { next := base, free := [] }
  attached : List (Nat × Nat) := []
  out : List Stretch := []
  deriving DecidableEq

/-- Calls of guests, with what the kernel makes of them.  A request of a thread
outside the schedule and an unmapping that fails do not come here. -/
inductive Action
  /-- `mmap` without an address to keep to, `mach_vm_map` or
  `mach_vm_allocate` anywhere. -/
  | request (size : Nat) (mapped : Bool)
  /-- `shmat` without an address. -/
  | attach (size : Nat) (mapped : Bool)
  /-- `munmap` or `mach_vm_deallocate`. -/
  | unmap (addr len : Nat) (scheduled : Bool)
  | detach (addr : Nat) (scheduled : Bool)
  deriving DecidableEq

namespace Vm

/-- A range is unmapped: only a scheduled thread's is used again. -/
def giveBack (s : Vm) (addr len : Nat) (scheduled : Bool) : Vm :=
  { s with
    region := if scheduled then s.region.giveBack addr len else s.region
    out := s.out.map (Stretch.punch (addr, len)) }

/-- A stretch is handed out, and given back at once if the kernel does not map
it. -/
def place (s : Vm) (len : Nat) (mapped : Bool) : Option Nat × Vm :=
  match s.region.take len with
  | (none, region) => (none, { s with region := region })
  | (some addr, region) =>
      let s := { s with
        region := region
        out := s.out ++ [{ addr := addr, len := len }] }
      if mapped then (some addr, s) else (none, s.giveBack addr len true)

def exec (s : Vm) : Action → Vm
  | .request size mapped => (s.place (roundUp size) mapped).2
  | .attach size mapped =>
      let len := roundUp (max size 1)
      match s.place len mapped with
      | (none, s) => s
      | (some addr, s) => { s with attached := s.attached ++ [(addr, len)] }
  | .unmap addr len scheduled =>
      if inRegion addr then s.giveBack addr (roundUp len) scheduled else s
  | .detach addr scheduled =>
      match s.attached.findIdx? fun e => e.1 = addr with
      | none => s
      | some i =>
          let (a, len) := s.attached.getD i (0, 0)
          ({ s with attached := s.attached.eraseIdx i }).giveBack a len scheduled

/-- Sizes and addresses are machine words. -/
def Allows (_ : Vm) : Action → Prop
  | .request size _ => size < 2 ^ 64
  | .attach size _ => size < 2 ^ 64
  | .unmap addr len _ => addr < 2 ^ 64 ∧ len < 2 ^ 64
  | .detach addr _ => addr < 2 ^ 64

/-- The region over a run. -/
def system : Transition Vm Action where
  init := fun s => s = {}
  step := fun s action later => s.Allows action ∧ later = s.exec action

/-- The stretch that an action's `take` hands out, its length and the region
after it. -/
def granted (s : Vm) : Action → Option (Nat × Nat × Region)
  | .request size _ =>
      (s.region.take (roundUp size)).1.map fun addr =>
        (addr, roundUp size, (s.region.take (roundUp size)).2)
  | .attach size _ =>
      (s.region.take (roundUp (max size 1))).1.map fun addr =>
        (addr, roundUp (max size 1), (s.region.take (roundUp (max size 1))).2)
  | .unmap .. => none
  | .detach .. => none

/-- The range that an action gives back to the region. -/
def returned (s : Vm) : Action → Option (Nat × Nat)
  | .request .. => none
  | .attach .. => none
  | .unmap addr len scheduled =>
      if inRegion addr && scheduled then some (addr, roundUp len) else none
  | .detach addr scheduled =>
      if scheduled then
        (s.attached.findIdx? fun e => e.1 = addr).map fun i =>
          s.attached.getD i (0, 0)
      else none

/-- The length that an action asks for. -/
def asked : Action → Option Nat
  | .request size _ => some (roundUp size)
  | .attach size _ => some (roundUp (max size 1))
  | .unmap .. => none
  | .detach .. => none

end Vm

/-- The free entries are disjoint stretches of pages below the unused part. -/
structure Tidy (r : Region) : Prop where
  disjoint : r.free.Pairwise fun e e' => ¬ Overlap e e'
  below : ∀ e ∈ r.free, base ≤ e.1 ∧ e.1 + e.2 ≤ r.next
  paged : ∀ e ∈ r.free, page ∣ e.1 ∧ page ∣ e.2
  next_page : page ∣ r.next
  next_ge : base ≤ r.next
  next_le : r.next ≤ base + size

variable
  {r : Region}
  {len i : Nat}

theorem page_dvd_roundUp (v : Nat) : page ∣ roundUp v := ⟨_, Nat.mul_comm _ _⟩

theorem not_overlap_comm {e e' : Nat × Nat} :
    ¬ Overlap e e' ↔ ¬ Overlap e' e :=
  not_congr (exists_congr fun _ => and_comm)

/-- A smaller entry in the place of one keeps the entries disjoint. -/
theorem Tidy.pairwise_set
    {e : Nat × Nat}
    (tidy : Tidy r)
    (inside : i < r.free.length)
    (smaller : ∀ x, In e x → In r.free[i] x) :
    (r.free.set i e).Pairwise fun e e' => ¬ Overlap e e' := by
  have all := List.pairwise_iff_getElem.mp tidy.disjoint
  refine List.pairwise_iff_getElem.mpr fun j k jInside kInside less => ?_
  rw [List.length_set] at jInside kInside
  rw [List.getElem_set, List.getElem_set]
  have old := all j k jInside kInside less
  split_ifs with isJ isK isK
  · omega
  · subst isJ
    rintro ⟨x, left, right⟩
    exact old ⟨x, smaller x left, right⟩
  · subst isK
    rintro ⟨x, left, right⟩
    exact old ⟨x, left, smaller x right⟩
  · exact old

/-- What a tidy region hands out: pages that were free, or never handed out,
and are not free after it. -/
theorem Tidy.take_cases
    (tidy : Tidy r)
    (fits : r.next + len < 2 ^ 64)
    (paged : page ∣ len) :
    r.take len = (none, r) ∨
      ∃ addr later, r.take len = (some addr, later) ∧ page ∣ addr ∧
        base ≤ addr ∧ addr + len ≤ later.next ∧ Tidy later ∧
        r.next ≤ later.next ∧
        (∀ e ∈ later.free, ∀ x, In e x →
          (∃ e' ∈ r.free, In e' x) ∧ ¬ In (addr, len) x) ∧
        ∀ x, In (addr, len) x → (∃ e ∈ r.free, In e x) ∨ r.next ≤ x := by
  unfold Region.take
  cases found : r.free.findIdx? fun e => len ≤ e.2 with
  | some i =>
      obtain ⟨inside, enough, -⟩ := List.findIdx?_eq_some_iff_getElem.mp found
      have enough : len ≤ r.free[i].2 := of_decide_eq_true enough
      have present := List.getElem_mem inside
      obtain ⟨low, high⟩ := tidy.below _ present
      obtain ⟨pageAddr, pageLen⟩ := tidy.paged _ present
      have bound := tidy.next_le
      have top : base + size < 2 ^ 64 := by decide
      right
      dsimp only
      rw [List.getD_eq_getElem _ _ inside]
      refine ⟨_, _, rfl, pageAddr, low, by dsimp only; omega, ?_, le_rfl, ?_,
        ?_⟩
      · split_ifs with exact
        · have sublist := List.eraseIdx_sublist r.free i
          exact
            { tidy with
              disjoint := tidy.disjoint.sublist sublist
              below := fun e isIn => tidy.below e (sublist.subset isIn)
              paged := fun e isIn => tidy.paged e (sublist.subset isIn) }
        · rw [Nat.mod_eq_of_lt (by omega)]
          refine
            { tidy with
              disjoint := tidy.pairwise_set inside ?_
              below := ?_
              paged := ?_ }
          · rintro x ⟨left, right⟩
            dsimp only at left right
            exact ⟨by omega, by omega⟩
          · intro e isIn
            rcases List.mem_or_eq_of_mem_set isIn with isIn | rfl
            · exact tidy.below e isIn
            · dsimp only
              omega
          · intro e isIn
            rcases List.mem_or_eq_of_mem_set isIn with isIn | rfl
            · exact tidy.paged e isIn
            · exact ⟨Nat.dvd_add pageAddr paged, Nat.dvd_sub pageLen paged⟩
      · -- What is left free was free, and is another entry or what is left of
        -- this one.
        have others : ∀ j, (jInside : j < r.free.length) → j ≠ i → ∀ x,
            In r.free[j] x → ¬ In (r.free[i].1, len) x := by
          rintro j jInside ne x left ⟨low', high'⟩
          dsimp only at low' high'
          have all := List.pairwise_iff_getElem.mp tidy.disjoint
          have isIn : In r.free[i] x := ⟨low', by omega⟩
          rcases Nat.lt_or_gt_of_ne ne with less | more
          · exact all j i jInside inside less ⟨x, left, isIn⟩
          · exact all i j inside jInside more ⟨x, isIn, left⟩
        intro e isIn x left
        dsimp only at isIn
        split_ifs at isIn with exact
        · obtain ⟨j, jInside, ne, rfl⟩ := List.mem_eraseIdx_iff_getElem.mp isIn
          exact ⟨⟨_, List.getElem_mem jInside, left⟩, others j jInside ne x left⟩
        · rw [Nat.mod_eq_of_lt (by omega)] at isIn
          obtain ⟨j, jInside, rfl⟩ := List.mem_iff_getElem.mp isIn
          rw [List.length_set] at jInside
          rw [List.getElem_set] at left
          split_ifs at left with same
          · obtain ⟨low', high'⟩ := left
            dsimp only at low' high'
            refine ⟨⟨_, present, by omega, by omega⟩, ?_⟩
            rintro ⟨-, high''⟩
            dsimp only at high''
            omega
          · exact ⟨⟨_, List.getElem_mem jInside, left⟩,
              others j jInside (Ne.symm same) x left⟩
      · rintro x ⟨low', high'⟩
        dsimp only at low' high'
        exact .inl ⟨_, present, low', by omega⟩
  | none =>
      dsimp only
      rw [Nat.mod_eq_of_lt fits]
      split_ifs with full
      · exact .inl rfl
      · right
        have := tidy.next_ge
        refine ⟨_, _, rfl, tidy.next_page, tidy.next_ge, le_rfl, ?_,
          Nat.le_add_right .., ?_, fun x isIn => .inr isIn.1⟩
        · exact
            { tidy with
              below := fun e isIn => by
                have := tidy.below e isIn
                dsimp only
                omega
              next_page := Nat.dvd_add tidy.next_page paged
              next_ge := by dsimp only; omega
              next_le := by dsimp only; omega }
        · intro e isIn x left
          refine ⟨⟨e, isIn, left⟩, ?_⟩
          rintro ⟨low', -⟩
          dsimp only at low'
          have := tidy.below e isIn
          have := left.2
          omega

/-- A stretch of pages that were handed out and are not free may be given
back. -/
theorem Tidy.giveBack
    {addr : Nat}
    (tidy : Tidy r)
    (low : base ≤ addr)
    (high : addr + len ≤ r.next)
    (pageAddr : page ∣ addr)
    (pageLen : page ∣ len)
    (apart : ∀ e ∈ r.free, ¬ Overlap (addr, len) e) :
    Tidy (r.giveBack addr len) where
  disjoint := by
    refine List.pairwise_append.mpr ⟨tidy.disjoint, List.pairwise_singleton .., ?_⟩
    intro e isIn e' isLast
    rw [List.mem_singleton.mp isLast, not_overlap_comm]
    exact apart e isIn
  below := by
    intro e isIn
    rcases List.mem_append.mp isIn with isIn | isLast
    · exact tidy.below e isIn
    · rw [List.mem_singleton.mp isLast]
      exact ⟨low, high⟩
  paged := by
    intro e isIn
    rcases List.mem_append.mp isIn with isIn | isLast
    · exact tidy.paged e isIn
    · rw [List.mem_singleton.mp isLast]
      exact ⟨pageAddr, pageLen⟩
  next_page := tidy.next_page
  next_ge := tidy.next_ge
  next_le := tidy.next_le

namespace Stretch

theorem mapped_punch {hole : Nat × Nat} {s : Stretch} {x : Nat} :
    (s.punch hole).Mapped x ↔ s.Mapped x ∧ ¬ In hole x := by
  unfold Mapped punch
  rw [List.forall_mem_cons]
  exact ⟨fun h => ⟨⟨h.1, h.2.2⟩, h.2.1⟩, fun h => ⟨h.1.1, h.2, h.1.2⟩⟩

theorem Gone.punch {s : Stretch} (gone : s.Gone) (hole : Nat × Nat) :
    (s.punch hole).Gone :=
  fun x mapped => gone x (mapped_punch.mp mapped).1

end Stretch

namespace Vm

/-- What is in no free entry and was handed out. -/
def Kept (s : Vm) (x : Nat) : Prop :=
  x < s.region.next ∧ ∀ e ∈ s.region.free, ¬ In e x

/-- What is mapped is not free, and what was attached is pages. -/
structure Sound (s : Vm) : Prop where
  tidy : Tidy s.region
  mapped : ∀ stretch ∈ s.out, ∀ x, stretch.Mapped x → s.Kept x
  attached : ∀ e ∈ s.attached, base ≤ e.1 ∧ page ∣ e.1 ∧ page ∣ e.2

/-- What is not wholly unmapped is not free, in no part. -/
def Intact (s : Vm) : Prop :=
  ∀ stretch ∈ s.out, ¬ stretch.Gone → ∀ x, In stretch.range x → s.Kept x

/-- No machine word overflows when the region looks for room, and what is given
back was handed out and is not free. -/
def Careful (s : Vm) (action : Action) : Prop :=
  (∀ len, asked action = some len → s.region.next + len < 2 ^ 64) ∧
    ∀ e, s.returned action = some e →
      page ∣ e.1 ∧ e.1 + e.2 ≤ s.region.next ∧
        ∀ e' ∈ s.region.free, ¬ Overlap e e'

/-- Whole stretches are given back, if more than one piece at a time. -/
def Whole (s : Vm) (action : Action) : Prop :=
  ∀ e, s.returned action = some e → ∀ stretch ∈ s.out,
    Overlap e stretch.range → (stretch.punch e).Gone

/-- The law of the free entries. -/
def FreeLaw (r : Region) : Prop :=
  (r.free.Pairwise fun e e' => ¬ Overlap e e') ∧
    ∀ e ∈ r.free, e.1 + e.2 ≤ r.next

/-- The law of what is handed out: pages of the region, none of them mapped by
an earlier stretch, and apart from what is then free. -/
def Lawful (s : Vm) (action : Action) : Prop :=
  ∀ addr len later, s.granted action = some (addr, len, later) →
    page ∣ addr ∧ base ≤ addr ∧ addr + len ≤ base + size ∧
      (∀ stretch ∈ s.out, ∀ x, In (addr, len) x → ¬ stretch.Mapped x) ∧
      ∀ e ∈ later.free, ¬ Overlap (addr, len) e

/-- Nor does what is handed out meet an earlier stretch that is not wholly
unmapped. -/
def LawfulWhole (s : Vm) (action : Action) : Prop :=
  ∀ addr len later, s.granted action = some (addr, len, later) →
    ∀ stretch ∈ s.out, ¬ stretch.Gone → ¬ Overlap (addr, len) stretch.range

variable
  {s : Vm}
  {action : Action}
  {addr : Nat}

/-- A stretch that was handed out and is not free may be given back. -/
theorem Sound.giveBack
    (sound : s.Sound)
    (scheduled : Bool)
    (fine : scheduled = true → base ≤ addr ∧ addr + len ≤ s.region.next ∧
      page ∣ addr ∧ page ∣ len ∧
      ∀ e ∈ s.region.free, ¬ Overlap (addr, len) e) :
    (s.giveBack addr len scheduled).Sound := by
  have out : ∀ stretch ∈ (s.giveBack addr len scheduled).out, ∀ x,
      stretch.Mapped x → s.Kept x ∧ ¬ In (addr, len) x := by
    intro stretch isIn x mapped
    obtain ⟨before, wasIn, rfl⟩ := List.mem_map.mp isIn
    obtain ⟨mapped, outside⟩ := Stretch.mapped_punch.mp mapped
    exact ⟨sound.mapped before wasIn x mapped, outside⟩
  cases scheduled with
  | false =>
      exact
        { tidy := sound.tidy
          mapped := fun stretch isIn x mapped => (out stretch isIn x mapped).1
          attached := sound.attached }
  | true =>
      obtain ⟨low, high, pageAddr, pageLen, apart⟩ := fine rfl
      refine
        { tidy := sound.tidy.giveBack low high pageAddr pageLen apart
          mapped := ?_
          attached := sound.attached }
      intro stretch isIn x mapped
      obtain ⟨⟨below, notFree⟩, outside⟩ := out stretch isIn x mapped
      refine ⟨below, fun e isFree => ?_⟩
      rcases List.mem_append.mp isFree with isFree | isLast
      · exact notFree e isFree
      · rw [List.mem_singleton.mp isLast]
        exact outside

/-- What is placed is pages that no stretch has mapped, and leaves all else as
it was. -/
theorem Sound.place
    (sound : s.Sound)
    (fits : s.region.next + len < 2 ^ 64)
    (paged : page ∣ len)
    (mapped : Bool) :
    (s.place len mapped).2.Sound ∧
      (s.place len mapped).2.attached = s.attached ∧
      ∀ addr, (s.place len mapped).1 = some addr →
        base ≤ addr ∧ page ∣ addr := by
  unfold Vm.place
  rcases sound.tidy.take_cases fits paged with
    same | ⟨addr, later, granted, pageAddr, low, high, tidy, grown, less, new⟩
  · rw [same]
    refine ⟨sound, rfl, fun addr none => ?_⟩
    cases none
  · rw [granted]
    dsimp only
    have placed : ({ s with
        region := later
        out := s.out ++ [{ addr := addr, len := len }] } : Vm).Sound := by
      refine { tidy := tidy, mapped := ?_, attached := sound.attached }
      intro stretch isIn x isMapped
      rcases List.mem_append.mp isIn with before | isLast
      · obtain ⟨below, notFree⟩ := sound.mapped stretch before x isMapped
        refine ⟨Nat.lt_of_lt_of_le below grown, fun e isFree isFree' => ?_⟩
        obtain ⟨⟨e', wasFree, isIn⟩, -⟩ := less e isFree x isFree'
        exact notFree e' wasFree isIn
      · rw [List.mem_singleton.mp isLast] at isMapped
        obtain ⟨⟨left, right⟩, -⟩ := isMapped
        refine ⟨Nat.lt_of_lt_of_le right high, fun e isFree isFree' => ?_⟩
        exact (less e isFree x isFree').2 ⟨left, right⟩
    cases mapped with
    | true =>
        refine ⟨placed, rfl, ?_⟩
        rintro addr ⟨⟩
        exact ⟨low, pageAddr⟩
    | false =>
        refine ⟨placed.giveBack true fun _ =>
          ⟨low, high, pageAddr, paged, ?_⟩, rfl, ?_⟩
        · rintro e isFree ⟨x, left, right⟩
          exact (less e isFree x right).2 left
        · rintro addr ⟨⟩

/-- What is handed out was not mapped. -/
theorem Sound.not_mapped
    (sound : s.Sound)
    {stretch : Stretch}
    (isIn : stretch ∈ s.out)
    {x : Nat}
    (new : (∃ e ∈ s.region.free, In e x) ∨ s.region.next ≤ x) :
    ¬ stretch.Mapped x := by
  intro mapped
  obtain ⟨below, notFree⟩ := sound.mapped stretch isIn x mapped
  rcases new with ⟨e, isFree, inside⟩ | past
  · exact notFree e isFree inside
  · omega

/-- The segment that a `shmdt` finds was attached. -/
theorem returned_detach
    {e : Nat × Nat}
    {i : Nat}
    (found : (s.attached.findIdx? fun e => e.1 = addr) = some i)
    (isHere : s.attached.getD i (0, 0) = e) : e ∈ s.attached := by
  obtain ⟨inside, -, -⟩ := List.findIdx?_eq_some_iff_getElem.mp found
  rw [List.getD_eq_getElem _ _ inside] at isHere
  exact isHere ▸ List.getElem_mem inside

/-- Careful steps keep what is mapped apart from what is free. -/
theorem Sound.exec
    (sound : s.Sound)
    (careful : s.Careful action) : (s.exec action).Sound := by
  cases action with
  | request size mapped =>
      exact (sound.place (careful.1 _ rfl) (page_dvd_roundUp _) mapped).1
  | attach size mapped =>
      obtain ⟨placed, attached, given⟩ :=
        sound.place (careful.1 _ rfl) (page_dvd_roundUp _) mapped
      unfold Vm.exec
      dsimp only
      generalize s.place (roundUp (max size 1)) mapped = result at *
      obtain ⟨answer, later⟩ := result
      cases answer with
      | none => exact placed
      | some addr =>
          refine { placed with attached := ?_ }
          intro e isIn
          rcases List.mem_append.mp isIn with before | isLast
          · exact placed.attached e before
          · rw [List.mem_singleton.mp isLast]
            obtain ⟨low, pageAddr⟩ := given addr rfl
            exact ⟨low, pageAddr, page_dvd_roundUp _⟩
  | unmap addr len scheduled =>
      unfold Vm.exec
      dsimp only
      split_ifs with inside
      · refine sound.giveBack scheduled ?_
        rintro rfl
        obtain ⟨pageAddr, high, apart⟩ := careful.2 (addr, roundUp len) (by
          simp [Vm.returned, inside])
        unfold inRegion at inside
        rw [Bool.and_eq_true, decide_eq_true_iff] at inside
        exact ⟨inside.1, high, pageAddr, page_dvd_roundUp len, apart⟩
      · exact sound
  | detach addr scheduled =>
      unfold Vm.exec
      dsimp only
      cases found : s.attached.findIdx? fun e => e.1 = addr with
      | none => exact sound
      | some i =>
          dsimp only
          have fewer : ({ s with
              attached := s.attached.eraseIdx i } : Vm).Sound :=
            { sound with
              attached := fun e isIn =>
                sound.attached e (List.mem_of_mem_eraseIdx isIn) }
          refine fewer.giveBack scheduled ?_
          rintro rfl
          obtain ⟨pageAddr, high, apart⟩ :=
            careful.2 (s.attached.getD i (0, 0)) (by
              simp [Vm.returned, found])
          obtain ⟨low, -, pageLen⟩ :=
            sound.attached _ (s.returned_detach found rfl)
          exact ⟨low, high, pageAddr, pageLen, apart⟩

/-- What an action hands out, from a region that is tidy. -/
theorem Sound.granted_cases
    (sound : s.Sound)
    (careful : s.Careful action)
    {later : Region}
    (isGranted : s.granted action = some (addr, len, later)) :
    page ∣ addr ∧ base ≤ addr ∧ addr + len ≤ base + size ∧
      (∀ e ∈ later.free, ¬ Overlap (addr, len) e) ∧
      ∀ x, In (addr, len) x →
        (∃ e ∈ s.region.free, In e x) ∨ s.region.next ≤ x := by
  have taken : ∃ len', asked action = some len' ∧ page ∣ len' ∧
      (s.region.take len').1.map
        (fun addr => (addr, len', (s.region.take len').2)) =
          some (addr, len, later) := by
    cases action with
    | request size mapped => exact ⟨_, rfl, page_dvd_roundUp _, isGranted⟩
    | attach size mapped => exact ⟨_, rfl, page_dvd_roundUp _, isGranted⟩
    | unmap addr len scheduled => cases isGranted
    | detach addr scheduled => cases isGranted
  obtain ⟨len', isAsked, paged, found⟩ := taken
  rcases sound.tidy.take_cases (careful.1 _ isAsked) paged with
    same | ⟨addr', later', same, pageAddr, low, high, tidy, -, less, new⟩
  · rw [same] at found
    cases found
  · rw [same] at found
    obtain ⟨rfl, rfl, rfl⟩ := Option.some.inj found
    refine ⟨pageAddr, low, high.trans tidy.next_le, ?_, new⟩
    rintro e isFree ⟨x, left, right⟩
    exact (less e isFree x right).2 left

theorem Sound.lawful
    (sound : s.Sound)
    (careful : s.Careful action) : s.Lawful action := by
  intro addr len later isGranted
  obtain ⟨pageAddr, low, high, apart, new⟩ :=
    sound.granted_cases careful isGranted
  exact ⟨pageAddr, low, high, fun stretch isIn x inside =>
    sound.not_mapped isIn (new x inside), apart⟩

theorem Sound.freeLaw (sound : s.Sound) : FreeLaw s.region :=
  ⟨sound.tidy.disjoint, fun e isFree => (sound.tidy.below e isFree).2⟩

/-- Where whole stretches are given back, what is handed out meets none that is
not wholly unmapped. -/
theorem Intact.lawfulWhole
    (intact : s.Intact)
    (sound : s.Sound)
    (careful : s.Careful action) : s.LawfulWhole action := by
  rintro addr len later isGranted stretch isIn notGone ⟨x, inside, inRange⟩
  obtain ⟨below, notFree⟩ := intact stretch isIn notGone x inRange
  rcases (sound.granted_cases careful isGranted).2.2.2.2 x inside with
    ⟨e, isFree, here⟩ | past
  · exact notFree e isFree here
  · omega

/-- A stretch given back whole leaves the others intact. -/
theorem Intact.giveBack
    (intact : s.Intact)
    (scheduled : Bool)
    (whole : scheduled = true → ∀ stretch ∈ s.out,
      Overlap (addr, len) stretch.range → (stretch.punch (addr, len)).Gone) :
    (s.giveBack addr len scheduled).Intact := by
  intro stretch isIn notGone x inRange
  obtain ⟨before, wasIn, rfl⟩ := List.mem_map.mp isIn
  obtain ⟨below, notFree⟩ :=
    intact before wasIn (fun gone => notGone (gone.punch _)) x inRange
  cases scheduled with
  | false => exact ⟨below, notFree⟩
  | true =>
      refine ⟨below, fun e isFree isHere => ?_⟩
      rcases List.mem_append.mp isFree with isFree | isLast
      · exact notFree e isFree isHere
      · rw [List.mem_singleton.mp isLast] at isHere
        exact notGone (whole rfl before wasIn ⟨x, isHere, inRange⟩)

/-- What is placed leaves the stretches before it intact. -/
theorem Intact.place
    (intact : s.Intact)
    (sound : s.Sound)
    (fits : s.region.next + len < 2 ^ 64)
    (paged : page ∣ len)
    (mapped : Bool) : (s.place len mapped).2.Intact := by
  unfold Vm.place
  rcases sound.tidy.take_cases fits paged with
    same | ⟨addr, later, granted, -, -, high, -, grown, less, new⟩
  · rw [same]
    exact intact
  · rw [granted]
    dsimp only
    have placed : ({ s with
        region := later
        out := s.out ++ [{ addr := addr, len := len }] } : Vm).Intact := by
      intro stretch isIn notGone x inRange
      rcases List.mem_append.mp isIn with before | isLast
      · obtain ⟨below, notFree⟩ := intact stretch before notGone x inRange
        refine ⟨Nat.lt_of_lt_of_le below grown, fun e isFree isHere => ?_⟩
        obtain ⟨⟨e', wasFree, wasHere⟩, -⟩ := less e isFree x isHere
        exact notFree e' wasFree wasHere
      · rw [List.mem_singleton.mp isLast] at inRange
        obtain ⟨left, right⟩ := inRange
        refine ⟨Nat.lt_of_lt_of_le right high, fun e isFree isHere => ?_⟩
        exact (less e isFree x isHere).2 ⟨left, right⟩
    cases mapped with
    | true => exact placed
    | false =>
        refine placed.giveBack true fun _ stretch isIn ⟨x, left, right⟩ => ?_
        rcases List.mem_append.mp isIn with before | isLast
        · -- It was not handed out if an earlier stretch still has it.
          by_contra notGone
          have kept := intact stretch before
            (fun gone => notGone (gone.punch _)) x right
          rcases new x left with ⟨e, isFree, here⟩ | past
          · exact kept.2 e isFree here
          · have := kept.1
            omega
        · rw [List.mem_singleton.mp isLast]
          intro y still
          obtain ⟨mapped, outside⟩ := Stretch.mapped_punch.mp still
          exact outside mapped.1

/-- Careful steps that give back whole stretches keep all of them intact. -/
theorem Intact.exec
    (intact : s.Intact)
    (sound : s.Sound)
    (careful : s.Careful action)
    (whole : s.Whole action) : (s.exec action).Intact := by
  cases action with
  | request size mapped =>
      exact intact.place sound (careful.1 _ rfl) (page_dvd_roundUp _) mapped
  | attach size mapped =>
      have placed := intact.place sound (careful.1 _ rfl)
        (page_dvd_roundUp _) mapped
      unfold Vm.exec
      dsimp only
      generalize s.place (roundUp (max size 1)) mapped = result at *
      obtain ⟨answer, later⟩ := result
      cases answer with
      | none => exact placed
      | some addr => exact placed
  | unmap addr len scheduled =>
      unfold Vm.exec
      dsimp only
      split_ifs with inside
      · refine intact.giveBack scheduled ?_
        rintro rfl
        exact whole (addr, roundUp len) (by simp [Vm.returned, inside])
      · exact intact
  | detach addr scheduled =>
      unfold Vm.exec
      dsimp only
      cases found : s.attached.findIdx? fun e => e.1 = addr with
      | none => exact intact
      | some i =>
          dsimp only
          have fewer : ({ s with
              attached := s.attached.eraseIdx i } : Vm).Intact := intact
          refine fewer.giveBack scheduled ?_
          rintro rfl
          exact whole (s.attached.getD i (0, 0)) (by
            simp [Vm.returned, found])

theorem sound_init : ({} : Vm).Sound where
  tidy :=
    { disjoint := List.Pairwise.nil
      below := by simp
      paged := by simp
      next_page := by decide
      next_ge := le_rfl
      next_le := by decide }
  mapped := by simp
  attached := by simp

theorem Reachable.sound
    (reachable : (system.restrict Careful).Reachable s) : s.Sound := by
  refine reachable.invariant ?_ ?_
  · rintro s rfl
    exact sound_init
  · rintro s action later sound ⟨careful, -, rfl⟩
    exact sound.exec careful

theorem Reachable.intact
    (reachable : (system.restrict fun s action =>
      s.Careful action ∧ s.Whole action).Reachable s) :
    s.Sound ∧ s.Intact := by
  induction reachable with
  | start isInit =>
      obtain rfl := isInit
      exact ⟨sound_init, by intro stretch isIn; cases isIn⟩
  | next _ step inductionHypothesis =>
      obtain ⟨⟨careful, whole⟩, -, rfl⟩ := step
      obtain ⟨sound, intact⟩ := inductionHypothesis
      exact ⟨sound.exec careful, intact.exec sound careful whole⟩

theorem roundUp_lt (v : Nat) : roundUp v < 2 ^ 64 := by
  unfold roundUp
  exact Nat.lt_of_le_of_lt (Nat.div_mul_le_self ..)
    (Nat.mod_lt _ (by decide))

/-- A length that overflows the sum is taken for one there is room for. -/
theorem Sound.take_overflow
    (sound : s.Sound)
    (word : len < 2 ^ 64)
    (overflows : 2 ^ 64 ≤ s.region.next + len) :
    (s.region.take len).1 = some s.region.next := by
  have top := sound.tidy.next_le
  unfold base size at top
  unfold Region.take
  cases found : s.region.free.findIdx? fun e => len ≤ e.2 with
  | some i =>
      obtain ⟨inside, enough, -⟩ := List.findIdx?_eq_some_iff_getElem.mp found
      have enough : len ≤ s.region.free[i].2 := of_decide_eq_true enough
      have := sound.tidy.below _ (List.getElem_mem inside)
      unfold base at this
      omega
  | none =>
      dsimp only
      rw [if_neg]
      unfold base size
      omega

/-- What is not careful breaks the law at once. -/
theorem Sound.not_lawful
    (sound : s.Sound)
    (allowed : s.Allows action)
    (careless : ¬ s.Careful action)
    (paged : ∀ e, s.returned action = some e → page ∣ e.1) :
    ¬ s.Lawful action ∨ ¬ FreeLaw (s.exec action).region := by
  have room : ∀ len, asked action = some len → s.Lawful action →
      s.region.next + len < 2 ^ 64 := by
    intro len isAsked lawful
    by_contra overflows
    have word : len < 2 ^ 64 := by
      cases action with
      | request size mapped => cases isAsked; exact roundUp_lt _
      | attach size mapped => cases isAsked; exact roundUp_lt _
      | unmap addr len scheduled => cases isAsked
      | detach addr scheduled => cases isAsked
    have taken := sound.take_overflow word (Nat.le_of_not_lt overflows)
    have isGranted : s.granted action =
        some (s.region.next, len, (s.region.take len).2) := by
      cases action with
      | request size mapped => cases isAsked; simp [granted, taken]
      | attach size mapped => cases isAsked; simp [granted, taken]
      | unmap addr len scheduled => cases isAsked
      | detach addr scheduled => cases isAsked
    have := (lawful _ _ _ isGranted).2.2.1
    unfold base size at this
    omega
  have region : ∀ e, s.returned action = some e →
      (s.exec action).region = s.region.giveBack e.1 e.2 := by
    intro e isReturned
    cases action with
    | request size mapped => cases isReturned
    | attach size mapped => cases isReturned
    | unmap addr len scheduled =>
        unfold returned at isReturned
        dsimp only at isReturned
        split_ifs at isReturned with both
        obtain ⟨inside, rfl⟩ := (Bool.and_eq_true _ _).mp both
        cases isReturned
        unfold Vm.exec
        dsimp only
        rw [if_pos inside]
        rfl
    | detach addr scheduled =>
        unfold returned at isReturned
        dsimp only at isReturned
        split_ifs at isReturned with isScheduled
        obtain ⟨i, found, rfl⟩ := Option.map_eq_some_iff.mp isReturned
        unfold Vm.exec
        dsimp only
        rw [found, isScheduled]
        rfl
  by_cases lawful : s.Lawful action
  · right
    rintro ⟨disjoint, below⟩
    refine careless ⟨fun len isAsked => room len isAsked lawful, ?_⟩
    intro e isReturned
    rw [region e isReturned] at disjoint below
    have last : e ∈ (s.region.giveBack e.1 e.2).free :=
      List.mem_append_right _ (List.mem_singleton_self e)
    refine ⟨paged e isReturned, below e last, fun e' isFree => ?_⟩
    rw [not_overlap_comm]
    exact (List.pairwise_append.mp disjoint).2.2 e' isFree e
      (List.mem_singleton_self e)
  · exact .inl lawful

/-- In a run whose steps are all careful the free entries are disjoint and below
the unused part, and what is handed out is pages of the region that no stretch
has mapped and no other entry has free; where whole stretches are given back it
meets no earlier stretch that is not wholly unmapped.  A step that is not
careful breaks the law at once. -/
theorem lawful_of_careful (s : Vm) :
    ((system.restrict Careful).Reachable s →
      FreeLaw s.region ∧ ∀ action, s.Allows action → s.Careful action →
        s.Lawful action) ∧
      ((system.restrict fun s action =>
          s.Careful action ∧ s.Whole action).Reachable s →
        ∀ action, s.Allows action → s.Careful action →
          s.LawfulWhole action) ∧
      ((system.restrict Careful).Reachable s →
        ∀ action, s.Allows action → ¬ s.Careful action →
          (∀ e, s.returned action = some e → page ∣ e.1) →
            ¬ s.Lawful action ∨ ¬ FreeLaw (s.exec action).region) := by
  refine ⟨?_, ?_, ?_⟩
  · intro reachable
    have sound := Reachable.sound reachable
    exact ⟨sound.freeLaw, fun action _ careful => sound.lawful careful⟩
  · intro reachable action _ careful
    obtain ⟨sound, intact⟩ := Reachable.intact reachable
    exact intact.lawfulWhole sound careful
  · intro reachable action allowed careless paged
    exact (Reachable.sound reachable).not_lawful allowed careless paged

/-- A page that was mapped and unmapped is handed out again. -/
theorem lawful_of_careful_reuse :
    ∃ s, (system.restrict Careful).Reachable s ∧
      s.granted (.request page true) =
        some (base, page, { next := base + page, free := [] }) ∧
      FreeLaw s.region ∧ s.Lawful (.request page true) := by
  have request : ∀ s : Vm, s.region.next + page < 2 ^ 64 →
      s.Careful (.request page true) := by
    intro s room
    constructor
    · rintro _ ⟨⟩
      exact room
    · rintro _ ⟨⟩
  have isWord : page < 2 ^ 64 := by decide
  have mapped : (system.restrict Careful).Reachable
      (Vm.exec {} (.request page true)) :=
    .next (.start rfl) ⟨request _ (by decide), isWord, rfl⟩
  have unmapped : (system.restrict Careful).Reachable
      (Vm.exec (Vm.exec {} (.request page true)) (.unmap base page true)) := by
    have allowed : Vm.Allows (Vm.exec {} (.request page true))
        (.unmap base page true) := ⟨by decide, isWord⟩
    refine .next mapped ⟨⟨?_, ?_⟩, allowed, rfl⟩
    · rintro _ ⟨⟩
    · rintro _ ⟨⟩
      exact ⟨by decide, by decide, by intro e isFree; cases isFree⟩
  obtain ⟨free, lawful⟩ := (lawful_of_careful _).1 unmapped
  exact ⟨_, unmapped, by decide, free,
    lawful _ isWord (request _ (by decide))⟩

/-- A page unmapped twice is handed out twice. -/
theorem not_lawful_unmappedTwice :
    ¬ ∀ s, system.Reachable s → FreeLaw s.region ∧
      ∀ action, s.Allows action → s.Lawful action := by
  intro all
  have isWord : page < 2 ^ 64 := by decide
  have isAddress : base < 2 ^ 64 := by decide
  have step : ∀ {s : Vm} (action : Action), system.Reachable s →
      s.Allows action → system.Reachable (s.exec action) :=
    fun _ before allowed => .next before ⟨allowed, rfl⟩
  have mapped := step (.request page true) (.start rfl) isWord
  have once := step (.unmap base page true) mapped ⟨isAddress, isWord⟩
  have twice := step (.unmap base page true) once ⟨isAddress, isWord⟩
  have again := step (.request page true) twice isWord
  have lawful := (all _ again).2 (.request page true) isWord base page
    { next := base + page, free := [] } (by decide)
  refine lawful.2.2.2.1 { addr := base, len := page } (by decide) base
    ⟨le_rfl, by decide⟩ ?_
  exact ⟨⟨le_rfl, by decide⟩, by simp⟩

end Vm

end Vmmap

end Derp
